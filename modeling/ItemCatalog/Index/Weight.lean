import ItemCatalog.Index.Clause
import ItemCatalog.Number.Double

/-!
# Weights of index hits

A name that has a term of the query is weighed by how rare the term is among all names, by how often
the name has it, and by how short the name is. A name that has a similar term gets a flat bonus.
Weights are computed in single precision.
-/

namespace ItemCatalog.Index

/-- What the weights depend on besides the name itself. -/
structure Statistics where
  /-- How many names there are. -/
  names : Nat
  /-- How many terms all names have together. -/
  terms : Nat

/-- How soon further occurrences of a term stop counting. -/
def saturation : Float32 := 1.2

/-- How much the length of a name counts. -/
def lengthShare : Float32 := 0.75

/-- The bonus for a similar term. -/
def similarWeight : Float32 := 0.5

/-- The lengths that are told apart: all up to forty, then eight each in steps of two, four and so
on. -/
def storedLength (length : Nat) : Nat :=
  go 32 40 2 length
where
  /-- Rounds a length down to a multiple of `step` above `base`, or goes on to larger steps. -/
  go (fuel base step length : Nat) : Nat :=
    match fuel with
    | 0 => length
    | fuel + 1 =>
      if length ≤ base then length
      else if length < base + 8 * step then base + (length - base) / step * step
      else go fuel (base + 8 * step) (2 * step) length

/-- How much it says that a name has a term, by the number of names that have it. -/
def rarity (stats : Statistics) (holders : Nat) : Float32 :=
  let x := (Float32.ofNat (stats.names - holders) + 0.5) / (Float32.ofNat holders + 0.5)
  Float32.log (1.0 + x)

/-- The weight of a term that a name of the given length has `count` times. -/
def termWeight (stats : Statistics) (holders count length : Nat) : Float32 :=
  let average := Float32.ofNat stats.terms / Float32.ofNat stats.names
  let norm := saturation *
    (1.0 - lengthShare + lengthShare * Float32.ofNat (storedLength length) / average)
  let frequency := Float32.ofNat count
  rarity stats holders * (1.0 + saturation) * (frequency / (frequency + norm))

/-- The weight of a name for a clause that it meets; `holders` counts the names with the term. -/
def Clause.weight (c : Clause) (stats : Statistics) (holders : Nat) (terms : List String) : Float32 :=
  (if c.hitsExactly terms then termWeight stats holders (terms.count c.term) terms.length else 0.0) +
    (if c.hitsNearly terms then similarWeight else 0.0)

end ItemCatalog.Index
