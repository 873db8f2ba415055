/-!
# Tables of letters by case

Letters come in runs: every letter of a run is paired with the letter a fixed distance away. A
`CaseRun` is one run, and `CaseRun.image` looks a letter up in a table of runs.
-/

namespace ItemCatalog.Text

/-- The letters `first`, `first + step`, …, `last`, each paired with the letter `offset` further. -/
structure CaseRun where
  first : Nat
  last : Nat
  step : Nat
  offset : Int

/-- Whether a code point is a letter of the run. -/
def CaseRun.holds (run : CaseRun) (code : Nat) : Bool :=
  run.first ≤ code && code ≤ run.last && (code - run.first) % run.step = 0

/-- The partner of a character in a table of runs, or the character itself. -/
def CaseRun.image (runs : List CaseRun) (c : Char) : Char :=
  match runs.find? (·.holds c.toNat) with
  | some run => Char.ofNat (c.toNat + run.offset).toNat
  | none => c

/-- Whether a character lies in one of the ranges, ends included. -/
def inRanges (ranges : List (Nat × Nat)) (c : Char) : Bool :=
  ranges.any fun (first, last) => first ≤ c.toNat && c.toNat ≤ last

end ItemCatalog.Text
