import ItemCatalog.Listing
import ItemCatalog.Proofs.Expression.Printing
import ItemCatalog.Proofs.Expression.Signs
import ItemCatalog.Proofs.Number.Whole

/-!
# Scores are exact

The stats of a record are whole numbers of 32 bits, and an expression has at most five signs. So it has
at most six operands, and no sum or difference on the way to its value reaches `2⁵³`, from where double
precision would have to round. The mean of a damage range need not be whole and is left out.

Results:
1. `Tree.evaluate_holds`: in double precision a tree has the value that it has over the integers, as
   long as its leaves leave room for it.
2. `SortExpression.compile_scores_exactly`: what this means for the score of a record, for its parts and
   for the text that is shown.
-/

namespace ItemCatalog

open Expression

namespace Expression

/-! ## Trees -/

section Trees

variable {α : Type} {value : α → Double} {whole : α → Int} {bound : Nat}

/-- No operation rounds when the leaves have room for their sum. -/
theorem Tree.evaluate_holds (hbound : ∀ a, (whole a).natAbs ≤ bound) {t : Tree α}
    (hleaves : ∀ a ∈ t.leaves, (value a).Holds (whole a))
    (hroom : t.leaves.length * bound ≤ 2 ^ Double.precision) :
    (t.evaluate value doubleArithmetic).Holds (t.evaluate whole exactArithmetic) := by
  induction t with
  | leaf a => exact hleaves a List.mem_cons_self
  | negate t ih => exact (ih hleaves hroom).neg
  | add l r ihl ihr =>
    have hsize := (natAbs_evaluate_le hbound (add l r)).trans hroom
    rw [leaves, List.length_append, Nat.add_mul] at hroom
    have hl := ihl (fun a ha => hleaves a (List.mem_append_left _ ha)) (by omega)
    have hr := ihr (fun a ha => hleaves a (List.mem_append_right _ ha)) (by omega)
    exact hl.add hr hsize
  | subtract l r ihl ihr =>
    have hsize := (natAbs_evaluate_le hbound (subtract l r)).trans hroom
    rw [leaves, List.length_append, Nat.add_mul] at hroom
    have hl := ihl (fun a ha => hleaves a (List.mem_append_left _ ha)) (by omega)
    have hr := ihr (fun a ha => hleaves a (List.mem_append_right _ ha)) (by omega)
    exact hl.sub hr hsize

end Trees

/-! ## Stats -/

/-- What a record has of a stat, as a whole number. -/
def exactStat (r : Record) (stat : Attribute) : Int :=
  (stat.stat? r).elim 0 Int32.toInt

/-- The score of a record over the integers. -/
def Score.exactValue (score : Score) (r : Record) : Int :=
  score.evaluate (exactStat r) exactArithmetic

theorem natAbs_toInt_le (n : Int32) : n.toInt.natAbs ≤ 2 ^ 31 := by
  have hlow := n.le_toInt
  have hhigh := n.toInt_lt
  omega

theorem natAbs_exactStat_le (r : Record) (stat : Attribute) : (exactStat r stat).natAbs ≤ 2 ^ 31 := by
  rw [exactStat]
  cases stat.stat? r with
  | none => exact Nat.zero_le _
  | some n => exact natAbs_toInt_le n

theorem Attribute.read_holds {stat : Attribute} (h : stat ≠ .damage) (r : Record) :
    (stat.read r).Holds (exactStat r stat) := by
  have hread : stat.read r = (stat.stat? r).elim .zero (Double.ofInt ·.toInt) := by
    cases stat with
    | damage => exact absurd rfl h
    | bonus key | resist key => rfl
  rw [hread, exactStat]
  cases stat.stat? r with
  | none =>
    rw [Option.elim_none, Option.elim_none]
    exact .zero
  | some n =>
    rw [Option.elim_some, Option.elim_some]
    exact .ofInt ((natAbs_toInt_le n).trans (by decide))

/-! ## Scores -/

/-- How large the score of six operands can be. -/
def scoreBound : Nat := 6 * 2 ^ 31

theorem natAbs_exactValue_le {score : Score} (h : score.leaves.length ≤ 6) (r : Record) :
    (score.exactValue r).natAbs ≤ scoreBound :=
  (Tree.natAbs_evaluate_le (natAbs_exactStat_le r) score).trans (Nat.mul_le_mul_right _ h)

theorem Score.ofRecord_holds {score : Score} (h : score.leaves.length ≤ 6)
    (hdamage : .damage ∉ score.leaves) (r : Record) : (score.ofRecord r).Holds (score.exactValue r) := by
  refine Tree.evaluate_holds (natAbs_exactStat_le r) (fun stat hs => ?_) ?_
  · exact Attribute.read_holds (fun heq => hdamage (heq ▸ hs)) r
  · exact (Nat.mul_le_mul_right _ h).trans (by decide)

end Expression

/-- A score that is within six stats of zero is shown as it is. -/
theorem formatScore_of_holds {x : Double} {n : Int} (h : x.Holds n) (hn : n.natAbs ≤ scoreBound) :
    formatScore x = signedWhole n := by
  have hlow : minInt64 ≤ -(scoreBound : Int) := by decide
  have hhigh : (scoreBound : Int) ≤ maxInt64 := by decide
  rw [formatScore, if_pos h.isWhole, h.truncated_eq, min_eq_right (by omega), max_eq_right (by omega)]

namespace SortExpression

/-- The scores of an expression are whole numbers: what its operands come to under their minus signs. -/
structure ScoresExactly (e : SortExpression) (operands : List (String × Nat)) (r : Record) : Prop where
  leaves_eq : e.score.leaves = operands.map fun p => Attribute.ofName p.1
  nodup : (operands.map Prod.fst).Nodup
  length_le : operands.length ≤ 6
  exactValue_eq : e.score.exactValue r =
    (operands.map fun p => signed p.2 (exactStat r (Attribute.ofName p.1))).sum
  /-- Nothing is rounded on the way. -/
  part : ∀ part : Score, part ∈ e.score.subtrees →
    (part.exactValue r).natAbs ≤ scoreBound ∧ (part.ofRecord r).Holds (part.exactValue r)
  /-- Nothing is cut off at the end. -/
  shown : formatScore (e.evaluate r) = signedWhole (e.score.exactValue r)

/-- The score of an expression without the damage is exact for every record. -/
theorem compile_scores_exactly {source : String} {e : SortExpression} (h : compile source = .ok e)
    (hdamage : .damage ∉ e.score.leaves) :
    scoreBound < 2 ^ Double.precision ∧
      ∃ tokens, Token.scan source = .ok tokens ∧ ∀ r, ScoresExactly e (Token.governed tokens) r := by
  obtain ⟨tokens, t, htokens, d, ht, rfl⟩ := exists_derives_of_compile h
  have hgoverned := d.governed_eq
  have hlength : t.leaves.length ≤ 6 :=
    t.length_leaves_le.trans (Nat.succ_le_succ ht.operators_le)
  have hscore : (ofTree t).score.leaves = t.leaves.map Attribute.ofName := t.leaves_map _
  have hpart : ∀ part : Score, part ∈ (ofTree t).score.subtrees →
      part.leaves.length ≤ 6 ∧ .damage ∉ part.leaves := by
    intro part hp
    have hwithin := Tree.leaves_infix_of_mem_subtrees hp
    refine ⟨hwithin.length_le.trans ?_, fun hmem => hdamage (hwithin.subset hmem)⟩
    rwa [hscore, List.length_map]
  refine ⟨by decide, tokens, htokens, fun r => ?_⟩
  obtain ⟨hsize, hwithout⟩ := hpart _ (Tree.self_mem_subtrees _)
  rw [hgoverned]
  exact {
    leaves_eq := by
      rw [hscore, ← t.map_fst_governed 0, List.map_map]
      rfl
    nodup := by
      rw [t.map_fst_governed]
      exact ht.nodup
    length_le := by rwa [← List.length_map Prod.fst, t.map_fst_governed]
    exactValue_eq := by
      rw [t.sum_governed fun name => exactStat r (Attribute.ofName name)]
      exact Tree.evaluate_map _ _ _ _
    part := fun part hp =>
      ⟨natAbs_exactValue_le (hpart part hp).1 r, Score.ofRecord_holds (hpart part hp).1 (hpart part hp).2 r⟩
    shown := formatScore_of_holds (Score.ofRecord_holds hsize hwithout r) (natAbs_exactValue_le hsize r) }

/-- Signs in front of brackets, of names and of other signs. -/
theorem compile_scores_exactly_negated_difference :
    ∃ e, compile "-(Fire - -INT) - +Dex" = .ok e ∧ .damage ∉ e.score.leaves ∧
      ∃ tokens, Token.scan "-(Fire - -INT) - +Dex" = .ok tokens ∧
        Token.governed tokens = [("fire", 1), ("int", 3), ("dex", 1)] ∧
        ∀ r, ScoresExactly e (Token.governed tokens) r := by
  have hscan : Token.scan "-(Fire - -INT) - +Dex" = .ok [.minus, .opening, .operand "fire", .minus,
      .minus, .operand "int", .closing, .minus, .plus, .operand "dex"] := by decide +kernel
  have hcompile : compile "-(Fire - -INT) - +Dex" = .ok (ofTree (.subtract
      (.negate (.subtract (.leaf "fire") (.negate (.leaf "int")))) (.leaf "dex"))) := by
    refine compile_of_postfix ?_
    rw [postfixOfSource, hscan]
    rfl
  have hdamage : .damage ∉ (ofTree (.subtract
      (.negate (.subtract (.leaf "fire") (.negate (.leaf "int")))) (.leaf "dex"))).score.leaves := by
    decide
  obtain ⟨_, tokens, htokens, hexact⟩ := compile_scores_exactly hcompile hdamage
  refine ⟨_, hcompile, hdamage, tokens, htokens, ?_, hexact⟩
  rw [hscan] at htokens
  obtain rfl := Except.ok.inj htokens
  rfl

end SortExpression

end ItemCatalog
