import Mathlib.Data.List.Induction
import Mathlib.Logic.ExistsUnique
import ItemCatalog.Expression.Label
import ItemCatalog.Proofs.Expression.Grammar

/-!
# Computing with any steps

Steps that were not made from a tree can be malformed: an operator comes before its operands, or values
are left over. As long as no operator lacks operands, the steps read so far are the postfix notation
of a forest, and the stack holds the values of its trees. So the steps alone decide whether computing
with them succeeds and where it fails, and the values do not.

Results:
1. `forest_or_lacking`: what any steps begin with.
2. `foldPostfix_forest_append`: computing with a forest leaves the values of its trees on the stack.
3. `toPostfix_or_malformedAt`: steps are the postfix notation of a tree, or they are malformed at one
   place, where computing fails.
4. `foldPostfix_iff_tree_or_malformedAt`: what computing with any steps gives.
-/

namespace ItemCatalog.Expression

/-! ## Definitions -/

/-- How many values an operator takes. -/
def Operator.arity : Operator → Nat
  | .negate => 1
  | .add | .subtract => 2

section

variable {α : Type}

/-- How many values more there are behind a step: an operand is a new one, and an operator makes one
of those that it takes. -/
def Step.gain : Step α → Int
  | .operand _ => 1
  | .operator op => 1 - op.arity

/-- How many values steps leave when none of their operators lacks operands. -/
def valuesLeft : List (Step α) → Int
  | [] => 0
  | step :: steps => step.gain + valuesLeft steps

/-- At `position` stands an operator that takes more values than the steps in front of it leave. -/
def LacksOperands (steps : List (Step α)) (position : Nat) : Prop :=
  ∃ op : Operator, steps[position]? = some (.operator op) ∧
    valuesLeft (steps.take position) < op.arity

/-- Where steps are malformed: at the first operator that lacks operands; if there is none, behind the
last step, when not just one value is left. -/
inductive MalformedAt (steps : List (Step α)) : Nat → Prop
  | operator {position : Nat} :
      LacksOperands steps position → (∀ i < position, ¬ LacksOperands steps i) →
      MalformedAt steps position
  | values :
      (∀ i, ¬ LacksOperands steps i) → valuesLeft steps ≠ 1 → MalformedAt steps steps.length

end

/-! ## Steps and forests -/

section

variable {α : Type}

/-- An operator whose operands are there joins the last trees of a forest to one. -/
theorem exists_forest_operator {forest : List (Tree α)} {op : Operator}
    (h : op.arity ≤ forest.length) :
    ∃ joined : List (Tree α),
      forest.flatMap Tree.toPostfix ++ [.operator op] = joined.flatMap Tree.toPostfix := by
  obtain rfl | ⟨front, r, rfl⟩ := List.eq_nil_or_concat forest
  · cases op <;> cases h
  · cases op with
    | negate => exact ⟨front ++ [r.negate], by simp [Tree.toPostfix]⟩
    | add =>
      obtain rfl | ⟨front, l, rfl⟩ := List.eq_nil_or_concat front
      · cases h with
        | step h => cases h
      · exact ⟨front ++ [l.add r], by simp [Tree.toPostfix]⟩
    | subtract =>
      obtain rfl | ⟨front, l, rfl⟩ := List.eq_nil_or_concat front
      · cases h with
        | step h => cases h
      · exact ⟨front ++ [l.subtract r], by simp [Tree.toPostfix]⟩

/-- Steps are the postfix notation of a forest, up to the first operator that lacks operands. -/
theorem forest_or_lacking (steps : List (Step α)) :
    (∃ forest : List (Tree α), steps = forest.flatMap Tree.toPostfix) ∨
      ∃ (forest : List (Tree α)) (op : Operator) (rest : List (Step α)),
        steps = forest.flatMap Tree.toPostfix ++ .operator op :: rest ∧
          forest.length < op.arity := by
  induction steps using List.reverseRecOn with
  | nil => exact .inl ⟨[], rfl⟩
  | append_singleton steps step ih =>
    obtain ⟨forest, rfl⟩ | ⟨forest, op, rest, rfl, hlacks⟩ := ih
    · cases step with
      | operand a => exact .inl ⟨forest ++ [.leaf a], by simp [Tree.toPostfix]⟩
      | operator op =>
        rcases Nat.lt_or_ge forest.length op.arity with hlacks | henough
        · exact .inr ⟨forest, op, [], rfl, hlacks⟩
        · exact .inl (exists_forest_operator henough)
    · exact .inr ⟨forest, op, rest ++ [step], by simp, hlacks⟩

/-! ## Counting values -/

theorem valuesLeft_append (left right : List (Step α)) :
    valuesLeft (left ++ right) = valuesLeft left + valuesLeft right := by
  induction left with
  | nil => exact (Int.zero_add _).symm
  | cons step left ih => rw [List.cons_append, valuesLeft, valuesLeft, ih, Int.add_assoc]

theorem valuesLeft_toPostfix (t : Tree α) : valuesLeft t.toPostfix = 1 := by
  induction t with
  | leaf a => rfl
  | negate t ih =>
    rw [Tree.toPostfix, valuesLeft_append, ih]
    rfl
  | add l r ihl ihr | subtract l r ihl ihr =>
    rw [Tree.toPostfix, valuesLeft_append, valuesLeft_append, ihl, ihr]
    rfl

theorem valuesLeft_forest (forest : List (Tree α)) :
    valuesLeft (forest.flatMap Tree.toPostfix) = forest.length := by
  induction forest with
  | nil => rfl
  | cons t forest ih =>
    rw [List.flatMap_cons, valuesLeft_append, valuesLeft_toPostfix, ih, List.length_cons,
      Int.natCast_succ, Int.add_comm]

/-- Only the steps in front of an operator count. -/
theorem lacksOperands_append_iff {steps : List (Step α)} {i : Nat} (h : i < steps.length)
    (rest : List (Step α)) : LacksOperands (steps ++ rest) i ↔ LacksOperands steps i := by
  unfold LacksOperands
  rw [List.getElem?_append_left h, List.take_append_of_le_length h.le]

theorem lacksOperands_length_iff (steps : List (Step α)) (step : Step α) (rest : List (Step α)) :
    LacksOperands (steps ++ step :: rest) steps.length ↔
      ∃ op : Operator, step = .operator op ∧ valuesLeft steps < op.arity := by
  unfold LacksOperands
  simp

theorem LacksOperands.lt_length {steps : List (Step α)} {i : Nat} (h : LacksOperands steps i) :
    i < steps.length := by
  obtain ⟨op, hop, _⟩ := h
  exact (List.getElem?_eq_some_iff.mp hop).1

/-- One step more lacks operands only as an operator that takes more values than there are. -/
theorem not_lacksOperands_concat {steps : List (Step α)} {step : Step α}
    (h : ∀ i, ¬ LacksOperands steps i)
    (hstep : ∀ op : Operator, step = .operator op → op.arity ≤ valuesLeft steps) (i : Nat) :
    ¬ LacksOperands (steps ++ [step]) i := by
  intro hi
  have hlt := hi.lt_length
  rw [List.length_append, List.length_singleton] at hlt
  rcases Nat.lt_succ_iff_lt_or_eq.mp hlt with hlt | rfl
  · exact h i ((lacksOperands_append_iff hlt _).mp hi)
  · obtain ⟨op, hop, hlacks⟩ := (lacksOperands_length_iff steps step []).mp hi
    exact Int.not_lt.mpr (hstep op hop) hlacks

/-- A tree brings the operands of its operators along. The statement is over the steps in front of it
because those of an operand stand in front of the next one. -/
theorem not_lacksOperands_append_toPostfix (t : Tree α) {steps : List (Step α)}
    (hleft : 0 ≤ valuesLeft steps) (h : ∀ i, ¬ LacksOperands steps i) :
    ∀ i, ¬ LacksOperands (steps ++ t.toPostfix) i := by
  induction t generalizing steps with
  | leaf a => exact not_lacksOperands_concat h fun op hop => by cases hop
  | negate t ih =>
    rw [Tree.toPostfix, ← List.append_assoc]
    refine not_lacksOperands_concat (ih hleft h) fun op hop => ?_
    cases hop
    rw [valuesLeft_append, valuesLeft_toPostfix]
    exact Int.le_add_of_nonneg_left hleft
  | add l r ihl ihr | subtract l r ihl ihr =>
    have hl : 0 ≤ valuesLeft (steps ++ l.toPostfix) := by
      rw [valuesLeft_append, valuesLeft_toPostfix]
      exact Int.le_trans hleft (Int.le_add_of_nonneg_right Int.one_nonneg)
    rw [Tree.toPostfix, ← List.append_assoc, ← List.append_assoc]
    refine not_lacksOperands_concat (ihr hl (ihl hleft h)) fun op hop => ?_
    cases hop
    rw [valuesLeft_append, valuesLeft_append, valuesLeft_toPostfix, valuesLeft_toPostfix,
      Int.add_assoc]
    exact Int.le_add_of_nonneg_left hleft

theorem not_lacksOperands_forest (forest : List (Tree α)) :
    ∀ i, ¬ LacksOperands (forest.flatMap Tree.toPostfix) i := by
  induction forest using List.reverseRecOn with
  | nil =>
    rintro i ⟨op, hop, _⟩
    cases hop
  | append_singleton forest t ih =>
    rw [List.flatMap_append, List.flatMap_singleton]
    refine not_lacksOperands_append_toPostfix t ?_ ih
    rw [valuesLeft_forest]
    exact Int.natCast_nonneg _

/-! ## Where steps are malformed -/

theorem MalformedAt.unique {steps : List (Step α)} {i j : Nat} (hi : MalformedAt steps i)
    (hj : MalformedAt steps j) : i = j := by
  cases hi with
  | operator hi hfirst =>
    cases hj with
    | operator hj hfirst' =>
      exact le_antisymm (not_lt.mp fun hlt => hfirst j hlt hj)
        (not_lt.mp fun hlt => hfirst' i hlt hi)
    | values hnone _ => exact absurd hi (hnone i)
  | values hnone _ =>
    cases hj with
    | operator hj _ => exact absurd hj (hnone j)
    | values _ _ => rfl

/-- The postfix notation of one tree is not malformed. -/
theorem not_malformedAt_toPostfix (t : Tree α) (position : Nat) :
    ¬ MalformedAt t.toPostfix position := by
  have hnone := not_lacksOperands_forest [t]
  rw [List.flatMap_singleton] at hnone
  intro h
  cases h with
  | operator hlacks _ => exact hnone position hlacks
  | values _ hleft => exact hleft (valuesLeft_toPostfix t)

end

/-! ## Computing with steps -/

section

variable {α β : Type} (value : α → β) (ops : Arithmetic β)

/-- The steps of a forest leave the values of its trees on the stack, the last one first. -/
theorem foldPostfix_forest_append (forest : List (Tree α)) (rest : List (Step α)) :
    foldPostfix value ops (forest.flatMap Tree.toPostfix ++ rest) =
      foldPostfixFrom value ops (forest.flatMap Tree.toPostfix).length
        (forest.map (·.evaluate value ops)).reverse rest := by
  induction forest using List.reverseRecOn generalizing rest with
  | nil => rfl
  | append_singleton forest t ih =>
    rw [List.flatMap_append, List.flatMap_singleton, List.append_assoc, ih,
      foldPostfixFrom_toPostfix_append, List.length_append, List.map_append, List.reverse_append]
    rfl

theorem applyTo?_eq_none {op : Operator} {stack : List β} (h : stack.length < op.arity) :
    op.applyTo? ops stack = none := by
  cases op with
  | negate =>
    cases stack with
    | nil => rfl
    | cons x stack => exact absurd h (by simp [Operator.arity])
  | add | subtract =>
    match stack, h with
    | [], _ => rfl
    | [x], _ => rfl
    | x :: y :: stack, h => exact absurd h (by simp [Operator.arity])

/-- Computing with any number of trees but one fails at the end. -/
theorem foldPostfix_forest {forest : List (Tree α)} (h : forest.length ≠ 1) :
    foldPostfix value ops (forest.flatMap Tree.toPostfix) =
      .error (forest.flatMap Tree.toPostfix).length := by
  have hfold := foldPostfix_forest_append value ops forest []
  rw [List.append_nil] at hfold
  rw [hfold, foldPostfixFrom]
  intro x hx
  have hlength := congrArg List.length hx
  rw [List.length_reverse, List.length_map] at hlength
  exact h hlength

/-- Computing fails at an operator that lacks operands. -/
theorem foldPostfix_lacking {forest : List (Tree α)} {op : Operator} (h : forest.length < op.arity)
    (rest : List (Step α)) :
    foldPostfix value ops (forest.flatMap Tree.toPostfix ++ .operator op :: rest) =
      .error (forest.flatMap Tree.toPostfix).length := by
  have hnone : op.applyTo? ops (forest.map (·.evaluate value ops)).reverse = none :=
    applyTo?_eq_none ops (by rwa [List.length_reverse, List.length_map])
  rw [foldPostfix_forest_append, foldPostfixFrom, hnone]

end

/-- Steps are the postfix notation of a tree, or they are malformed at one place, and computing with
them fails there whatever the values are. -/
theorem toPostfix_or_malformedAt {α : Type} (steps : List (Step α)) :
    (∃ t : Tree α, steps = t.toPostfix) ∨
      ∃ position, MalformedAt steps position ∧
        ∀ {β : Type} (value : α → β) (ops : Arithmetic β),
          foldPostfix value ops steps = .error position := by
  obtain ⟨forest, rfl⟩ | ⟨forest, op, rest, rfl, hlacks⟩ := forest_or_lacking steps
  · by_cases hone : forest.length = 1
    · obtain ⟨t, rfl⟩ := List.length_eq_one_iff.mp hone
      exact .inl ⟨t, List.flatMap_singleton _ _⟩
    · refine .inr ⟨_, .values (not_lacksOperands_forest forest) ?_,
        fun value ops => foldPostfix_forest value ops hone⟩
      rw [valuesLeft_forest]
      exact_mod_cast hone
  · refine .inr ⟨_, .operator ?_ fun i hi => ?_,
      fun value ops => foldPostfix_lacking value ops hlacks rest⟩
    · refine (lacksOperands_length_iff _ _ rest).mpr ⟨op, rfl, ?_⟩
      rw [valuesLeft_forest]
      exact_mod_cast hlacks
    · rw [lacksOperands_append_iff hi]
      exact not_lacksOperands_forest forest i

section

variable {α β : Type} (value : α → β) (ops : Arithmetic β) (steps : List (Step α))

theorem foldPostfix_eq_error_iff (position : Nat) :
    foldPostfix value ops steps = .error position ↔ MalformedAt steps position := by
  obtain ⟨t, rfl⟩ | ⟨place, hplace, hfails⟩ := toPostfix_or_malformedAt steps
  · rw [foldPostfix_toPostfix]
    exact ⟨nofun, fun h => absurd h (not_malformedAt_toPostfix t position)⟩
  · rw [hfails, Except.error.injEq]
    exact ⟨fun h => h ▸ hplace, fun h => hplace.unique h⟩

theorem exists_foldPostfix_eq_ok_iff :
    (∃ v, foldPostfix value ops steps = .ok v) ↔ ∃! t : Tree α, t.toPostfix = steps := by
  constructor
  · rintro ⟨v, hv⟩
    obtain ⟨t, rfl⟩ | ⟨place, _, hfails⟩ := toPostfix_or_malformedAt steps
    · exact ⟨t, rfl, fun u hu => Tree.toPostfix_injective hu⟩
    · rw [hfails] at hv
      cases hv
  · rintro ⟨t, rfl, _⟩
    exact ⟨_, foldPostfix_toPostfix value ops t⟩

end

/-- Computing with any steps succeeds exactly when they are the postfix notation of one tree, and then
gives the value of that tree; else it fails at the place where they are malformed. So steps that one
way of computing accepts are accepted by every other, and fail at the same place in all of them: the
labels and the scores of expressions agree on that, too. -/
theorem foldPostfix_iff_tree_or_malformedAt :
    (∀ {α β : Type} (value : α → β) (ops : Arithmetic β) (steps : List (Step α)),
      ((∃ v, foldPostfix value ops steps = .ok v) ↔ ∃! t : Tree α, t.toPostfix = steps) ∧
      (∀ t : Tree α, foldPostfix value ops t.toPostfix = .ok (t.evaluate value ops)) ∧
      ∀ position, foldPostfix value ops steps = .error position ↔ MalformedAt steps position) ∧
    (∀ {α β γ : Type} (value : α → β) (ops : Arithmetic β) (value' : α → γ) (ops' : Arithmetic γ)
        (steps : List (Step α)),
      ((∃ v, foldPostfix value ops steps = .ok v) ↔ ∃ v, foldPostfix value' ops' steps = .ok v) ∧
      ∀ position, foldPostfix value ops steps = .error position ↔
        foldPostfix value' ops' steps = .error position) ∧
    ∀ steps : List (Step String),
      ((∃ text, canonicalText steps = .ok text) ↔ ∃ score, Score.ofPostfix steps = .ok score) ∧
      ∀ position, canonicalText steps = .error position ↔
        Score.ofPostfix steps = .error position := by
  have hagree : ∀ {α β γ : Type} (value : α → β) (ops : Arithmetic β) (value' : α → γ)
      (ops' : Arithmetic γ) (steps : List (Step α)),
      ((∃ v, foldPostfix value ops steps = .ok v) ↔ ∃ v, foldPostfix value' ops' steps = .ok v) ∧
      ∀ position, foldPostfix value ops steps = .error position ↔
        foldPostfix value' ops' steps = .error position := by
    intro α β γ value ops value' ops' steps
    refine ⟨?_, fun position => ?_⟩
    · rw [exists_foldPostfix_eq_ok_iff, exists_foldPostfix_eq_ok_iff]
    · rw [foldPostfix_eq_error_iff, foldPostfix_eq_error_iff]
  refine ⟨fun value ops steps => ⟨?_, ?_, ?_⟩, hagree, fun steps => hagree _ _ _ _ steps⟩
  · exact exists_foldPostfix_eq_ok_iff value ops steps
  · exact foldPostfix_toPostfix value ops
  · exact foldPostfix_eq_error_iff value ops steps

end ItemCatalog.Expression
