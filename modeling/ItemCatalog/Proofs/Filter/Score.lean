import ItemCatalog.Proofs.Filter.Evaluation
import ItemCatalog.Proofs.Number.Unsigned

/-!
# Scores of filters

What a record scores is made of zero and of the weights of words by sums and maxima. As long as zero
adds nothing to such scores, conditions without a score may be added to a conjunction or left out of
it, and the constructor that leaves filters out changes no score.

Results:
1. `isLawful_double`: zero adds nothing to the scores of double precision.
2. `evaluate_all`, `evaluate_any`: `Filter.all` scores what the plain conjunction scores, and
   `Filter.any` what the plain alternative scores.
3. `evaluate_all_cons_of_unscored`, `evaluate_of_evaluate_all_cons`: a condition without a score is a
   condition and nothing else.
4. `evaluate_any_of_unscored`: so is an alternative without a score.
-/

namespace ItemCatalog

/-- `IsLawful w Valid`: all scores are `Valid`, and zero adds nothing to a valid score. -/
structure Weighing.IsLawful {α : Type} (w : Weighing α) (Valid : α → Prop) : Prop where
  zero : Valid w.zero
  add {x y : α} : Valid x → Valid y → Valid (w.add x y)
  larger {x y : α} : Valid x → Valid y → Valid (w.larger x y)
  occurrence (count total : Nat) : Valid (w.occurrence count total)
  zero_add {x : α} : Valid x → w.add w.zero x = x
  add_zero {x : α} : Valid x → w.add x w.zero = x

/-- Weights of words have no minus sign, so that no score is the negative zero. -/
theorem Weighing.isLawful_double : Weighing.double.IsLawful Double.Unsigned where
  zero := Double.unsigned_zero
  add := .add
  larger := .larger
  occurrence count total := by
    have hhalf : (Double.ofRatio false 1 2).Unsigned := by
      rw [Double.ofRatio]
      exact Double.unsigned_ofUnits _ _
    have hcount := Double.unsigned_ofNat count
    have hshare := hcount.div (Double.unsigned_ofNat total)
    exact hcount.mul (hhalf.fusedMultiplyAdd hshare hhalf)
  zero_add := Double.Unsigned.zero_add
  add_zero := Double.Unsigned.add_zero

namespace Filter

variable {α : Type} {w : Weighing α} {Valid : α → Prop} {r : Record}

/-! ## Valid scores -/

theorem valid_passIf (h : w.IsLawful Valid) {condition : Bool} {x : α}
    (hx : passIf w condition = some x) : Valid x := by
  cases condition with
  | true => exact Option.some.inj hx ▸ h.zero
  | false => cases hx

theorem valid_weighWords (h : w.IsLawful Valid) {nameWords sought : List (List Char)} {score x : α}
    (hscore : Valid score) (hx : weighWords w nameWords score sought = some x) : Valid x := by
  induction sought generalizing score with
  | nil => exact Option.some.inj hx ▸ hscore
  | cons word sought ih =>
    rw [weighWords] at hx
    split at hx
    · cases hx
    · exact ih (h.add hscore (h.occurrence _ _)) hx

theorem valid_wordScore (h : w.IsLawful Valid) {phrases : List String} {name : String} {x : α}
    (hx : wordScore w phrases name = some x) : Valid x := by
  unfold wordScore at hx
  split at hx
  · cases hx
  · exact valid_weighWords h h.zero hx

theorem valid_best (h : w.IsLawful Valid) {x y : Option α} {z : α} (hx : ∀ a, x = some a → Valid a)
    (hy : ∀ b, y = some b → Valid b) (hz : best w x y = some z) : Valid z := by
  cases x with
  | none => exact hy z hz
  | some a =>
    cases y with
    | none => exact hx z hz
    | some b => exact Option.some.inj hz ▸ h.larger (hx a rfl) (hy b rfl)

mutual

/-- All scores are valid. -/
theorem valid_evaluate (h : w.IsLawful Valid) :
    ∀ (f : Filter) {x : α}, evaluate w r f = some x → Valid x
  | .always, _, hx => Option.some.inj hx ▸ h.zero
  | .equal _ _, _, hx | .compare _ _ _, _, hx | .oneOf _ _, _, hx | .pattern _ _, _, hx
  | .everyTagGroup _, _, hx | .not _, _, hx => valid_passIf h hx
  | .words _, _, hx => valid_wordScore h hx
  | .and filters, _, hx => valid_evaluateAll h filters h.zero hx
  | .or filters, _, hx => valid_evaluateAny h filters (fun _ hnone => by cases hnone) hx

theorem valid_evaluateAll (h : w.IsLawful Valid) :
    ∀ (filters : List Filter) {score x : α}, Valid score →
      evaluateAll w r score filters = some x → Valid x
  | [], _, _, hscore, hx => Option.some.inj hx ▸ hscore
  | f :: filters, score, x, hscore, hx => by
    rw [evaluateAll] at hx
    split at hx
    next y hy => exact valid_evaluateAll h filters (h.add hscore (valid_evaluate h f hy)) hx
    next => cases hx

theorem valid_evaluateAny (h : w.IsLawful Valid) :
    ∀ (filters : List Filter) {score : Option α} {x : α}, (∀ y, score = some y → Valid y) →
      evaluateAny w r score filters = some x → Valid x
  | [], _, x, hscore, hx => hscore x hx
  | f :: filters, _, _, hscore, hx =>
    valid_evaluateAny h filters
      (fun _ hbest => valid_best h hscore (fun _ hy => valid_evaluate h f hy) hbest) hx

end

/-! ## Conjunctions and alternatives -/

/-- What lets everything pass may be left out. -/
theorem evaluateAll_filter_isAlways (h : w.IsLawful Valid) (filters : List Filter) {score : α}
    (hscore : Valid score) :
    evaluateAll w r score (filters.filter (!·.isAlways)) = evaluateAll w r score filters := by
  induction filters generalizing score with
  | nil => rfl
  | cons f filters ih =>
    by_cases halways : f.isAlways
    · obtain rfl : f = .always := by
        cases f with
        | always => rfl
        | _ => cases halways
      rw [List.filter_cons_of_neg (by simp [isAlways]), evaluateAll]
      simp only [evaluate]
      rw [h.add_zero hscore, ih hscore]
    · rw [List.filter_cons_of_pos (by simpa using halways), evaluateAll, evaluateAll]
      cases hf : evaluate w r f with
      | none => rfl
      | some x => exact ih (h.add hscore (valid_evaluate h f hf))

/-- The constructor scores what the plain conjunction scores. -/
theorem evaluate_all (h : w.IsLawful Valid) (filters : List Filter) :
    evaluate w r (all filters) = evaluate w r (and filters) := by
  have hkept := evaluateAll_filter_isAlways (r := r) h filters h.zero
  rw [evaluate, ← hkept, all]
  split
  next hnone => rw [hnone, evaluate, evaluateAll]
  next f hone =>
    rw [hone, evaluateAll]
    cases hf : evaluate w r f with
    | none => rfl
    | some x =>
      show some x = evaluateAll w r (w.add w.zero x) []
      rw [evaluateAll, h.zero_add (valid_evaluate h f hf)]
  next => rw [evaluate]

/-- The constructor scores what the plain alternative scores. -/
theorem evaluate_any (filters : List Filter) :
    evaluate w r (any filters) = evaluate w r (or filters) := by
  unfold any
  split
  next f => rw [evaluate, evaluateAny, evaluateAny, best]
  next => rfl

/-! ## Conditions without a score -/

/-- A filter that adds nothing to a score. -/
def Unscored (w : Weighing α) (r : Record) (f : Filter) : Prop :=
  ∀ x, evaluate w r f = some x → x = w.zero

theorem unscored_of_eq_passIf {f : Filter} {condition : Bool}
    (hf : evaluate w r f = passIf w condition) : f.Unscored w r := by
  intro x hx
  rw [hf] at hx
  cases condition with
  | true => exact (Option.some.inj hx).symm
  | false => cases hx

theorem evaluateAll_cons_of_unscored (h : w.IsLawful Valid) {f : Filter} (hf : f.Unscored w r)
    {score : α} (hscore : Valid score) (filters : List Filter) :
    evaluateAll w r score (f :: filters) =
      if (evaluate w r f).isSome then evaluateAll w r score filters else none := by
  rw [evaluateAll]
  cases hx : evaluate w r f with
  | none => rfl
  | some x =>
    obtain rfl := hf x hx
    simp only [h.add_zero hscore, Option.isSome_some, if_true]

theorem eq_of_evaluateAll_unscored (h : w.IsLawful Valid) {filters : List Filter}
    (hfilters : ∀ f ∈ filters, f.Unscored w r) {score x : α} (hscore : Valid score)
    (hx : evaluateAll w r score filters = some x) : x = score := by
  induction filters with
  | nil => exact (Option.some.inj hx).symm
  | cons f filters ih =>
    obtain ⟨hf, hrest⟩ := List.forall_mem_cons.mp hfilters
    rw [evaluateAll_cons_of_unscored h hf hscore] at hx
    split at hx
    · exact ih hrest hx
    · cases hx

/-- Conditions without a score have none together. -/
theorem unscored_all (h : w.IsLawful Valid) {filters : List Filter}
    (hfilters : ∀ f ∈ filters, f.Unscored w r) : (all filters).Unscored w r := by
  intro x hx
  rw [evaluate_all h, evaluate] at hx
  exact eq_of_evaluateAll_unscored h hfilters h.zero hx

/-- A condition without a score in front of others decides whether a record passes, and nothing
else. -/
theorem evaluate_all_cons_of_unscored (h : w.IsLawful Valid) {f : Filter} (hf : f.Unscored w r)
    (filters : List Filter) :
    evaluate w r (all (f :: filters)) =
      if (evaluate w r f).isSome then evaluate w r (all filters) else none := by
  rw [evaluate_all h, evaluate, evaluateAll_cons_of_unscored h hf h.zero, evaluate_all h, evaluate]

/-- Conditions without a score behind another filter leave it its score. -/
theorem evaluate_of_evaluate_all_cons (h : w.IsLawful Valid) {f : Filter} {filters : List Filter}
    (hfilters : ∀ g ∈ filters, g.Unscored w r) {x : α}
    (hx : evaluate w r (all (f :: filters)) = some x) : evaluate w r f = some x := by
  rw [evaluate_all h, evaluate, evaluateAll] at hx
  cases hf : evaluate w r f with
  | none =>
    rw [hf] at hx
    cases hx
  | some y =>
    have hy := valid_evaluate h f hf
    rw [hf] at hx
    simp only [h.zero_add hy] at hx
    rw [eq_of_evaluateAll_unscored h hfilters hy hx]

/-! ## Alternatives without a score -/

theorem evaluateAny_of_unscored {filters : List Filter} (hfilters : ∀ f ∈ filters, f.Unscored w r)
    {score x : α} (hscore : w.larger score w.zero = score)
    (hx : evaluateAny w r (some score) filters = some x) : x = score := by
  induction filters with
  | nil => exact (Option.some.inj hx).symm
  | cons f filters ih =>
    obtain ⟨hf, hrest⟩ := List.forall_mem_cons.mp hfilters
    refine ih hrest ?_
    rw [evaluateAny] at hx
    cases he : evaluate w r f with
    | none => rwa [he] at hx
    | some y =>
      have hlarger : w.larger score y = score := hf y he ▸ hscore
      rwa [he, best, hlarger] at hx

theorem eq_zero_of_best (hlarger : w.larger w.zero w.zero = w.zero) {x y : Option α} {z : α}
    (hx : ∀ a, x = some a → a = w.zero) (hy : ∀ b, y = some b → b = w.zero)
    (hz : best w x y = some z) : z = w.zero := by
  cases x with
  | none => exact hy z hz
  | some a =>
    cases y with
    | none => exact hx z hz
    | some b =>
      obtain rfl := hx a rfl
      obtain rfl := hy b rfl
      exact (Option.some.inj hz).symm.trans hlarger

/-- Of alternatives without a score none has one. -/
theorem eq_zero_of_evaluateAny (hlarger : w.larger w.zero w.zero = w.zero) {filters : List Filter}
    (hfilters : ∀ f ∈ filters, f.Unscored w r) {score : Option α}
    (hscore : ∀ y, score = some y → y = w.zero) {x : α}
    (hx : evaluateAny w r score filters = some x) : x = w.zero := by
  induction filters generalizing score with
  | nil => exact hscore x hx
  | cons f filters ih =>
    obtain ⟨hf, hrest⟩ := List.forall_mem_cons.mp hfilters
    rw [evaluateAny] at hx
    exact ih hrest (fun _ hbest => eq_zero_of_best hlarger hscore hf hbest) hx

/-- Alternatives without a score leave a score that is not below zero as it is, and score zero where
they are all that a record passes. -/
theorem evaluate_any_of_unscored (hlarger : w.larger w.zero w.zero = w.zero) {f : Filter}
    {filters : List Filter} (hfilters : ∀ g ∈ filters, g.Unscored w r) {x : α}
    (hx : evaluate w r (any (f :: filters)) = some x) :
    (∀ y, evaluate w r f = some y → w.larger y w.zero = y → x = y) ∧
      (evaluate w r f = none → x = w.zero) := by
  rw [evaluate_any, evaluate, evaluateAny, best] at hx
  constructor
  · intro y hy hscore
    rw [hy] at hx
    exact evaluateAny_of_unscored hfilters hscore hx
  · intro hnone
    rw [hnone] at hx
    exact eq_zero_of_evaluateAny hlarger hfilters (fun _ hscore => by cases hscore) hx

end Filter

end ItemCatalog
