import ItemCatalog.Proofs.Expression.Scanning

/-!
# Faults in the text of a sort expression

A scan reads a text from left to right, and a name takes several characters at once. Here the faults of a
text are described without a scan: a place is given by what stands before it, and whether there is a
fault at a place is told from the text alone. `Reads` says what a scan knows at a place, and every
step of it keeps this.

Results:
1. `FaultAt.unique`: at most one thing is wrong at a place.
2. `isClean_iff`: the texts in which nothing is wrong.
3. `Reads.step`, `Reads.run`: what a scan knows behind the next character and behind the rest of a name.
4. `Reads.verdict`: a scan fails with the fault that stands farthest to the left, and it succeeds when
   there is none.
-/

namespace ItemCatalog.Expression.Token

/-! ## Definitions -/

/-- A character that is a sign. -/
def isSignCharacter (c : Char) : Bool :=
  c = '+' || c = '-'

/-- A character that may stand in an expression in small letters. -/
def isAllowed (c : Char) : Bool :=
  continuesName c || isSignCharacter c || c = '(' || c = ')'

/-- The text ends with a character that names start with and nothing but what names go on with behind
it. -/
def InName (text : List Char) : Prop :=
  ∃ front c middle, text = front ++ c :: middle ∧ startsName c ∧ ∀ d ∈ middle, continuesName d

/-- A name starts with `c`, and `c` does not go on with one that starts in `before`: here begins a run
that reaches as far to the left as it can. -/
def BeginsName (before : List Char) (c : Char) : Prop :=
  startsName c ∧ ¬ InName before

/-- The name that starts with `c`: the run takes all that it can go on with, and its spaces are made
single. -/
def nameAt (c : Char) (rest : List Char) : String :=
  nameOf (c :: rest.takeWhile continuesName)

/-- The name `name` begins in the text right behind `before`. -/
def Named (text before : List Char) (name : String) : Prop :=
  ∃ c rest, text = before ++ c :: rest ∧ BeginsName before c ∧ nameAt c rest = name

/-- What is wrong in the text right behind `before`: the character is none of those allowed, it is a
sign and as many as there may be stand before it, or a name begins there that has begun before. -/
inductive FaultAt (text before : List Char) : ExpressionError → Prop
  | invalidCharacter {c : Char} {rest : List Char} :
      text = before ++ c :: rest → isAllowed c = false → FaultAt text before (.invalidCharacter c)
  | tooManyOperators {c : Char} {rest : List Char} :
      text = before ++ c :: rest → isSignCharacter c →
      maxOperators ≤ before.countP isSignCharacter → FaultAt text before .tooManyOperators
  | duplicateOperand {front : List Char} {name : String} :
      Named text front name → Named text before name → front.length < before.length →
      FaultAt text before (.duplicateOperand name)

/-- The fault that has no other to its left. -/
def LeftmostFault (text : List Char) (e : ExpressionError) : Prop :=
  ∃ before, FaultAt text before e ∧
    ∀ front e', FaultAt text front e' → before.length ≤ front.length

/-- All characters are allowed, there are at most five signs, and names that begin at different places
are different. -/
structure IsClean (text : List Char) : Prop where
  allowed : ∀ c ∈ text, isAllowed c
  signs_le : text.countP isSignCharacter ≤ maxOperators
  distinct : ∀ before front name, Named text before name → Named text front name → before = front

/-- What a scan knows of the text when it has read `before` and has found nothing wrong there. -/
structure Reads (text before : List Char) (operators : Nat) (seen : List String)
    (rest : List Char) : Prop where
  text_eq : text = before ++ rest
  operators_eq : operators = before.countP isSignCharacter
  mem_seen : ∀ name, name ∈ seen ↔ ∃ front, front.length < before.length ∧ Named text front name
  no_fault : ∀ front e, FaultAt text front e → before.length ≤ front.length

/-- A name that has begun in `before` does not go on behind it. -/
def NameEnds (before rest : List Char) : Prop :=
  InName before → ∀ c, rest.head? = some c → continuesName c = false

/-- What the outcome of a scan says about the faults of the text. -/
def Verdict (text : List Char) : Except ExpressionError (List Token) → Prop
  | .error e => LeftmostFault text e
  | .ok _ => ∀ before e, ¬ FaultAt text before e

/-! ## Characters -/

theorem continuesName_of_startsName {c : Char} (h : startsName c) : continuesName c := by
  simp [continuesName, h]

theorem isAllowed_of_continuesName {c : Char} (h : continuesName c) : isAllowed c := by
  simp [isAllowed, h]

theorem isAllowed_of_isSignCharacter {c : Char} (h : isSignCharacter c) : isAllowed c := by
  simp [isAllowed, h]

/-- Names hold no signs. -/
theorem isSignCharacter_of_continuesName {c : Char} (h : continuesName c) :
    isSignCharacter c = false := by
  have hne : ∀ d, continuesName d = false → c ≠ d := by
    rintro d hd rfl
    rw [h] at hd
    cases hd
  simp [isSignCharacter, hne '+' (by decide), hne '-' (by decide)]

theorem startsName_of_isSignCharacter {c : Char} (h : isSignCharacter c) : startsName c = false := by
  by_contra hc
  rw [isSignCharacter_of_continuesName (continuesName_of_startsName (by simpa using hc))] at h
  cases h

/-! ## Where names begin -/

theorem not_inName_nil : ¬ InName [] := by
  rintro ⟨front, c, middle, h, -, -⟩
  simp at h

theorem inName_concat_iff {text : List Char} {c : Char} :
    InName (text ++ [c]) ↔ startsName c ∨ (continuesName c ∧ InName text) := by
  constructor
  · rintro ⟨front, d, middle, h, hd, hmiddle⟩
    rcases List.eq_nil_or_concat middle with rfl | ⟨middle, last, rfl⟩
    · obtain ⟨-, hcd⟩ := List.append_inj' h rfl
      rw [List.singleton_inj.mp hcd]
      exact .inl hd
    · rw [List.concat_eq_append] at h hmiddle
      rw [← List.cons_append, ← List.append_assoc] at h
      obtain ⟨rfl, hlast⟩ := List.append_inj' h rfl
      rw [List.singleton_inj.mp hlast]
      have hm := List.forall_mem_append.mp hmiddle
      exact .inr ⟨hm.2 last List.mem_cons_self, front, d, middle, rfl, hd, hm.1⟩
  · rintro (hc | ⟨hc, front, d, middle, rfl, hd, hmiddle⟩)
    · exact ⟨text, c, [], rfl, hc, by simp⟩
    · refine ⟨front, d, middle ++ [c], by simp, hd, ?_⟩
      exact List.forall_mem_append.mpr ⟨hmiddle, by simpa using hc⟩

/-- A text is cut at one place only. -/
theorem cut_unique {text before front : List Char} {c d : Char} {rest back : List Char}
    (h : text = before ++ c :: rest) (h' : text = front ++ d :: back)
    (hlen : front.length = before.length) : front = before ∧ d = c ∧ back = rest := by
  obtain ⟨hfront, htail⟩ := List.append_inj (h'.symm.trans h) hlen
  exact ⟨hfront, List.cons.inj htail⟩

theorem named_iff {text before : List Char} {c : Char} {rest : List Char} {name : String}
    (h : text = before ++ c :: rest) :
    Named text before name ↔ BeginsName before c ∧ nameAt c rest = name := by
  constructor
  · rintro ⟨d, back, h', hd, hname⟩
    obtain ⟨-, rfl, rfl⟩ := cut_unique h h' rfl
    exact ⟨hd, hname⟩
  · rintro ⟨hc, hname⟩
    exact ⟨c, rest, h, hc, hname⟩

/-! ## Faults -/

section Place

variable {text before : List Char} {c : Char} {rest : List Char} {e : ExpressionError}
  (ht : text = before ++ c :: rest)

include ht

/-- What can be wrong where `c` stands. -/
theorem FaultAt.cases_at (h : FaultAt text before e) :
    (isAllowed c = false ∧ e = .invalidCharacter c) ∨
    (isSignCharacter c ∧ maxOperators ≤ before.countP isSignCharacter ∧ e = .tooManyOperators) ∨
    (BeginsName before c ∧ (∃ front, front.length < before.length ∧ Named text front (nameAt c rest)) ∧
      e = .duplicateOperand (nameAt c rest)) := by
  cases h with
  | invalidCharacter ht' hc =>
    obtain ⟨-, rfl, -⟩ := cut_unique ht ht' rfl
    exact .inl ⟨hc, rfl⟩
  | tooManyOperators ht' hs hmany =>
    obtain ⟨-, rfl, -⟩ := cut_unique ht ht' rfl
    exact .inr (.inl ⟨hs, hmany, rfl⟩)
  | duplicateOperand hfront hn hlen =>
    obtain ⟨hb, rfl⟩ := (named_iff ht).mp hn
    exact .inr (.inr ⟨hb, ⟨_, hlen, hfront⟩, rfl⟩)

/-- Nothing is wrong with an allowed character that is no needless sign and begins no name again. -/
theorem not_faultAt (hallowed : isAllowed c)
    (hsign : isSignCharacter c → before.countP isSignCharacter < maxOperators)
    (hname : BeginsName before c →
      ¬ ∃ front, front.length < before.length ∧ Named text front (nameAt c rest)) :
    ¬ FaultAt text before e := by
  intro h
  rcases h.cases_at ht with ⟨hc, -⟩ | ⟨hs, hmany, -⟩ | ⟨hb, hfront, -⟩
  · rw [hallowed] at hc
    cases hc
  · exact Nat.not_lt_of_le hmany (hsign hs)
  · exact hname hb hfront

/-- The character alone tells which fault it can be. -/
theorem FaultAt.error_eq (h : FaultAt text before e) :
    e = if isAllowed c then
        if isSignCharacter c then .tooManyOperators else .duplicateOperand (nameAt c rest)
      else .invalidCharacter c := by
  rcases h.cases_at ht with ⟨hc, rfl⟩ | ⟨hs, -, rfl⟩ | ⟨⟨hstart, -⟩, -, rfl⟩
  · rw [if_neg (by simp [hc])]
  · rw [if_pos (isAllowed_of_isSignCharacter hs), if_pos hs]
  · have hcont := continuesName_of_startsName hstart
    rw [if_pos (isAllowed_of_continuesName hcont),
      if_neg (by simp [isSignCharacter_of_continuesName hcont])]

end Place

/-- There is a character where a fault is. -/
theorem FaultAt.exists_cut {text before : List Char} {e : ExpressionError}
    (h : FaultAt text before e) : ∃ c rest, text = before ++ c :: rest := by
  cases h with
  | invalidCharacter ht _ => exact ⟨_, _, ht⟩
  | tooManyOperators ht _ _ => exact ⟨_, _, ht⟩
  | duplicateOperand _ hn _ =>
    obtain ⟨c, rest, ht, -⟩ := hn
    exact ⟨c, rest, ht⟩

/-- At most one thing is wrong at a place. -/
theorem FaultAt.unique {text before : List Char} {e e' : ExpressionError}
    (h : FaultAt text before e) (h' : FaultAt text before e') : e = e' := by
  obtain ⟨c, rest, ht⟩ := h.exists_cut
  rw [h.error_eq ht, h'.error_eq ht]

/-- Places at the same distance from the beginning are the same. -/
theorem FaultAt.place_unique {text before front : List Char} {e e' : ExpressionError}
    (h : FaultAt text before e) (h' : FaultAt text front e') (hlen : front.length = before.length) :
    front = before := by
  obtain ⟨c, rest, ht⟩ := h.exists_cut
  obtain ⟨d, back, ht'⟩ := h'.exists_cut
  exact (cut_unique ht ht' hlen).1

theorem LeftmostFault.unique {text : List Char} {e e' : ExpressionError}
    (h : LeftmostFault text e) (h' : LeftmostFault text e') : e = e' := by
  obtain ⟨before, hf, hleft⟩ := h
  obtain ⟨front, hf', hleft'⟩ := h'
  have hlen := Nat.le_antisymm (hleft' before e hf) (hleft front e' hf')
  obtain rfl := hf.place_unique hf' hlen
  exact hf.unique hf'

/-- When a list holds more than `n` of some elements, then `n` of them stand before one of them. -/
theorem exists_cut_of_lt_countP {α : Type} {p : α → Bool} {n : Nat} {l : List α}
    (h : n < l.countP p) : ∃ before a rest, l = before ++ a :: rest ∧ p a ∧ n ≤ before.countP p := by
  induction l using List.reverseRecOn with
  | nil => simp at h
  | append_singleton l a ih =>
    by_cases hn : n < l.countP p
    · obtain ⟨before, b, rest, rfl, hb, hmany⟩ := ih hn
      exact ⟨before, b, rest ++ [a], by simp, hb, hmany⟩
    · rw [List.countP_append, List.countP_singleton] at h
      have ha : p a := by
        by_contra ha
        rw [if_neg ha] at h
        exact hn h
      rw [if_pos ha] at h
      exact ⟨l, a, [], rfl, ha, Nat.le_of_lt_succ h⟩

/-- A text is clean when nothing is wrong anywhere in it. -/
theorem isClean_iff {text : List Char} :
    IsClean text ↔ ∀ before e, ¬ FaultAt text before e := by
  constructor
  · intro h before e hf
    cases hf with
    | invalidCharacter ht hc =>
      rw [h.allowed _ (by rw [ht]; simp)] at hc
      cases hc
    | tooManyOperators ht hs hmany =>
      have hle := h.signs_le
      rw [ht, List.countP_append, List.countP_cons_of_pos hs] at hle
      omega
    | duplicateOperand hfront hn hlen =>
      rw [h.distinct _ _ _ hn hfront] at hlen
      exact Nat.lt_irrefl _ hlen
  · intro h
    refine ⟨fun c hc => ?_, ?_, fun before front name hn hn' => ?_⟩
    · obtain ⟨before, rest, ht⟩ := List.append_of_mem hc
      by_contra hallowed
      exact h before _ (.invalidCharacter ht (Bool.eq_false_iff.mpr hallowed))
    · by_contra hmany
      obtain ⟨before, c, rest, ht, hs, hle⟩ := exists_cut_of_lt_countP (Nat.lt_of_not_le hmany)
      exact h before _ (.tooManyOperators ht hs hle)
    · have ⟨c, rest, ht, _⟩ := hn
      have ⟨d, back, ht', _⟩ := hn'
      rcases Nat.lt_trichotomy front.length before.length with hlt | heq | hlt
      · exact absurd (.duplicateOperand hn' hn hlt) (h before _)
      · exact (cut_unique ht ht' heq).1.symm
      · exact absurd (.duplicateOperand hn hn' hlt) (h front _)

/-! ## What a scan knows -/

namespace Reads

theorem start (text : List Char) : Reads text [] 0 [] text where
  text_eq := rfl
  operators_eq := rfl
  mem_seen name := by simp
  no_fault _ _ _ := Nat.zero_le _

variable {text before : List Char} {operators : Nat} {seen : List String} {c : Char}
  {rest : List Char}

/-- The names that begin up to the next character. -/
theorem named_succ_iff (h : Reads text before operators seen (c :: rest)) {name : String} :
    (∃ front, front.length < before.length + 1 ∧ Named text front name) ↔
      name ∈ seen ∨ (BeginsName before c ∧ nameAt c rest = name) := by
  rw [h.mem_seen]
  constructor
  · rintro ⟨front, hlen, hn⟩
    rcases Nat.lt_or_eq_of_le (Nat.le_of_lt_succ hlen) with hlt | heq
    · exact .inl ⟨front, hlt, hn⟩
    · obtain ⟨d, back, ht, hd⟩ := hn
      obtain ⟨rfl, rfl, rfl⟩ := cut_unique h.text_eq ht heq
      exact .inr hd
  · rintro (⟨front, hlt, hn⟩ | hn)
    · exact ⟨front, Nat.lt_succ_of_lt hlt, hn⟩
    · exact ⟨before, Nat.lt_succ_self _, (named_iff h.text_eq).mpr hn⟩

/-- A scan goes on behind a character with which nothing is wrong. The name that begins with it, if one
does, is among those seen from there on. -/
theorem step (h : Reads text before operators seen (c :: rest))
    (hok : ∀ e, ¬ FaultAt text before e) {seen' : List String}
    (hseen : ∀ name, name ∈ seen' ↔ name ∈ seen ∨ (BeginsName before c ∧ nameAt c rest = name)) :
    Reads text (before ++ [c]) (operators + if isSignCharacter c then 1 else 0) seen' rest where
  text_eq := by rw [h.text_eq, List.append_assoc, List.singleton_append]
  operators_eq := by rw [h.operators_eq, List.countP_append, List.countP_singleton]
  mem_seen name := by
    rw [List.length_append, List.length_singleton, h.named_succ_iff, hseen]
  no_fault front e hf := by
    rw [List.length_append, List.length_singleton]
    refine Nat.lt_of_le_of_ne (h.no_fault front e hf) fun hlen => ?_
    obtain ⟨d, back, ht⟩ := hf.exists_cut
    obtain ⟨rfl, -, -⟩ := cut_unique h.text_eq ht hlen.symm
    exact hok e hf

/-- Where no name begins, the names seen stay the same. -/
theorem skip (h : Reads text before operators seen (c :: rest)) (hc : ¬ BeginsName before c)
    (hallowed : isAllowed c) (hsign : isSignCharacter c → operators < maxOperators) :
    Reads text (before ++ [c]) (operators + if isSignCharacter c then 1 else 0) seen rest :=
  h.step (fun _ => not_faultAt h.text_eq hallowed (fun hs => h.operators_eq ▸ hsign hs)
    fun hb => absurd hb hc) fun name => by simp [hc]

/-- Spaces and brackets change nothing. -/
theorem skipPlain (h : Reads text before operators seen (c :: rest)) (hc : startsName c = false)
    (hallowed : isAllowed c) (hnosign : isSignCharacter c = false) :
    Reads text (before ++ [c]) operators seen rest := by
  have hnext := h.skip (fun hb => absurd hb.1 (by simp [hc])) hallowed (by simp [hnosign])
  rwa [if_neg (by simp [hnosign])] at hnext

/-- In the rest of a name nothing is wrong. -/
theorem run {characters : List Char} (h : Reads text before operators seen (characters ++ rest))
    (hin : InName before) (hrun : ∀ d ∈ characters, continuesName d) :
    Reads text (before ++ characters) operators seen rest := by
  induction characters generalizing before with
  | nil => simpa using h
  | cons d characters ih =>
    obtain ⟨hd, hrun⟩ := List.forall_mem_cons.mp hrun
    have hnosign := isSignCharacter_of_continuesName hd
    have hnext := h.skip (fun hb => hb.2 hin) (isAllowed_of_continuesName hd) (by simp [hnosign])
    rw [if_neg (by simp [hnosign])] at hnext
    have hdone := ih hnext (inName_concat_iff.mpr (.inr ⟨hd, hin⟩)) hrun
    rwa [List.append_assoc, List.singleton_append] at hdone

/-- A name that has not been seen is taken as a whole. -/
theorem takeName (h : Reads text before operators seen (c :: rest)) (hc : BeginsName before c)
    (hnew : nameAt c rest ∉ seen) :
    Reads text (before ++ c :: rest.takeWhile continuesName) operators (nameAt c rest :: seen)
      (rest.dropWhile continuesName) := by
  have hcont := continuesName_of_startsName hc.1
  have hnosign := isSignCharacter_of_continuesName hcont
  have hok : ∀ e, ¬ FaultAt text before e := fun e =>
    not_faultAt h.text_eq (isAllowed_of_continuesName hcont) (by simp [hnosign])
      fun _ hfront => hnew ((h.mem_seen _).mpr hfront)
  have hseen : ∀ name, name ∈ nameAt c rest :: seen ↔
      name ∈ seen ∨ (BeginsName before c ∧ nameAt c rest = name) := fun name => by
    simp only [List.mem_cons, hc, true_and, eq_comm (a := name)]
    exact or_comm
  have hfirst := h.step hok hseen
  rw [if_neg (by simp [hnosign])] at hfirst
  have hsplit : Reads text (before ++ [c]) operators (nameAt c rest :: seen)
      (rest.takeWhile continuesName ++ rest.dropWhile continuesName) := by
    rwa [List.takeWhile_append_dropWhile]
  have hrun := hsplit.run (inName_concat_iff.mpr (.inl hc.1)) fun d hd => List.mem_takeWhile_imp hd
  rwa [List.append_assoc, List.singleton_append] at hrun

end Reads

/-! ## The outcome of a scan -/

theorem NameEnds.beginsName {before rest : List Char} {c : Char} (h : NameEnds before (c :: rest))
    (hc : startsName c) : BeginsName before c := by
  refine ⟨hc, fun hin => ?_⟩
  have hcont := h hin c rfl
  rw [continuesName_of_startsName hc] at hcont
  cases hcont

/-- Behind a character that starts no name no name goes on. -/
theorem NameEnds.skip {before rest : List Char} {c : Char} (h : NameEnds before (c :: rest))
    (hc : startsName c = false) (more : List Char) : NameEnds (before ++ [c]) more := by
  intro hin
  rcases inName_concat_iff.mp hin with hstart | ⟨hcont, hin⟩
  · rw [hstart] at hc
    cases hc
  · rw [h hin c rfl] at hcont
    cases hcont

/-- A token in front of what is read makes no difference. -/
theorem Verdict.bind {text : List Char} {outcome : Except ExpressionError (List Token)}
    (h : Verdict text outcome) (f : List Token → List Token) :
    Verdict text (do return f (← outcome)) := by
  cases outcome with
  | error e => exact h
  | ok tokens => exact h

/-- A scan finds the fault that stands farthest to the left. -/
theorem Reads.verdict {text before : List Char} {operators : Nat} {seen : List String}
    {rest : List Char} (h : Reads text before operators seen rest) (hends : NameEnds before rest) :
    Verdict text (scanFrom operators seen rest) := by
  fun_induction scanFrom operators seen rest generalizing before with
  | case1 =>
    -- Nothing stands behind what is read.
    intro front e hf
    obtain ⟨c, back, ht⟩ := hf.exists_cut
    have hlen := h.no_fault front e hf
    have hlong : front.length < before.length := by
      rw [← List.append_nil before, ← h.text_eq, ht, List.length_append, List.length_cons]
      exact Nat.lt_add_of_pos_right (Nat.succ_pos _)
    exact absurd hlen (Nat.not_le_of_lt hlong)
  | case2 operators seen rest ih =>
    exact ih (h.skipPlain (by decide) (by decide) (by decide)) (hends.skip (by decide) rest)
  | case3 operators seen c rest _ hsign hmany =>
    exact ⟨before, .tooManyOperators h.text_eq hsign (h.operators_eq ▸ hmany), h.no_fault⟩
  | case4 operators seen c rest _ hsign hfew ih =>
    have hsign : isSignCharacter c := hsign
    have hstart := startsName_of_isSignCharacter hsign
    have hnext := h.skip (fun hb => absurd hb.1 (by simp [hstart]))
      (isAllowed_of_isSignCharacter hsign) fun _ => Nat.lt_of_not_le hfew
    rw [if_pos hsign] at hnext
    exact (ih hnext (hends.skip hstart rest)).bind _
  | case5 operators seen rest _ _ ih =>
    have hnext := h.skipPlain (by decide) (by decide) (by decide)
    exact (ih hnext (hends.skip (by decide) rest)).bind _
  | case6 operators seen rest _ _ _ ih =>
    have hnext := h.skipPlain (by decide) (by decide) (by decide)
    exact (ih hnext (hends.skip (by decide) rest)).bind _
  | case7 operators seen c rest _ _ _ _ hc name =>
    rename_i hseen
    have hb := hends.beginsName hc
    obtain ⟨front, hlen, hfront⟩ := (h.mem_seen name).mp (by simpa using hseen)
    have hn : Named text before name := (named_iff h.text_eq).mpr ⟨hb, rfl⟩
    exact ⟨before, .duplicateOperand hfront hn hlen, h.no_fault⟩
  | case8 operators seen c rest _ _ _ _ hc name hseen =>
    rename_i ih
    have hnew : name ∉ seen := by simpa using hseen
    have hnext := h.takeName (hends.beginsName hc) hnew
    -- The name has taken all that continues it.
    have hdone : NameEnds (before ++ c :: rest.takeWhile continuesName)
        (rest.dropWhile continuesName) := fun _ d hd => by
      have hnot := List.head?_dropWhile_not continuesName rest
      rwa [hd] at hnot
    exact (ih hnext hdone).bind _
  | case9 operators seen c rest hspace hsign hopen hclose hstart =>
    have hallowed : isAllowed c = false := by
      have hsign : isSignCharacter c = false := Bool.eq_false_iff.mpr hsign
      simp [isAllowed, continuesName, hstart, hsign, hspace, hopen, hclose]
    exact ⟨before, .invalidCharacter h.text_eq hallowed, h.no_fault⟩

end ItemCatalog.Expression.Token
