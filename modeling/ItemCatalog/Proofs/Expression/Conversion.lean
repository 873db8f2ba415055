import ItemCatalog.Proofs.Expression.Grammar

/-!
# The conversion accepts the grammar

Between two tokens, the tokens read so far are the beginning of sums whose brackets are open. `Awaits`
says which beginnings leave which stack and output; it is the grammar read from the left, with one
rule for each thing that can wait on the stack. A phrase that is complete is carried outwards by
`Awaits.absorb`: taking the operators off the stack writes the postfix notation of the sum around it.

Results:
1. `Conversion.reads_of_derives`: what the grammar derives is read, and its tree is written.
2. `Conversion.Reached.run`: whatever is read is the beginning of a sum, in a state that belongs to
   it.
3. `postfixOfTokens_accepts_grammar`: the conversion accepts what the grammar derives and the lists of
   plus signs, and nothing else.
-/

namespace ItemCatalog.Expression

namespace Conversion

/-! ## Taking operators off the stack -/

/-- Takes all operators off the stack down to the nearest open bracket. -/
def unwind (output : List (Step String)) : List Pending → List (Step String) × List Pending
  | .operator op :: rest => unwind (output ++ [.operator op]) rest
  | pending => (output, pending)

@[simp] theorem unwind_operator (output : List (Step String)) (op : Operator)
    (rest : List Pending) :
    unwind output (.operator op :: rest) = unwind (output ++ [.operator op]) rest := rfl

@[simp] theorem unwind_opening (output : List (Step String)) (rest : List Pending) :
    unwind output (.opening :: rest) = (output, .opening :: rest) := rfl

@[simp] theorem unwind_nil (output : List (Step String)) : unwind output [] = (output, []) := rfl

/-- An operator between operands holds them less tightly than any operator that waits. -/
theorem popTighter_eq_unwind {op : Operator} (h : op ≠ .negate) (output : List (Step String))
    (pending : List Pending) : popTighter op output pending = unwind output pending := by
  have hle : ∀ top : Operator, op.precedence ≤ top.precedence := by
    intro top
    cases op <;> cases top <;> first | exact absurd rfl h | decide
  induction pending generalizing output with
  | nil => rfl
  | cons p rest ih =>
    cases p with
    | opening => rfl
    | operator top => rw [popTighter, if_pos (hle top), ih, unwind_operator]

theorem closeGroup_eq_ok_iff {output output' : List (Step String)} {pending rest : List Pending} :
    closeGroup output pending = .ok (output', rest) ↔
      unwind output pending = (output', .opening :: rest) := by
  induction pending generalizing output with
  | nil => simp [closeGroup]
  | cons p pending ih =>
    cases p with
    | opening => simp [closeGroup]
    | operator op => rw [closeGroup, unwind_operator, ih]

theorem drain_eq_ok_iff {output output' : List (Step String)} {pending : List Pending} :
    drain output pending = .ok output' ↔ unwind output pending = (output', []) := by
  induction pending generalizing output with
  | nil => simp [drain]
  | cons p pending ih =>
    cases p with
    | opening => simp [drain]
    | operator op => rw [drain, unwind_operator, ih]

/-! ## What the grammar derives is read -/

/-- No operator waits behind the nearest open bracket. -/
def AtGroup (pending : List Pending) : Prop :=
  ∀ output, unwind output pending = (output, pending)

theorem atGroup_nil : AtGroup [] := fun _ => rfl

theorem atGroup_opening (rest : List Pending) : AtGroup (.opening :: rest) := fun _ => rfl

theorem pushBinary_eq (s : Conversion) {op : Operator} (h : op ≠ .negate) :
    s.pushBinary op =
      ⟨(unwind s.output s.pending).1, .operator op :: (unwind s.output s.pending).2, .operator⟩ := by
  rw [pushBinary, popTighter_eq_unwind h]

theorem step_opening {s : Conversion} (h : s.beforeOperand = true) :
    s.step .opening = .ok ⟨s.output, .opening :: s.pending, .opening⟩ := by
  cases hl : s.last <;> simp [beforeOperand, hl] at h <;> simp [step, hl]

theorem step_operand {s : Conversion} (h : s.beforeOperand = true) (name : String) :
    s.step (.operand name) = .ok ⟨s.output ++ [.operand name], s.pending, .operand⟩ := by
  cases hl : s.last <;> simp [beforeOperand, hl] at h <;> simp [step, hl]

theorem step_closing {s : Conversion} (h : s.beforeOperand = false) {output : List (Step String)}
    {rest : List Pending} (hu : unwind s.output s.pending = (output, .opening :: rest)) :
    s.step .closing = .ok ⟨output, rest, .closing⟩ := by
  have hc := closeGroup_eq_ok_iff.mpr hu
  cases hl : s.last <;> simp [beforeOperand, hl] at h <;>
    simp [step, hl, hc, bind, Except.bind, pure, Except.pure]

theorem step_plus {s : Conversion} (h : s.beforeOperand = false) :
    s.step .plus = .ok (s.pushBinary .add) := by
  simp [step, h]

theorem step_minus {s : Conversion} (h : s.beforeOperand = false) :
    s.step .minus = .ok (s.pushBinary .subtract) := by
  simp [step, h]

theorem foldlM_cons_ok {s s' : Conversion} {token : Token} {rest : List Token}
    (h : s.step token = .ok s') :
    (token :: rest).foldlM step s = rest.foldlM step s' := by
  rw [List.foldlM_cons, h]
  rfl

theorem foldlM_append_ok {s s' : Conversion} {tokens rest : List Token}
    (h : tokens.foldlM step s = .ok s') :
    (tokens ++ rest).foldlM step s = rest.foldlM step s' := by
  rw [List.foldlM_append, h]
  rfl

/-- Reading `tokens` from `s` completes an operand, and taking the operators off the stack afterwards
is like taking them off with the postfix notation of `t` already written. -/
def Reads (s : Conversion) (tokens : List Token) (t : Tree String) : Prop :=
  ∃ s', tokens.foldlM step s = .ok s' ∧ s'.beforeOperand = false ∧
    unwind s'.output s'.pending = unwind (s.output ++ t.toPostfix) s.pending

/-- A sign between two operands takes the operators of the left one off the stack. -/
theorem reads_binary {sign : Token} {op : Operator} {left right : List Token}
    {l r t : Tree String} {s : Conversion}
    (hsign : ∀ {s₁ : Conversion}, s₁.beforeOperand = false →
      s₁.step sign = .ok (s₁.pushBinary op))
    (hop : op ≠ .negate) (ht : t.toPostfix = l.toPostfix ++ r.toPostfix ++ [.operator op])
    (hg : AtGroup s.pending) (hl : s.Reads left l)
    (hr : ∀ s₁ : Conversion, s₁.beforeOperand = true → s₁.Reads right r) :
    s.Reads (left ++ sign :: right) t := by
  obtain ⟨s₁, h₁, hb₁, hu₁⟩ := hl
  have hp : s₁.step sign =
      .ok ⟨s.output ++ l.toPostfix, .operator op :: s.pending, .operator⟩ := by
    rw [hsign hb₁, pushBinary_eq s₁ hop, hu₁, hg]
  obtain ⟨s₂, h₂, hb₂, hu₂⟩ :=
    hr ⟨s.output ++ l.toPostfix, .operator op :: s.pending, .operator⟩ rfl
  refine ⟨s₂, ?_, hb₂, ?_⟩
  · rw [foldlM_append_ok h₁, foldlM_cons_ok hp, h₂]
  · rw [hu₂, unwind_operator, ht, List.append_assoc, List.append_assoc, List.append_assoc]

/-- A phrase is read where an operand may stand. Operators that wait in front of a sum would be taken
off by its first sign between operands, so there must be none. -/
theorem reads_of_derives {N : Nonterminal} {tokens : List Token} {t : Tree String}
    (h : Derives N tokens t) {s : Conversion} (hs : s.beforeOperand = true)
    (hg : N = .sum → AtGroup s.pending) : s.Reads tokens t := by
  induction h generalizing s with
  | add _ _ ihl ihr =>
    exact reads_binary step_plus (by decide) rfl (hg rfl) (ihl hs hg) fun _ h => ihr h (by simp)
  | subtract _ _ ihl ihr =>
    exact reads_binary step_minus (by decide) rfl (hg rfl) (ihl hs hg) fun _ h => ihr h (by simp)
  | single _ ih => exact ih hs (by simp)
  | plus _ ih =>
    obtain ⟨s', h', hb, hu⟩ := ih hs (by simp)
    have hp : s.step .plus = .ok s := by simp [step, hs]
    exact ⟨s', by rw [foldlM_cons_ok hp, h'], hb, hu⟩
  | negate _ ih =>
    have hp : s.step .minus = .ok ⟨s.output, .operator .negate :: s.pending, .operator⟩ := by
      simp [step, hs]
    obtain ⟨s', h', hb, hu⟩ := ih
      (s := ⟨s.output, .operator .negate :: s.pending, .operator⟩) rfl (by simp)
    refine ⟨s', by rw [foldlM_cons_ok hp, h'], hb, ?_⟩
    rw [hu, unwind_operator, Tree.toPostfix, List.append_assoc]
  | unsigned _ ih => exact ih hs (by simp)
  | operand name =>
    refine ⟨⟨s.output ++ [.operand name], s.pending, .operand⟩, ?_, rfl, rfl⟩
    rw [foldlM_cons_ok (step_operand hs name)]
    rfl
  | @brackets tokens t _ ih =>
    -- The open bracket keeps the signs inside from what waits outside.
    obtain ⟨s₁, h₁, hb, hu⟩ := ih (s := ⟨s.output, .opening :: s.pending, .opening⟩) rfl
      (fun _ => atGroup_opening _)
    refine ⟨⟨s.output ++ t.toPostfix, s.pending, .closing⟩, ?_, rfl, rfl⟩
    rw [List.cons_append, foldlM_cons_ok (step_opening hs), foldlM_append_ok h₁,
      foldlM_cons_ok (step_closing hb hu)]
    rfl

end Conversion

/-- What the grammar derives is converted to the postfix notation of its tree. -/
theorem postfixOfTokens_of_derives {tokens : List Token} {t : Tree String}
    (h : Derives .sum tokens t) : postfixOfTokens tokens = .ok t.toPostfix := by
  obtain ⟨s, hs, hb, hu⟩ := Conversion.reads_of_derives h (s := Conversion.start) rfl
    (fun _ => Conversion.atGroup_nil)
  have hd : Conversion.drain s.output s.pending = .ok t.toPostfix :=
    Conversion.drain_eq_ok_iff.mpr hu
  have hl : s.last ≠ .operator := by
    intro hl
    simp [Conversion.beforeOperand, hl] at hb
  rw [postfixOfTokens, hs]
  change s.finish = _
  rw [Conversion.finish, if_neg hl, hd]

/-- A list has one tree at most. -/
theorem Derives.unique {tokens : List Token} {t u : Tree String} (ht : Derives .sum tokens t)
    (hu : Derives .sum tokens u) : t = u := by
  have h := postfixOfTokens_of_derives ht
  rw [postfixOfTokens_of_derives hu] at h
  exact (Tree.toPostfix_injective (Except.ok.inj h)).symm

namespace Conversion

/-! ## What is read is the beginning of a sum -/

/-- `Awaits N tokens pending output`: behind `tokens` a phrase of the kind `N` is due, and reading
them leaves `pending` on the stack and has written `output`. -/
inductive Awaits : Nonterminal → List Token → List Pending → List (Step String) → Prop
  | start : Awaits .sum [] [] []
  | opening {tokens : List Token} {pending : List Pending} {output : List (Step String)} :
      Awaits .signed tokens pending output →
      Awaits .sum (tokens ++ [.opening]) (.opening :: pending) output
  | single {tokens : List Token} {pending : List Pending} {output : List (Step String)} :
      Awaits .sum tokens pending output → Awaits .signed tokens pending output
  | plus {tokens : List Token} {pending : List Pending} {output : List (Step String)} :
      Awaits .signed tokens pending output → Awaits .signed (tokens ++ [.plus]) pending output
  | negate {tokens : List Token} {pending : List Pending} {output : List (Step String)} :
      Awaits .signed tokens pending output →
      Awaits .signed (tokens ++ [.minus]) (.operator .negate :: pending) output
  | add {tokens left : List Token} {pending : List Pending} {output : List (Step String)}
      {l : Tree String} :
      Awaits .sum tokens pending output → Derives .sum left l →
      Awaits .signed (tokens ++ left ++ [.plus]) (.operator .add :: pending)
        (output ++ l.toPostfix)
  | subtract {tokens left : List Token} {pending : List Pending} {output : List (Step String)}
      {l : Tree String} :
      Awaits .sum tokens pending output → Derives .sum left l →
      Awaits .signed (tokens ++ left ++ [.minus]) (.operator .subtract :: pending)
        (output ++ l.toPostfix)

/-- `Closes tokens pending output`: `tokens` end with a sum that nothing of the beginning of can be
missing, and taking the operators off the stack writes it. -/
def Closes (tokens : List Token) (pending : List Pending) (output : List (Step String)) : Prop :=
  ∃ before phrase t rest written, Awaits .sum before rest written ∧ Derives .sum phrase t ∧
    tokens = before ++ phrase ∧ unwind output pending = (written ++ t.toPostfix, rest)

/-- A complete phrase is carried outwards through everything that waits for it, up to the nearest
open bracket. -/
theorem Awaits.absorb {N : Nonterminal} {tokens phrase : List Token} {pending : List Pending}
    {output : List (Step String)} {t : Tree String} (h : Awaits N tokens pending output)
    (d : Derives N phrase t) : Closes (tokens ++ phrase) pending (output ++ t.toPostfix) := by
  induction h generalizing phrase t with
  | start => exact ⟨[], phrase, t, [], [], .start, d, rfl, rfl⟩
  | opening h _ => exact ⟨_, phrase, t, _, _, .opening h, d, rfl, rfl⟩
  | single _ ih => exact ih d.single
  | plus _ ih => simpa using ih d.plus
  | negate _ ih => simpa [Closes, Tree.toPostfix] using ih d.negate
  | add _ dl ih => simpa [Closes, Tree.toPostfix] using ih (dl.add d)
  | subtract _ dl ih => simpa [Closes, Tree.toPostfix] using ih (dl.subtract d)

/-- `Reached tokens s`: the conversion can be in the state `s` behind `tokens`. -/
inductive Reached : List Token → Conversion → Prop
  | nothing {tokens : List Token} :
      (∀ token ∈ tokens, token = .plus) → Awaits .signed tokens [] [] →
      Reached tokens ⟨[], [], .nothing⟩
  | opening {tokens : List Token} {pending : List Pending} {output : List (Step String)} :
      Awaits .signed tokens (.opening :: pending) output →
      Reached tokens ⟨output, .opening :: pending, .opening⟩
  | operator {tokens : List Token} {pending : List Pending} {output : List (Step String)} :
      Awaits .signed tokens pending output → Reached tokens ⟨output, pending, .operator⟩
  | operand {tokens : List Token} {pending : List Pending} {output : List (Step String)}
      (name : String) :
      Awaits .signed tokens pending output →
      Reached (tokens ++ [.operand name]) ⟨output ++ [.operand name], pending, .operand⟩
  | closing {tokens phrase : List Token} {pending : List Pending} {output : List (Step String)}
      {t : Tree String} :
      Awaits .signed tokens pending output → Derives .atom phrase t →
      Reached (tokens ++ phrase) ⟨output ++ t.toPostfix, pending, .closing⟩

theorem reached_start : Reached [] start :=
  .nothing (by simp) (.single .start)

theorem Reached.awaits {tokens : List Token} {s : Conversion} (h : Reached tokens s)
    (hb : s.beforeOperand = true) : Awaits .signed tokens s.pending s.output := by
  cases h with
  | nothing _ ha => exact ha
  | opening ha => exact ha
  | operator ha => exact ha
  | operand name _ => simp [beforeOperand] at hb
  | closing _ _ => simp [beforeOperand] at hb

theorem Reached.closes {tokens : List Token} {s : Conversion} (h : Reached tokens s)
    (hb : s.beforeOperand = false) : Closes tokens s.pending s.output := by
  cases h with
  | nothing _ _ => simp [beforeOperand] at hb
  | opening _ => simp [beforeOperand] at hb
  | operator _ => simp [beforeOperand] at hb
  | operand name ha => exact ha.absorb (Derives.operand name).unsigned
  | closing ha d => exact ha.absorb d.unsigned

/-- A plus sign in front of an operand leaves the state as it is. -/
theorem Reached.skip {tokens : List Token} {s : Conversion} (h : Reached tokens s)
    (hb : s.beforeOperand = true) : Reached (tokens ++ [.plus]) s := by
  cases h with
  | nothing hp ha =>
    refine .nothing (fun token hm => ?_) ha.plus
    rcases List.mem_append.mp hm with hm | hm
    · exact hp token hm
    · exact List.mem_singleton.mp hm
  | opening ha => exact .opening ha.plus
  | operator ha => exact .operator ha.plus
  | operand name _ => simp [beforeOperand] at hb
  | closing _ _ => simp [beforeOperand] at hb

/-- Only a name or a bracket completes an operand. -/
theorem last_of_not_beforeOperand {s : Conversion} (h : s.beforeOperand = false) :
    s.last = .operand ∨ s.last = .closing := by
  cases hl : s.last <;> simp [beforeOperand, hl] at h ⊢

theorem beforeOperand_of_step_opening {s s' : Conversion} (hs : s.step .opening = .ok s') :
    s.beforeOperand = true := by
  cases hl : s.last <;> simp [step, hl] at hs <;> simp [beforeOperand, hl]

theorem Reached.beforeOperand_of_step_operand {tokens : List Token} {s s' : Conversion}
    {name : String} (h : Reached tokens s)
    (hadj : NoAdjacentOperands (tokens ++ [.operand name]))
    (hs : s.step (.operand name) = .ok s') : s.beforeOperand = true := by
  cases h with
  | nothing _ _ => rfl
  | opening _ => rfl
  | operator _ => rfl
  | operand other _ =>
    rw [NoAdjacentOperands, List.append_assoc] at hadj
    have hpair := (List.isChain_append.mp hadj).2.1
    simp [Token.isOperand] at hpair
  | closing _ _ => simp [Conversion.step] at hs

/-- A closing bracket is read only behind a complete operand, and takes the stack off through the
bracket that it belongs to. -/
theorem Reached.closeGroup_of_step {tokens : List Token} {s s' : Conversion} (h : Reached tokens s)
    (hs : s.step .closing = .ok s') :
    s.beforeOperand = false ∧ ∃ output rest,
      unwind s.output s.pending = (output, .opening :: rest) ∧ s' = ⟨output, rest, .closing⟩ := by
  have hb : s.beforeOperand = false := by
    cases h with
    | nothing _ _ => simp [Conversion.step, closeGroup, bind, Except.bind] at hs
    | opening _ => simp [Conversion.step] at hs
    | operator _ => simp [Conversion.step] at hs
    | operand name _ => rfl
    | closing _ _ => rfl
  refine ⟨hb, ?_⟩
  cases hc : closeGroup s.output s.pending with
  | error e =>
    rcases last_of_not_beforeOperand hb with hl | hl <;>
      simp [Conversion.step, hl, hc, bind, Except.bind] at hs
  | ok r =>
    have hu := closeGroup_eq_ok_iff.mp (hc.trans rfl : _ = Except.ok (r.1, r.2))
    refine ⟨r.1, r.2, hu, ?_⟩
    rw [step_closing hb hu] at hs
    exact (Except.ok.inj hs).symm

/-- A sign between operands waits for the right one, with the sum in front of it written. -/
theorem Reached.pushBinary {tokens : List Token} {sign : Token} {op : Operator} {s : Conversion}
    (h : Reached tokens s) (hb : s.beforeOperand = false) (hop : op ≠ .negate)
    (hsign : ∀ {before left : List Token} {pending : List Pending} {output : List (Step String)}
      {l : Tree String}, Awaits .sum before pending output → Derives .sum left l →
      Awaits .signed (before ++ left ++ [sign]) (.operator op :: pending) (output ++ l.toPostfix)) :
    Reached (tokens ++ [sign]) (s.pushBinary op) := by
  obtain ⟨before, phrase, t, rest, written, ha, d, rfl, hu⟩ := h.closes hb
  rw [pushBinary_eq s hop, hu]
  exact .operator (hsign ha d)

/-- The step lemma: reading a token keeps the state reachable. -/
theorem Reached.step {tokens : List Token} {token : Token} {s s' : Conversion}
    (h : Reached tokens s) (hadj : NoAdjacentOperands (tokens ++ [token]))
    (hs : s.step token = .ok s') : Reached (tokens ++ [token]) s' := by
  cases token with
  | opening =>
    have hb := beforeOperand_of_step_opening hs
    rw [step_opening hb] at hs
    cases hs
    exact .opening (h.awaits hb).opening.single
  | closing =>
    obtain ⟨hb, output, rest, hu, rfl⟩ := h.closeGroup_of_step hs
    obtain ⟨before, phrase, t, _, _, ha, d, rfl, hu'⟩ := h.closes hb
    rw [hu'] at hu
    cases hu
    -- The bracket on top of the stack stands in front of the sum that ends here.
    cases ha with
    | opening ha =>
      have hr := Reached.closing ha d.brackets
      simpa using hr
  | plus =>
    cases hb : s.beforeOperand with
    | true =>
      simp [Conversion.step, hb] at hs
      exact hs ▸ h.skip hb
    | false =>
      rw [step_plus hb] at hs
      cases hs
      exact h.pushBinary hb (by decide) .add
  | minus =>
    cases hb : s.beforeOperand with
    | true =>
      simp [Conversion.step, hb] at hs
      exact hs ▸ .operator (h.awaits hb).negate
    | false =>
      rw [step_minus hb] at hs
      cases hs
      exact h.pushBinary hb (by decide) .subtract
  | operand name =>
    have hb := h.beforeOperand_of_step_operand hadj hs
    rw [step_operand hb] at hs
    cases hs
    exact .operand name (h.awaits hb)

/-- The run lemma: reading tokens keeps the state reachable. -/
theorem Reached.run {tokens rest : List Token} {s s' : Conversion} (h : Reached tokens s)
    (hadj : NoAdjacentOperands (tokens ++ rest)) (hs : rest.foldlM Conversion.step s = .ok s') :
    Reached (tokens ++ rest) s' := by
  induction rest generalizing tokens s with
  | nil =>
    cases hs
    simpa using h
  | cons token rest ih =>
    cases hstep : s.step token with
    | error e =>
      rw [List.foldlM_cons, hstep] at hs
      simp [bind, Except.bind] at hs
    | ok s₁ =>
      rw [foldlM_cons_ok hstep] at hs
      rw [List.append_cons] at hadj ⊢
      exact ih (h.step hadj.left_of_append hstep) hadj hs

/-- A conversion that ends has read a whole sum, or nothing but plus signs. -/
theorem Reached.finish {tokens : List Token} {s : Conversion} {steps : List (Step String)}
    (h : Reached tokens s) (hf : s.finish = .ok steps) :
    (steps = [] ∧ ∀ token ∈ tokens, token = .plus) ∨
      ∃ t, Derives .sum tokens t ∧ steps = t.toPostfix := by
  cases hb : s.beforeOperand with
  | true =>
    cases h with
    | nothing hp _ => exact .inl ⟨(Except.ok.inj hf).symm, hp⟩
    | opening _ => simp [Conversion.finish, drain] at hf
    | operator _ => simp [Conversion.finish] at hf
    | operand name _ => simp [beforeOperand] at hb
    | closing _ _ => simp [beforeOperand] at hb
  | false =>
    obtain ⟨before, phrase, t, rest, written, ha, d, rfl, hu⟩ := h.closes hb
    have hd : drain s.output s.pending = .ok steps := by
      rcases last_of_not_beforeOperand hb with hl | hl <;> simpa [Conversion.finish, hl] using hf
    rw [drain_eq_ok_iff, hu] at hd
    obtain ⟨rfl, rfl⟩ := Prod.mk.inj hd
    -- Only at the start nothing waits and a sum is due.
    cases ha with
    | start => exact .inr ⟨t, d, rfl⟩

end Conversion

/-! ## The accepted lists -/

/-- Plus signs alone are read and leave nothing. -/
theorem postfixOfTokens_of_forall_plus {tokens : List Token}
    (h : ∀ token ∈ tokens, token = .plus) : postfixOfTokens tokens = .ok [] := by
  have hrun : tokens.foldlM Conversion.step Conversion.start = .ok Conversion.start := by
    induction tokens with
    | nil => rfl
    | cons token rest ih =>
      have hstep : Conversion.start.step .plus = .ok Conversion.start := rfl
      rw [h token List.mem_cons_self, Conversion.foldlM_cons_ok hstep]
      exact ih fun x hx => h x (List.mem_cons_of_mem _ hx)
  rw [postfixOfTokens, hrun]
  rfl

/-- What is accepted is a sum, or nothing but plus signs. -/
theorem derives_of_postfixOfTokens {tokens : List Token} {steps : List (Step String)}
    (hadj : NoAdjacentOperands tokens) (h : postfixOfTokens tokens = .ok steps) :
    (steps = [] ∧ ∀ token ∈ tokens, token = .plus) ∨
      ∃ t, Derives .sum tokens t ∧ steps = t.toPostfix := by
  rw [postfixOfTokens] at h
  cases hs : tokens.foldlM Conversion.step Conversion.start with
  | error e =>
    rw [hs] at h
    simp [bind, Except.bind] at h
  | ok s =>
    rw [hs] at h
    exact (Conversion.reached_start.run hadj hs).finish h

/-- The conversion accepts exactly the token lists of the grammar and the lists of plus signs. It
writes the postfix notation of the tree of a list, which has one tree only, and nothing for plus
signs; every other list is rejected. -/
theorem postfixOfTokens_accepts_grammar {tokens : List Token} (hadj : NoAdjacentOperands tokens) :
    ((∃ steps, steps ≠ [] ∧ postfixOfTokens tokens = .ok steps) ↔
      ∃ t, Derives .sum tokens t) ∧
    (∀ t, Derives .sum tokens t →
      postfixOfTokens tokens = .ok t.toPostfix ∧ ∀ u, Derives .sum tokens u → u = t) ∧
    (postfixOfTokens tokens = .ok [] ↔ ∀ token ∈ tokens, token = .plus) ∧
    ((∃ e, postfixOfTokens tokens = .error e) ↔
      (¬ ∃ t, Derives .sum tokens t) ∧ ¬ ∀ token ∈ tokens, token = .plus) := by
  refine ⟨⟨?_, ?_⟩, ?_, ⟨?_, postfixOfTokens_of_forall_plus⟩, ⟨?_, ?_⟩⟩
  · rintro ⟨steps, hne, h⟩
    rcases derives_of_postfixOfTokens hadj h with ⟨hnil, _⟩ | ⟨t, d, _⟩
    · exact absurd hnil hne
    · exact ⟨t, d⟩
  · rintro ⟨t, d⟩
    exact ⟨t.toPostfix, t.toPostfix_ne_nil, postfixOfTokens_of_derives d⟩
  · exact fun t d => ⟨postfixOfTokens_of_derives d, fun u du => du.unique d⟩
  · intro h
    rcases derives_of_postfixOfTokens hadj h with ⟨_, hp⟩ | ⟨t, _, ht⟩
    · exact hp
    · exact absurd ht.symm t.toPostfix_ne_nil
  · rintro ⟨e, he⟩
    constructor
    · rintro ⟨t, d⟩
      rw [postfixOfTokens_of_derives d] at he
      cases he
    · intro hp
      rw [postfixOfTokens_of_forall_plus hp] at he
      cases he
  · rintro ⟨hd, hp⟩
    cases h : postfixOfTokens tokens with
    | error e => exact ⟨e, rfl⟩
    | ok steps =>
      rcases derives_of_postfixOfTokens hadj h with ⟨_, hp'⟩ | ⟨t, d, _⟩
      · exact absurd hp' hp
      · exact absurd ⟨t, d⟩ hd

/-- `-(a - b) + +c` has the tree of `(-(a - b)) + c`. -/
theorem postfixOfTokens_negated_difference :
    NoAdjacentOperands [.minus, .opening, .operand "a", .minus, .operand "b", .closing, .plus,
      .plus, .operand "c"] ∧
    postfixOfTokens [.minus, .opening, .operand "a", .minus, .operand "b", .closing, .plus, .plus,
      .operand "c"] =
      .ok [.operand "a", .operand "b", .operator .subtract, .operator .negate, .operand "c",
        .operator .add] := by
  have hadj : NoAdjacentOperands [.minus, .opening, .operand "a", .minus, .operand "b", .closing,
      .plus, .plus, .operand "c"] := by decide
  have difference : Derives .sum [.operand "a", .minus, .operand "b"]
      (.subtract (.leaf "a") (.leaf "b")) :=
    .subtract (.single (.unsigned (.operand "a"))) (.unsigned (.operand "b"))
  have negated : Derives .sum [.minus, .opening, .operand "a", .minus, .operand "b", .closing]
      (.negate (.subtract (.leaf "a") (.leaf "b"))) :=
    .single (.negate (.unsigned (.brackets difference)))
  have whole := Derives.add negated (.plus (.unsigned (.operand "c")))
  exact ⟨hadj, ((postfixOfTokens_accepts_grammar hadj).2.1 _ whole).1⟩

end ItemCatalog.Expression
