import ItemCatalog.Json.Lexer
import ItemCatalog.Proofs.Json.Numeral
import ItemCatalog.Proofs.Json.Quoted

/-!
# The tokens of a text

Every token uses up at least one character, so the characters of a document suffice as fuel and the
tokens of a text are its first one followed by those of what the first one leaves.

Results:
1. `tokens_cons`, `tokens_space`: the tokens of a text, one by one.
2. `tokens_mark`, `tokens_quoted`, `tokens_whole`: the tokens of punctuation, texts and numbers.
3. `tokens_append_of_number`: a number is the same token in front of another one.
-/

namespace ItemCatalog.Json

/-! ## What is left of a text -/

theorem length_of_afterWord {word cs rest : List Char} (h : afterWord word cs = .ok rest) :
    rest.length + word.length = cs.length := by
  induction word generalizing cs with
  | nil =>
    cases h
    rfl
  | cons w word ih =>
    cases cs with
    | nil => cases h
    | cons c cs =>
      rw [afterWord] at h
      split at h
      next =>
        have hrest := ih h
        rw [List.length_cons, List.length_cons, ← hrest, Nat.add_assoc]
      next => cases h

theorem length_wordToken_lt {word : String} (hword : 0 < word.toList.length) (value : Token)
    {cs : List Char} (hcs : 0 < cs.length) : (wordToken word value cs).2.length < cs.length := by
  unfold wordToken
  split
  next rest h =>
    have hlength := length_of_afterWord h
    show rest.length < cs.length
    omega
  next => exact hcs

theorem length_numberToken_lt {cs : List Char} (hcs : 0 < cs.length) :
    (numberToken cs).2.length < cs.length := by
  unfold numberToken
  split
  next h => exact length_of_splitNumeral h
  next => exact hcs

theorem length_firstToken_le (c : Char) (rest : List Char) :
    (firstToken c rest).2.length ≤ rest.length := by
  unfold firstToken
  split
  next => exact Nat.le_refl _
  next =>
    split_ifs
    · have hquoted := length_splitQuoted rest
      show ((splitQuoted rest).2.drop 1).length ≤ rest.length
      rw [List.length_drop]
      omega
    · exact Nat.le_of_lt_succ (length_wordToken_lt (by decide) _ (Nat.succ_pos _))
    · exact Nat.le_of_lt_succ (length_wordToken_lt (by decide) _ (Nat.succ_pos _))
    · exact Nat.le_of_lt_succ (length_wordToken_lt (by decide) _ (Nat.succ_pos _))
    · exact Nat.le_of_lt_succ (length_numberToken_lt (Nat.succ_pos _))
    · exact Nat.zero_le _

/-! ## One token after the other -/

theorem tokensWith_nil (fuel : Nat) : tokensWith fuel [] = [] := by
  cases fuel <;> rfl

theorem tokensWith_space {c : Char} (h : isSpace c) (fuel : Nat) (rest : List Char) :
    tokensWith (fuel + 1) (c :: rest) = tokensWith fuel rest := by
  rw [tokensWith, if_pos h]

theorem tokensWith_cons {c : Char} (h : isSpace c = false) (fuel : Nat) (rest : List Char) :
    tokensWith (fuel + 1) (c :: rest) =
      if (firstToken c rest).1.isBroken then [(firstToken c rest).1]
      else (firstToken c rest).1 :: tokensWith fuel (firstToken c rest).2 := by
  rw [tokensWith, if_neg (by rw [h]; exact Bool.false_ne_true)]

/-- More fuel than characters makes no difference. -/
theorem tokensWith_add {fuel : Nat} {cs : List Char} (h : cs.length ≤ fuel) (extra : Nat) :
    tokensWith (fuel + extra) cs = tokensWith fuel cs := by
  induction fuel generalizing cs with
  | zero =>
    rw [List.eq_nil_of_length_eq_zero (Nat.le_zero.mp h), tokensWith_nil, tokensWith_nil]
  | succ fuel ih =>
    rw [Nat.succ_add]
    cases cs with
    | nil => rw [tokensWith_nil, tokensWith_nil]
    | cons c rest =>
      have hrest : rest.length ≤ fuel := Nat.le_of_succ_le_succ h
      cases hspace : isSpace c with
      | true => rw [tokensWith_space hspace, tokensWith_space hspace, ih hrest]
      | false =>
        have hleft := Nat.le_trans (length_firstToken_le c rest) hrest
        rw [tokensWith_cons hspace, tokensWith_cons hspace, ih hleft]

theorem tokensWith_eq_tokens {fuel : Nat} {cs : List Char} (h : cs.length ≤ fuel) :
    tokensWith fuel cs = tokens cs := by
  rw [← Nat.add_sub_cancel' h, tokensWith_add (Nat.le_refl _), tokens]

theorem tokens_nil : tokens [] = [] := rfl

theorem tokens_space {c : Char} (h : isSpace c) (rest : List Char) :
    tokens (c :: rest) = tokens rest :=
  tokensWith_space h rest.length rest

theorem tokens_cons {c : Char} (h : isSpace c = false) (rest : List Char) :
    tokens (c :: rest) =
      if (firstToken c rest).1.isBroken then [(firstToken c rest).1]
      else (firstToken c rest).1 :: tokens (firstToken c rest).2 := by
  rw [← tokensWith_eq_tokens (length_firstToken_le c rest)]
  exact tokensWith_cons h rest.length rest

/-! ## Punctuation and texts -/

theorem tokens_mark {c : Char} {token : Token} (hspace : isSpace c = false)
    (hmark : mark? c = some token) (rest : List Char) : tokens (c :: rest) = token :: tokens rest := by
  have hbroken : token.isBroken = false := by
    unfold mark? at hmark
    split_ifs at hmark <;> cases hmark <;> rfl
  have hfirst : firstToken c rest = (token, rest) := by
    unfold firstToken
    rw [hmark]
  rw [tokens_cons hspace, hfirst, hbroken]
  rfl

theorem tokens_quoted (cs rest : List Char) :
    tokens (quoted cs ++ rest) = .text (.ok cs) :: tokens rest := by
  have htext : quoted cs ++ rest = '"' :: (cs.flatMap escaped ++ '"' :: rest) := by simp [quoted]
  have hfirst : firstToken '"' (cs.flatMap escaped ++ '"' :: rest) = (.text (.ok cs), rest) := by
    show (textToken (splitQuoted _).1 (splitQuoted _).2, (splitQuoted _).2.drop 1) = _
    rw [splitQuoted_flatMap_escaped, textToken_escaped]
    rfl
  rw [htext, tokens_cons (by decide), hfirst]
  rfl

/-! ## Numbers -/

/-- The characters that numbers start with. -/
def startsNumeral (c : Char) : Bool :=
  c.isDigit || c = '-'

theorem ne_of_startsNumeral {c : Char} (hc : startsNumeral c) (d : Char)
    (hd : startsNumeral d = false) : c ≠ d := by
  rintro rfl
  rw [hc] at hd
  cases hd

theorem isSpace_of_startsNumeral {c : Char} (h : startsNumeral c) : isSpace c = false := by
  have hne := ne_of_startsNumeral h
  simp [isSpace, hne ' ' rfl, hne '\n' rfl, hne '\t' rfl, hne '\r' rfl]

theorem firstToken_of_startsNumeral {c : Char} (h : startsNumeral c) (rest : List Char) :
    firstToken c rest = numberToken (c :: rest) := by
  have hne := ne_of_startsNumeral h
  have hmark : mark? c = none := by
    have hopening : c.toNat ≠ 0x7B := fun heq => hne (Char.ofNat 0x7B) (by decide) (Char.toNat_inj.mp heq)
    have hclosing : c.toNat ≠ 0x7D := fun heq => hne (Char.ofNat 0x7D) (by decide) (Char.toNat_inj.mp heq)
    simp [mark?, hopening, hclosing, hne '[' rfl, hne ']' rfl, hne ':' rfl, hne ',' rfl]
  rw [startsNumeral] at h
  simp [firstToken, hmark, hne '"' rfl, hne 'n' rfl, hne 't' rfl, hne 'f' rfl, h]

theorem textToken_ne_number (body tail : List Char) (value : Except Fault Number) :
    textToken body tail ≠ .number value := by
  rw [textToken]
  split <;> simp

theorem wordToken_ne_number {word : String} {token : Token} {value : Except Fault Number}
    (h : token ≠ .number value) (cs : List Char) : (wordToken word token cs).1 ≠ .number value := by
  rw [wordToken]
  split
  next => exact h
  next => simp

/-- Nothing but the start of a number is a number. -/
theorem startsNumeral_of_firstToken {c : Char} {rest : List Char} {value : Except Fault Number}
    (h : (firstToken c rest).1 = .number value) : startsNumeral c := by
  unfold firstToken at h
  split at h
  next mark hmark =>
    subst h
    unfold mark? at hmark
    split_ifs at hmark <;> cases hmark
  next =>
    split_ifs at h with hquote hn ht hf hnumeral
    · exact absurd h (textToken_ne_number _ _ value)
    · exact absurd h (wordToken_ne_number (by exact nofun) _)
    · exact absurd h (wordToken_ne_number (by exact nofun) _)
    · exact absurd h (wordToken_ne_number (by exact nofun) _)
    · exact hnumeral

theorem tokens_numeral {c : Char} {cs tail : List Char} {numeral : Numeral}
    (hc : startsNumeral c) (h : splitNumeral (c :: cs) = .ok (numeral, tail)) :
    tokens (c :: cs) = .number numeral.value :: tokens tail := by
  rw [tokens_cons (isSpace_of_startsNumeral hc), firstToken_of_startsNumeral hc, numberToken, h]
  rfl

theorem exists_writer_whole_eq (n : Int) : ∃ c cs, Writer.whole n = c :: cs ∧ startsNumeral c := by
  rw [Writer.whole]
  split
  next => exact ⟨'-', _, rfl, rfl⟩
  next =>
    cases hdigits : digitsOf n.natAbs with
    | nil => exact absurd hdigits (digitsOf_ne_nil _)
    | cons c cs =>
      have hc : c.isDigit := isDigit_of_mem_digitsOf (hdigits ▸ List.mem_cons_self)
      exact ⟨c, cs, rfl, by rw [startsNumeral, hc, Bool.true_or]⟩

theorem tokens_whole {n : Int} (hlow : -2 ^ 63 ≤ n) (hhigh : n < 2 ^ 64) {rest : List Char}
    (hrest : EndsNumeral rest) :
    tokens (Writer.whole n ++ rest) = .number (.ok (.whole n)) :: tokens rest := by
  have hsplit := splitNumeral_whole hrest n
  obtain ⟨c, cs, hwhole, hc⟩ := exists_writer_whole_eq n
  rw [hwhole, List.cons_append] at hsplit ⊢
  rw [tokens_numeral hc hsplit, value_whole hlow hhigh]

/-- A text without tokens adds none to another one. -/
theorem tokens_append_of_nil {cs : List Char} (h : tokens cs = []) (rest : List Char) :
    tokens (cs ++ rest) = tokens rest := by
  induction cs with
  | nil => rfl
  | cons c cs ih =>
    cases hspace : isSpace c with
    | true =>
      rw [tokens_space hspace] at h
      rw [List.cons_append, tokens_space hspace, ih h]
    | false =>
      rw [tokens_cons hspace] at h
      split at h <;> cases h

/-- A text that is a single number is the same number in front of any other text. -/
theorem tokens_append_of_number {cs rest : List Char} {value : Except Fault Number}
    (hrest : EndsNumeral rest) (h : tokens cs = [.number value]) :
    tokens (cs ++ rest) = .number value :: tokens rest := by
  induction cs with
  | nil => cases h
  | cons c cs ih =>
    rw [List.cons_append]
    cases hspace : isSpace c with
    | true =>
      rw [tokens_space hspace] at h ⊢
      exact ih h
    | false =>
      rw [tokens_cons hspace] at h
      split at h
      next hbroken =>
        rw [(List.cons.inj h).1] at hbroken
        cases hbroken
      next =>
        obtain ⟨hfirst, hleft⟩ := List.cons.inj h
        have hc := startsNumeral_of_firstToken hfirst
        rw [firstToken_of_startsNumeral hc, numberToken] at hfirst hleft
        split at hfirst
        next numeral tail hsplit =>
          cases hfirst
          rw [hsplit] at hleft
          have hmore := splitNumeral_append hrest hsplit
          rw [List.cons_append] at hmore
          rw [tokens_numeral hc hmore, tokens_append_of_nil hleft]
        next => cases hfirst

end ItemCatalog.Json
