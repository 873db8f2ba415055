import ItemCatalog.Proofs.Number.Nearest
import ItemCatalog.Proofs.Number.Order
import ItemCatalog.Proofs.Text.Letter
import ItemCatalog.Proofs.Text.Word

/-!
# Texts of decimal numbers

A decimal number is written as digits with an optional sign, point and exponent. Such a text is read
as the number nearest to what it denotes.

Results:
1. `read?_chars`: a text is read as the number that it denotes.
2. `mem_chars`, `solid_chars`: the characters of numbers.
-/

namespace ItemCatalog

/-! ## Definitions -/

/-- The text of a sign. -/
def signChars : Option Bool → List Char
  | none => []
  | some true => ['-']
  | some false => ['+']

/-- Only the minus sign makes a number negative. -/
def isMinus (sign : Option Bool) : Bool :=
  sign == some true

/-- The text of an exponent: its mark, a sign and digits. -/
structure ExponentText where
  mark : Char
  sign : Option Bool
  digits : List Char
  mark_eq : mark = 'e' ∨ mark = 'E'
  isDigit : ∀ c ∈ digits, c.isDigit
  ne_nil : digits ≠ []

namespace ExponentText

def chars (e : ExponentText) : List Char :=
  e.mark :: (signChars e.sign ++ e.digits)

def value (e : ExponentText) : Int :=
  if isMinus e.sign then -(digitsValue e.digits : Int) else digitsValue e.digits

end ExponentText

/-- The text of a decimal number, with a digit before or behind the point. -/
structure DecimalText where
  sign : Option Bool
  whole : List Char
  /-- The digits behind the point, if there is a point. -/
  fraction : Option (List Char)
  exponent : Option ExponentText
  isDigit_whole : ∀ c ∈ whole, c.isDigit
  isDigit_fraction : ∀ c ∈ fraction.getD [], c.isDigit
  ne_nil : whole ++ fraction.getD [] ≠ []

namespace DecimalText

def fractionChars (t : DecimalText) : List Char :=
  match t.fraction with
  | none => []
  | some digits => '.' :: digits

def exponentChars (t : DecimalText) : List Char :=
  match t.exponent with
  | none => []
  | some e => e.chars

/-- The text without its sign. -/
def body (t : DecimalText) : List Char :=
  t.whole ++ (t.fractionChars ++ t.exponentChars)

def chars (t : DecimalText) : List Char :=
  signChars t.sign ++ t.body

/-- The power of ten by which the digits before the point are multiplied. -/
def power (t : DecimalText) : Int :=
  t.exponent.elim 0 ExponentText.value

/-- What the text denotes, without its sign: the digits before the point and, as many places lower
as there are of them, those after it. -/
def magnitude (t : DecimalText) : ℚ≥0 :=
  Decimal.value ⟨digitsValue t.whole, t.power⟩ +
    Decimal.value ⟨digitsValue (t.fraction.getD []), t.power - (t.fraction.getD []).length⟩

/-- What the text denotes. -/
def value (t : DecimalText) : ℚ :=
  if isMinus t.sign then -t.magnitude else t.magnitude

/-- The number of double precision that the text denotes. -/
def toDouble (t : DecimalText) : Double :=
  Double.nearest (isMinus t.sign) t.magnitude

end DecimalText

/-! ## Characters -/

/-- The characters of numbers besides digits. -/
def numberMarks : List Char := ['-', '+', '.', 'e', 'E']

theorem mem_numberMarks_of_mem_signChars {sign : Option Bool} {c : Char} (h : c ∈ signChars sign) :
    c ∈ numberMarks := by
  match sign with
  | none => cases h
  | some true | some false =>
    rw [List.mem_singleton.mp h]
    decide

theorem ExponentText.mem_chars (e : ExponentText) {c : Char} (h : c ∈ e.chars) :
    c.isDigit ∨ c ∈ numberMarks := by
  simp only [chars, List.mem_cons, List.mem_append] at h
  rcases h with rfl | hsign | hdigit
  · rcases e.mark_eq with hmark | hmark <;> simp [hmark, numberMarks]
  · exact .inr (mem_numberMarks_of_mem_signChars hsign)
  · exact .inl (e.isDigit c hdigit)

/-! ## Reading -/

theorem splitSign_signChars {rest : List Char}
    (h : ∀ c, rest.head? = some c → c ≠ '-' ∧ c ≠ '+') (sign : Option Bool) :
    Decimal.splitSign (signChars sign ++ rest) = (isMinus sign, rest) := by
  cases sign with
  | some minus => cases minus <;> rfl
  | none =>
    rw [signChars, List.nil_append]
    unfold Decimal.splitSign
    split
    next => exact absurd rfl (h _ rfl).1
    next => exact absurd rfl (h _ rfl).2
    next => rfl

theorem not_sign_of_isDigit {c : Char} (h : c.isDigit) : c ≠ '-' ∧ c ≠ '+' := by
  constructor
  all_goals
    rintro rfl
    cases h

theorem ExponentText.readExponent?_eq (e : ExponentText) :
    Decimal.readExponent? (signChars e.sign ++ e.digits) = some e.value := by
  have hsign : ∀ c, e.digits.head? = some c → c ≠ '-' ∧ c ≠ '+' :=
    fun c hc => not_sign_of_isDigit (e.isDigit c (List.mem_of_mem_head? hc))
  have hall : e.digits.all Char.isDigit = true := List.all_eq_true.mpr e.isDigit
  have hempty : e.digits.isEmpty = false := List.isEmpty_eq_false_iff.mpr e.ne_nil
  rw [Decimal.readExponent?, splitSign_signChars hsign, ExponentText.value]
  simp only [hempty, hall, Bool.not_true, Bool.or_self, Bool.false_eq_true, if_false]
  split <;> rfl

namespace DecimalText

variable (t : DecimalText)

/-- The decimal that a text is read as. -/
def decimal : Decimal :=
  ⟨digitsValue (t.whole ++ t.fraction.getD []), t.power - (t.fraction.getD []).length⟩

theorem value_decimal : t.decimal.value = t.magnitude := by
  have hten : (10 : ℚ≥0) ≠ 0 := Double.ten_pos.ne'
  rw [decimal, magnitude, Decimal.value, Decimal.value, Decimal.value, digitsValue_append,
    zpow_sub₀ hten, zpow_natCast]
  push_cast
  field_simp

theorem head_exponentChars {c : Char} (h : t.exponentChars.head? = some c) : c = 'e' ∨ c = 'E' := by
  unfold exponentChars at h
  split at h
  next => cases h
  next e _ =>
    cases h
    exact e.mark_eq

/-- Neither the point nor the mark of the exponent is a digit. -/
theorem head_fractionChars_append {c : Char}
    (h : (t.fractionChars ++ t.exponentChars).head? = some c) : c = '.' ∨ c = 'e' ∨ c = 'E' := by
  unfold fractionChars at h
  split at h
  next => exact .inr (t.head_exponentChars h)
  next =>
    cases h
    exact .inl rfl

theorem isDigit_eq_false_of_mark {c : Char} (h : c = '.' ∨ c = 'e' ∨ c = 'E') :
    c.isDigit = false := by
  rcases h with rfl | rfl | rfl <;> rfl

theorem splitFraction_eq :
    Decimal.splitFraction (t.fractionChars ++ t.exponentChars) =
      (t.fraction.getD [], t.exponentChars) := by
  have hdigits := t.isDigit_fraction
  unfold fractionChars
  cases hfraction : t.fraction with
  | none =>
    rw [List.nil_append]
    unfold Decimal.splitFraction
    split
    next heq =>
      have hpoint : '.' = 'e' ∨ '.' = 'E' := t.head_exponentChars (by rw [heq]; rfl)
      simp at hpoint
    next => rfl
  | some digits =>
    rw [hfraction] at hdigits
    exact span_append hdigits fun c hc =>
      isDigit_eq_false_of_mark (.inr (t.head_exponentChars hc))

theorem read?_body : Decimal.read? t.body = some t.decimal := by
  have hrest : ∀ c, (t.fractionChars ++ t.exponentChars).head? = some c → c.isDigit = false :=
    fun c hc => isDigit_eq_false_of_mark (t.head_fractionChars_append hc)
  have hnil : (t.whole.isEmpty && (t.fraction.getD []).isEmpty) = false := by
    have hne := t.ne_nil
    rw [Ne, List.append_eq_nil_iff, ← List.isEmpty_iff, ← List.isEmpty_iff, ← Bool.and_eq_true,
      Bool.not_eq_true] at hne
    exact hne
  rw [Decimal.read?, body, span_append t.isDigit_whole hrest]
  simp only [splitFraction_eq, hnil, Bool.false_eq_true, if_false]
  unfold exponentChars decimal power
  cases t.exponent with
  | none => simp
  | some e => simp [ExponentText.chars, e.mark_eq, e.readExponent?_eq]

/-- A digit or the point comes first. -/
theorem exists_body_eq : ∃ c rest, t.body = c :: rest ∧ (c.isDigit ∨ c = '.') := by
  have hne := t.ne_nil
  have hwhole := t.isDigit_whole
  unfold body fractionChars
  cases hdigits : t.whole with
  | cons c whole => exact ⟨c, _, rfl, .inl (hwhole c (hdigits ▸ List.mem_cons_self))⟩
  | nil =>
    cases hfraction : t.fraction with
    | some digits => exact ⟨'.', _, rfl, .inr rfl⟩
    | none => simp [hdigits, hfraction] at hne

theorem namedNumber?_body (negative : Bool) : Double.namedNumber? negative t.body = none := by
  obtain ⟨c, rest, hbody, hc⟩ := t.exists_body_eq
  have hsmall : c.toNat ≤ 57 := by
    rcases hc with hc | rfl
    · exact ((Text.isDigit_iff c).mp hc).2
    · decide
  have hlower : c.toLower = c := by
    have hlower := Text.toNat_toLower c
    rw [if_neg (by omega)] at hlower
    exact Char.toNat_inj.mp hlower
  have hletter (d : Char) (h : 57 < d.toNat) : c ≠ d := by
    rintro rfl
    omega
  rw [Double.namedNumber?, hbody, List.map_cons, hlower]
  simp [hletter 'i' (by decide), hletter 'n' (by decide)]

theorem read?_chars : Double.read? t.chars = some t.toDouble := by
  have hsign : ∀ c, t.body.head? = some c → c ≠ '-' ∧ c ≠ '+' := by
    obtain ⟨first, rest, hbody, hfirst⟩ := t.exists_body_eq
    rw [hbody]
    rintro c ⟨⟩
    rcases hfirst with hdigit | rfl
    · exact not_sign_of_isDigit hdigit
    · decide
  rw [Double.read?, chars, splitSign_signChars hsign]
  simp only [namedNumber?_body, read?_body, Option.map_some, Double.toDouble_eq_nearest,
    value_decimal, toDouble]

/-! ## Where a number ends -/

theorem mem_chars {c : Char} (h : c ∈ t.chars) : c.isDigit ∨ c ∈ numberMarks := by
  simp only [chars, body, List.mem_append] at h
  rcases h with hsign | hwhole | hfraction | hexponent
  · exact .inr (mem_numberMarks_of_mem_signChars hsign)
  · exact .inl (t.isDigit_whole c hwhole)
  · unfold fractionChars at hfraction
    split at hfraction
    next => cases hfraction
    next digits heq =>
      rcases List.mem_cons.mp hfraction with rfl | hdigit
      · exact .inr (by decide)
      · exact .inl (t.isDigit_fraction c (by rwa [heq]))
  · unfold exponentChars at hexponent
    split at hexponent
    next => cases hexponent
    next e _ => exact e.mem_chars hexponent

theorem isBlank_of_mem_chars {c : Char} (h : c ∈ t.chars) : Text.isBlank c = false := by
  rcases t.mem_chars h with hdigit | hmark
  · have hcode := (Text.isDigit_iff c).mp hdigit
    simp only [Text.isBlank]
    grind
  · have hmarks : numberMarks.all (!Text.isBlank ·) := by decide
    simpa using List.all_eq_true.mp hmarks c hmark

theorem solid_chars : Text.Solid t.chars := by
  obtain ⟨first, rest, hbody, -⟩ := t.exists_body_eq
  refine Text.solid_of_forall ?_ fun c hc => t.isBlank_of_mem_chars hc
  rw [chars, hbody]
  exact List.append_ne_nil_of_right_ne_nil _ (List.cons_ne_nil _ _)

end DecimalText

end ItemCatalog
