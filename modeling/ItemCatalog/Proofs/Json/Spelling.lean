import ItemCatalog.Json.Reader
import ItemCatalog.Proofs.Json.Lexing
import ItemCatalog.Proofs.Text.Word

/-!
# Written values are read back

A value is written with certain tokens, and its reader takes just these tokens off what follows. This
carries over from single values to lists of them and to objects with their members.

Results:
1. `spells_text`, `spells_whole`, `spells_named`, `readsBack_real`: single values.
2. `ReadsBack.list`: lists.
3. `readsBack_object`: objects, whose members fill a draft.
4. `ReadsBack.document`: whole documents.
-/

namespace ItemCatalog.Json

open Reader (entries members nextEntry nextKey)

/-! ## Definitions -/

/-- What may follow a value: nothing, or the next mark of the list or the object around it. -/
def EndsValue (rest : List Char) : Prop :=
  ∀ c, rest.head? = some c → c = ',' ∨ c = ']' ∨ c = Writer.closeBrace

/-- The tokens of a text in front of whatever may follow a value. -/
def LexesAs (written : List Char) (spelled : List Token) : Prop :=
  ∀ rest, EndsValue rest → tokens (written ++ rest) = spelled ++ tokens rest

/-- The tokens that written values start with. -/
def Token.opensValue : Token → Bool
  | .openObject | .openArray | .number _ | .text _ => true
  | _ => false

/-- The tokens of a written value, which its reader reads back. -/
structure Spells {α : Type} (item : Reader α) (written : List Char) (a : α)
    (spelled : List Token) : Prop where
  lexes : LexesAs written spelled
  reads : ∀ more, item (spelled ++ more) = .ok (a, more)
  opens : ∃ token more, spelled = token :: more ∧ token.opensValue

/-- A written value that is read back wherever it stands. -/
def ReadsBack {α : Type} (item : Reader α) (written : List Char) (a : α) : Prop :=
  ∃ spelled, Spells item written a spelled

/-- A number of double precision whose text alone is read as the number again. -/
def RealReadsBack (x : Double) : Prop :=
  Reader.document Reader.real (String.ofList (Writer.real x)) = .ok x

/-- The mark that opens a list or an object, with its token. -/
def Frame.opening : Frame → Char × Token
  | .array => ('[', .openArray)
  | .object => (Writer.openBrace, .openObject)

/-- The mark that closes a list or an object, with its token. -/
def Frame.closing : Frame → Char × Token
  | .array => (']', .closeArray)
  | .object => (Writer.closeBrace, .closeObject)

/-- The tokens of what stands between an entry of a list or an object and the closing mark: the other
entries, each with its comma. `read` takes them and the mark when it has more fuel than tokens. -/
structure SpellsOthers {β : Type} (frame : Frame) (read : Nat → Reader β) (others : List (List Char))
    (b : β) (spelled : List Token) : Prop where
  lexes : ∀ rest, tokens (others.flatMap (',' :: ·) ++ frame.closing.1 :: rest) =
    spelled ++ frame.closing.2 :: tokens rest
  reads : ∀ fuel more, spelled.length < fuel →
    read fuel (spelled ++ frame.closing.2 :: more) = .ok (b, more)

/-- Written members of an object, in their order, which fill one draft after the other. -/
inductive Fills {σ : Type} (fields : List (Field σ)) : σ → List (List Char) → σ → Prop
  | done (draft : σ) : Fills fields draft [] draft
  | member {draft draft' final : σ} {key : String} {written : List Char} {rest : List (List Char)}
      {field : Field σ} : fields.find? (·.key = key) = some field → field.isSet draft = false →
      ReadsBack (field.store draft) written draft' → Fills fields draft' rest final →
      Fills fields draft (Writer.member key written :: rest) final

/-! ## What follows a value -/

theorem EndsValue.endsNumeral {rest : List Char} (h : EndsValue rest) : EndsNumeral rest := by
  intro c hc
  rcases h c hc with rfl | rfl | rfl <;> decide

theorem endsValue_nil : EndsValue [] := nofun

theorem endsValue_cons {c : Char} (h : c = ',' ∨ c = ']' ∨ c = Writer.closeBrace) (rest : List Char) :
    EndsValue (c :: rest) := by
  rintro d ⟨⟩
  exact h

/-- Behind a value come the other ones, each with its comma, and then the end. -/
theorem endsValue_others (frame : Frame) (others : List (List Char)) (rest : List Char) :
    EndsValue (others.flatMap (',' :: ·) ++ frame.closing.1 :: rest) := by
  cases others with
  | nil =>
    refine endsValue_cons (.inr ?_) rest
    cases frame with
    | array => exact .inl rfl
    | object => exact .inr rfl
  | cons written others => exact endsValue_cons (.inl rfl) _

/-! ## Single values -/

variable {α σ : Type} {item : Reader α} {written : List Char} {a : α} {spelled : List Token}

theorem spells_text (s : String) :
    Spells Reader.text (Writer.text s) s [.text (.ok s.toList)] where
  lexes rest _ := tokens_quoted s.toList rest
  reads more := by
    rw [List.singleton_append, Reader.text, String.ofList_toList]
  opens := ⟨_, _, rfl, rfl⟩

theorem spells_whole {convert? : Int → Option α} {n : Int} (h : convert? n = some a)
    (hlow : -2 ^ 63 ≤ n) (hhigh : n < 2 ^ 64) :
    Spells (Reader.whole convert?) (Writer.whole n) a [.number (.ok (.whole n))] where
  lexes rest hrest := tokens_whole hlow hhigh hrest.endsNumeral
  reads more := by
    rw [List.singleton_append, Reader.whole, h]
  opens := ⟨_, _, rfl, rfl⟩

theorem spells_named {names : List (String × α)} {name : String} (h : names.lookup name = some a) :
    Spells (Reader.named names) (Writer.text name) a [.text (.ok name.toList)] where
  lexes rest _ := tokens_quoted name.toList rest
  reads more := by
    rw [List.singleton_append, Reader.named, String.ofList_toList, h]
  opens := ⟨_, _, rfl, rfl⟩

theorem document_eq_ok_iff {source : String} :
    Reader.document item source = .ok a ↔ item (tokens source.toList) = .ok (a, []) := by
  rw [Reader.document, bind_eq_ok_iff]
  constructor
  · rintro ⟨⟨found, rest⟩, hitem, h⟩
    split at h
    next heq =>
      cases heq
      cases h
      exact hitem
    next => cases h
  · intro h
    exact ⟨_, h, rfl⟩

theorem real_eq_ok {x : Double} {read rest : List Token} (h : Reader.real read = .ok (x, rest)) :
    ∃ value, read = .number (.ok value) :: rest ∧
      ∀ more, Reader.real (.number (.ok value) :: more) = .ok (x, more) := by
  unfold Reader.real at h
  split at h
  next n more =>
    obtain ⟨rfl, rfl⟩ := Prod.mk.inj (Except.ok.inj h)
    exact ⟨.whole n, rfl, fun _ => by rw [Reader.real]⟩
  next y more =>
    obtain ⟨rfl, rfl⟩ := Prod.mk.inj (Except.ok.inj h)
    exact ⟨.real y, rfl, fun _ => by rw [Reader.real]⟩
  next => cases h

theorem readsBack_real {x : Double} (h : RealReadsBack x) :
    ReadsBack Reader.real (Writer.real x) x := by
  rw [RealReadsBack, document_eq_ok_iff, String.toList_ofList] at h
  obtain ⟨value, hnumber, hreads⟩ := real_eq_ok h
  refine ⟨[.number (.ok value)], fun rest hrest => ?_, hreads, _, [], rfl, rfl⟩
  exact tokens_append_of_number hrest.endsNumeral hnumber

theorem ReadsBack.optional (h : ReadsBack item written a) :
    ReadsBack (Reader.optional item) written (some a) := by
  obtain ⟨spelled, hspelled⟩ := h
  refine ⟨spelled, hspelled.lexes, fun more => ?_, hspelled.opens⟩
  obtain ⟨token, others, rfl, hopens⟩ := hspelled.opens
  have hreads := hspelled.reads more
  unfold Reader.optional
  split
  next heq =>
    cases heq
    cases hopens
  next => exact bind_eq_ok_iff.mpr ⟨_, hreads, rfl⟩

/-! ## Entries of lists and objects -/

section Entries

variable {β γ : Type} {frame : Frame} {read : Nat → Reader β} {read' : Nat → Reader γ} {b : β} {c : γ}
  {others : List (List Char)} {entry : List Token}

theorem Frame.tokens_opening (frame : Frame) (rest : List Char) :
    tokens (frame.opening.1 :: rest) = frame.opening.2 :: tokens rest := by
  cases frame <;> exact tokens_mark rfl rfl rest

theorem Frame.tokens_closing (frame : Frame) (rest : List Char) :
    tokens (frame.closing.1 :: rest) = frame.closing.2 :: tokens rest := by
  cases frame <;> exact tokens_mark rfl rfl rest

theorem Frame.opensValue_opening (frame : Frame) : frame.opening.2.opensValue := by
  cases frame <;> rfl

theorem spellsOthers_nil
    (hend : ∀ fuel more, read (fuel + 1) (frame.closing.2 :: more) = .ok (b, more)) :
    SpellsOthers frame read [] b [] where
  lexes := frame.tokens_closing
  reads fuel more hfuel := by
    cases fuel with
    | zero => cases hfuel
    | succ fuel => exact hend fuel more

namespace SpellsOthers

/-- One more entry in front of the other ones. -/
theorem cons (h : SpellsOthers frame read others b spelled) (hentry : LexesAs written entry)
    (hread : ∀ fuel more, read fuel (spelled ++ frame.closing.2 :: more) = .ok (b, more) →
      read' (fuel + 1) (.comma :: (entry ++ (spelled ++ frame.closing.2 :: more))) = .ok (c, more)) :
    SpellsOthers frame read' (written :: others) c (.comma :: (entry ++ spelled)) where
  lexes rest := by
    rw [List.flatMap_cons, List.cons_append, List.cons_append, List.append_assoc,
      tokens_mark rfl rfl, hentry _ (endsValue_others frame others rest), h.lexes, List.cons_append,
      List.append_assoc]
  reads fuel more hfuel := by
    rw [List.cons_append, List.append_assoc]
    cases fuel with
    | zero => cases hfuel
    | succ fuel =>
      rw [List.length_cons, List.length_append] at hfuel
      exact hread fuel more (h.reads fuel more (by omega))

/-- The first entry and the other ones between the marks. -/
theorem enclosed (h : SpellsOthers frame read others b spelled) (hentry : LexesAs written entry)
    (hread : ∀ more, item (frame.opening.2 :: (entry ++ (spelled ++ frame.closing.2 :: more))) =
      .ok (a, more)) :
    Spells item (frame.opening.1 :: ([','].intercalate (written :: others) ++ [frame.closing.1])) a
      (frame.opening.2 :: (entry ++ (spelled ++ [frame.closing.2]))) where
  lexes rest _ := by
    rw [Text.intercalate_cons, List.cons_append, List.append_assoc, List.append_assoc,
      List.singleton_append, frame.tokens_opening, hentry _ (endsValue_others frame others rest),
      h.lexes]
    simp
  reads more := by
    rw [← hread more]
    simp
  opens := ⟨_, _, rfl, frame.opensValue_opening⟩

end SpellsOthers

theorem spells_empty (frame : Frame)
    (hread : ∀ more, item (frame.opening.2 :: frame.closing.2 :: more) = .ok (a, more)) :
    Spells item [frame.opening.1, frame.closing.1] a [frame.opening.2, frame.closing.2] where
  lexes rest _ := by
    show tokens (frame.opening.1 :: frame.closing.1 :: rest) = _
    rw [frame.tokens_opening, frame.tokens_closing]
    rfl
  reads := hread
  opens := ⟨_, _, rfl, frame.opensValue_opening⟩

end Entries

/-! ## Lists -/

section Lists

variable {write : α → List Char}

theorem nextEntry_comma {token : Token} (h : token.opensValue) (more : List Token) :
    nextEntry false (.comma :: token :: more) = .ok (true, token :: more) := by
  cases token <;> first | rfl | cases h

theorem nextEntry_first {token : Token} (h : token.opensValue) (more : List Token) :
    nextEntry true (token :: more) = .ok (true, token :: more) := by
  cases token <;> first | rfl | cases h

/-- An entry that starts where `nextEntry` finds one, with the entries behind it. -/
theorem entries_of_reads {as : List α} {first : Bool} {fuel : Nat}
    {read entry others more : List Token} (hnext : nextEntry first read = .ok (true, entry))
    (hentry : item entry = .ok (a, others))
    (hothers : entries item fuel false others = .ok (as, more)) :
    entries item (fuel + 1) first read = .ok (a :: as, more) := by
  rw [entries, hnext]
  show (item entry >>= _) = _
  rw [hentry]
  show (entries item fuel false others >>= _) = _
  rw [hothers]
  rfl

theorem exists_spellsOthers_list {as : List α} (h : ∀ a ∈ as, ReadsBack item (write a) a) :
    ∃ spelled, SpellsOthers .array (fun fuel => entries item fuel false) (as.map write) as spelled := by
  induction as with
  | nil => exact ⟨[], spellsOthers_nil fun fuel more => rfl⟩
  | cons a as ih =>
    obtain ⟨others, hothers⟩ := ih fun b hb => h b (List.mem_cons_of_mem a hb)
    obtain ⟨spelled, hspelled⟩ := h a List.mem_cons_self
    refine ⟨_, hothers.cons hspelled.lexes fun fuel more hread => ?_⟩
    have hentry := hspelled.reads (others ++ .closeArray :: more)
    obtain ⟨token, tail, rfl, hopens⟩ := hspelled.opens
    exact entries_of_reads (nextEntry_comma hopens _) hentry hread

theorem ReadsBack.list {as : List α} (h : ∀ a ∈ as, ReadsBack item (write a) a) :
    ReadsBack (Reader.list item) (Writer.list write as) as := by
  cases as with
  | nil => exact ⟨_, spells_empty .array fun more => rfl⟩
  | cons a as =>
    obtain ⟨others, hothers⟩ := exists_spellsOthers_list fun b hb => h b (List.mem_cons_of_mem a hb)
    obtain ⟨spelled, hspelled⟩ := h a List.mem_cons_self
    refine ⟨_, hothers.enclosed hspelled.lexes fun more => ?_⟩
    have hentry := hspelled.reads (others ++ .closeArray :: more)
    obtain ⟨token, tail, rfl, hopens⟩ := hspelled.opens
    refine entries_of_reads (nextEntry_first hopens _) hentry (hothers.reads _ more ?_)
    simp only [List.length_cons, List.length_append]
    omega

end Lists

/-! ## Objects -/

section Objects

variable {fields : List (Field σ)} {draft draft' final : σ}

theorem nextKey_first (key : String) (more : List Token) :
    nextKey true (.text (.ok key.toList) :: more) = .ok (some key, more) := by
  show Except.ok (some (String.ofList key.toList), more) = _
  rw [String.ofList_toList]

theorem nextKey_comma (key : String) (more : List Token) :
    nextKey false (.comma :: .text (.ok key.toList) :: more) = .ok (some key, more) := by
  show Except.ok (some (String.ofList key.toList), more) = _
  rw [String.ofList_toList]

/-- A member whose key `nextKey` finds, with the members behind it. -/
theorem members_of_reads {first : Bool} {fuel : Nat} {key : String} {field : Field σ}
    {read value others more : List Token}
    (hkey : nextKey first read = .ok (some key, .colon :: value))
    (hfield : fields.find? (·.key = key) = some field) (hset : field.isSet draft = false)
    (hvalue : field.store draft value = .ok (draft', others))
    (hothers : members fields fuel false draft' others = .ok (final, more)) :
    members fields (fuel + 1) first draft read = .ok (final, more) := by
  rw [members, hkey]
  simp only [bind, Except.bind, hfield, hset, Reader.colon, hvalue, Bool.false_eq_true, if_false]
  exact hothers

theorem lexesAs_member (key : String) (h : LexesAs written spelled) :
    LexesAs (Writer.member key written) (.text (.ok key.toList) :: .colon :: spelled) := by
  intro rest hrest
  rw [Writer.member, List.append_assoc, Writer.text, tokens_quoted, List.cons_append,
    tokens_mark rfl rfl, h rest hrest]
  rfl

theorem exists_spellsOthers_members {written : List (List Char)}
    (h : Fills fields draft written final) :
    ∃ spelled,
      SpellsOthers .object (fun fuel => members fields fuel false draft) written final spelled := by
  induction h with
  | done draft => exact ⟨[], spellsOthers_nil fun fuel more => rfl⟩
  | @member draft draft' final key value written field hfield hset hvalue _ ih =>
    obtain ⟨others, hothers⟩ := ih
    obtain ⟨spelled, hspelled⟩ := hvalue
    refine ⟨_, hothers.cons (lexesAs_member key hspelled.lexes) fun fuel more hread => ?_⟩
    exact members_of_reads (nextKey_comma key _) hfield hset (hspelled.reads _) hread

theorem record_of_members {finish? : σ → Option α} {start : σ} {read more : List Token}
    (hmembers : members fields (read.length + 1) true start read = .ok (final, more))
    (hfinish : finish? final = some a) :
    Reader.record fields start finish? (.openObject :: read) = .ok (a, more) := by
  rw [Reader.record, hmembers]
  simp only [bind, Except.bind, hfinish]
  rfl

/-- An object is read back when its members fill the draft of a value. -/
theorem readsBack_object {written : List (List Char)} {finish? : σ → Option α}
    (h : Fills fields draft written final) (hfinish : finish? final = some a) :
    ReadsBack (Reader.record fields draft finish?) (Writer.object written) a := by
  cases h with
  | done => exact ⟨_, spells_empty .object fun more => record_of_members rfl hfinish⟩
  | @member _ draft' _ key written members field hfield hset hvalue hrest =>
    obtain ⟨others, hothers⟩ := exists_spellsOthers_members hrest
    obtain ⟨spelled, hspelled⟩ := hvalue
    refine ⟨_, hothers.enclosed (lexesAs_member key hspelled.lexes) fun more => ?_⟩
    refine record_of_members ?_ hfinish
    refine members_of_reads (nextKey_first key _) hfield hset (hspelled.reads _)
      (hothers.reads _ more ?_)
    simp only [List.length_cons, List.length_append]
    omega

/-! ## Fields -/

theorem ReadsBack.store {key : String} {isSet : σ → Bool} {set : σ → α → σ}
    (h : ReadsBack item written a) (draft : σ) :
    ReadsBack ((Reader.field key isSet set item).store draft) written (set draft a) := by
  obtain ⟨spelled, hspelled⟩ := h
  exact ⟨spelled, hspelled.lexes, fun more => bind_eq_ok_iff.mpr ⟨_, hspelled.reads more, rfl⟩,
    hspelled.opens⟩

/-- A field is found by its key when no other one has the key. -/
theorem find?_key (hnodup : (fields.map Field.key).Nodup) {field : Field σ} (h : field ∈ fields) :
    fields.find? (·.key = field.key) = some field := by
  induction fields with
  | nil => cases h
  | cons first fields ih =>
    rw [List.map_cons, List.nodup_cons] at hnodup
    rcases List.mem_cons.mp h with rfl | hmem
    · exact List.find?_cons_of_pos (decide_eq_true rfl)
    · have hkey : first.key ≠ field.key := by
        intro heq
        exact hnodup.1 (heq ▸ List.mem_map_of_mem hmem)
      rw [List.find?_cons_of_neg (by simpa using hkey)]
      exact ih hnodup.2 hmem

namespace Fills

variable {key : String} {isSet : σ → Bool} {write : α → List Char} {i : Nat}

/-- Members after other ones. -/
theorem append {front back : List (List Char)} (hfront : Fills fields draft front draft')
    (hback : Fills fields draft' back final) : Fills fields draft (front ++ back) final := by
  induction hfront with
  | done => exact hback
  | member hfield hset hvalue _ ih => exact .member hfield hset hvalue (ih hback)

/-- A member with the value of the field at some place. -/
theorem field {set : σ → α → σ} {rest : List (List Char)} (i : Nat)
    (hnodup : (fields.map Field.key).Nodup)
    (hfield : fields[i]? = some (Reader.field key isSet set item)) (hset : isSet draft = false)
    (hvalue : ReadsBack item written a) (hdraft : set draft a = draft')
    (hrest : Fills fields draft' rest final) :
    Fills fields draft (Writer.member key written :: rest) final :=
  .member (find?_key hnodup (List.mem_of_getElem? hfield)) hset (hdraft ▸ hvalue.store draft) hrest

/-- The member of an optional value, which is written when there is one. `put` gives the draft the
value of the field, if any. -/
theorem optional {value : Option α} (i : Nat) (put : σ → Option (Option α) → σ)
    (hnodup : (fields.map Field.key).Nodup)
    (hfield : fields[i]? =
      some (Reader.field key isSet (fun draft a => put draft (some a)) (Reader.optional item)))
    (hset : isSet draft = false) (hvalue : ∀ a ∈ value, ReadsBack item (write a) a)
    (hnone : put draft none = draft) (hdraft : put draft (value.map some) = draft') :
    Fills fields draft (Writer.optional key write value) draft' := by
  subst hdraft
  cases value with
  | none =>
    rw [Option.map_none, hnone]
    exact .done draft
  | some a => exact .field i hnodup hfield hset (hvalue a rfl).optional rfl (.done _)

end Fills

end Objects

/-! ## Documents -/

/-- A document that holds nothing but a written value is read back. -/
theorem ReadsBack.document (h : ReadsBack item written a) :
    Reader.document item (String.ofList written) = .ok a := by
  obtain ⟨spelled, hspelled⟩ := h
  have hlexes := hspelled.lexes [] endsValue_nil
  rw [List.append_nil, tokens_nil] at hlexes
  rw [document_eq_ok_iff, String.toList_ofList, hlexes]
  exact hspelled.reads []

end ItemCatalog.Json
