import ItemCatalog.Proofs.Name.Sanitizing

/-!
# Short names are written out once and for all

What short names stand for could be short again, as a word or together with its neighbours. A table is
`Settled` when its entries are such that this never happens, whatever stands around a short name. The
names in common use are settled, so a phrase with its short words written out stands for itself.

Results:
1. `Settled.normalize_phrase`: the phrase of a query is normalized already.
2. `Settled.expanded_notMem`: writing out the words of a phrase makes no short phrase.
3. `Settled.notMem_of_mem_words`: nor does it leave a short word.
4. `normalize_builtin_settles`: normalizing a written-out phrase changes nothing.
-/

namespace ItemCatalog.Name.AliasTable

open Text

/-! ## Definitions -/

/-- What the entries of a table stand for is canonical and holds nothing short. The words that short
words stand for do not even stand in short phrases, so that no phrase gets short by writing out its
words. -/
structure Settled (table : AliasTable) : Prop where
  isName_phrases : ∀ entry ∈ table.phrases, IsName entry.2
  isName_words : ∀ entry ∈ table.words, IsName entry.2
  phrases : ∀ entry ∈ table.phrases, entry.2 ∉ shortNames table.phrases
  words : ∀ entry ∈ table.words, ∀ word ∈ pieces ' ' entry.2.toList,
    String.ofList word ∉ shortNames table.words
  apart : ∀ entry ∈ table.words, ∀ word ∈ pieces ' ' entry.2.toList,
    ∀ name ∈ shortNames table.phrases, word ∉ pieces ' ' name.toList

/-- Both conditions in one pass over the table. -/
theorem notShort_of_mem_builtinWords :
    ∀ entry ∈ builtinWords, ∀ word ∈ pieces ' ' entry.2.toList,
      String.ofList word ∉ shortNames builtinWords ∧
        ∀ name ∈ shortNames builtinPhrases, word ∉ pieces ' ' name.toList := by decide +kernel

theorem settled_builtin : builtin.Settled where
  isName_phrases := isName_of_mem_builtinPhrases
  isName_words := isName_of_mem_builtinWords
  phrases := by decide +kernel
  words entry hentry word hword := (notShort_of_mem_builtinWords entry hentry word hword).1
  apart entry hentry word hword := (notShort_of_mem_builtinWords entry hentry word hword).2

/-! ## Texts without short words -/

theorem sanitize_eq_self_of {text : String} (h : text = "" ∨ IsName text) : sanitize text = text := by
  rcases h with rfl | hname
  · rfl
  · exact sanitize_eq_self hname

theorem tokens_eq (table : AliasTable) (raw : String) : (table.normalize raw).tokens =
    (pieces ' ' (table.normalize raw).phrase.toList).map fun word =>
      meaning table.words (String.ofList word) := rfl

theorem tokens_ne_nil (table : AliasTable) (raw : String) : (table.normalize raw).tokens ≠ [] := by
  rw [tokens_eq]
  exact List.map_eq_nil_iff.not.mpr (pieces_ne_nil _ _)

/-- The words of a text, joined, are the text. -/
theorem expanded_pieces (text : String) :
    Query.expanded ⟨text, (pieces ' ' text.toList).map String.ofList⟩ = text := by
  refine String.toList_inj.mp ?_
  have hid : String.toList ∘ String.ofList = id := funext fun _ => String.toList_ofList
  rw [Query.expanded, join, String.toList_intercalate, List.map_map, hid, List.map_id]
  exact intercalate_pieces ' ' text.toList

/-- A text without short words has no others than its own. -/
theorem map_meaning_eq {entries : List (String × String)} {parts : List (List Char)}
    (h : ∀ word ∈ parts, String.ofList word ∉ shortNames entries) :
    (parts.map fun word => meaning entries (String.ofList word)) = parts.map String.ofList :=
  List.map_congr_left fun word hw => meaning_eq_self (h word hw)

namespace Settled

variable {table : AliasTable} (h : table.Settled) (raw : String)

include h

/-! ## The phrase of a query -/

theorem phrase_notMem : (table.normalize raw).phrase ∉ shortNames table.phrases := by
  rcases meaning_cases table.phrases (sanitize raw) with ⟨hn, he⟩ | ⟨entry, hentry, _, he⟩
  · exact fun hm => hn (he ▸ hm)
  · exact fun hm => h.phrases entry hentry (he ▸ hm)

theorem phrase_eq_empty_or_isName :
    (table.normalize raw).phrase = "" ∨ IsName (table.normalize raw).phrase := by
  rcases meaning_cases table.phrases (sanitize raw) with ⟨_, he⟩ | ⟨entry, hentry, _, he⟩
  · have hphrase : (table.normalize raw).phrase = sanitize raw := he
    rw [hphrase]
    exact sanitize_eq_empty_or_isName raw
  · have hphrase : (table.normalize raw).phrase = entry.2 := he
    rw [hphrase]
    exact .inr (h.isName_phrases entry hentry)

/-- The phrase of a query is normalized already. -/
theorem normalize_phrase : table.normalize (table.normalize raw).phrase = table.normalize raw := by
  have hsanitized := sanitize_eq_self_of (h.phrase_eq_empty_or_isName raw)
  have hphrase := meaning_eq_self (h.phrase_notMem raw)
  rw [normalize, hsanitized, resolve, hphrase]
  rfl

/-! ## The words of a query -/

/-- No word of a query is short. -/
theorem notMem_of_mem_words {word : String} (hword : word ∈ (table.normalize raw).words) :
    word ∉ shortNames table.words := by
  obtain ⟨token, htoken, hword⟩ := List.mem_flatMap.mp hword
  obtain ⟨piece, (hpiece : piece ∈ pieces ' ' token.toList), rfl⟩ := List.mem_map.mp hword
  obtain ⟨typed, htyped, rfl⟩ := List.mem_map.mp htoken
  rcases meaning_cases table.words (String.ofList typed) with ⟨hn, he⟩ | ⟨entry, hentry, _, he⟩
  · rw [he, String.toList_ofList, pieces_of_notMem (separator_notMem_of_mem_pieces htyped)] at hpiece
    rwa [List.mem_singleton.mp hpiece]
  · rw [he] at hpiece
    exact h.words entry hentry piece hpiece

/-- Writing out the words of a phrase makes no short phrase: a short phrase holds none of the words
that are written out. -/
theorem expanded_notMem : (table.normalize raw).expanded ∉ shortNames table.phrases := by
  intro hshort
  have htyped : ∀ typed ∈ pieces ' ' (table.normalize raw).phrase.toList,
      meaning table.words (String.ofList typed) = String.ofList typed := by
    intro typed htyped
    rcases meaning_cases table.words (String.ofList typed) with ⟨_, he⟩ | ⟨entry, hentry, _, he⟩
    · exact he
    · obtain ⟨word, hword⟩ := List.exists_mem_of_ne_nil _ (pieces_ne_nil ' ' entry.2.toList)
      refine absurd ?_ (h.apart entry hentry word hword _ hshort)
      rw [Query.pieces_expanded (tokens_ne_nil table raw)]
      exact List.mem_flatMap.mpr ⟨entry.2, List.mem_map.mpr ⟨typed, htyped, he⟩, hword⟩
  have htokens : (table.normalize raw).tokens =
      (pieces ' ' (table.normalize raw).phrase.toList).map String.ofList :=
    List.map_congr_left htyped
  have hexpanded := expanded_pieces (table.normalize raw).phrase
  rw [← htokens] at hexpanded
  exact h.phrase_notMem raw (hexpanded ▸ hshort)

theorem expanded_eq_empty_or_isName :
    (table.normalize raw).expanded = "" ∨ IsName (table.normalize raw).expanded := by
  rcases h.phrase_eq_empty_or_isName raw with hempty | hname
  · -- The only word is the empty one, and the query is what that stands for.
    have htokens : (table.normalize raw).tokens = [meaning table.words ""] := by
      rw [tokens_eq, hempty]
      rfl
    have hexpanded : (table.normalize raw).expanded = meaning table.words "" := by
      rw [Query.expanded, htokens]
      exact String.toList_inj.mp (by simp [join])
    rw [hexpanded]
    rcases meaning_cases table.words "" with ⟨_, he⟩ | ⟨entry, hentry, _, he⟩ <;> rw [he]
    · exact .inl rfl
    · exact .inr (h.isName_words entry hentry)
  · exact .inr (Query.Canonical.of_phrase h.isName_words hname).isName_expanded

/-- A written-out phrase stands for itself, and so does each of its words. -/
theorem normalize_expanded :
    table.normalize (table.normalize raw).expanded =
      ⟨(table.normalize raw).expanded, (table.normalize raw).words⟩ := by
  have hsanitized := sanitize_eq_self_of (h.expanded_eq_empty_or_isName raw)
  have hwords := Query.words_eq (tokens_ne_nil table raw)
  have hpieces : ∀ word ∈ pieces ' ' (table.normalize raw).expanded.toList,
      String.ofList word ∉ shortNames table.words := fun word hw =>
    h.notMem_of_mem_words raw (hwords ▸ List.mem_map_of_mem hw)
  rw [normalize, hsanitized, resolve, meaning_eq_self (h.expanded_notMem raw), map_meaning_eq hpieces,
    hwords]

end Settled

/-! ## The short names in common use -/

/-- Writing out short names once is enough. In the written-out phrase of a query no short name is left,
neither for the whole of it nor for a word, so normalizing it changes nothing, and a name matches it
exactly when the two are equal. Normalizing the phrase of the query gives the query again. -/
theorem normalize_builtin_settles (raw : String) :
    (builtin.normalize raw).expanded ∉ shortNames builtinPhrases ∧
      (∀ word ∈ (builtin.normalize raw).words, word ∉ shortNames builtinWords) ∧
      builtin.normalize (builtin.normalize raw).expanded =
        ⟨(builtin.normalize raw).expanded, (builtin.normalize raw).words⟩ ∧
      (builtin.normalize (builtin.normalize raw).expanded).expanded =
        (builtin.normalize raw).expanded ∧
      builtin.normalize (builtin.normalize raw).phrase = builtin.normalize raw ∧
      ∀ name, (builtin.normalize (builtin.normalize raw).expanded).matchesExactly name ↔
        name = (builtin.normalize raw).expanded := by
  have hagain := settled_builtin.normalize_expanded raw
  have hexpanded : (builtin.normalize (builtin.normalize raw).expanded).expanded =
      (builtin.normalize raw).expanded := by
    rw [hagain, Query.words_eq (tokens_ne_nil builtin raw)]
    exact expanded_pieces (builtin.normalize raw).expanded
  refine ⟨settled_builtin.expanded_notMem raw,
    fun word hword => settled_builtin.notMem_of_mem_words raw hword, hagain, hexpanded,
    settled_builtin.normalize_phrase raw, fun name => ?_⟩
  rw [Query.matchesExactly, hexpanded, hagain, Bool.or_self, decide_eq_true_iff]

end ItemCatalog.Name.AliasTable
