import Mathlib.Data.List.Infix
import ItemCatalog.Index.Clause
import ItemCatalog.Proofs.Text.Word

/-!
# Reading and meeting clauses

Results:
1. `splitLast_suffix`, `splitFirst_append`: where a written clause is split.
2. `ofWord_unpinned`, `ofWord_pinned`: what a written clause means; `ofTerms_eq_mapIdx`: its clauses by
   the places of the terms.
3. `parse_intercalate`: queries with a space between them mean the clauses of each.
4. `accepts_of_mem`: a name with the term of a clause meets it.
-/

namespace ItemCatalog.Index.Clause

/-! ## Splitting a written clause -/

theorem splitLast_of_notMem {c : Char} {cs : List Char} (h : c ∉ cs) : splitLast c cs = (cs, none) := by
  rw [splitLast, if_neg (by simpa using h)]

theorem splitLast_append {c : Char} (before : List Char) {behind : List Char} (h : c ∉ behind) :
    splitLast c (before ++ c :: behind) = (before, some behind) := by
  have hreverse : (before ++ c :: behind).reverse = behind.reverse ++ c :: before.reverse := by simp
  have htail : (before ++ c :: behind).reverse.takeWhile (· ≠ c) = behind.reverse := by
    rw [hreverse, List.takeWhile_append_of_pos, List.takeWhile_cons_of_neg, List.append_nil]
    · simp
    · intro d hd
      exact decide_eq_true fun e => h (e ▸ List.mem_reverse.mp hd)
  have hdrop : (behind.reverse ++ c :: before.reverse).drop (behind.reverse.length + 1) =
      before.reverse := by
    rw [List.append_cons, List.drop_left' (by simp)]
  rw [splitLast, if_pos (by simp), htail, hreverse]
  dsimp only
  rw [hdrop, List.reverse_reverse, List.reverse_reverse]

/-- What is written behind the last sign, if there is one. -/
theorem splitLast_suffix {c : Char} {body : List Char} (hbody : c ∉ body) {edits : Option (List Char)}
    (hedits : ∀ digits, edits = some digits → c ∉ digits) :
    splitLast c (body ++ edits.elim [] (c :: ·)) = (body, edits) := by
  cases edits with
  | none => exact (congrArg _ (List.append_nil body)).trans (splitLast_of_notMem hbody)
  | some digits => exact splitLast_append body (hedits digits rfl)

theorem splitFirst_of_notMem {c : Char} {cs : List Char} (h : c ∉ cs) :
    splitFirst c cs = (cs, none) := by
  rw [splitFirst, if_neg (by simpa using h)]

theorem splitFirst_append {c : Char} {before : List Char} (h : c ∉ before) (behind : List Char) :
    splitFirst c (before ++ c :: behind) = (before, some behind) := by
  have hbefore : ∀ d ∈ before, decide (d ≠ c) = true := fun d hd =>
    decide_eq_true fun e => h (e ▸ hd)
  rw [splitFirst, if_pos (by simp), List.takeWhile_append_of_pos hbefore,
    List.dropWhile_append_of_pos hbefore]
  simp

/-! ## Reading a written clause -/

variable {cs rest : List Char} {required : Bool} {edits : Option (List Char)}

theorem ofWord_unpinned {body : List Char} (hsign : splitRequired cs = (required, rest))
    (hedits : splitLast '~' rest = (body, edits)) (hbody : '^' ∉ body) :
    ofWord cs = ofTerms required (edits.elim 0 readDistance) 0 (terms (String.ofList body)) := by
  rw [ofWord, hsign]
  dsimp only
  rw [hedits]
  dsimp only
  rw [splitFirst_of_notMem hbody]
  simp

theorem ofWord_pinned {head tail : List Char} (hsign : splitRequired cs = (required, rest))
    (hedits : splitLast '~' rest = (head ++ '^' :: tail, edits)) (hhead : '^' ∉ head) :
    ofWord cs = ofTerms required (edits.elim 0 readDistance) head.length
      (terms (String.ofList (head ++ tail))) := by
  rw [ofWord, hsign]
  dsimp only
  rw [hedits]
  dsimp only
  rw [splitFirst_append hhead]
  simp

/-- The clauses of one written clause share all but the pinned characters. -/
theorem of_mem_ofTerms {distance pinned : Nat} {terms : List String} {c : Clause}
    (h : c ∈ ofTerms required distance pinned terms) :
    c.term ∈ terms ∧ c.required = required ∧ c.distance = distance ∧ c.pinned ≤ pinned := by
  cases terms with
  | nil => cases h
  | cons term more =>
    rw [ofTerms] at h
    rcases List.mem_cons.mp h with rfl | h
    · exact ⟨List.mem_cons_self, rfl, rfl, Nat.min_le_left _ _⟩
    · obtain ⟨other, hother, rfl⟩ := List.mem_map.mp h
      exact ⟨List.mem_cons_of_mem _ hother, rfl, rfl, Nat.zero_le _⟩

theorem ofTerms_eq_mapIdx (required : Bool) (distance pinned : Nat) (terms : List String) :
    ofTerms required distance pinned terms =
      terms.mapIdx fun i term =>
        ⟨term, required, distance, if i = 0 then min pinned term.length else 0⟩ := by
  cases terms with
  | nil => rfl
  | cons term more =>
    rw [ofTerms, List.mapIdx_cons, if_pos rfl]
    congr 1
    refine List.ext_getElem (by simp) fun i hi _ => ?_
    rw [List.getElem_map, List.getElem_mapIdx, if_neg (Nat.succ_ne_zero i)]

/-! ## Queries -/

theorem parse_intercalate (texts : List String) :
    parse (" ".intercalate texts) = texts.flatMap parse := by
  have hspace : (" " : String).toList = [' '] := rfl
  rw [parse, String.toList_intercalate, hspace, Text.words_intercalate, List.flatMap_assoc,
    List.flatMap_map]
  rfl

theorem parse_eq_ofWord {text : String} (hne : text.toList ≠ [])
    (h : ∀ c ∈ text.toList, Text.isBlank c = false) : parse text = ofWord text.toList := by
  rw [parse, Text.words_of_forall_not_blank hne h]
  exact List.append_nil _

/-! ## Meeting a clause -/

theorem toList_pinnedPrefix (c : Clause) : c.pinnedPrefix.toList = c.term.toList.take c.pinned :=
  String.toList_ofList

/-- A name with the term of a clause meets it: the term starts with its own first characters. -/
theorem accepts_of_mem {c : Clause} {terms : List String} (h : c.term ∈ terms) : c.accepts terms := by
  have hexact : c.hitsExactly terms := List.contains_iff_mem.mpr h
  have hkeeps : c.keepsPrefix terms := by
    rw [keepsPrefix, Bool.or_eq_true, List.any_eq_true]
    refine .inr ⟨c.term, h, ?_⟩
    rw [toList_pinnedPrefix, List.isPrefixOf_iff_prefix]
    exact List.take_prefix _ _
  rw [accepts, hexact, hkeeps, Bool.true_or, Bool.true_and, Bool.or_true]

end ItemCatalog.Index.Clause
