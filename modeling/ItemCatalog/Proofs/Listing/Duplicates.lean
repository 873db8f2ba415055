import Mathlib.Data.List.FinRange
import Mathlib.Data.List.Nodup
import Mathlib.Data.Nat.Basic
import ItemCatalog.Listing
import ItemCatalog.Proofs.FirstHighest

/-!
# Variants under one key

Of the records with one key a listing keeps the first of the highest level. It goes through the records
twice. The first time it notes a place for each key, and the second time it keeps the records at the
places that are noted. So what it drops has a stand-in of the same key among what it keeps.

Results:
1. `Notes.step`, `Notes.walk`: a step notes the best of the places so far, and so does a whole walk.
2. `mem_keptPlaces_iff`: the second pass keeps the place that is noted for each key.
3. `keepHighestLevel_sublist`, `mem_keepHighestLevel_iff`: what is kept, and in which order.
4. `exists_mem_keepHighestLevel`: each record is kept or has a stand-in.
5. `le_of_mem_keepHighestLevel`, `nodup_keepHighestLevel`: no record is higher than the one kept of its
   key, and there is one for each key.
6. `keepHighestLevel_selects`: there is exactly one, and it is the first of the highest.
-/

namespace ItemCatalog.Listing

/-! ## Definitions -/

/-- The record at a place has the highest level of all with its key, and it is the first of those that
have it. -/
structure IsTopVariant {κ : Type} (key : Record → κ) (records : List (Scored Record))
    (i : Fin records.length) : Prop where
  highest : ∀ j : Fin records.length, key (records.get j).item = key (records.get i).item →
    (records.get j).item.level ≤ (records.get i).item.level
  first : ∀ j : Fin records.length, key (records.get j).item = key (records.get i).item →
    (records.get j).item.level = (records.get i).item.level → i ≤ j

section

variable {κ : Type} [BEq κ]

/-- Of some places one has a record with a key, of the highest level of all with the key, and it stands
in front of the others with that level. -/
def IsBest (key : Record → κ) (records : List (Scored Record)) (places : List (Fin records.length))
    (k : κ) (i : Fin records.length) : Prop :=
  key (records.get i).item = k ∧
    IsFirstHighest (fun j => (records.get j).item.level.toNat)
      (fun j => key (records.get j).item == k) places i

/-- What a walk over some places notes: the best of them for each key, and nothing for keys that no
record there has. -/
def Notes (key : Record → κ) {records : List (Scored Record)} (noted : Places κ records)
    (places : List (Fin records.length)) : Prop :=
  ∀ k i, noted.lookup k = some i ↔ IsBest key records places k i

variable {key : Record → κ} {records : List (Scored Record)}

/-! ## The order of what is kept -/

theorem pairwise_keptPlaces (key : Record → κ) (records : List (Scored Record)) :
    (keptPlaces key records).Pairwise (· < ·) :=
  (List.pairwise_lt_finRange _).sublist List.filter_sublist

theorem keepHighestLevel_sublist (key : Record → κ) (records : List (Scored Record)) :
    (keepHighestLevel key records).Sublist records := by
  have hkept : (keptPlaces key records).Sublist (List.finRange records.length) := List.filter_sublist
  have hmap := hkept.map records.get
  rwa [List.map_get_finRange] at hmap

variable [LawfulBEq κ]

/-! ## The first pass -/

theorem IsBest.unique {places : List (Fin records.length)} {k : κ} {i j : Fin records.length}
    (hi : IsBest key records places k i) (hj : IsBest key records places k j) : i = j :=
  hi.2.unique hj.2 (beq_iff_eq.mpr hi.1) (beq_iff_eq.mpr hj.1)

/-- There is one under each key that occurs. -/
theorem exists_isBest (key : Record → κ) {places : List (Fin records.length)}
    {i : Fin records.length} (h : i ∈ places) :
    ∃ j, IsBest key records places (key (records.get i).item) j := by
  have hsome : ∃ j ∈ places, key (records.get j).item == key (records.get i).item :=
    ⟨i, h, beq_self_eq_true _⟩
  obtain ⟨j, hkey, hfirst⟩ := exists_isFirstHighest (fun j => (records.get j).item.level.toNat) hsome
  exact ⟨j, eq_of_beq hkey, hfirst⟩

/-- A step leaves other keys alone. -/
theorem lookup_notePlace_of_ne {k : κ} {i : Fin records.length} (hne : key (records.get i).item ≠ k)
    (noted : Places κ records) : (notePlace key records noted i).lookup k = noted.lookup k := by
  have hcons : List.lookup k ((key (records.get i).item, i) :: noted) = noted.lookup k := by
    rw [List.lookup_cons, beq_false_of_ne hne.symm]
  simp only [notePlace]
  split
  · exact hcons
  · split
    · exact hcons
    · rfl

/-- Under the key of its record a step notes the best place so far: the new one if it is higher than the
one noted, or if none is noted. -/
theorem Notes.exists_lookup_eq {noted : Places κ records} {places : List (Fin records.length)}
    (h : Notes key noted places) (i : Fin records.length) :
    ∃ j, (notePlace key records noted i).lookup (key (records.get i).item) = some j ∧
      IsBest key records (places ++ [i]) (key (records.get i).item) j := by
  have hnew : ((key (records.get i).item, i) :: noted).lookup (key (records.get i).item) = some i :=
    List.lookup_cons_self
  simp only [notePlace]
  split
  next hnone =>
    refine ⟨i, hnew, rfl, isFirstHighest_concat fun l hl hkey => ?_⟩
    obtain ⟨best, hbest⟩ := exists_isBest key hl
    rw [eq_of_beq hkey, ← h, hnone] at hbest
    cases hbest
  next j hj =>
    obtain ⟨hkey, hfirst⟩ := (h _ j).mp hj
    split
    next hlt =>
      refine ⟨i, hnew, rfl, isFirstHighest_concat fun l hl hkeyl => ?_⟩
      exact (hfirst.le hl hkeyl).trans_lt (UInt8.lt_iff_toNat_lt.mp hlt)
    next hnot =>
      refine ⟨j, hj, hkey, hfirst.concat fun _ => ?_⟩
      exact UInt8.le_iff_toNat_le.mp (UInt8.not_lt.mp hnot)

/-- With one more place the best is noted again, under each key. -/
theorem Notes.step {noted : Places κ records} {places : List (Fin records.length)}
    (h : Notes key noted places) (i : Fin records.length) :
    Notes key (notePlace key records noted i) (places ++ [i]) := by
  intro k j
  by_cases hk : key (records.get i).item = k
  · subst hk
    obtain ⟨best, hlookup, hbest⟩ := h.exists_lookup_eq i
    rw [hlookup, Option.some.injEq]
    exact ⟨fun he => he ▸ hbest, hbest.unique⟩
  · rw [lookup_notePlace_of_ne hk, h k j]
    refine and_congr_right fun hj => Iff.symm ?_
    exact isFirstHighest_concat_iff (fun hi => hk (eq_of_beq hi)) (beq_iff_eq.mpr hj)

omit [LawfulBEq κ] in
theorem notes_nil : Notes key ([] : Places κ records) [] := by
  intro k i
  refine ⟨nofun, fun h => ?_⟩
  cases h.2.mem

/-- A walk notes the best of all places that it comes to. -/
theorem Notes.walk {noted : Places κ records} {front : List (Fin records.length)}
    (h : Notes key noted front) (places : List (Fin records.length)) :
    Notes key (places.foldl (notePlace key records) noted) (front ++ places) := by
  induction places generalizing noted front with
  | nil => rwa [List.append_nil]
  | cons i places ih =>
    rw [List.append_cons]
    exact ih (h.step i)

theorem notes_bestPlaces (key : Record → κ) (records : List (Scored Record)) :
    Notes key (bestPlaces key records) (List.finRange records.length) :=
  notes_nil.walk _

/-! ## The second pass -/

theorem mem_keptPlaces_iff {i : Fin records.length} :
    i ∈ keptPlaces key records ↔
      IsBest key records (List.finRange records.length) (key (records.get i).item) i := by
  rw [keptPlaces, List.mem_filter, decide_eq_true_iff, notes_bestPlaces,
    and_iff_right (List.mem_finRange i)]

/-- Each key that occurs has one place. -/
theorem existsUnique_mem_keptPlaces (i : Fin records.length) :
    ∃! j, j ∈ keptPlaces key records ∧ key (records.get j).item = key (records.get i).item := by
  obtain ⟨j, hj⟩ := exists_isBest key (List.mem_finRange i)
  refine ⟨j, ⟨mem_keptPlaces_iff.mpr (hj.1 ▸ hj), hj.1⟩, fun l ⟨hl, hkey⟩ => ?_⟩
  exact (hkey ▸ mem_keptPlaces_iff.mp hl).unique hj

/-- The records that are kept are the first of the highest level of their key. -/
theorem mem_keepHighestLevel_iff {s : Scored Record} :
    s ∈ keepHighestLevel key records ↔
      IsFirstHighest (·.item.level.toNat) (key ·.item == key s.item) records s := by
  have hplaces : IsFirstHighest (·.item.level.toNat) (key ·.item == key s.item)
      ((List.finRange records.length).map records.get) s ↔ _ := isFirstHighest_map_iff _
  rw [List.map_get_finRange] at hplaces
  rw [hplaces, keepHighestLevel, List.mem_map]
  constructor
  · rintro ⟨i, hi, rfl⟩
    exact ⟨i, rfl, (mem_keptPlaces_iff.mp hi).2⟩
  · rintro ⟨i, rfl, hi⟩
    exact ⟨i, mem_keptPlaces_iff.mpr ⟨rfl, hi⟩, rfl⟩

/-! ## What is kept -/

/-- A record is kept, or one with its key and no lower level is. -/
theorem exists_mem_keepHighestLevel (key : Record → κ)
    {records : List (Scored Record)} {s : Scored Record} (h : s ∈ records) :
    ∃ t ∈ keepHighestLevel key records,
      key t.item = key s.item ∧ s.item.level ≤ t.item.level := by
  have hsome : ∃ r ∈ records, key r.item == key s.item := ⟨s, h, beq_self_eq_true _⟩
  obtain ⟨t, hsame, hfirst⟩ := exists_isFirstHighest (·.item.level.toNat) hsome
  have hkey : key t.item = key s.item := eq_of_beq hsame
  have hlevel := UInt8.le_iff_toNat_le.mpr (hfirst.le h (beq_self_eq_true _))
  rw [← hkey] at hfirst
  exact ⟨t, mem_keepHighestLevel_iff.mpr hfirst, hkey, hlevel⟩

/-- No record is higher than the one kept of its key. -/
theorem le_of_mem_keepHighestLevel {key : Record → κ}
    {records : List (Scored Record)} {s t : Scored Record} (hs : s ∈ keepHighestLevel key records)
    (ht : t ∈ records) (hkey : key t.item = key s.item) : t.item.level ≤ s.item.level :=
  UInt8.le_iff_toNat_le.mpr ((mem_keepHighestLevel_iff.mp hs).le ht (beq_iff_eq.mpr hkey))

/-- Of two places with one key at most one is kept. -/
theorem nodup_keepHighestLevel (key : Record → κ) (records : List (Scored Record)) :
    ((keepHighestLevel key records).map (key ·.item)).Nodup := by
  rw [keepHighestLevel, List.map_map]
  refine List.Nodup.map_on (fun i hi j hj hkey => ?_) (pairwise_keptPlaces key records).nodup
  exact (existsUnique_mem_keptPlaces j).unique ⟨hi, hkey⟩ ⟨hj, rfl⟩

theorem keepHighestLevel_ne_nil (key : Record → κ)
    {records : List (Scored Record)} (h : records ≠ []) : keepHighestLevel key records ≠ [] := by
  obtain ⟨s, hs⟩ := List.exists_mem_of_ne_nil records h
  obtain ⟨t, ht, _⟩ := exists_mem_keepHighestLevel key hs
  exact List.ne_nil_of_mem ht

/-- The best of all places has the first record of the highest level of its key. -/
theorem isTopVariant_of_isBest {i : Fin records.length}
    (h : IsBest key records (List.finRange records.length) (key (records.get i).item) i) :
    IsTopVariant key records i := by
  have hsorted := (isFirstHighest_iff_of_sorted (List.pairwise_lt_finRange _)
    (List.mem_finRange i)).mp h.2
  constructor
  · intro j hkey
    exact UInt8.le_iff_toNat_le.mpr (hsorted j (List.mem_finRange j) (beq_iff_eq.mpr hkey)).1
  · intro j hkey hlevel
    refine le_of_not_gt fun hlt => ?_
    have hlower := (hsorted j (List.mem_finRange j) (beq_iff_eq.mpr hkey)).2 hlt
    exact absurd (congrArg UInt8.toNat hlevel) hlower.ne

end

/-- What is kept stands in the order given, at places of which each key that occurs has exactly one:
that of the first record of the highest level with the key. -/
theorem keepHighestLevel_selects {κ : Type} [DecidableEq κ] (key : Record → κ)
    (records : List (Scored Record)) :
    (keepHighestLevel key records).Sublist records ∧
      ∃ places : List (Fin records.length),
        keepHighestLevel key records = places.map records.get ∧ places.Pairwise (· < ·) ∧
          (∀ k ∈ records.map (key ·.item), ∃! i, i ∈ places ∧ key (records.get i).item = k) ∧
          ∀ i ∈ places, IsTopVariant key records i := by
  refine ⟨keepHighestLevel_sublist key records, keptPlaces key records, rfl,
    pairwise_keptPlaces key records, fun k hk => ?_, fun i hi => ?_⟩
  · obtain ⟨s, hs, rfl⟩ := List.mem_map.mp hk
    obtain ⟨n, hn, rfl⟩ := List.getElem_of_mem hs
    exact existsUnique_mem_keptPlaces ⟨n, hn⟩
  · exact isTopVariant_of_isBest (mem_keptPlaces_iff.mp hi)

end ItemCatalog.Listing
