import ItemCatalog.Proofs.Listing.Shape
import ItemCatalog.Proofs.Request.Hints
import ItemCatalog.Search

/-!
# What a sort listing is made of

A sort listing is made of the records of the catalog that satisfy the hints and are not excluded, each
with its own score. Which records are excluded is said here by their tag groups, and in the program by
a filter that is lowered like any other.

Results:
1. `Record.everyTagGroup_iff`: conditions on all tag groups of a record.
2. `Listing.isSome_evaluate_exclusions`: the filter leaves out the records that are excluded.
3. `ItemSearch.scoreAll_listingFilter`: the records of a listing in order, with their scores.
4. `ItemSearch.sortListing_entries`: what each entry comes from.
-/

namespace ItemCatalog

/-! ## Definitions -/

/-- The tag groups of a record. A record that comes without any has an empty one. -/
def Record.tagGroups (r : Record) : List TagGroup :=
  if r.tagSet.isEmpty then [{}] else r.tagSet

/-- Records that are never listed: all tag groups are of default gear, or all are temporary and rare
at once. -/
def Record.Excluded (r : Record) : Prop :=
  (∀ g ∈ r.tagGroups, "default" ∈ g.tags) ∨ ∀ g ∈ r.tagGroups, "temp" ∈ g.tags ∧ "rare" ∈ g.tags

instance (r : Record) : Decidable r.Excluded :=
  inferInstanceAs (Decidable (_ ∨ _))

/-- The records of a catalog that a listing is made of. -/
def Catalog.listed (c : Catalog) (hints : Hints) : List Record :=
  c.records.filter fun r => hints.Admits r ∧ ¬ r.Excluded

/-! ## Exclusions -/

theorem Record.everyTagGroup_iff {r : Record} {p : TagGroup → Bool} :
    r.everyTagGroup p ↔ ∀ g ∈ r.tagGroups, p g := by
  rw [everyTagGroup, tagGroups]
  split
  · rw [List.forall_mem_singleton]
  · rw [List.all_eq_true]

namespace Listing

variable {α : Type} (w : Weighing α) (r : Record)

theorem isSome_evaluate_negate_everyTagGroup (tags : List String) :
    ((Filter.negate (.everyTagGroup tags)).evaluate w r).isSome ↔
      ¬ ∀ g ∈ r.tagGroups, ∀ tag ∈ tags, tag ∈ g.tags := by
  have htags : r.everyTagGroup (fun group => tags.all group.contains) ↔
      ∀ g ∈ r.tagGroups, ∀ tag ∈ tags, tag ∈ g.tags := by
    rw [Record.everyTagGroup_iff]
    simp only [List.all_eq_true, TagGroup.contains, List.contains_iff_mem]
  rw [Filter.negate, Filter.evaluate, Filter.isSome_passIf, Option.isNone_iff_eq_none,
    ← Option.not_isSome_iff_eq_none, Filter.evaluate, Filter.isSome_passIf, htags]

/-- The filter of exclusions lets pass the records that are not excluded. -/
theorem isSome_evaluate_exclusions : (exclusions.evaluate w r).isSome ↔ ¬ r.Excluded := by
  rw [exclusions, Filter.isSome_evaluate_all, List.forall_mem_cons, List.forall_mem_singleton,
    isSome_evaluate_negate_everyTagGroup, isSome_evaluate_negate_everyTagGroup, Record.Excluded,
    not_or]
  simp only [List.mem_cons, List.not_mem_nil, or_false, forall_eq, forall_eq_or_imp]

end Listing

/-! ## The records of a listing -/

namespace ItemSearch

/-- Records that pass a filter are scored in the order of the catalog. -/
theorem scoreAll_eq (s : ItemSearch) (f : Filter) (e : SortExpression) :
    s.scoreAll f e =
      (s.retriever.catalog.records.filter fun r => (f.evaluate .double r).isSome).map fun r =>
        ⟨r, e.evaluate r⟩ := by
  rw [scoreAll, ← Catalog.map_item_find, List.map_map]
  rfl

/-- What is scored for a listing are the records that the hints allow and that are not excluded. -/
theorem scoreAll_listingFilter (s : ItemSearch) (e : SortExpression) (hints : Hints) :
    s.scoreAll (listingFilter hints) e =
      (s.retriever.catalog.listed hints).map fun r => ⟨r, e.evaluate r⟩ := by
  rw [scoreAll_eq, Catalog.listed]
  congr 1
  refine List.filter_congr fun r _ => ?_
  rw [Bool.eq_iff_iff, decide_eq_true_iff, listingFilter, Filter.isSome_evaluate_all,
    List.forall_mem_cons, List.forall_mem_singleton, Hints.isSome_evaluate_toFilter,
    Listing.isSome_evaluate_exclusions]

end ItemSearch

/-- An entry of a listing is that of a scored record with the score of its group. -/
theorem Listing.exists_record_of_mem_entries {label : String} {scored : List (Scored Record)}
    {options : ListingOptions} {g : ScoreGroup} (hg : g ∈ (build label scored options).groups)
    {entry : ListingEntry} (hentry : entry ∈ g.entries) :
    ∃ s ∈ scored, s.score = g.score ∧ entryOf s.item = entry := by
  obtain ⟨shown, hsublist, heq⟩ := exists_shown label scored options
  have hmem : (g.score, entry) ∈ scoredEntries (build label scored options).groups :=
    List.mem_flatMap.mpr ⟨g, hg, List.mem_map_of_mem hentry⟩
  rw [heq] at hmem
  obtain ⟨s, hs, hpair⟩ := List.mem_map.mp hmem
  obtain ⟨hscore, hitem⟩ := Prod.mk.inj hpair
  exact ⟨s, (mem_of_mem_survivors (hsublist.mem hs)).1, hscore, hitem⟩

/-- A sort listing is built from the records of the catalog that satisfy the hints and are not
excluded, in their order and each with its score, and each of its entries is that of such a record
whose score is that of the group. -/
theorem ItemSearch.sortListing_entries (s : ItemSearch) (e : SortExpression) (hints : Hints)
    (options : ListingOptions) :
    s.scoreAll (listingFilter hints) e =
        (s.retriever.catalog.listed hints).map (fun r => ⟨r, e.evaluate r⟩) ∧
      s.sortListing e hints options =
        Listing.build e.label (s.scoreAll (listingFilter hints) e) options ∧
      ∀ g ∈ (s.sortListing e hints options).groups, ∀ entry ∈ g.entries,
        ∃ r ∈ s.retriever.catalog.records, entry = ⟨r.title, r.link, r.level⟩ ∧
          hints.Admits r ∧ ¬ r.Excluded ∧ e.evaluate r = g.score := by
  have hscored := s.scoreAll_listingFilter e hints
  refine ⟨hscored, rfl, fun g hg entry hentry => ?_⟩
  rw [sortListing, hscored] at hg
  obtain ⟨t, ht, hscore, rfl⟩ := Listing.exists_record_of_mem_entries hg hentry
  obtain ⟨r, hr, rfl⟩ := List.mem_map.mp ht
  obtain ⟨hrecord, hadmitted⟩ := List.mem_filter.mp hr
  obtain ⟨hadmits, hkept⟩ := of_decide_eq_true hadmitted
  exact ⟨r, hrecord, rfl, hadmits, hkept, hscore⟩

end ItemCatalog
