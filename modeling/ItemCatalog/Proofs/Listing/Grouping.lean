import ItemCatalog.Proofs.Listing.Order

/-!
# Groups of one score

Records in the order of a listing are cut into runs of one score. Scores that count are equal when
they stand at one place, so a group has the score of each of its records.

Results:
1. `exists_mem_grouped`: each record is in a group of its score.
2. `pairwise_grouped`: the groups are strictly in order.
-/

namespace ItemCatalog.Listing

theorem isFinite_of_isListed {s : Scored Record} (h : isListed s) : s.score.isFinite := by
  rw [isListed, Bool.and_eq_true] at h
  exact h.1

theorem score_ne_nan {s : Scored Record} (h : isListed s) : s.score ≠ .nan :=
  Double.ne_nan_of_isFinite (isFinite_of_isListed h)

theorem score_eq_of_same {s t : Scored Record} (hs : isListed s) (ht : isListed t)
    (h : s.score.same t.score) : s.score = t.score := by
  have hzero : s.score.same .zero = false := by
    rw [isListed, Bool.and_eq_true, Bool.not_eq_true'] at hs
    exact hs.2
  exact Double.eq_of_same (isFinite_of_isListed hs) (isFinite_of_isListed ht) hzero h

/-- A record joins the first group when that has its score, and makes a group of its own otherwise. -/
theorem addToGroups_cases (s : Scored Record) (groups : List (Double × List Record)) :
    (∃ score items rest, groups = (score, items) :: rest ∧ s.score.same score ∧
      addToGroups s groups = (s.score, s.item :: items) :: rest) ∨
    (∀ g rest, groups = g :: rest → s.score.same g.1 = false) ∧
      addToGroups s groups = (s.score, [s.item]) :: groups := by
  cases groups with
  | nil => exact .inr ⟨nofun, rfl⟩
  | cons g rest =>
    obtain ⟨score, items⟩ := g
    rw [addToGroups]
    by_cases hsame : s.score.same score
    · exact .inl ⟨score, items, rest, rfl, hsame, if_pos hsame⟩
    · refine .inr ⟨fun g _ heq => ?_, if_neg hsame⟩
      cases heq
      exact Bool.eq_false_iff.mpr hsame

theorem grouped_cons (s : Scored Record) (records : List (Scored Record)) :
    grouped (s :: records) = addToGroups s (grouped records) := rfl

theorem grouped_ne_nil {records : List (Scored Record)} (h : records ≠ []) :
    grouped records ≠ [] := by
  cases records with
  | nil => exact absurd rfl h
  | cons s records =>
    rw [grouped_cons]
    obtain ⟨_, _, _, _, _, heq⟩ | ⟨_, heq⟩ := addToGroups_cases s (grouped records)
    all_goals
      rw [heq]
      exact List.cons_ne_nil _ _

/-- A group has a record of its score. -/
theorem exists_record_of_mem_grouped {records : List (Scored Record)}
    {g : Double × List Record} (h : g ∈ grouped records) :
    ∃ s ∈ records, s.score = g.1 ∧ s.item ∈ g.2 := by
  induction records with
  | nil => cases h
  | cons s records ih =>
    have hbehind : g ∈ grouped records → ∃ t ∈ s :: records, t.score = g.1 ∧ t.item ∈ g.2 := by
      intro hg
      obtain ⟨t, ht, hgroup⟩ := ih hg
      exact ⟨t, List.mem_cons_of_mem s ht, hgroup⟩
    rw [grouped_cons] at h
    obtain ⟨_, _, rest, hgroups, _, heq⟩ | ⟨_, heq⟩ := addToGroups_cases s (grouped records)
    · rw [heq] at h
      rcases List.mem_cons.mp h with rfl | h
      · exact ⟨s, List.mem_cons_self, rfl, List.mem_cons_self⟩
      · exact hbehind (hgroups ▸ List.mem_cons_of_mem _ h)
    · rw [heq] at h
      rcases List.mem_cons.mp h with rfl | h
      · exact ⟨s, List.mem_cons_self, rfl, List.mem_cons_self⟩
      · exact hbehind h

/-- No group is empty. -/
theorem items_ne_nil_of_mem_grouped {records : List (Scored Record)}
    {g : Double × List Record} (h : g ∈ grouped records) : g.2 ≠ [] := by
  obtain ⟨_, _, _, hitem⟩ := exists_record_of_mem_grouped h
  exact List.ne_nil_of_mem hitem

theorem exists_score_of_mem_grouped {records : List (Scored Record)}
    {g : Double × List Record} (h : g ∈ grouped records) : ∃ s ∈ records, s.score = g.1 := by
  obtain ⟨s, hs, hscore, _⟩ := exists_record_of_mem_grouped h
  exact ⟨s, hs, hscore⟩

theorem ne_nan_of_mem_grouped {records : List (Scored Record)} (hlisted : ∀ s ∈ records, isListed s)
    {g : Double × List Record} (h : g ∈ grouped records) : g.1 ≠ .nan := by
  obtain ⟨s, hs, hscore⟩ := exists_score_of_mem_grouped h
  exact hscore ▸ score_ne_nan (hlisted s hs)

/-- The first group that a record joins has its score. -/
theorem score_eq_of_grouped_eq {s : Scored Record} {records : List (Scored Record)}
    {g : Double × List Record} {rest : List (Double × List Record)} (hs : isListed s)
    (hlisted : ∀ t ∈ records, isListed t) (hgroups : grouped records = g :: rest)
    (hsame : s.score.same g.1) : s.score = g.1 := by
  obtain ⟨t, ht, hscore⟩ := exists_score_of_mem_grouped (hgroups ▸ List.mem_cons_self)
  rw [← hscore] at hsame ⊢
  exact score_eq_of_same hs (hlisted t ht) hsame

/-- A record is in a group of its score. -/
theorem exists_mem_grouped {records : List (Scored Record)} (hlisted : ∀ s ∈ records, isListed s)
    {s : Scored Record} (h : s ∈ records) : ∃ g ∈ grouped records, g.1 = s.score ∧ s.item ∈ g.2 := by
  induction records with
  | nil => cases h
  | cons r records ih =>
    obtain ⟨hr, hrecords⟩ := List.forall_mem_cons.mp hlisted
    rw [grouped_cons]
    obtain ⟨score, items, rest, hgroups, hsame, heq⟩ | ⟨_, heq⟩ :=
      addToGroups_cases r (grouped records)
    · have hscore : r.score = score := score_eq_of_grouped_eq hr hrecords hgroups hsame
      rw [heq]
      rcases List.mem_cons.mp h with rfl | h
      · exact ⟨_, List.mem_cons_self, rfl, List.mem_cons_self⟩
      · obtain ⟨g, hg, hgscore, hitem⟩ := ih hrecords h
        rw [hgroups] at hg
        rcases List.mem_cons.mp hg with rfl | hg
        · exact ⟨_, List.mem_cons_self, hscore.trans hgscore, List.mem_cons_of_mem _ hitem⟩
        · exact ⟨g, List.mem_cons_of_mem _ hg, hgscore, hitem⟩
    · rw [heq]
      rcases List.mem_cons.mp h with rfl | h
      · exact ⟨_, List.mem_cons_self, rfl, List.mem_cons_self⟩
      · obtain ⟨g, hg, hgroup⟩ := ih hrecords h
        exact ⟨g, List.mem_cons_of_mem _ hg, hgroup⟩

/-- The first group of those behind a record that makes a group of its own comes after it. -/
theorem precedes_first {d : Direction} {s : Scored Record} {records : List (Scored Record)}
    {g : Double × List Record} {rest : List (Double × List Record)} (hs : isListed s)
    (hlisted : ∀ t ∈ records, isListed t)
    (hle : ∀ t ∈ records, d.signed s.score.place ≤ d.signed t.score.place)
    (hgroups : grouped records = g :: rest) (hother : s.score.same g.1 = false) :
    d.Precedes s.score g.1 := by
  obtain ⟨t, ht, hscore⟩ := exists_score_of_mem_grouped (hgroups ▸ List.mem_cons_self)
  have hsn := score_ne_nan hs
  have htn := score_ne_nan (hlisted t ht)
  rw [← hscore] at hother ⊢
  refine (Direction.precedes_iff hsn htn).mpr (lt_of_le_of_ne (hle t ht) fun hplace => ?_)
  rw [(Double.same_iff hsn htn).mpr (d.signed_injective hplace)] at hother
  cases hother

/-- Scores that come one after the other, with equal ones together, make groups that come strictly
one after the other. -/
theorem pairwise_grouped {d : Direction} {records : List (Scored Record)}
    (hlisted : ∀ s ∈ records, isListed s)
    (hsorted : records.Pairwise fun a b => d.signed a.score.place ≤ d.signed b.score.place) :
    ((grouped records).map Prod.fst).Pairwise d.Precedes := by
  induction records with
  | nil => exact .nil
  | cons s records ih =>
    obtain ⟨hs, hrecords⟩ := List.forall_mem_cons.mp hlisted
    obtain ⟨hle, hrest⟩ := List.pairwise_cons.mp hsorted
    have hgrouped := ih hrecords hrest
    rw [grouped_cons]
    obtain ⟨score, items, rest, hgroups, hsame, heq⟩ | ⟨hother, heq⟩ :=
      addToGroups_cases s (grouped records)
    · have hscore : s.score = score := score_eq_of_grouped_eq hs hrecords hgroups hsame
      rw [hgroups] at hgrouped
      rw [heq, hscore]
      exact hgrouped
    · rw [heq]
      refine List.pairwise_cons.mpr ⟨?_, hgrouped⟩
      -- The first group behind comes after the record, and the others after that.
      cases hgroups : grouped records with
      | nil => exact fun score hscore => (List.not_mem_nil hscore).elim
      | cons g rest =>
        have hfirst := precedes_first hs hrecords hle hgroups (hother g rest hgroups)
        rw [hgroups] at hgrouped
        intro score hscore
        rcases List.mem_cons.mp hscore with rfl | hscore
        · exact hfirst
        · have hnext := (List.pairwise_cons.mp hgrouped).1 score hscore
          obtain ⟨h, hh, rfl⟩ := List.mem_map.mp hscore
          have hgn := ne_nan_of_mem_grouped hrecords (hgroups ▸ List.mem_cons_self)
          have hhn := ne_nan_of_mem_grouped hrecords (hgroups ▸ List.mem_cons_of_mem g hh)
          exact hfirst.trans (score_ne_nan hs) hgn hhn hnext

end ItemCatalog.Listing
