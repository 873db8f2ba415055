import ItemCatalog.Proofs.Listing.Shape
import ItemCatalog.Proofs.Listing.Truncation

/-!
# Which rare items are suppressed

Where nothing is left out for want of room, a listing shows what is left of the variants, group by
group. Only records that are rare in every variant are missing, and of these only those with two groups
shown in front of their score. A group that is left without entries is no group, so it does not count
for those behind it.

Results:
1. `isRareOnly_iff`: which records may be suppressed.
2. `scoredEntries_displayableFrom`: what a walk over the groups shows, by the number of groups that it
   has shown in front.
3. `showsSurvivors_of_whole`: what a listing shows that leaves nothing out for want of room.
4. `build_shows_survivors`: what a listing with wide limits shows.
-/

namespace ItemCatalog

/-- A record that can be had in variants with tags, and in no variant without the tag `rare`. -/
def Record.RareInEveryVariant (r : Record) : Prop :=
  r.tagSet ≠ [] ∧ ∀ g ∈ r.tagSet, "rare" ∈ g.tags

instance (r : Record) : Decidable r.RareInEveryVariant :=
  inferInstanceAs (Decidable (_ ∧ _))

namespace Listing

/-! ## Definitions -/

/-- How many groups come before a score. -/
def groupsBefore (d : Direction) (groups : List ScoreGroup) (score : Double) : Nat :=
  groups.countP fun g => d.Precedes g.score score

/-- A rare record whose score comes behind two of the groups. -/
def Hidden (d : Direction) (groups : List ScoreGroup) (s : Scored Record) : Prop :=
  s.item.RareInEveryVariant ∧ 2 ≤ groupsBefore d groups s.score

instance (d : Direction) (groups : List ScoreGroup) (s : Scored Record) :
    Decidable (Hidden d groups s) :=
  inferInstanceAs (Decidable (_ ∧ _))

/-- A listing shows all that is left of the variants but what is hidden behind its own groups. Whether a
record is hidden depends on the groups in front of it, and these on the records in front. -/
structure ShowsSurvivors (d : Direction) (scored : List (Scored Record)) (l : Listing) : Prop where
  /-- The entries are those of the records that are not hidden, in order, each under its score. -/
  entries_eq : scoredEntries l.groups =
    ((survivors d scored).filter fun s => ¬ Hidden d l.groups s).map scoredEntryOf
  /-- No entry is shown twice. -/
  entries_nodup : (l.groups.flatMap (·.entries)).Nodup
  /-- Each score has one group, and they come strictly one after the other. -/
  scores_ordered : l.groups.Pairwise fun g h => d.Precedes g.score h.score
  /-- A group without entries is skipped. -/
  entries_ne_nil : ∀ g ∈ l.groups, g.entries ≠ []
  /-- Nothing else is left out. -/
  whole : l.truncated = false

/-! ## Rare records -/

theorem isRareOnly_iff {r : Record} : isRareOnly r ↔ r.RareInEveryVariant := by
  rw [isRareOnly, Record.everyTagGroup, Record.RareInEveryVariant]
  split
  next hnone =>
    have hnil : r.tagSet = [] := List.isEmpty_iff.mp hnone
    simp [hnil, TagGroup.contains]
  next hsome =>
    have hne : r.tagSet ≠ [] := fun hnil => hsome (List.isEmpty_iff.mpr hnil)
    simp [hne, TagGroup.contains]

/-! ## Groups in front -/

variable {d : Direction} {scored : List (Scored Record)} {front rest : List (Double × List Record)}
  {candidate : Double × List Record}

/-- None of the groups from a candidate on comes before its score. -/
theorem groupsBefore_candidate (hsplit : candidates d scored = front ++ candidate :: rest)
    (shown : Nat) : groupsBefore d (displayableFrom shown (candidate :: rest)) candidate.1 = 0 := by
  refine List.countP_eq_zero.mpr fun g hg => ?_
  simpa using not_precedes_of_mem_displayableFrom hsplit hg

theorem score_mem_of_mem_ungrouped {groups : List (Double × List Record)} {s : Scored Record}
    (h : s ∈ ungrouped groups) : s.score ∈ groups.map Prod.fst := by
  obtain ⟨g, hg, hs⟩ := List.mem_flatMap.mp h
  obtain ⟨r, _, rfl⟩ := List.mem_map.mp hs
  exact List.mem_map_of_mem hg

/-- The group of a candidate comes before the records behind it. -/
theorem precedes_of_mem_ungrouped (hsplit : candidates d scored = front ++ candidate :: rest)
    {s : Scored Record} (hs : s ∈ ungrouped rest) : d.Precedes candidate.1 s.score := by
  have hpairwise := pairwise_candidates d scored
  rw [hsplit, List.map_append, List.pairwise_append] at hpairwise
  exact (List.pairwise_cons.mp hpairwise.2.1).1 _ (score_mem_of_mem_ungrouped hs)

/-! ## What a walk shows -/

/-- The records of one score are shown unless they are rare and there are two groups in front. -/
theorem entriesAfter_eq (shown : Nat) (score : Double) (items : List Record) :
    (entriesAfter shown items).map (score, ·) =
      ((items.map fun r => (⟨r, score⟩ : Scored Record)).filter fun s =>
        ¬ (s.item.RareInEveryVariant ∧ 2 ≤ shown)).map scoredEntryOf := by
  have htest : ∀ r : Record, (!(decide (2 ≤ shown) && isRareOnly r)) =
      decide (¬ (r.RareInEveryVariant ∧ 2 ≤ shown)) := by
    intro r
    rw [Bool.eq_iff_iff, Bool.not_eq_true', ← Bool.not_eq_true, Bool.and_eq_true, isRareOnly_iff,
      decide_eq_true_iff, decide_eq_true_iff, and_comm]
  rw [entriesAfter, List.filter_map, List.map_map, List.map_map, List.filter_congr fun r _ => htest r]
  rfl

/-- Behind `shown` groups a walk shows the records of the candidates in order, without the rare ones
that have two groups in front, those shown before included. -/
theorem scoredEntries_displayableFrom {groups : List (Double × List Record)}
    (hsplit : candidates d scored = front ++ groups) (shown : Nat) :
    scoredEntries (displayableFrom shown groups) =
      ((ungrouped groups).filter fun s => ¬ (s.item.RareInEveryVariant ∧
        2 ≤ shown + groupsBefore d (displayableFrom shown groups) s.score)).map scoredEntryOf := by
  induction groups generalizing front shown with
  | nil => rfl
  | cons candidate rest ih =>
    obtain ⟨score, items⟩ := candidate
    have hbehind : candidates d scored = (front ++ [(score, items)]) ++ rest := by
      rw [hsplit, List.append_cons]
    -- The records of the candidate itself have only those in front that were shown before.
    have hself := groupsBefore_candidate hsplit shown
    have hfirst : ((items.map fun r => (⟨r, score⟩ : Scored Record)).filter fun s =>
        ¬ (s.item.RareInEveryVariant ∧
          2 ≤ shown + groupsBefore d (displayableFrom shown ((score, items) :: rest)) s.score)) =
        (items.map fun r => (⟨r, score⟩ : Scored Record)).filter fun s =>
          ¬ (s.item.RareInEveryVariant ∧ 2 ≤ shown) := by
      refine List.filter_congr fun s hs => ?_
      obtain ⟨r, _, rfl⟩ := List.mem_map.mp hs
      rw [hself, Nat.add_zero]
    have hungrouped : ungrouped ((score, items) :: rest) =
        (items.map fun r => (⟨r, score⟩ : Scored Record)) ++ ungrouped rest := rfl
    rw [hungrouped, List.filter_append, List.map_append, hfirst, ← entriesAfter_eq, displayableFrom]
    split
    next hempty =>
      rw [List.isEmpty_iff.mp hempty, List.map_nil, List.nil_append]
      exact ih hbehind shown
    next =>
      -- Those behind have the group of the candidate in front as well.
      have hlater : ∀ s ∈ ungrouped rest,
          groupsBefore d (⟨score, entriesAfter shown items⟩ :: displayableFrom (shown + 1) rest)
            s.score = groupsBefore d (displayableFrom (shown + 1) rest) s.score + 1 := fun s hs =>
        List.countP_cons_of_pos (decide_eq_true (precedes_of_mem_ungrouped hsplit hs))
      have hrest := ih hbehind (shown + 1)
      rw [scoredEntries, List.flatMap_cons, ← scoredEntries, hrest]
      congr 2
      refine List.filter_congr fun s hs => ?_
      rw [hlater s hs, Nat.add_assoc, Nat.add_comm 1]

/-! ## What a listing shows -/

/-- All groups that can be displayed show what is left of the variants. -/
theorem scoredEntries_displayable (d : Direction) (scored : List (Scored Record)) :
    scoredEntries (displayable d scored) =
      ((survivors d scored).filter fun s => ¬ Hidden d (displayable d scored) s).map
        scoredEntryOf := by
  have hall := scoredEntries_displayableFrom (List.nil_append (candidates d scored)).symm 0
  rw [candidates, ← survivors, ungrouped_grouped isListed_of_mem_survivors] at hall
  simp only [Nat.zero_add] at hall
  exact hall

theorem nodup_links_survivors (d : Direction) (scored : List (Scored Record)) :
    ((survivors d scored).map (·.item.link)).Nodup :=
  (nodup_keepHighestLevel (·.link) _).sublist ((keepHighestLevel_sublist _ _).map _)

/-- A listing that leaves nothing out for want of room shows what is left of the variants. -/
theorem showsSurvivors_of_whole {label : String} {options : ListingOptions}
    (h : (build label scored options).truncated = false) :
    ShowsSurvivors options.direction scored (build label scored options) := by
  have hgroups : (build label scored options).groups = displayable options.direction scored :=
    takeGroups_eq_displayableFrom h
  have hentries := scoredEntries_displayable options.direction scored
  rw [← hgroups] at hentries
  refine ⟨hentries, List.Nodup.of_map (·.link) ?_, pairwise_groups, ?_, h⟩
  · rw [links_eq hentries]
    exact (nodup_links_survivors options.direction scored).sublist (List.filter_sublist.map _)
  · rw [hgroups]
    exact entries_ne_nil_of_mem_displayableFrom

/-- From some limits on, a listing shows exactly what is left of the variants, but for the rare records
behind two of its groups. -/
theorem build_shows_survivors (label : String) (d : Direction) (scored : List (Scored Record)) :
    ∃ bound, ∀ wide : ListingOptions, wide.direction = d → bound ≤ wide.maxChars →
      bound ≤ wide.maxGroups → ShowsSurvivors d scored (build label scored wide) := by
  obtain ⟨bound, hbound⟩ := exists_bound_build label d scored
  refine ⟨bound, ?_⟩
  rintro wide rfl hchars hgroups
  exact showsSurvivors_of_whole (by rw [hbound wide rfl hchars hgroups])

/-- The horn is left of the helms, but hidden behind the groups of the mask and of the crown. -/
theorem build_shows_survivors_helms :
    ∃ wide : ListingOptions, wide.direction = .descending ∧
      ShowsSurvivors .descending helms (build "INT" helms wide) ∧
      Hidden .descending (build "INT" helms wide).groups ⟨helm "horn" "d" 20 [⟨["rare"]⟩], 2⟩ := by
  obtain ⟨bound, hshows⟩ := build_shows_survivors "INT" .descending helms
  obtain ⟨enough, hwide⟩ := exists_bound_build_groups "INT" .descending helms
  refine ⟨{ maxChars := max bound enough, maxGroups := max bound enough }, rfl,
    hshows _ rfl (le_max_left _ _) (le_max_left _ _), ?_⟩
  rw [hwide _ rfl (le_max_right _ _) (le_max_right _ _), displayable_helms]
  decide +kernel

end Listing

end ItemCatalog
