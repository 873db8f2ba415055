import Mathlib.Data.List.Infix
import ItemCatalog.Proofs.Listing.StandIn

/-!
# The shape of a listing

What a listing shows is the beginning of the groups that can be displayed, and these are made of what
is left of the variants, in order. So the scores, the levels and the links of a listing are those of a
sorted list of records in which no link and no name occurs twice.

Results:
1. `leads_displayable`: a listing is the beginning of what can be displayed.
2. `ungrouped_grouped`, `exists_shown`: the records that the entries of a listing come from.
3. `pairwise_groups`: the scores of a listing come strictly one after the other.
4. `build_shape`: the shape of every listing.
-/

namespace ItemCatalog

/-! ## Definitions -/

/-- The order in which a direction lists the levels of one score. -/
def Direction.LevelsInOrder (d : Direction) (a b : UInt8) : Prop :=
  match d with
  | ascending => a ≤ b
  | descending => b ≤ a

namespace Listing

/-- `Leads out groups`: some groups are the beginning of others. -/
inductive Leads : List ScoreGroup → List ScoreGroup → Prop
  /-- The first groups, as they are. -/
  | whole {out groups : List ScoreGroup} : out <+: groups → Leads out groups
  /-- The first group alone, with some of its leading entries. -/
  | cut {g : ScoreGroup} {groups : List ScoreGroup} {n : Nat} :
      0 < n → Leads [⟨g.score, g.entries.take n⟩] (g :: groups)

/-- The records of groups with their scores, one after the other. -/
def ungrouped (groups : List (Double × List Record)) : List (Scored Record) :=
  groups.flatMap fun g => g.2.map fun r => ⟨r, g.1⟩

/-- The entries of groups with their scores, one after the other. -/
def scoredEntries (groups : List ScoreGroup) : List (Double × ListingEntry) :=
  groups.flatMap fun g => g.entries.map (g.score, ·)

/-- The entry of a record with its score. -/
def scoredEntryOf (s : Scored Record) : Double × ListingEntry :=
  (s.score, entryOf s.item)

/-- The groups of a listing are made of some of the scored records, each shown once: `shown`. -/
structure Shape (d : Direction) (scored : List (Scored Record)) (groups : List ScoreGroup)
    (shown : List (Scored Record)) : Prop where
  /-- Scores are finite and not zero. -/
  scores_count : ∀ g ∈ groups, g.score.isFinite ∧ g.score.same .zero = false
  /-- They come strictly one after the other. -/
  scores_ordered : groups.Pairwise fun g h => d.Precedes g.score h.score
  /-- No group is empty. -/
  entries_ne_nil : ∀ g ∈ groups, g.entries ≠ []
  /-- The levels of a group are in order. -/
  levels_ordered : ∀ g ∈ groups, g.entries.Pairwise fun e f => d.LevelsInOrder e.level f.level
  /-- Each entry is that of a record with the score of the group. -/
  entries_eq : scoredEntries groups = shown.map scoredEntryOf
  /-- The records are among those that were to be listed. -/
  mem_scored : ∀ s ∈ shown, s ∈ scored
  /-- No link occurs twice. -/
  links_nodup : ((groups.flatMap (·.entries)).map (·.link)).Nodup
  /-- No two records have one name. -/
  names_nodup : (shown.map (·.item.name)).Nodup
  /-- Of the records with one link none is higher than the one shown. -/
  level_highest : ∀ s ∈ shown, ∀ t ∈ scored, isListed t → t.item.link = s.item.link →
    t.item.level ≤ s.item.level

/-! ## Beginnings -/

/-- A group that is cut is the beginning of the groups from it on. -/
theorem leads_fitEntries (g : ScoreGroup) (budget : Nat) (groups : List ScoreGroup) :
    Leads (fitEntries g budget) (g :: groups) := by
  obtain ⟨keep, _, heq, _⟩ := fitEntries_spec g budget
  rw [heq]
  split
  · exact .whole List.nil_prefix
  next hkeep => exact .cut (Nat.pos_of_ne_zero hkeep)

/-- A listing shows the beginning of what can be displayed. -/
theorem Shows.leads {options : ListingOptions} {used : Nat} {groups out : List ScoreGroup}
    (h : Shows options 0 used groups out) : Leads out groups := by
  cases h with
  | done | full => exact .whole List.nil_prefix
  | whole _ _ hmore =>
    obtain ⟨hbegin, _⟩ := hmore.greedy Nat.zero_lt_one
    exact .whole (List.cons_prefix_cons.mpr ⟨rfl, hbegin⟩)
  | rest hs => exact absurd hs (Nat.lt_irrefl 0)
  | cut => exact leads_fitEntries _ _ _

theorem leads_displayable (label : String) (scored : List (Scored Record))
    (options : ListingOptions) :
    Leads (build label scored options).groups (displayable options.direction scored) :=
  (shows_takeGroups options 0 0 _).leads

theorem Leads.isPrefix_scores {out groups : List ScoreGroup} (h : Leads out groups) :
    out.map (·.score) <+: groups.map (·.score) := by
  cases h with
  | whole hbegin => exact hbegin.map _
  | cut => exact List.cons_prefix_cons.mpr ⟨rfl, List.nil_prefix⟩

theorem Leads.isPrefix_scoredEntries {out groups : List ScoreGroup} (h : Leads out groups) :
    scoredEntries out <+: scoredEntries groups := by
  cases h with
  | whole hbegin =>
    obtain ⟨more, rfl⟩ := hbegin
    exact ⟨scoredEntries more, List.flatMap_append.symm⟩
  | @cut g groups n _ =>
    have hcut : scoredEntries [⟨g.score, g.entries.take n⟩] =
        (g.entries.map (g.score, ·)).take n := by
      rw [scoredEntries, List.flatMap_singleton, List.map_take]
    rw [hcut]
    exact (List.take_prefix _ _).trans (List.prefix_append _ _)

theorem Leads.entries_ne_nil {out groups : List ScoreGroup} (h : Leads out groups)
    (hgroups : ∀ g ∈ groups, g.entries ≠ []) : ∀ g ∈ out, g.entries ≠ [] := by
  cases h with
  | whole hbegin => exact fun g hg => hgroups g (hbegin.subset hg)
  | @cut g groups n hn =>
    rw [List.forall_mem_singleton]
    have hentries := hgroups g List.mem_cons_self
    exact fun hnil => (List.take_eq_nil_iff.mp hnil).elim hn.ne' hentries

/-! ## Where entries come from -/

/-- Taken apart again, groups are the records that they were made of. -/
theorem ungrouped_grouped {records : List (Scored Record)} (hlisted : ∀ s ∈ records, isListed s) :
    ungrouped (grouped records) = records := by
  induction records with
  | nil => rfl
  | cons s records ih =>
    obtain ⟨hs, hrecords⟩ := List.forall_mem_cons.mp hlisted
    have ih := ih hrecords
    rw [grouped_cons]
    obtain ⟨score, items, rest, hgroups, hsame, heq⟩ | ⟨_, heq⟩ :=
      addToGroups_cases s (grouped records)
    · have hscore : s.score = score := score_eq_of_grouped_eq hs hrecords hgroups hsame
      rw [hgroups, ← hscore] at ih
      rw [heq]
      exact congrArg (s :: ·) ih
    · rw [heq]
      exact congrArg (s :: ·) ih

/-- The entries that can be displayed are those of some records of the candidates, in order. -/
theorem exists_sublist_displayableFrom (shown : Nat) (groups : List (Double × List Record)) :
    ∃ records : List (Scored Record), records.Sublist (ungrouped groups) ∧
      scoredEntries (displayableFrom shown groups) = records.map scoredEntryOf := by
  induction groups generalizing shown with
  | nil => exact ⟨[], List.Sublist.refl [], rfl⟩
  | cons g rest ih =>
    obtain ⟨score, items⟩ := g
    rw [displayableFrom]
    split
    · obtain ⟨records, hsublist, heq⟩ := ih shown
      exact ⟨records, hsublist.trans (List.sublist_append_right _ _), heq⟩
    · obtain ⟨records, hsublist, heq⟩ := ih (shown + 1)
      -- The items of the group that are not suppressed, in front of the records behind.
      let kept := (items.filter fun r => !(2 ≤ shown && isRareOnly r)).map fun r =>
        (⟨r, score⟩ : Scored Record)
      have hkept : kept.Sublist (items.map fun r => ⟨r, score⟩) := List.filter_sublist.map _
      have hentries : (entriesAfter shown items).map (score, ·) = kept.map scoredEntryOf := by
        rw [entriesAfter, List.map_map, List.map_map]
        rfl
      refine ⟨kept ++ records, hkept.append hsublist, ?_⟩
      rw [List.map_append, ← heq, ← hentries]
      rfl

variable {label : String} {scored : List (Scored Record)} {options : ListingOptions}

/-- The entries of a listing are those of some records that are left of their variants, in order. -/
theorem exists_shown (label : String) (scored : List (Scored Record)) (options : ListingOptions) :
    ∃ shown : List (Scored Record), shown.Sublist (survivors options.direction scored) ∧
      scoredEntries (build label scored options).groups = shown.map scoredEntryOf := by
  obtain ⟨records, hsublist, heq⟩ :=
    exists_sublist_displayableFrom 0 (candidates options.direction scored)
  have hbegin := (leads_displayable label scored options).isPrefix_scoredEntries
  rw [displayable, heq] at hbegin
  rw [candidates, ← survivors, ungrouped_grouped isListed_of_mem_survivors] at hsublist
  refine ⟨records.take (scoredEntries (build label scored options).groups).length,
    (List.take_sublist _ _).trans hsublist, ?_⟩
  rw [List.map_take]
  exact List.prefix_iff_eq_take.mp hbegin

/-! ## Scores -/

theorem scores_sublist_displayableFrom (shown : Nat) (groups : List (Double × List Record)) :
    ((displayableFrom shown groups).map (·.score)).Sublist (groups.map Prod.fst) := by
  induction groups generalizing shown with
  | nil => exact List.Sublist.refl []
  | cons g rest ih =>
    obtain ⟨score, items⟩ := g
    rw [displayableFrom]
    split
    · exact (ih shown).cons score
    · exact (ih (shown + 1)).cons_cons score

theorem scores_sublist_build :
    ((build label scored options).groups.map (·.score)).Sublist
      ((candidates options.direction scored).map Prod.fst) :=
  (leads_displayable label scored options).isPrefix_scores.sublist.trans
    (scores_sublist_displayableFrom 0 _)

/-- A group has the score of a record that is left of its variants. -/
theorem exists_survivor_of_mem_groups {g : ScoreGroup}
    (hg : g ∈ (build label scored options).groups) :
    ∃ s ∈ survivors options.direction scored, s.score = g.score := by
  obtain ⟨candidate, hcandidate, heq⟩ :=
    List.mem_map.mp (scores_sublist_build.mem (List.mem_map_of_mem hg))
  rw [← heq]
  exact exists_score_of_mem_grouped hcandidate

theorem pairwise_groups :
    (build label scored options).groups.Pairwise fun g h =>
      options.direction.Precedes g.score h.score :=
  List.pairwise_map.mp ((pairwise_candidates options.direction scored).sublist scores_sublist_build)

/-! ## Entries -/

theorem entries_ne_nil_of_mem_displayableFrom {shown : Nat} {groups : List (Double × List Record)} :
    ∀ g ∈ displayableFrom shown groups, g.entries ≠ [] := by
  induction groups generalizing shown with
  | nil => exact fun g hg => absurd hg List.not_mem_nil
  | cons candidate rest ih =>
    obtain ⟨score, items⟩ := candidate
    rw [displayableFrom]
    split
    · exact ih
    next hsome => exact List.forall_mem_cons.mpr ⟨by simpa using hsome, ih⟩

/-- Entries of one score that come from sorted records have their levels in order. -/
theorem levelsInOrder_of_standing_le {d : Direction} {s t : Scored Record}
    (hle : standing d s ≤ standing d t) (hscore : s.score = t.score) :
    d.LevelsInOrder s.item.level t.item.level := by
  have hlevel : d.signed s.item.level.toNat ≤ d.signed t.item.level.toNat := by
    rcases Prod.Lex.toLex_le_toLex.mp hle with hlt | ⟨_, hlevel⟩
    · rw [hscore] at hlt
      exact absurd hlt (lt_irrefl _)
    · exact hlevel
  cases d with
  | ascending => exact UInt8.le_iff_toNat_le.mpr (Int.ofNat_le.mp hlevel)
  | descending =>
    exact UInt8.le_iff_toNat_le.mpr (Int.ofNat_le.mp (Int.neg_le_neg_iff.mp hlevel))

theorem levels_of_scoredEntries_eq {d : Direction} {groups : List ScoreGroup}
    {shown : List (Scored Record)} (heq : scoredEntries groups = shown.map scoredEntryOf)
    (hsorted : shown.Pairwise fun s t => standing d s ≤ standing d t) {g : ScoreGroup}
    (hg : g ∈ groups) : g.entries.Pairwise fun e f => d.LevelsInOrder e.level f.level := by
  have hordered : (scoredEntries groups).Pairwise fun x y =>
      x.1 = y.1 → d.LevelsInOrder x.2.level y.2.level := by
    rw [heq, List.pairwise_map]
    exact hsorted.imp fun hle hscore => levelsInOrder_of_standing_le hle hscore
  have hgroup := List.pairwise_map.mp ((List.pairwise_flatMap.mp hordered).1 g hg)
  exact hgroup.imp fun hlevels => hlevels rfl

theorem links_eq {groups : List ScoreGroup} {shown : List (Scored Record)}
    (heq : scoredEntries groups = shown.map scoredEntryOf) :
    (groups.flatMap (·.entries)).map (·.link) = shown.map (·.item.link) := by
  have hentries : groups.flatMap (·.entries) = (scoredEntries groups).map Prod.snd := by
    simp [scoredEntries, List.map_flatMap, Function.comp_def]
  rw [hentries, heq, List.map_map, List.map_map]
  rfl

/-- The shape of every listing: strictly ordered scores that count, groups that are not empty, levels
in order, links and names that occur once, and for each link its highest level. -/
theorem build_shape (label : String) (scored : List (Scored Record)) (options : ListingOptions) :
    ∃ shown, Shape options.direction scored (build label scored options).groups shown := by
  obtain ⟨shown, hsublist, heq⟩ := exists_shown label scored options
  have hlinks : shown.Sublist (keepHighestLevel (·.link)
      (sorted options.direction (scored.filter isListed))) :=
    hsublist.trans (keepHighestLevel_sublist _ _)
  have hsorted := (pairwise_sorted (d := options.direction) fun s hs =>
    score_ne_nan (List.mem_filter.mp hs).2).sublist (hsublist.trans (survivors_sublist _ _))
  refine ⟨shown, ?_, pairwise_groups, ?_, ?_, heq, ?_, ?_, ?_, ?_⟩
  · intro g hg
    obtain ⟨s, hs, hscore⟩ := exists_survivor_of_mem_groups hg
    have hlisted := (mem_of_mem_survivors hs).2
    rw [isListed, Bool.and_eq_true, Bool.not_eq_true'] at hlisted
    rwa [← hscore]
  · exact (leads_displayable label scored options).entries_ne_nil
      entries_ne_nil_of_mem_displayableFrom
  · exact fun g hg => levels_of_scoredEntries_eq heq hsorted hg
  · exact fun s hs => (mem_of_mem_survivors (hsublist.mem hs)).1
  · rw [links_eq heq]
    exact (nodup_keepHighestLevel (·.link) _).sublist (hlinks.map _)
  · exact (nodup_keepHighestLevel (·.name) _).sublist (hsublist.map _)
  · intro s hs t ht hlisted hlink
    exact le_of_mem_keepHighestLevel (hlinks.mem hs) (mem_sorted_filter_iff.mpr ⟨ht, hlisted⟩) hlink

end Listing

end ItemCatalog
