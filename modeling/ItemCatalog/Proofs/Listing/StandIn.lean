import ItemCatalog.Proofs.Listing.Budget

/-!
# What stands in for a record that is not listed

A record makes way for one of a higher level with its link, and that one for one of a higher level
with its name. The last one is listed, unless it is rare and its turn comes behind two groups. So a
record may vanish from a listing that leaves nothing out: what stands in for it need not share its
link or its name, and may be suppressed.

Results:
1. `exists_survivor`: what is left of the variants of a record.
2. `listed_or_suppressed`: what becomes of it in the groups.
3. `build_stand_in`: what stands in for a record in a listing that leaves nothing out.
4. `build_drops_without_stand_in`: why a link or a name in common is not enough.
-/

namespace ItemCatalog.Listing

/-! ## Definitions -/

/-- The records that a listing chooses from, in order: the highest of each link, and of these the
highest of each name. -/
def survivors (d : Direction) (scored : List (Scored Record)) : List (Scored Record) :=
  keepHighestLevel (·.name) <| keepHighestLevel (·.link) <| sorted d (scored.filter isListed)

/-- A listing shows a scored record: a group of its score has its entry. -/
def Displays (l : Listing) (s : Scored Record) : Prop :=
  ∃ g ∈ l.groups, g.score = s.score ∧ entryOf s.item ∈ g.entries

instance (l : Listing) (s : Scored Record) : Decidable (l.Displays s) :=
  inferInstanceAs (Decidable (∃ g ∈ l.groups, g.score = s.score ∧ entryOf s.item ∈ g.entries))

/-- A record of a listing makes way for another: it has the link of a third one with a level in
between, and that one has the name of the other. Any two of the three may be one. -/
def MakesWay (scored : List (Scored Record)) (s t : Scored Record) : Prop :=
  ∃ via ∈ scored, isListed via ∧ via.item.link = s.item.link ∧ via.item.name = t.item.name ∧
    s.item.level ≤ via.item.level ∧ via.item.level ≤ t.item.level

/-- A rare record whose turn comes behind two groups. -/
def Suppressed (d : Direction) (l : Listing) (t : Scored Record) : Prop :=
  isRareOnly t.item ∧ ∃ first second rest, l.groups = first :: second :: rest ∧
    d.Precedes first.score t.score ∧ d.Precedes second.score t.score

/-! ## What is left of the variants -/

theorem survivors_sublist (d : Direction) (scored : List (Scored Record)) :
    (survivors d scored).Sublist (sorted d (scored.filter isListed)) :=
  (keepHighestLevel_sublist _ _).trans (keepHighestLevel_sublist _ _)

theorem mem_sorted_filter_iff {d : Direction} {scored : List (Scored Record)} {s : Scored Record} :
    s ∈ sorted d (scored.filter isListed) ↔ s ∈ scored ∧ isListed s := by
  rw [(sorted_perm d _).mem_iff, List.mem_filter]

theorem mem_of_mem_survivors {d : Direction} {scored : List (Scored Record)} {s : Scored Record}
    (h : s ∈ survivors d scored) : s ∈ scored ∧ isListed s :=
  mem_sorted_filter_iff.mp ((survivors_sublist d scored).mem h)

theorem isListed_of_mem_survivors {d : Direction} {scored : List (Scored Record)} :
    ∀ s ∈ survivors d scored, isListed s := fun _ hs => (mem_of_mem_survivors hs).2

theorem ne_nan_of_mem_candidates {d : Direction} {scored : List (Scored Record)}
    {g : Double × List Record} (h : g ∈ candidates d scored) : g.1 ≠ .nan :=
  ne_nan_of_mem_grouped isListed_of_mem_survivors h

/-- The scores of the groups come strictly one after the other. -/
theorem pairwise_candidates (d : Direction) (scored : List (Scored Record)) :
    ((candidates d scored).map Prod.fst).Pairwise d.Precedes := by
  have hlisted : ∀ s ∈ scored.filter isListed, s.score ≠ .nan := fun s hs =>
    score_ne_nan (List.mem_filter.mp hs).2
  have hsorted := (pairwise_sorted (d := d) hlisted).sublist (survivors_sublist d scored)
  refine pairwise_grouped isListed_of_mem_survivors (hsorted.imp fun hle => ?_)
  rcases Prod.Lex.toLex_le_toLex.mp hle with hlt | ⟨heq, _⟩
  · exact le_of_lt hlt
  · exact le_of_eq heq

/-- Each record makes way for one that is left. -/
theorem exists_survivor (d : Direction) {scored : List (Scored Record)} {s : Scored Record}
    (hs : s ∈ scored) (hlisted : isListed s) :
    ∃ t ∈ survivors d scored, MakesWay scored s t := by
  obtain ⟨via, hvia, hlink, hlevel⟩ :=
    exists_mem_keepHighestLevel (·.link) (mem_sorted_filter_iff (d := d).mpr ⟨hs, hlisted⟩)
  obtain ⟨t, ht, hname, hlevel'⟩ := exists_mem_keepHighestLevel (·.name) hvia
  obtain ⟨hmem, hvia'⟩ := mem_sorted_filter_iff.mp ((keepHighestLevel_sublist _ _).mem hvia)
  exact ⟨t, ht, via, hmem, hvia', hlink, hname.symm, hlevel, hlevel'⟩

/-! ## Groups without limits -/

/-- A listing that leaves nothing out shows all groups that can be displayed. -/
theorem takeGroups_eq_displayableFrom {options : ListingOptions} {shown used : Nat}
    {groups : List (Double × List Record)} (h : (takeGroups options shown used groups).2 = false) :
    (takeGroups options shown used groups).1 = displayableFrom shown groups := by
  induction groups generalizing shown used with
  | nil => rfl
  | cons candidate rest ih =>
    cases firstStep options shown used candidate with
    | full _ htake | tooLong _ _ _ _ htake =>
      rw [htake] at h
      cases h
    | suppressed _ hdisplayable htake =>
      rw [htake] at h ⊢
      rw [hdisplayable]
      exact ih h
    | whole g _ _ hdisplayable htake =>
      rw [htake] at h ⊢
      rw [hdisplayable]
      exact congrArg _ (ih h)

theorem displayableFrom_append (shown : Nat) (front rest : List (Double × List Record)) :
    displayableFrom shown (front ++ rest) = displayableFrom shown front ++
      displayableFrom (shown + (displayableFrom shown front).length) rest := by
  induction front generalizing shown with
  | nil => rfl
  | cons g front ih =>
    obtain ⟨score, items⟩ := g
    rw [List.cons_append, displayableFrom, displayableFrom]
    by_cases hempty : (entriesAfter shown items).isEmpty
    · rw [if_pos hempty, if_pos hempty]
      exact ih shown
    · rw [if_neg hempty, if_neg hempty, List.cons_append, ih (shown + 1), List.length_cons,
        Nat.add_right_comm, Nat.add_assoc]

theorem exists_score_of_mem_displayableFrom {shown : Nat} {groups : List (Double × List Record)}
    {g : ScoreGroup} (h : g ∈ displayableFrom shown groups) : g.score ∈ groups.map Prod.fst := by
  induction groups generalizing shown with
  | nil => cases h
  | cons candidate rest ih =>
    obtain ⟨score, items⟩ := candidate
    rw [displayableFrom] at h
    split at h
    · exact List.mem_cons_of_mem _ (ih h)
    · rcases List.mem_cons.mp h with rfl | h
      · exact List.mem_cons_self
      · exact List.mem_cons_of_mem _ (ih h)

/-- Groups that can be displayed in front of a candidate come before it. -/
theorem precedes_of_mem_displayableFrom {d : Direction} {scored : List (Scored Record)}
    {front rest : List (Double × List Record)} {candidate : Double × List Record}
    (hsplit : candidates d scored = front ++ candidate :: rest) {shown : Nat} {g : ScoreGroup}
    (hg : g ∈ displayableFrom shown front) : d.Precedes g.score candidate.1 := by
  have hpairwise := pairwise_candidates d scored
  rw [hsplit, List.map_append, List.pairwise_append] at hpairwise
  exact hpairwise.2.2 _ (exists_score_of_mem_displayableFrom hg) _ List.mem_cons_self

/-- Groups that can be displayed from a candidate on do not come before it. -/
theorem not_precedes_of_mem_displayableFrom {d : Direction} {scored : List (Scored Record)}
    {front rest : List (Double × List Record)} {candidate : Double × List Record}
    (hsplit : candidates d scored = front ++ candidate :: rest) {shown : Nat} {g : ScoreGroup}
    (hg : g ∈ displayableFrom shown (candidate :: rest)) : ¬ d.Precedes g.score candidate.1 := by
  intro hprecedes
  have hne : ∀ c ∈ candidate :: rest, c.1 ≠ .nan := fun c hc =>
    ne_nan_of_mem_candidates (hsplit ▸ List.mem_append_right front hc)
  have hcandidate := hne candidate List.mem_cons_self
  rcases List.mem_cons.mp (exists_score_of_mem_displayableFrom hg) with heq | hlater
  · rw [heq] at hprecedes
    exact hprecedes.asymm hcandidate hcandidate hprecedes
  · have hpairwise := pairwise_candidates d scored
    rw [hsplit, List.map_append, List.pairwise_append] at hpairwise
    have hafter := (List.pairwise_cons.mp hpairwise.2.1).1 _ hlater
    obtain ⟨later, hmem, heq⟩ := List.mem_map.mp hlater
    have hlaterne := heq ▸ hne later (List.mem_cons_of_mem _ hmem)
    exact hprecedes.asymm hlaterne hcandidate hafter

/-- A record is shown in its group, or it is rare and two groups are shown in front. -/
theorem mem_displayableFrom_or_rare {shown : Nat} {score : Double} {items : List Record}
    (rest : List (Double × List Record)) {r : Record} (hr : r ∈ items) :
    (∃ g ∈ displayableFrom shown ((score, items) :: rest), g.score = score ∧ entryOf r ∈ g.entries) ∨
      isRareOnly r ∧ 2 ≤ shown := by
  by_cases hrare : isRareOnly r ∧ 2 ≤ shown
  · exact .inr hrare
  · have hentry : entryOf r ∈ entriesAfter shown items := by
      refine List.mem_map_of_mem (List.mem_filter.mpr ⟨hr, ?_⟩)
      rw [Bool.not_eq_true', Bool.and_eq_false_iff, decide_eq_false_iff_not]
      by_cases hr' : isRareOnly r
      · exact .inl fun hshown => hrare ⟨hr', hshown⟩
      · exact .inr (Bool.eq_false_iff.mpr hr')
    rw [displayableFrom, if_neg (by simpa using List.ne_nil_of_mem hentry)]
    exact .inl ⟨_, List.mem_cons_self, rfl, hentry⟩

/-- What is left of the variants is listed, unless it is rare and behind two groups. -/
theorem listed_or_suppressed {label : String} {scored : List (Scored Record)}
    {options : ListingOptions} (hwhole : (build label scored options).truncated = false)
    {t : Scored Record} (ht : t ∈ survivors options.direction scored) :
    (build label scored options).Displays t ∨
      Suppressed options.direction (build label scored options) t := by
  have hgroups : (build label scored options).groups =
      displayableFrom 0 (candidates options.direction scored) :=
    takeGroups_eq_displayableFrom hwhole
  obtain ⟨⟨score, items⟩, hg, rfl, hitem⟩ := exists_mem_grouped isListed_of_mem_survivors ht
  obtain ⟨front, rest, hsplit⟩ := List.append_of_mem hg
  have hsplit : candidates options.direction scored = front ++ (t.score, items) :: rest := hsplit
  rw [hsplit, displayableFrom_append, Nat.zero_add] at hgroups
  rcases mem_displayableFrom_or_rare rest hitem with ⟨g, hg, hscore, hentry⟩ | ⟨hrare, htwo⟩
  · exact .inl ⟨g, hgroups ▸ List.mem_append_right _ hg, hscore, hentry⟩
  · have hprecedes : ∀ g ∈ displayableFrom 0 front, options.direction.Precedes g.score t.score :=
      fun g => precedes_of_mem_displayableFrom hsplit
    match hfront : displayableFrom 0 front, htwo with
    | first :: second :: more, _ =>
      rw [hfront] at hgroups hprecedes
      exact .inr ⟨hrare, first, second, _, hgroups, hprecedes first List.mem_cons_self,
        hprecedes second (List.mem_cons_of_mem _ List.mem_cons_self)⟩

/-- Where a listing leaves nothing out, a record with a score that counts is listed, or has made way
for another that is listed, or that is rare and suppressed. -/
theorem build_stand_in {label : String} {scored : List (Scored Record)} {options : ListingOptions}
    (hwhole : (build label scored options).truncated = false) {s : Scored Record} (hs : s ∈ scored)
    (hlisted : isListed s) (hrare : isRareOnly s.item = false) :
    (build label scored options).Displays s ∨
      ∃ t ∈ scored, t ≠ s ∧ MakesWay scored s t ∧
        ((build label scored options).Displays t ∨
          Suppressed options.direction (build label scored options) t) := by
  obtain ⟨t, ht, hway⟩ := exists_survivor options.direction hs hlisted
  by_cases heq : t = s
  · subst heq
    refine .inl ((listed_or_suppressed hwhole ht).resolve_right fun hsuppressed => ?_)
    rw [hsuppressed.1] at hrare
    cases hrare
  · exact .inr ⟨t, (mem_of_mem_survivors ht).1, heq, hway, listed_or_suppressed hwhole ht⟩

/-! ## A record without a listed stand-in -/

/-- A helm with a name, a link, a level and tags. -/
def helm (name link : String) (level : UInt8) (tagSet : List TagGroup) : Record where
  name
  title := name
  link
  family := name
  category := .accessory
  itemType := "helm"
  level
  tagSet
  bonuses := []
  resists := []
  damage := []
  elements := []
  specials := none
  skill := none
  images := []
  modifies := none
  colorCustom := none

/-- A hood with the link of a mask that makes way for another mask. -/
def hood : Scored Record := ⟨helm "hood" "a" 10 [], 5⟩

/-- A veil that makes way for a rare horn. -/
def veil : Scored Record := ⟨helm "veil" "d" 10 [], 3⟩

/-- Helms in the order of a listing. The higher mask has a link of its own, and the horn is third. -/
def helms : List (Scored Record) :=
  [⟨helm "mask" "b" 30 [], 5⟩, ⟨helm "mask" "a" 20 [], 5⟩, hood, ⟨helm "crown" "c" 10 [], 4⟩, veil,
    ⟨helm "horn" "d" 20 [⟨["rare"]⟩], 2⟩]

theorem sorted_helms : sorted .descending (helms.filter isListed) = helms := by
  have hlisted : helms.filter isListed = helms := by decide +kernel
  rw [hlisted]
  exact List.mergeSort_of_pairwise (by decide +kernel)

theorem build_helms :
    build "INT" helms {} =
      ⟨"INT", .descending, [⟨5, [⟨"mask", "b", 30⟩]⟩, ⟨4, [⟨"crown", "c", 10⟩]⟩], false⟩ := by
  rw [build, candidates, sorted_helms]
  decide +kernel

theorem build_stand_in_hood :
    ((build "INT" helms {}).truncated = false ∧ hood ∈ helms ∧ isListed hood ∧
        isRareOnly hood.item = false) ∧
      ((build "INT" helms {}).Displays hood ∨
        ∃ t ∈ helms, t ≠ hood ∧ MakesWay helms hood t ∧
          ((build "INT" helms {}).Displays t ∨
            Suppressed .descending (build "INT" helms {}) t)) := by
  have hwhole : (build "INT" helms {}).truncated = false := by rw [build_helms]
  have hmem : hood ∈ helms := by decide +kernel
  have hlisted : isListed hood := by decide +kernel
  have hrare : isRareOnly hood.item = false := by decide +kernel
  exact ⟨⟨hwhole, hmem, hlisted, hrare⟩, build_stand_in hwhole hmem hlisted hrare⟩

/-- Neither the hood nor the veil is listed, and nothing listed has the link or the name of either. -/
theorem build_drops_without_stand_in :
    (build "INT" helms {}).truncated = false ∧
      ∀ s ∈ [hood, veil], s ∈ helms ∧ isListed s ∧ isRareOnly s.item = false ∧
        ¬ ((build "INT" helms {}).Displays s ∨
          ∃ t ∈ helms, (build "INT" helms {}).Displays t ∧
            (t.item.link = s.item.link ∨ t.item.name = s.item.name) ∧
            s.item.level ≤ t.item.level) := by
  rw [build_helms]
  decide +kernel

end ItemCatalog.Listing
