import ItemCatalog.Proofs.Listing.StandIn

/-!
# When a listing is marked as truncated

A listing is marked when the walk over the candidates ends early. Where it ends for want of
characters, a group that can be displayed is lost. Where it ends because there are as many groups as
allowed, the candidates behind may all be suppressed, and then a listing without limits shows the
same.

Results:
1. `takeGroups_of_room`: limits that are wide enough leave nothing out.
2. `takeGroups_cut_or_full`: why a walk ends early.
3. `build_truncated_iff`: what the mark means.
4. `build_marks_suppressed`: a mark where nothing is left out.
-/

namespace ItemCatalog.Listing

/-! ## Definitions -/

/-- There are as many groups as allowed, and behind all of them comes a rare record that is left of
its variants. -/
def FullBeforeRare (options : ListingOptions) (scored : List (Scored Record)) (l : Listing) : Prop :=
  l.groups.length = options.maxGroups ∧
    ∃ t ∈ survivors options.direction scored, isRareOnly t.item ∧
      ∀ g ∈ l.groups, options.direction.Precedes g.score t.score

/-! ## Wide limits -/

/-- With room for each candidate, and for the lines of all groups that can be displayed, nothing is
left out. -/
theorem takeGroups_of_room {options : ListingOptions} {shown used : Nat}
    {groups : List (Double × List Record)} (hgroups : shown + groups.length ≤ options.maxGroups)
    (hchars : used + addedLength "\n" (shown = 0) ((displayableFrom shown groups).map
      ScoreGroup.render) ≤ options.maxChars) :
    takeGroups options shown used groups = (displayableFrom shown groups, false) := by
  induction groups generalizing shown used with
  | nil => rfl
  | cons candidate rest ih =>
    rw [List.length_cons] at hgroups
    cases firstStep options shown used candidate with
    | full hfull _ => omega
    | suppressed _ hdisplayable htake =>
      rw [hdisplayable] at hchars ⊢
      rw [htake]
      exact ih (by omega) hchars
    | whole g _ _ hdisplayable htake =>
      rw [hdisplayable, addedLength_lines_cons, ← Nat.add_assoc] at hchars
      rw [htake, hdisplayable, ih (by omega) hchars]
    | tooLong g _ hlong hdisplayable _ =>
      rw [hdisplayable, addedLength_lines_cons] at hchars
      omega

/-- From some limits on, a listing shows all groups that can be displayed and is not marked. -/
theorem exists_bound_build (label : String) (d : Direction) (scored : List (Scored Record)) :
    ∃ bound, ∀ wide : ListingOptions, wide.direction = d → bound ≤ wide.maxChars →
      bound ≤ wide.maxGroups → build label scored wide = ⟨label, d, displayable d scored, false⟩ := by
  refine ⟨max (candidates d scored).length
    (addedLength "\n" true ((displayable d scored).map ScoreGroup.render)), ?_⟩
  rintro wide rfl hchars hgroups
  have hall : takeGroups wide 0 0 (candidates wide.direction scored) =
      (displayable wide.direction scored, false) := by
    refine takeGroups_of_room ?_ ?_
    · exact (Nat.zero_add _).trans_le (le_trans (le_max_left _ _) hgroups)
    · exact (Nat.zero_add _).trans_le (le_trans (le_max_right _ _) hchars)
  rw [build, hall]

theorem exists_bound_build_groups (label : String) (d : Direction) (scored : List (Scored Record)) :
    ∃ bound, ∀ wide : ListingOptions, wide.direction = d → bound ≤ wide.maxChars →
      bound ≤ wide.maxGroups → (build label scored wide).groups = displayable d scored := by
  obtain ⟨bound, hbound⟩ := exists_bound_build label d scored
  refine ⟨bound, fun wide hdirection hchars hgroups => ?_⟩
  rw [hbound wide hdirection hchars hgroups]

/-! ## Where a walk ends -/

/-- A walk that ends early has lost a group, or it is at the limit on their number with candidates
behind. A first group that is cut does not fit, so what is shown of it differs from it. -/
theorem takeGroups_cut_or_full {options : ListingOptions} {shown used : Nat}
    {groups : List (Double × List Record)} (hzero : shown = 0 → used = 0)
    (h : (takeGroups options shown used groups).2 = true) :
    (takeGroups options shown used groups).1 ≠ displayableFrom shown groups ∨
      ∃ front candidate rest, groups = front ++ candidate :: rest ∧
        (takeGroups options shown used groups).1 = displayableFrom shown front ∧
        options.maxGroups ≤ shown + (displayableFrom shown front).length := by
  induction groups generalizing shown used with
  | nil => cases h
  | cons candidate rest ih =>
    cases firstStep options shown used candidate with
    | full hfull htake =>
      rw [htake]
      exact .inr ⟨[], candidate, rest, rfl, rfl, hfull⟩
    | suppressed _ hdisplayable htake =>
      rw [htake] at h ⊢
      rcases ih hzero h with hlost | ⟨front, next, behind, rfl, hshown, hfull⟩
      · rw [hdisplayable]
        exact .inl hlost
      · refine .inr ⟨candidate :: front, next, behind, rfl, ?_, ?_⟩ <;> rwa [hdisplayable]
    | whole g _ _ hdisplayable htake =>
      rw [htake] at h ⊢
      have hlater : shown + 1 = 0 → used + lineLength shown g = 0 :=
        fun hsucc => absurd hsucc (Nat.succ_ne_zero shown)
      rcases ih hlater h with hlost | ⟨front, next, behind, rfl, hshown, hfull⟩
      · rw [hdisplayable]
        exact .inl fun heq => hlost (List.cons.inj heq).2
      · refine .inr ⟨candidate :: front, next, behind, rfl, ?_, ?_⟩
        · rw [hdisplayable, hshown]
        · rw [hdisplayable, List.length_cons]
          omega
    | tooLong g _ hlong hdisplayable htake =>
      rw [htake, hdisplayable]
      left
      by_cases hfirst : shown = 0
      · subst hfirst
        intro heq
        have hfits : g.render.length ≤ options.maxChars :=
          fitEntries_render_le (heq ▸ List.mem_cons_self)
        rw [hzero rfl, lineLength, if_pos rfl] at hlong
        omega
      · rw [if_neg hfirst]
        exact (List.cons_ne_nil _ _).symm

/-- A walk that does not end early has room for each candidate that it comes to. -/
theorem room_of_not_truncated {options : ListingOptions} {shown used : Nat}
    {front rest : List (Double × List Record)} {candidate : Double × List Record}
    (h : (takeGroups options shown used (front ++ candidate :: rest)).2 = false) :
    shown + (displayableFrom shown front).length < options.maxGroups := by
  induction front generalizing shown used with
  | nil =>
    rw [List.nil_append] at h
    cases firstStep options shown used candidate with
    | full _ htake =>
      rw [htake] at h
      cases h
    | suppressed hroom _ _ | whole _ hroom _ _ _ | tooLong _ hroom _ _ _ => exact hroom
  | cons first front ih =>
    rw [List.cons_append] at h
    cases firstStep options shown used first with
    | full _ htake | tooLong _ _ _ _ htake =>
      rw [htake] at h
      cases h
    | suppressed _ hdisplayable htake =>
      rw [htake] at h
      rw [hdisplayable]
      exact ih h
    | whole g _ _ hdisplayable htake =>
      rw [htake] at h
      have := ih h
      rw [hdisplayable, List.length_cons]
      omega

/-! ## What the mark means -/

variable {label : String} {scored : List (Scored Record)} {options : ListingOptions}

/-- A listing that is marked although nothing is lost ends in front of a rare record. -/
theorem fullBeforeRare_of_truncated (h : (build label scored options).truncated = true)
    (hall : (build label scored options).groups = displayable options.direction scored) :
    FullBeforeRare options scored (build label scored options) := by
  rcases takeGroups_cut_or_full (fun _ => rfl) h with hlost | ⟨front, ⟨score, items⟩, rest, hsplit,
    hshown, hfull⟩
  · exact absurd hall hlost
  · have hsplit : candidates options.direction scored = front ++ (score, items) :: rest := hsplit
    have hgroups : (build label scored options).groups = displayableFrom 0 front := hshown
    have hgreedy : Greedy options (displayable options.direction scored)
        (build label scored options) := greedy_of_shows (shows_takeGroups options 0 0 _)
    have hle := hgreedy.length_groups_le
    -- Nothing can be displayed from the candidate on, so its items are rare.
    have hnothing : displayableFrom (displayableFrom 0 front).length ((score, items) :: rest) = [] := by
      rw [hgroups, displayable, hsplit, displayableFrom_append, Nat.zero_add] at hall
      exact List.self_eq_append_right.mp hall
    have hcandidate : (score, items) ∈ candidates options.direction scored :=
      hsplit ▸ List.mem_append_right _ List.mem_cons_self
    obtain ⟨t, ht, rfl, hitem⟩ := exists_record_of_mem_grouped hcandidate
    refine ⟨Nat.le_antisymm hle ?_, t, ht, ?_, fun g hg => ?_⟩
    · rw [hgroups]
      omega
    · rcases mem_displayableFrom_or_rare rest hitem with ⟨g, hg, _⟩ | ⟨hrare, _⟩
      · rw [hnothing] at hg
        cases hg
      · exact hrare
    · exact precedes_of_mem_displayableFrom hsplit (hgroups ▸ hg)

/-- A listing with as many groups as allowed in front of a record is marked. -/
theorem truncated_of_fullBeforeRare
    (h : FullBeforeRare options scored (build label scored options)) :
    (build label scored options).truncated = true := by
  obtain ⟨hlength, t, ht, _, hbehind⟩ := h
  by_contra hmark
  have hwhole : (build label scored options).truncated = false := Bool.eq_false_iff.mpr hmark
  obtain ⟨candidate, hcandidate, hscore, _⟩ := exists_mem_grouped isListed_of_mem_survivors ht
  obtain ⟨front, rest, hsplit⟩ := List.append_of_mem hcandidate
  have hsplit : candidates options.direction scored = front ++ candidate :: rest := hsplit
  have hgroups : (build label scored options).groups =
      displayableFrom 0 (candidates options.direction scored) :=
    takeGroups_eq_displayableFrom hwhole
  have htake : (takeGroups options 0 0 (candidates options.direction scored)).2 = false := hwhole
  rw [hsplit] at htake
  have hroom := room_of_not_truncated htake
  rw [hsplit, displayableFrom_append, Nat.zero_add] at hgroups
  -- All groups come before the record, so none is made of its candidate or of one behind.
  have hnothing : displayableFrom (displayableFrom 0 front).length (candidate :: rest) = [] := by
    refine List.eq_nil_iff_forall_not_mem.mpr fun g hg => ?_
    have hprecedes := hbehind g (hgroups ▸ List.mem_append_right _ hg)
    exact not_precedes_of_mem_displayableFrom hsplit hg (hscore ▸ hprecedes)
  rw [hnothing, List.append_nil] at hgroups
  rw [hgroups] at hlength
  omega

/-- A listing is marked as truncated when its groups are not those of a listing with wide limits, and
also when it is full and a rare record comes behind its groups. -/
theorem build_truncated_iff (label : String) (scored : List (Scored Record))
    (options : ListingOptions) :
    ∃ bound, ∀ wide : ListingOptions, wide.direction = options.direction →
      bound ≤ wide.maxChars → bound ≤ wide.maxGroups →
      ((build label scored options).truncated ↔
        (build label scored options).groups ≠ (build label scored wide).groups ∨
          FullBeforeRare options scored (build label scored options)) := by
  obtain ⟨bound, hbound⟩ := exists_bound_build_groups label options.direction scored
  refine ⟨bound, fun wide hdirection hchars hgroups => ?_⟩
  rw [hbound wide hdirection hchars hgroups]
  constructor
  · intro h
    by_cases hall : (build label scored options).groups = displayable options.direction scored
    · exact .inr (fullBeforeRare_of_truncated h hall)
    · exact .inl hall
  · rintro (hlost | hfull)
    · by_contra hmark
      exact hlost (takeGroups_eq_displayableFrom (Bool.eq_false_iff.mpr hmark))
    · exact truncated_of_fullBeforeRare hfull

/-- Without limits there are two groups of helms: the horn behind them is rare. -/
theorem displayable_helms :
    displayable .descending helms =
      [⟨5, [⟨"mask", "b", 30⟩]⟩, ⟨4, [⟨"crown", "c", 10⟩]⟩] := by
  have hwhole : (build "INT" helms {}).truncated = false := by rw [build_helms]
  have hall : (build "INT" helms {}).groups = displayable .descending helms :=
    takeGroups_eq_displayableFrom hwhole
  rw [← hall, build_helms]

/-- With two groups allowed, the helms make the same groups. -/
theorem build_two_helms :
    build "INT" helms { maxGroups := 2 } =
      ⟨"INT", .descending, [⟨5, [⟨"mask", "b", 30⟩]⟩, ⟨4, [⟨"crown", "c", 10⟩]⟩], true⟩ := by
  rw [build, candidates, sorted_helms]
  decide +kernel

/-- A listing of two helms is marked although wide limits show no other groups. -/
theorem build_marks_suppressed :
    ¬ ∃ bound, ∀ wide : ListingOptions, wide.direction = .descending →
      bound ≤ wide.maxChars → bound ≤ wide.maxGroups →
      ((build "INT" helms { maxGroups := 2 }).truncated ↔
        (build "INT" helms { maxGroups := 2 }).groups ≠ (build "INT" helms wide).groups) := by
  rintro ⟨bound, hmark⟩
  obtain ⟨enough, hwide⟩ := exists_bound_build_groups "INT" .descending helms
  have hgroups := hwide { maxChars := max bound enough, maxGroups := max bound enough } rfl
    (le_max_right _ _) (le_max_right _ _)
  have hlost := (hmark { maxChars := max bound enough, maxGroups := max bound enough } rfl
    (le_max_left _ _) (le_max_left _ _)).mp (by rw [build_two_helms])
  rw [hgroups, displayable_helms, build_two_helms] at hlost
  exact hlost rfl

end ItemCatalog.Listing
