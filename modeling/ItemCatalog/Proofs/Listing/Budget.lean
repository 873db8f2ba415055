import Mathlib.Data.List.Infix
import ItemCatalog.Proofs.Listing.Duplicates
import ItemCatalog.Proofs.Listing.Grouping

/-!
# The limits of a listing

A listing walks over the groups of candidates with two counters, for the groups shown and for the
characters taken. Behind the second group rare items are suppressed, and groups of nothing else with
them; `displayableFrom` are the groups that are left. `Shows` says what a listing shows of these, and
the laws of the limits follow from it by induction.

Results:
1. `countFitting_spec`: `fitEntries` keeps the longest prefix of the entries that fits.
2. `firstStep`, `shows_takeGroups`: what a listing does with a candidate, and with all groups that can
   be displayed.
3. `candidates_ne_nil`: a score that counts is not lost on the way to the groups.
4. `build_greedy`: a listing is within its limits, and what is left out does not fit.
-/

namespace ItemCatalog.Listing

/-! ## Definitions -/

/-- The groups that can be displayed behind `shown` others. -/
def displayableFrom (shown : Nat) : List (Double × List Record) → List ScoreGroup
  | [] => []
  | (score, items) :: rest =>
    let entries := entriesAfter shown items
    if entries.isEmpty then displayableFrom shown rest
    else ⟨score, entries⟩ :: displayableFrom (shown + 1) rest

/-- The groups that a listing of scored records would show without limits. -/
def displayable (d : Direction) (scored : List (Scored Record)) : List ScoreGroup :=
  displayableFrom 0 (candidates d scored)

/-- How many characters texts take with a separator in front of each, the first one excepted when
`first` says that nothing is in front of it. -/
def addedLength (separator : String) (first : Bool) : List String → Nat
  | [] => 0
  | text :: rest =>
    text.length + (if first then 0 else separator.length) + addedLength separator false rest

/-- How many characters the line of a group takes behind `shown` others. -/
def lineLength (shown : Nat) (g : ScoreGroup) : Nat :=
  g.render.length + if shown = 0 then 0 else 1

/-- `Shows options shown used groups out`: behind `shown` groups that take `used` characters, a listing
shows `out` of the displayable `groups`. -/
inductive Shows (options : ListingOptions) :
    Nat → Nat → List ScoreGroup → List ScoreGroup → Prop
  /-- There are no more groups. -/
  | done {shown used : Nat} : Shows options shown used [] []
  /-- There is no room for another group. -/
  | full {shown used : Nat} {groups : List ScoreGroup} :
      options.maxGroups ≤ shown → Shows options shown used groups []
  /-- The group fits. -/
  | whole {shown used : Nat} {g : ScoreGroup} {groups out : List ScoreGroup} :
      shown < options.maxGroups → used + lineLength shown g ≤ options.maxChars →
      Shows options (shown + 1) (used + lineLength shown g) groups out →
      Shows options shown used (g :: groups) (g :: out)
  /-- The group does not fit. -/
  | rest {shown used : Nat} {g : ScoreGroup} {groups : List ScoreGroup} :
      0 < shown → shown < options.maxGroups →
      options.maxChars < used + lineLength shown g → Shows options shown used (g :: groups) []
  /-- The first group does not fit and is cut. -/
  | cut {used : Nat} {g : ScoreGroup} {groups : List ScoreGroup} :
      0 < options.maxGroups → options.maxChars < used + lineLength 0 g →
      Shows options 0 used (g :: groups) (fitEntries g options.maxChars)

/-! ## Lengths of joined texts -/

theorem addedLength_false (separator : String) (texts : List String) (h : texts ≠ []) :
    addedLength separator false texts = addedLength separator true texts + separator.length := by
  cases texts with
  | nil => exact absurd rfl h
  | cons text rest =>
    simp only [addedLength, if_true, Bool.false_eq_true, if_false]
    omega

theorem length_intercalate (separator : String) (texts : List String) :
    (separator.intercalate texts).length = addedLength separator true texts := by
  induction texts with
  | nil => rfl
  | cons text rest ih =>
    cases rest with
    | nil => simp [addedLength]
    | cons next rest =>
      have hsecond := addedLength_false separator (next :: rest) (List.cons_ne_nil next rest)
      have hfirst : addedLength separator true (text :: next :: rest) =
          text.length + addedLength separator false (next :: rest) := rfl
      rw [String.intercalate_cons_cons, String.length_append, String.length_append, ih, hfirst,
        hsecond]
      omega

theorem addedLength_lines_cons (shown : Nat) (g : ScoreGroup) (out : List ScoreGroup) :
    addedLength "\n" (shown = 0) ((g :: out).map ScoreGroup.render) =
      lineLength shown g + addedLength "\n" (shown + 1 = 0) (out.map ScoreGroup.render) := by
  have hsep : ("\n" : String).length = 1 := rfl
  rw [List.map_cons, addedLength, lineLength, hsep]
  simp

/-! ## Cutting a group -/

theorem countFitting_le (budget used : Nat) (first : Bool) (entries : List ListingEntry) :
    countFitting budget used first entries ≤ entries.length := by
  induction entries generalizing used first with
  | nil => exact Nat.le_refl 0
  | cons e rest ih =>
    rw [countFitting]
    by_cases hfit : budget < used + e.title.length + if first then 0 else 2
    · rw [if_pos hfit]
      exact Nat.zero_le _
    · rw [if_neg hfit]
      exact Nat.succ_le_succ (ih _ _)

/-- The entries counted are those that fit. The titles shown grow with each entry, so the first that
does not fit ends the count for good. -/
theorem countFitting_spec (budget used : Nat) (first : Bool) (entries : List ListingEntry) {n : Nat}
    (hn : 1 ≤ n) (hlen : n ≤ entries.length) :
    used + addedLength ", " first ((entries.take n).map (·.title)) ≤ budget ↔
      n ≤ countFitting budget used first entries := by
  induction entries generalizing used first n with
  | nil =>
    rw [List.length_nil] at hlen
    omega
  | cons e rest ih =>
    obtain ⟨m, rfl⟩ := Nat.exists_eq_add_of_le' hn
    have hsep : (", " : String).length = 2 := rfl
    rw [List.take_succ_cons, List.map_cons, addedLength, hsep, countFitting]
    by_cases hfit : budget < used + e.title.length + if first then 0 else 2
    · rw [if_pos hfit]
      omega
    · rw [if_neg hfit]
      cases m with
      | zero =>
        simp only [List.take_zero, List.map_nil, addedLength]
        omega
      | succ m =>
        have hrest := ih (used + e.title.length + if first then 0 else 2) false
          (Nat.le_add_left 1 m) (Nat.le_of_succ_le_succ hlen)
        omega

theorem length_render_take (score : Double) (entries : List ListingEntry) :
    (ScoreGroup.render ⟨score, entries⟩).length =
      (ScoreGroup.heading score).length + addedLength ", " true (entries.map (·.title)) := by
  rw [ScoreGroup.render, String.length_append, length_intercalate]

/-- A cut group keeps the longest prefix of its entries that fits. -/
theorem fitEntries_spec (g : ScoreGroup) (budget : Nat) :
    ∃ keep ≤ g.entries.length,
      fitEntries g budget = (if keep = 0 then [] else [⟨g.score, g.entries.take keep⟩]) ∧
      ∀ n, 1 ≤ n → n ≤ g.entries.length →
        ((ScoreGroup.render ⟨g.score, g.entries.take n⟩).length ≤ budget ↔ n ≤ keep) := by
  refine ⟨countFitting budget (ScoreGroup.heading g.score).length true g.entries,
    countFitting_le _ _ _ _, ?_, fun n hn hlen => ?_⟩
  · unfold fitEntries
    split
    next h => rw [h, if_pos rfl]
    next h => rw [if_neg h]
  · rw [length_render_take]
    exact countFitting_spec _ _ _ _ hn hlen

theorem fitEntries_render_le {g cut : ScoreGroup} {budget : Nat} (h : cut ∈ fitEntries g budget) :
    cut.render.length ≤ budget := by
  obtain ⟨keep, hle, heq, hspec⟩ := fitEntries_spec g budget
  rw [heq] at h
  split at h
  next => cases h
  next hkeep =>
    obtain rfl := List.mem_singleton.mp h
    exact (hspec keep (Nat.one_le_iff_ne_zero.mpr hkeep) hle).mpr (Nat.le_refl keep)

theorem fitEntries_length_le (g : ScoreGroup) (budget : Nat) : (fitEntries g budget).length ≤ 1 := by
  unfold fitEntries
  split
  · exact Nat.zero_le 1
  · exact Nat.le_refl 1

/-! ## Walking over the groups -/

/-- `FirstStep options shown used candidate`: what a listing does with a candidate behind `shown` groups
that take `used` characters, whatever candidates follow. -/
inductive FirstStep (options : ListingOptions) (shown used : Nat) (candidate : Double × List Record) :
    Prop
  /-- There is no room for another group. -/
  | full : options.maxGroups ≤ shown →
      (∀ rest, takeGroups options shown used (candidate :: rest) = ([], true)) →
      FirstStep options shown used candidate
  /-- All items are suppressed. -/
  | suppressed : shown < options.maxGroups →
      (∀ rest, displayableFrom shown (candidate :: rest) = displayableFrom shown rest) →
      (∀ rest, takeGroups options shown used (candidate :: rest) =
        takeGroups options shown used rest) →
      FirstStep options shown used candidate
  /-- The group fits. -/
  | whole (g : ScoreGroup) : shown < options.maxGroups →
      used + lineLength shown g ≤ options.maxChars →
      (∀ rest, displayableFrom shown (candidate :: rest) = g :: displayableFrom (shown + 1) rest) →
      (∀ rest, takeGroups options shown used (candidate :: rest) =
        (g :: (takeGroups options (shown + 1) (used + lineLength shown g) rest).1,
          (takeGroups options (shown + 1) (used + lineLength shown g) rest).2)) →
      FirstStep options shown used candidate
  /-- The group does not fit. The first one is cut. -/
  | tooLong (g : ScoreGroup) : shown < options.maxGroups →
      options.maxChars < used + lineLength shown g →
      (∀ rest, displayableFrom shown (candidate :: rest) = g :: displayableFrom (shown + 1) rest) →
      (∀ rest, takeGroups options shown used (candidate :: rest) =
        (if shown = 0 then fitEntries g options.maxChars else [], true)) →
      FirstStep options shown used candidate

theorem firstStep (options : ListingOptions) (shown used : Nat) (candidate : Double × List Record) :
    FirstStep options shown used candidate := by
  obtain ⟨score, items⟩ := candidate
  by_cases hfull : options.maxGroups ≤ shown
  · exact .full hfull fun rest => by rw [takeGroups, if_pos hfull]
  · have hroom : shown < options.maxGroups := Nat.lt_of_not_le hfull
    by_cases hempty : (entriesAfter shown items).isEmpty
    · exact .suppressed hroom (fun rest => by rw [displayableFrom, if_pos hempty])
        fun rest => by rw [takeGroups, if_neg hfull, if_pos hempty]
    · have hdisplayable : ∀ rest, displayableFrom shown ((score, items) :: rest) =
          ⟨score, entriesAfter shown items⟩ :: displayableFrom (shown + 1) rest := fun rest => by
        rw [displayableFrom, if_neg hempty]
      -- The line of a group is its text, and the newline in front unless it is the first.
      have hused : used + (ScoreGroup.render ⟨score, entriesAfter shown items⟩).length +
          (if shown = 0 then 0 else 1) =
          used + lineLength shown ⟨score, entriesAfter shown items⟩ := Nat.add_assoc _ _ _
      by_cases hlong : options.maxChars < used + lineLength shown ⟨score, entriesAfter shown items⟩
      · refine .tooLong _ hroom hlong hdisplayable fun rest => ?_
        rw [takeGroups, if_neg hfull, if_neg hempty]
        simp only [hused]
        rw [if_pos hlong]
      · refine .whole _ hroom (Nat.le_of_not_lt hlong) hdisplayable fun rest => ?_
        rw [takeGroups, if_neg hfull, if_neg hempty]
        simp only [hused]
        rw [if_neg hlong]

/-- Groups of suppressed items are walked over; of the others a listing shows what `Shows` says. -/
theorem shows_takeGroups (options : ListingOptions) (shown used : Nat)
    (candidates : List (Double × List Record)) :
    Shows options shown used (displayableFrom shown candidates)
      (takeGroups options shown used candidates).1 := by
  induction candidates generalizing shown used with
  | nil => exact .done
  | cons candidate rest ih =>
    cases firstStep options shown used candidate with
    | full hfull htake =>
      rw [htake]
      exact .full hfull
    | suppressed _ hdisplayable htake =>
      rw [htake, hdisplayable]
      exact ih shown used
    | whole g hroom hfit hdisplayable htake =>
      rw [htake, hdisplayable]
      exact .whole hroom hfit (ih _ _)
    | tooLong g hroom hlong hdisplayable htake =>
      rw [htake, hdisplayable]
      by_cases hfirst : shown = 0
      · subst hfirst
        exact .cut hroom hlong
      · rw [if_neg hfirst]
        exact .rest (Nat.pos_of_ne_zero hfirst) hroom hlong

/-- There are no more groups than there is room for. -/
theorem Shows.length_le {options : ListingOptions} {shown used : Nat}
    {groups out : List ScoreGroup} (h : Shows options shown used groups out)
    (hs : shown ≤ options.maxGroups) : shown + out.length ≤ options.maxGroups := by
  induction h with
  | done | full | rest => exact hs
  | whole hroom _ _ ih =>
    have := ih hroom
    rw [List.length_cons]
    omega
  | @cut _ g _ hroom _ =>
    have := fitEntries_length_le g options.maxChars
    omega

/-- The text has no more characters than there is room for: `used` counts what it has. -/
theorem Shows.length_render_le {options : ListingOptions} {shown used : Nat}
    {groups out : List ScoreGroup} (h : Shows options shown used groups out)
    (hu : used ≤ options.maxChars) (hzero : shown = 0 → used = 0) :
    used + addedLength "\n" (shown = 0) (out.map ScoreGroup.render) ≤ options.maxChars := by
  induction h with
  | done | full | rest => exact hu
  | @whole shown used g groups out _ hfit _ ih =>
    rw [addedLength_lines_cons, ← Nat.add_assoc]
    exact ih hfit nofun
  | @cut used g groups _ _ =>
    have hle := fitEntries_length_le g options.maxChars
    cases hout : fitEntries g options.maxChars with
    | nil => exact hu
    | cons shownPart more =>
      rw [hout, List.length_cons] at hle
      obtain rfl : more = [] := List.length_eq_zero_iff.mp (by omega)
      have hfit := fitEntries_render_le (hout ▸ List.mem_cons_self)
      rw [hzero rfl, Nat.zero_add]
      exact hfit

/-- Behind another group the groups are shown in order, up to the limit on their number or up to the
first whose line does not fit. -/
theorem Shows.greedy {options : ListingOptions} {shown used : Nat}
    {groups out : List ScoreGroup} (h : Shows options shown used groups out) (hs : 0 < shown) :
    out <+: groups ∧ ∀ next, shown + out.length < options.maxGroups →
      groups[out.length]? = some next →
      options.maxChars < used + addedLength "\n" (shown = 0) (out.map ScoreGroup.render) +
        (1 + next.render.length) := by
  induction h with
  | done => exact ⟨List.prefix_refl [], nofun⟩
  | full hfull => exact ⟨List.nil_prefix, fun next hlt _ => absurd hlt (Nat.not_lt.mpr hfull)⟩
  | @whole shown used g groups out _ _ _ ih =>
    obtain ⟨hbegin, hnext⟩ := ih (Nat.succ_pos shown)
    refine ⟨List.cons_prefix_cons.mpr ⟨rfl, hbegin⟩, fun next hlt hat => ?_⟩
    rw [addedLength_lines_cons, ← Nat.add_assoc used]
    rw [List.length_cons] at hlt hat
    exact hnext next (by omega) (by simpa using hat)
  | @rest shown used g groups hshown _ hlong =>
    refine ⟨List.nil_prefix, fun next _ hat => ?_⟩
    obtain rfl : g = next := by simpa using hat
    rw [lineLength, if_neg (Nat.pos_iff_ne_zero.mp hshown)] at hlong
    simp only [List.map_nil, addedLength]
    omega
  | cut => exact absurd hs (Nat.lt_irrefl 0)

/-! ## No score is lost -/

/-- Of scores that count some come out on top. -/
theorem candidates_ne_nil {d : Direction} {scored : List (Scored Record)} {s : Scored Record}
    (hs : s ∈ scored) (hlisted : isListed s) : candidates d scored ≠ [] := by
  have hfilter : s ∈ scored.filter isListed := List.mem_filter.mpr ⟨hs, hlisted⟩
  have hsorted : s ∈ sorted d (scored.filter isListed) :=
    (sorted_perm _ _).mem_iff.mpr hfilter
  exact grouped_ne_nil (keepHighestLevel_ne_nil _ (keepHighestLevel_ne_nil _
    (List.ne_nil_of_mem hsorted)))

/-- Nothing is suppressed in front, so the first candidates are shown or left out for want of room. -/
theorem takeGroups_ne_nil_or_truncated (options : ListingOptions)
    {groups : List (Double × List Record)} (hne : groups ≠ []) (hitems : ∀ g ∈ groups, g.2 ≠ []) :
    (takeGroups options 0 0 groups).1 ≠ [] ∨ (takeGroups options 0 0 groups).2 = true := by
  cases groups with
  | nil => exact absurd rfl hne
  | cons g rest =>
    obtain ⟨score, items⟩ := g
    have hentries : ¬ (entriesAfter 0 items).isEmpty := by
      have := hitems (score, items) List.mem_cons_self
      simpa [entriesAfter] using this
    rw [takeGroups]
    by_cases hfull : options.maxGroups ≤ 0
    · rw [if_pos hfull]
      exact .inr rfl
    · rw [if_neg hfull, if_neg hentries]
      simp only [if_true]
      split
      · exact .inr rfl
      · exact .inl (List.cons_ne_nil _ _)

/-! ## The limits -/

/-- What the limits of a listing mean for the groups that can be displayed. -/
structure Greedy (options : ListingOptions) (groups : List ScoreGroup) (l : Listing) : Prop where
  /-- There are no more groups than allowed. -/
  length_groups_le : l.groups.length ≤ options.maxGroups
  /-- There are no more characters than allowed. -/
  length_render_le : l.render.length ≤ options.maxChars
  /-- When the first group is shown whole, so are those behind it, up to the limit on their number or
  up to the first whose line does not fit. -/
  next_over : ∀ first, groups.head? = some first → l.groups.head? = some first →
    l.groups <+: groups ∧ ∀ next, l.groups.length < options.maxGroups →
      groups[l.groups.length]? = some next →
      options.maxChars < (l.render ++ "\n" ++ next.render).length
  /-- The first group is shown whole when it fits. -/
  first_whole : ∀ first, groups.head? = some first → 1 ≤ options.maxGroups →
    first.render.length ≤ options.maxChars → l.groups.head? = some first
  /-- When it does not, the longest prefix of its entries that fits is all that is shown. -/
  first_cut : ∀ first, groups.head? = some first → 1 ≤ options.maxGroups →
    options.maxChars < first.render.length →
    ∃ keep ≤ first.entries.length,
      l.groups = (if keep = 0 then [] else [⟨first.score, first.entries.take keep⟩]) ∧
      ∀ n, 1 ≤ n → n ≤ first.entries.length →
        ((ScoreGroup.render ⟨first.score, first.entries.take n⟩).length ≤ options.maxChars ↔
          n ≤ keep)

/-- A group that fits is shown first. -/
theorem Shows.first_whole {options : ListingOptions} {first : ScoreGroup}
    {groups out : List ScoreGroup} (h : Shows options 0 0 (first :: groups) out)
    (hroom : 0 < options.maxGroups) (hfit : first.render.length ≤ options.maxChars) :
    ∃ more, out = first :: more ∧ Shows options 1 (0 + lineLength 0 first) groups more := by
  have hline : lineLength 0 first = first.render.length := rfl
  cases h with
  | full hfull => exact absurd hroom (Nat.not_lt.mpr hfull)
  | whole _ _ hmore => exact ⟨_, rfl, hmore⟩
  | rest hs _ _ => exact absurd hs (Nat.lt_irrefl 0)
  | cut _ hlong => omega

/-- A group that does not fit is cut. -/
theorem Shows.first_cut {options : ListingOptions} {first : ScoreGroup}
    {groups out : List ScoreGroup} (h : Shows options 0 0 (first :: groups) out)
    (hroom : 0 < options.maxGroups) (hlong : options.maxChars < first.render.length) :
    out = fitEntries first options.maxChars := by
  have hline : lineLength 0 first = first.render.length := rfl
  cases h with
  | full hfull => exact absurd hroom (Nat.not_lt.mpr hfull)
  | whole _ hfit _ => omega
  | rest hs _ _ => exact absurd hs (Nat.lt_irrefl 0)
  | cut _ _ => rfl

/-- A first group that is shown as it is was not cut: a cut group fits, and one that fits is whole. -/
theorem Shows.behind_first {options : ListingOptions} {first : ScoreGroup}
    {groups out : List ScoreGroup} (h : Shows options 0 0 (first :: groups) out)
    (hshown : out.head? = some first) :
    ∃ more, out = first :: more ∧ Shows options 1 (0 + lineLength 0 first) groups more := by
  have hroom : 0 < options.maxGroups := by
    have := h.length_le (Nat.zero_le _)
    have := List.length_pos_of_mem (List.mem_of_head? hshown)
    omega
  refine h.first_whole hroom ?_
  by_contra hlong
  rw [h.first_cut hroom (Nat.lt_of_not_le hlong)] at hshown
  exact hlong (fitEntries_render_le (List.mem_of_head? hshown))

theorem length_render (l : Listing) :
    l.render.length = addedLength "\n" true (l.groups.map ScoreGroup.render) :=
  length_intercalate "\n" (l.groups.map ScoreGroup.render)

/-- What `Shows` says of all groups is greedy. -/
theorem greedy_of_shows {options : ListingOptions} {groups : List ScoreGroup} {l : Listing}
    (h : Shows options 0 0 groups l.groups) : Greedy options groups l where
  length_groups_le := by
    have := h.length_le (Nat.zero_le _)
    omega
  length_render_le := by
    have := h.length_render_le (Nat.zero_le _) fun _ => rfl
    rw [length_render]
    rwa [Nat.zero_add] at this
  next_over first hfirst hshown := by
    obtain ⟨rest, rfl⟩ := List.head?_eq_some_iff.mp hfirst
    obtain ⟨more, hout, hmore⟩ := h.behind_first hshown
    obtain ⟨hbegin, hnext⟩ := hmore.greedy (Nat.lt_succ_self 0)
    have hlines : addedLength "\n" true ((first :: more).map ScoreGroup.render) =
        lineLength 0 first + addedLength "\n" (1 = 0) (more.map ScoreGroup.render) :=
      addedLength_lines_cons 0 first more
    have hsep : ("\n" : String).length = 1 := rfl
    refine ⟨hout ▸ List.cons_prefix_cons.mpr ⟨rfl, hbegin⟩, fun next hlt hat => ?_⟩
    rw [hout, List.length_cons] at hlt hat
    have hlong := hnext next (by omega) (by simpa using hat)
    rw [String.length_append, String.length_append, length_render, hout, hlines, hsep]
    omega
  first_whole first hfirst hroom hfit := by
    obtain ⟨rest, rfl⟩ := List.head?_eq_some_iff.mp hfirst
    obtain ⟨more, hout, _⟩ := h.first_whole hroom hfit
    rw [hout]
    rfl
  first_cut first hfirst hroom hlong := by
    obtain ⟨rest, rfl⟩ := List.head?_eq_some_iff.mp hfirst
    rw [h.first_cut hroom hlong]
    exact fitEntries_spec first options.maxChars

/-- A listing keeps within its limits and leaves out only what does not fit. A score that is finite
and not zero is shown, or the listing says that something was left out. -/
theorem build_greedy (label : String) (scored : List (Scored Record)) (options : ListingOptions) :
    Greedy options (displayable options.direction scored) (build label scored options) ∧
      ((∃ s ∈ scored, s.score.isFinite ∧ s.score.same .zero = false) →
        (build label scored options).groups ≠ [] ∨ (build label scored options).truncated) := by
  refine ⟨greedy_of_shows (shows_takeGroups options 0 0 _), ?_⟩
  rintro ⟨s, hs, hfinite, hzero⟩
  have hlisted : isListed s := by simp [isListed, hfinite, hzero]
  exact takeGroups_ne_nil_or_truncated options (candidates_ne_nil hs hlisted)
    fun g hg => items_ne_nil_of_mem_grouped hg

end ItemCatalog.Listing
