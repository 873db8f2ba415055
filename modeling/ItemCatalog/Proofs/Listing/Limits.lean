import ItemCatalog.Proofs.Listing.Shape

/-!
# Tighter limits

Two listings of the same records with different limits show the same groups until the tighter one
stops: up to there both have shown as many groups in as many characters. So the tighter one shows the
beginning of what the wider one shows, and where both show a group, as many groups are in front of it
and the same rare items are suppressed.

Results:
1. `leads_fitEntries_of_le`: a tighter budget cuts a group further.
2. `Shows.prefix_of_le`, `Shows.leads_of_le`: two walks in step, behind a group and from the start.
3. `Leads.suppressed_iff`: the suppressed items of a group that both show.
4. `build_leads_of_le`: tighter limits cut the tail of a listing.
-/

namespace ItemCatalog.Listing

/-! ## Two walks in step -/

/-- A tighter budget keeps fewer of the leading entries. -/
theorem leads_fitEntries_of_le (g : ScoreGroup) {budget more : Nat} (hle : budget ≤ more) :
    Leads (fitEntries g budget) (fitEntries g more) := by
  obtain ⟨keep, hkeep, heq, hfits⟩ := fitEntries_spec g budget
  obtain ⟨keepMore, _, heqMore, hfitsMore⟩ := fitEntries_spec g more
  rw [heq]
  split
  · exact .whole List.nil_prefix
  next hzero =>
    have hone : 1 ≤ keep := Nat.one_le_iff_ne_zero.mpr hzero
    have hmore : keep ≤ keepMore :=
      (hfitsMore keep hone hkeep).mp (((hfits keep hone hkeep).mpr (Nat.le_refl keep)).trans hle)
    have htake : g.entries.take keep = (g.entries.take keepMore).take keep := by
      rw [List.take_take, Nat.min_eq_left hmore]
    rw [heqMore, if_neg (Nat.ne_of_gt (hone.trans hmore)), htake]
    exact @Leads.cut ⟨g.score, g.entries.take keepMore⟩ [] keep hone

section

variable {tight wide : ListingOptions} (hchars : tight.maxChars ≤ wide.maxChars)
  (hgroups : tight.maxGroups ≤ wide.maxGroups)

include hchars hgroups

/-- Behind another group a walk with wider limits goes on at least as far. -/
theorem Shows.prefix_of_le {shown used : Nat} {groups out more : List ScoreGroup}
    (h : Shows tight shown used groups out) (hw : Shows wide shown used groups more)
    (hs : 0 < shown) : out <+: more := by
  induction h generalizing more with
  | done | full | rest => exact List.nil_prefix
  | whole hroom hfit _ ih =>
    cases hw with
    | full hfull => exact absurd (hroom.trans_le hgroups) (Nat.not_lt.mpr hfull)
    | whole _ _ hmore => exact List.cons_prefix_cons.mpr ⟨rfl, ih hmore (Nat.succ_pos _)⟩
    | rest _ _ hlong => exact absurd (hfit.trans hchars) (Nat.not_le.mpr hlong)
    | cut => exact absurd hs (Nat.lt_irrefl 0)
  | cut => exact absurd hs (Nat.lt_irrefl 0)

/-- From the start the tighter walk may also cut the first group, which the wider one shows whole or
cuts behind more entries. -/
theorem Shows.leads_of_le {used : Nat} {groups out more : List ScoreGroup}
    (h : Shows tight 0 used groups out) (hw : Shows wide 0 used groups more) : Leads out more := by
  cases h with
  | done | full => exact .whole List.nil_prefix
  | whole hroom hfit hrest =>
    cases hw with
    | full hfull => exact absurd (hroom.trans_le hgroups) (Nat.not_lt.mpr hfull)
    | whole _ _ hmore =>
      have hbegin := hrest.prefix_of_le hchars hgroups hmore Nat.zero_lt_one
      exact .whole (List.cons_prefix_cons.mpr ⟨rfl, hbegin⟩)
    | rest hs => exact absurd hs (Nat.lt_irrefl 0)
    | cut _ hlong => exact absurd (hfit.trans hchars) (Nat.not_le.mpr hlong)
  | rest hs => exact absurd hs (Nat.lt_irrefl 0)
  | cut hroom _ =>
    cases hw with
    | full hfull => exact absurd (hroom.trans_le hgroups) (Nat.not_lt.mpr hfull)
    | whole => exact leads_fitEntries _ _ _
    | rest hs => exact absurd hs (Nat.lt_irrefl 0)
    | cut => exact leads_fitEntries_of_le _ hchars

end

/-! ## Suppression -/

/-- Where the beginning of a listing has a group, the records of its score are suppressed in both or
in neither: two groups in front of it are in front of it in both. -/
theorem Leads.suppressed_iff {d : Direction} {l m : Listing} (h : Leads l.groups m.groups)
    {g : ScoreGroup} (hg : g ∈ l.groups) (hnan : g.score ≠ .nan) {t : Scored Record}
    (hscore : t.score = g.score) : Suppressed d l t ↔ Suppressed d m t := by
  obtain ⟨label, direction, out, truncated⟩ := l
  obtain ⟨label', direction', groups, truncated'⟩ := m
  have hself : ¬ d.Precedes g.score g.score := fun hlt => hlt.asymm hnan hnan hlt
  refine and_congr_right fun _ => ?_
  dsimp only at h hg ⊢
  constructor
  · rintro ⟨first, second, rest, rfl, hprecedes⟩
    cases h with
    | whole hbegin =>
      obtain ⟨more, rfl⟩ := hbegin
      exact ⟨first, second, rest ++ more, rfl, hprecedes⟩
  · rintro ⟨first, second, rest, rfl, hfirst, hsecond⟩
    rw [hscore] at hfirst hsecond ⊢
    cases h with
    | whole hbegin =>
      cases out with
      | nil => cases hg
      | cons x out =>
        obtain ⟨rfl, hbehind⟩ := List.cons_prefix_cons.mp hbegin
        cases out with
        | nil =>
          obtain rfl := List.mem_singleton.mp hg
          exact absurd hfirst hself
        | cons y out =>
          obtain ⟨rfl, _⟩ := List.cons_prefix_cons.mp hbehind
          exact ⟨x, y, out, rfl, hfirst, hsecond⟩
    | cut =>
      obtain rfl := List.mem_singleton.mp hg
      exact absurd hfirst hself

/-! ## Tighter limits -/

/-- With tighter limits a listing shows the beginning of what it shows with wider ones, and of a group
that both show the same records are suppressed. -/
theorem build_leads_of_le (label : String) (scored : List (Scored Record))
    {tight wide : ListingOptions} (hdirection : tight.direction = wide.direction)
    (hchars : tight.maxChars ≤ wide.maxChars) (hgroups : tight.maxGroups ≤ wide.maxGroups) :
    Leads (build label scored tight).groups (build label scored wide).groups ∧
      ∀ g ∈ (build label scored tight).groups, ∀ t : Scored Record, t.score = g.score →
        (Suppressed tight.direction (build label scored tight) t ↔
          Suppressed wide.direction (build label scored wide) t) := by
  have htight := shows_takeGroups tight 0 0 (candidates tight.direction scored)
  have hwide := shows_takeGroups wide 0 0 (candidates wide.direction scored)
  rw [← hdirection] at hwide
  have hleads : Leads (build label scored tight).groups (build label scored wide).groups := by
    rw [build, build, ← hdirection]
    exact htight.leads_of_le hchars hgroups hwide
  refine ⟨hleads, fun g hg t hscore => ?_⟩
  rw [← hdirection]
  obtain ⟨s, hs, heq⟩ := exists_survivor_of_mem_groups hg
  exact hleads.suppressed_iff hg (heq ▸ score_ne_nan (isListed_of_mem_survivors s hs)) hscore

/-- Limits for two short lines. -/
def narrow : ListingOptions := { maxChars := 20, maxGroups := 2 }

theorem build_leads_of_le_narrow :
    (narrow.direction = .descending ∧ narrow.maxChars ≤ 2048 ∧ narrow.maxGroups ≤ 8) ∧
      Leads (build "INT" helms narrow).groups (build "INT" helms {}).groups ∧
      ∀ g ∈ (build "INT" helms narrow).groups, ∀ t : Scored Record, t.score = g.score →
        (Suppressed .descending (build "INT" helms narrow) t ↔
          Suppressed .descending (build "INT" helms {}) t) := by
  have hchars : narrow.maxChars ≤ 2048 := by decide
  have hgroups : narrow.maxGroups ≤ 8 := by decide
  exact ⟨⟨rfl, hchars, hgroups⟩, build_leads_of_le "INT" helms rfl hchars hgroups⟩

end ItemCatalog.Listing
