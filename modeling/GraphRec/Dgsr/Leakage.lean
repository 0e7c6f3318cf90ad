import GraphRec.Dgsr.Graph

/-!
# No future leakage

`no_future_leakage` ties the three pieces that keep the future out of training
and evaluation: the roles of the splits, the events that the graph of a split
shows, and the cutoff of the sampler.  For every split mode and every example,
the example's own last observed event is visible in the graph of its split
(`cutoff_allowed`), so there is a sample, and no event in the sample is later
than the cutoff.
-/

namespace Dgsr

open Grouping InteractionData

variable {rnd : ℚ → ℚ} {cfg : Config} {data : InteractionData} {initial : ℕ → ℕ}

/-- The graph of a split. -/
def splitGraph (cfg : Config) (data : InteractionData) (roles : ℕ → ℕ) (split : Split) :
    TemporalGraph := ⟨data, allowedEvents cfg roles split⟩

/-- An event that a graph shows, to users or to items. -/
def TemporalGraph.Shows (g : TemporalGraph) (e : ℕ) : Prop :=
  (∃ u, e ∈ g.byUser u) ∨ ∃ i, e ∈ g.byItem i

theorem TemporalGraph.Shows.allowed {g : TemporalGraph} {e : ℕ} (h : g.Shows e) :
    g.allowed e = true := by
  rcases h with ⟨u, hu⟩ | ⟨i, hi⟩
  · exact (TemporalGraph.mem_byUser.mp hu).2.2
  · exact (TemporalGraph.mem_byItem.mp hi).2.2

/-! ## The roles of consecutive events -/

/-- Under `leave_two_out` the role of an event is decided by how far from the end
of its user's events it stands. -/
theorem finalRole_of_getElem? (hmode : cfg.split = .leaveTwoOut) {u k e : ℕ}
    (hlen : 4 ≤ (data.byUser u).length) (hk : (data.byUser u)[k]? = some e)
    (hinitial : initial e = 0) :
    finalRole cfg data initial e =
      if k + 1 = (data.byUser u).length then 2
      else if k + 2 = (data.byUser u).length then 1 else 0 := by
  have hu : data.user e = u := (mem_byUser.mp (List.mem_of_getElem? hk)).2
  have hnodup : (data.byUser u).Nodup := (data.byUser_increasing u).imp fun h => ne_of_lt h
  obtain ⟨hlt, hget⟩ := List.getElem?_eq_some_iff.mp hk
  have hat : ∀ j (hj : j < (data.byUser u).length),
      e = (data.byUser u).getD j 0 ↔ k = j := by
    intro j hj
    rw [List.getD_eq_getElem _ _ hj, ← hget]
    exact hnodup.getElem_inj_iff
  rw [finalRole, hu, if_pos ⟨hmode, hlen⟩]
  rw [if_congr (hat ((data.byUser u).length - 1) (by omega)) rfl rfl,
    if_congr (hat ((data.byUser u).length - 2) (by omega)) rfl rfl, hinitial]
  rw [if_congr (show k = (data.byUser u).length - 1 ↔ k + 1 = (data.byUser u).length by omega)
      rfl rfl,
    if_congr (show k = (data.byUser u).length - 2 ↔ k + 2 = (data.byUser u).length by omega)
      rfl rfl]

/-- The other split modes keep the initial roles. -/
theorem finalRole_of_ne (hmode : cfg.split ≠ .leaveTwoOut) (e : ℕ) :
    finalRole cfg data initial e = initial e := by
  rw [finalRole, if_neg (fun h => hmode h.1)]

/-- What the initial roles are, mode by mode. -/
theorem initialRoles_spec (h : initialRoles rnd cfg data = .ok initial) :
    (cfg.split ≠ .globalTime → ∀ e, initial e = 0) ∧
      (data.Chronological → ∀ e e', e ≤ e' → e' < data.size → initial e ≤ initial e') := by
  unfold initialRoles at h
  split at h
  · next hmode =>
      split at h
      · cases h
      · next trainEnd valEnd _ =>
          cases h
          refine ⟨fun hne => absurd hmode hne, fun hchron e e' hle hlt => ?_⟩
          have htime := hchron hle hlt
          dsimp only
          split_ifs <;> omega
  · cases h
    exact ⟨fun _ _ => rfl, fun _ _ _ _ _ => le_rfl⟩
  · cases h
    exact ⟨fun _ _ => rfl, fun _ _ _ _ _ => le_rfl⟩

section Example

variable {u : ℕ} {x : Example}

/-- Under `leave_two_out` the role of the cutoff is below that of the target. -/
theorem finalRole_cutoff_leaveTwoOut (hmode : cfg.split = .leaveTwoOut)
    (hinitial : ∀ e, initial e = 0) (hu : supervised cfg data u = true)
    (hx : x ∈ userExamples data u) :
    finalRole cfg data initial x.cutoff ≤ finalRole cfg data initial x.targetEvent - 1 := by
  obtain ⟨_, _, k, hcutoff, htarget⟩ := mem_userExamples hx
  have hlen : 4 ≤ (data.byUser u).length := by
    simp only [supervised, hmode, decide_true, Bool.true_and, Bool.not_eq_true',
      decide_eq_false_iff_not] at hu
    omega
  have hlt := (List.getElem?_eq_some_iff.mp htarget).1
  rw [finalRole_of_getElem? hmode hlen hcutoff (hinitial _),
    finalRole_of_getElem? hmode hlen htarget (hinitial _)]
  split_ifs <;> omega

/-- **The cutoff is visible** in the graph of the example's split. -/
theorem cutoff_allowed (hchron : data.Chronological)
    (hinitial : initialRoles rnd cfg data = .ok initial) {roles : ℕ → ℕ}
    (hroles : ∀ e < data.size, roles e = finalRole cfg data initial e)
    (hu : supervised cfg data u = true) (hx : x ∈ userExamples data u) {split : Split}
    (hrole : finalRole cfg data initial x.targetEvent = split.role) :
    allowedEvents cfg roles split x.cutoff = true := by
  obtain ⟨hcutoff, htarget, hlt⟩ := example_cutoff_lt hx
  have hsize := (mem_byUser.mp htarget).1
  have hbefore := (mem_byUser.mp hcutoff).1
  obtain ⟨hzero, hmono⟩ := initialRoles_spec hinitial
  unfold allowedEvents
  split
  · rfl
  · next hpolicy =>
      rw [not_or] at hpolicy
      rw [hroles x.cutoff hbefore]
      -- How the role of the cutoff compares with that of the target.
      have hbelow : finalRole cfg data initial x.cutoff ≤
          if cfg.split = .leaveTwoOut then split.role - 1 else split.role := by
        rw [← hrole]
        split
        · next hmode =>
            exact finalRole_cutoff_leaveTwoOut hmode (hzero (by simp [hmode])) hu hx
        · next hmode =>
            rw [finalRole_of_ne hmode, finalRole_of_ne hmode]
            exact hmono hchron _ _ hlt.le hsize
      have hnone : cfg.split = .none → finalRole cfg data initial x.cutoff = 0 := by
        intro hmode
        rw [finalRole_of_ne (by simp [hmode]), hzero (by simp [hmode])]
      cases split with
      | inference => exact absurd rfl hpolicy.1
      | train => cases hmode : cfg.split <;> simp_all [Split.role]
      | validation => cases hmode : cfg.split <;> simp_all [Split.role]
      | test => cases hmode : cfg.split <;> simp_all [Split.role]

end Example

/-! ## What a sample shows -/

/-- A message carries one of the incident events. -/
theorem mem_incidentMessages {incident : List (List ℕ)} {opposite mapping : ℕ → ℕ}
    {limit : ℕ} {m : Message}
    (h : m ∈ (incidentMessages incident opposite mapping limit).messages) :
    ∃ ids ∈ incident, ∃ e ∈ ids, m.event = some e := by
  obtain ⟨⟨ids, dest⟩, hids, hm⟩ := List.mem_flatMap.mp h
  obtain ⟨e, he, hevent, _⟩ := mem_row hm
  exact ⟨ids, List.fst_mem_of_mem_zipIdx hids, e, (keepLast_sublist _ _).subset he, hevent⟩

/-- **Nothing after the cutoff.**  Every event in a sample, induced or carried by
a message, is visible and not later than the cutoff. -/
theorem sample_events {g : TemporalGraph} {user cutoff : ℕ} {s : GraphSample}
    (h : sample g cfg user cutoff = .ok s) :
    (∀ e ∈ s.inducedEvents, g.allowed e = true ∧ e ≤ cutoff) ∧
      ∀ m ∈ s.toUsers.messages ++ s.toItems.messages, ∀ e, m.event = some e →
        e ∈ s.inducedEvents := by
  rw [sample_spec h]
  constructor
  · intro e he
    have hinduced := mem_inducedEdges.mp he
    exact ⟨hinduced.2.1, hinduced.2.2.1⟩
  · intro m hm e hevent
    -- Either side's incident lists are parts of the induced edges.
    have hpart : ∃ ids : List ℕ, e ∈ ids ∧ ∀ e' ∈ ids, e' ∈ (inducedSample g cfg user cutoff
        (reached g cfg cutoff (fun _ => false) {user} (rootItems g cfg user cutoff)).1
        (reached g cfg cutoff (fun _ => false) {user}
          (rootItems g cfg user cutoff)).2).inducedEvents := by
      rcases List.mem_append.mp hm with hm | hm <;>
      · obtain ⟨ids, hids, e', he', hevent'⟩ := mem_incidentMessages hm
        obtain rfl : e = e' := Option.some.inj (hevent.symm.trans hevent')
        obtain ⟨_, _, rfl⟩ := List.mem_map.mp hids
        exact ⟨_, he', fun _ h => (List.mem_filter.mp h).1⟩
    obtain ⟨ids, he, hsub⟩ := hpart
    exact hsub e he

/-- The cutoff of an example is among its user's recent events. -/
theorem cutoff_mem_userEvents {roles : ℕ → ℕ} {split : Split} {u e : ℕ} (limit : ℕ)
    (he : e ∈ data.byUser u) (hallowed : allowedEvents cfg roles split e = true) :
    ∃ e', e' ∈ (splitGraph cfg data roles split).userEvents u e limit := by
  have hvisible : e ∈ (splitGraph cfg data roles split).userEvents u e 0 := by
    rw [TemporalGraph.mem_userEvents_zero]
    exact ⟨(mem_byUser.mp he).1, (mem_byUser.mp he).2, hallowed, le_rfl⟩
  rw [TemporalGraph.userEvents_eq, keepLast_zero] at hvisible
  apply List.exists_mem_of_ne_nil
  rw [TemporalGraph.userEvents_eq, Ne, keepLast_eq_nil]
  exact List.ne_nil_of_mem hvisible

/-- Where an example of a split comes from. -/
theorem mem_examples {s : Splits} (hs : makeSplits rnd cfg data = .ok s) (split : Split)
    {x : Example} (hx : x ∈ s.examples split) :
    supervised cfg data x.user = true ∧ x ∈ userExamples data x.user ∧
      s.roles x.targetEvent = split.role ∧
      ∃ initial, initialRoles rnd cfg data = .ok initial ∧
        (∀ e < data.size, s.roles e = finalRole cfg data initial e) := by
  obtain ⟨initial, hinitial, hroles, hexamples⟩ := makeSplits_spec hs
  have hsplit : split ≠ .inference := by
    intro heq
    subst heq
    cases hx
  have hmem := (hexamples split hsplit).subset hx
  obtain ⟨u, hu, hxu⟩ := List.mem_flatMap.mp hmem
  obtain ⟨hxu, hrole⟩ := List.mem_filter.mp hxu
  obtain rfl := (mem_userExamples hxu).1
  refine ⟨(List.mem_filter.mp hu).2, hxu, ?_, initial, hinitial, hroles⟩
  have htarget := (mem_byUser.mp (example_cutoff_lt hxu).2.1).1
  rw [hroles _ htarget]
  exact of_decide_eq_true hrole

/-- **No future leakage.**  Every example of every split has a sample over the
graph of its split, nothing in the sample is later than the cutoff, and the
target is not in it.  Under `leave_two_out` with a split-safe graph, held-out
targets are in no train or validation graph, and test targets in no test graph. -/
theorem no_future_leakage {s : Splits} (hchron : data.Chronological)
    (hlimits : Unlimited cfg data) (hs : makeSplits rnd cfg data = .ok s) :
    (∀ split, ∀ x ∈ s.examples split,
      ∃ g, sample (splitGraph cfg data s.roles split) cfg x.user x.cutoff = .ok g ∧
        (∀ e ∈ g.inducedEvents, e ≤ x.cutoff) ∧
        (∀ m ∈ g.toUsers.messages ++ g.toItems.messages, ∀ e, m.event = some e →
          e ≤ x.cutoff) ∧
        x.targetEvent ∉ g.inducedEvents) ∧
      (cfg.split = .leaveTwoOut → cfg.graphPolicy = .splitSafe →
        (∀ x ∈ s.validation ++ s.test,
          ¬ (splitGraph cfg data s.roles .train).Shows x.targetEvent ∧
            ¬ (splitGraph cfg data s.roles .validation).Shows x.targetEvent) ∧
        ∀ x ∈ s.test, ¬ (splitGraph cfg data s.roles .test).Shows x.targetEvent) := by
  constructor
  · intro split x hx
    obtain ⟨hu, hxu, hrole, initial, hinitial, hroles⟩ := mem_examples hs split hx
    obtain ⟨hcutoff, htarget, hlt⟩ := example_cutoff_lt hxu
    rw [hroles _ (mem_byUser.mp htarget).1] at hrole
    have hallowed := cutoff_allowed hchron hinitial hroles hu hxu hrole
    obtain ⟨e, he⟩ := cutoff_mem_userEvents cfg.recentItems hcutoff hallowed
    obtain ⟨g, hg⟩ := sample_isOk (g := splitGraph cfg data s.roles split) hlimits he
    obtain ⟨hinduced, hmessages⟩ := sample_events hg
    refine ⟨g, hg, fun e he => (hinduced e he).2, ?_, ?_⟩
    · exact fun m hm e hevent => (hinduced e (hmessages m hm e hevent)).2
    · intro hmem
      exact absurd (hinduced _ hmem).2 (by omega)
  · intro hmode hpolicy
    have hvalidation : ∀ x ∈ s.validation, s.roles x.targetEvent = 1 := fun x hx =>
      (mem_examples hs .validation hx).2.2.1
    have htest : ∀ x ∈ s.test, s.roles x.targetEvent = 2 := fun x hx =>
      (mem_examples hs .test hx).2.2.1
    refine ⟨fun x hx => ?_, fun x hx hshows => ?_⟩
    · have hrole : s.roles x.targetEvent ≠ 0 := by
        rcases List.mem_append.mp hx with hx | hx
        · rw [hvalidation x hx]; decide
        · rw [htest x hx]; decide
      constructor <;> intro hshows <;> have hallowed := hshows.allowed <;>
        simp [splitGraph, allowedEvents, hmode, hpolicy, hrole] at hallowed
    · have hallowed := hshows.allowed
      simp [splitGraph, allowedEvents, hmode, hpolicy, htest x hx] at hallowed

/-- The test example of user 0 has a sample, without its target. -/
theorem no_future_leakage_small :
    ∃ s x g, makeSplits id {} smallData = .ok s ∧ x ∈ s.test ∧ x.cutoff = 4 ∧
      sample (splitGraph {} smallData s.roles .test) {} x.user x.cutoff = .ok g ∧
      x.targetEvent ∉ g.inducedEvents ∧
      ¬ (splitGraph {} smallData s.roles .test).Shows x.targetEvent := by
  have hsplit : (match makeSplits id {} smallData with
      | .ok s => s.test
      | .error _ => []) = [⟨0, 4, 0, 5⟩] := by decide
  cases hs : makeSplits id {} smallData with
  | error e => rw [hs] at hsplit; cases hsplit
  | ok s =>
      rw [hs] at hsplit
      have htests : s.test = [⟨0, 4, 0, 5⟩] := hsplit
      have hx : (⟨0, 4, 0, 5⟩ : Example) ∈ s.test := by
        rw [htests]
        exact List.mem_singleton.mpr rfl
      obtain ⟨hsamples, hsafe⟩ := no_future_leakage smallData_chronological
        ⟨.inr (by decide), .inr (by decide)⟩ hs
      obtain ⟨g, hg, _, _, htarget⟩ := hsamples .test _ hx
      exact ⟨s, _, g, rfl, hx, rfl, hg, htarget, (hsafe rfl rfl).2 _ hx⟩

end Dgsr
