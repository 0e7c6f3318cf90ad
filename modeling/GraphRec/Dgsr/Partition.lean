import GraphRec.Dgsr.Leakage

/-!
# The splits partition the supervision targets

`makeSplits` visits the users one by one and files every later event of a user as the target of a
next-item example under the role of that event.  `examples_perm` puts the three lists together:
they are the examples of the supervised users, each once.  Main results:

* `makeSplits_isOk` — the splits exist unless `global_time` has fewer than three distinct times;
* `roles_globalTime` — `global_time` cuts the distinct times into three pieces, one for each role,
  whatever the fractions are;
* `makeSplits_partition` — every later event of a supervised user is the target of one example.
-/

namespace Dgsr

open InteractionData

/-- The only entry of a list without duplicates that satisfies `p`. -/
theorem filter_eq_singleton {α : Type} {l : List α} {p : α → Bool} {x : α} (hnodup : l.Nodup)
    (hx : x ∈ l) (hp : p x = true) (honly : ∀ y ∈ l, p y = true → y = x) : l.filter p = [x] := by
  have hperm : (l.filter p).Perm [x] := by
    refine (List.perm_ext_iff_of_nodup (hnodup.filter _) (List.nodup_singleton x)).mpr fun y => ?_
    rw [List.mem_filter, List.mem_singleton]
    constructor
    · intro hy
      exact honly y hy.1 hy.2
    · intro hy
      rw [hy]
      exact ⟨hx, hp⟩
  exact List.perm_singleton.mp hperm

/-- The entries up to a given one of an increasing list are those that are not larger. -/
theorem mem_take_iff_le {l : List ℤ} (h : l.Pairwise (· < ·)) {i : ℕ} (hi : i < l.length) {x : ℤ}
    (hx : x ∈ l) : x ∈ l.take (i + 1) ↔ x ≤ l[i] := by
  obtain ⟨j, hj, rfl⟩ := List.mem_iff_getElem.mp hx
  have hmono : StrictMono l.get := fun a b hlt => List.pairwise_iff_get.mp h a b hlt
  have hle : l[j] ≤ l[i] ↔ j ≤ i := hmono.le_iff_le
  have hnodup : l.Nodup := h.imp fun h => ne_of_lt h
  rw [hle, List.mem_take_iff_getElem]
  constructor
  · intro hcase
    obtain ⟨k, hk, heq⟩ := hcase
    have hkj : k = j := hnodup.getElem_inj_iff.mp heq
    omega
  · intro hji
    exact ⟨j, by omega, rfl⟩

variable {rnd : ℚ → ℚ} {cfg : Config} {data : InteractionData} {initial : ℕ → ℕ} {s : Splits}

/-! ## Every later event of a supervised user, once -/

theorem supervised_iff {u : ℕ} : supervised cfg data u = true ↔
    (cfg.split = .leaveTwoOut → 4 ≤ (data.byUser u).length) := by
  simp only [supervised, Bool.not_eq_true', Bool.and_eq_false_imp, decide_eq_true_eq,
    decide_eq_false_iff_not, not_lt]

/-- The examples of a user are the pairs of consecutive events. -/
theorem mem_userExamples_iff {u : ℕ} {x : Example} : x ∈ userExamples data u ↔
    ∃ k prev e, (data.byUser u)[k]? = some prev ∧ (data.byUser u)[k + 1]? = some e ∧
      x = ⟨u, prev, data.item e, e⟩ := by
  constructor
  · intro hx
    obtain ⟨huser, htarget, k, hcutoff, hevent⟩ := mem_userExamples hx
    refine ⟨k, x.cutoff, x.targetEvent, hcutoff, hevent, ?_⟩
    rw [← huser, ← htarget]
  · intro hcase
    obtain ⟨k, prev, e, hprev, he, rfl⟩ := hcase
    refine List.mem_map.mpr ⟨(prev, e), ?_, rfl⟩
    refine List.mem_iff_getElem?.mpr ⟨k, ?_⟩
    rw [List.getElem?_zip_eq_some, List.getElem?_tail]
    exact ⟨hprev, he⟩

theorem targets_userExamples (u : ℕ) :
    (userExamples data u).map Example.targetEvent = (data.byUser u).tail := by
  rw [userExamples, List.map_map]
  exact List.map_snd_zip (by simp)

/-- No event is the target of two examples. -/
theorem nodup_targets (users : List ℕ) (husers : users.Nodup) :
    ((users.flatMap (userExamples data)).map Example.targetEvent).Nodup := by
  have hincreasing : ∀ u, (data.byUser u).tail.Nodup := fun u =>
    ((data.byUser_increasing u).imp fun h => ne_of_lt h).tail
  rw [List.map_flatMap, List.nodup_flatMap]
  constructor
  · intro u _
    rw [targets_userExamples]
    exact hincreasing u
  · refine husers.imp fun {u v} hne => ?_
    intro e he he'
    dsimp only at he he'
    rw [targets_userExamples] at he he'
    have hu := (mem_byUser.mp (List.mem_of_mem_tail he)).2
    have hv := (mem_byUser.mp (List.mem_of_mem_tail he')).2
    exact hne (hu.symm.trans hv)

/-- The roles are train, validation and test. -/
theorem finalRole_le (hinitial : initialRoles rnd cfg data = .ok initial) (e : ℕ) :
    finalRole cfg data initial e ≤ 2 := by
  have hle : initial e ≤ 2 := by
    unfold initialRoles at hinitial
    split at hinitial
    · split at hinitial
      · cases hinitial
      · cases hinitial
        dsimp only
        split_ifs <;> omega
    · cases hinitial
      exact Nat.zero_le 2
    · cases hinitial
      exact Nat.zero_le 2
  unfold finalRole
  dsimp only
  split_ifs <;> omega

/-- The examples with the roles 0, 1 and 2 are all of them. -/
theorem perm_filter_roles {α : Type} (l : List α) (role : α → ℕ) (h : ∀ x ∈ l, role x ≤ 2) :
    ((l.filter fun x => decide (role x = 0)) ++ (l.filter fun x => decide (role x = 1)) ++
      l.filter fun x => decide (role x = 2)).Perm l := by
  induction l with
  | nil => exact List.Perm.refl []
  | cons x l ih =>
      have hrest := ih fun y hy => h y (List.mem_cons_of_mem _ hy)
      have hx := h x List.mem_cons_self
      rcases (show role x = 0 ∨ role x = 1 ∨ role x = 2 by omega) with hx | hx | hx
      · simpa [hx] using hrest.cons x
      · simp only [hx, List.filter_cons, decide_true, if_true]
        simp only [Nat.reduceEqDiff, decide_false, Bool.false_eq_true, if_false,
          List.append_assoc, List.cons_append]
        refine List.perm_middle.trans ?_
        simpa using hrest.cons x
      · simp only [hx, List.filter_cons, decide_true, if_true]
        simp only [Nat.reduceEqDiff, decide_false, Bool.false_eq_true, if_false]
        refine List.perm_middle.trans ?_
        exact hrest.cons x

/-- **Step to the three lists.**  Together they are the examples of the supervised users. -/
theorem examples_perm (hs : makeSplits rnd cfg data = .ok s) :
    (s.train ++ s.validation ++ s.test).Perm
      (((List.range data.numUsers).filter (supervised cfg data)).flatMap (userExamples data)) := by
  obtain ⟨initial, hinitial, _, hexamples⟩ := makeSplits_spec hs
  have htrain := hexamples .train (by simp)
  have hvalidation := hexamples .validation (by simp)
  have htest := hexamples .test (by simp)
  refine ((htrain.append hvalidation).append htest).trans ?_
  simp only [roleExamples, Split.role]
  rw [← List.filter_flatMap, ← List.filter_flatMap, ← List.filter_flatMap]
  exact perm_filter_roles _ (fun x : Example => finalRole cfg data initial x.targetEvent)
    fun x _ => finalRole_le hinitial x.targetEvent

theorem mem_all_examples (hs : makeSplits rnd cfg data = .ok s) {x : Example} :
    x ∈ s.train ++ s.validation ++ s.test ↔
      supervised cfg data x.user = true ∧ x ∈ userExamples data x.user := by
  rw [(examples_perm hs).mem_iff, List.mem_flatMap]
  constructor
  · intro hcase
    obtain ⟨u, hu, hx⟩ := hcase
    obtain rfl := (mem_userExamples hx).1
    exact ⟨(List.mem_filter.mp hu).2, hx⟩
  · intro hcase
    obtain ⟨hsupervised, hx⟩ := hcase
    refine ⟨x.user, List.mem_filter.mpr ⟨List.mem_range.mpr ?_, hsupervised⟩, hx⟩
    obtain ⟨hcutoff, _, _⟩ := example_cutoff_lt hx
    obtain ⟨hlt, huser⟩ := mem_byUser.mp hcutoff
    rw [← huser]
    exact user_lt_numUsers hlt

theorem nodup_all_targets (hs : makeSplits rnd cfg data = .ok s) :
    ((s.train ++ s.validation ++ s.test).map Example.targetEvent).Nodup :=
  ((examples_perm hs).map _).nodup_iff.mpr (nodup_targets _ (List.nodup_range.filter _))

/-- **One example for each target.** -/
theorem examples_of_target (hs : makeSplits rnd cfg data = .ok s) {u k prev e : ℕ}
    (hu : supervised cfg data u = true) (hprev : (data.byUser u)[k]? = some prev)
    (he : (data.byUser u)[k + 1]? = some e) :
    (s.train ++ s.validation ++ s.test).filter (fun x => decide (x.targetEvent = e)) =
      [⟨u, prev, data.item e, e⟩] := by
  have hnodup := nodup_all_targets hs
  have hmem : (⟨u, prev, data.item e, e⟩ : Example) ∈ s.train ++ s.validation ++ s.test :=
    (mem_all_examples hs).mpr ⟨hu, mem_userExamples_iff.mpr ⟨k, prev, e, hprev, he, rfl⟩⟩
  refine filter_eq_singleton (List.Nodup.of_map _ hnodup) hmem (by simp) fun y hy htarget => ?_
  exact List.inj_on_of_nodup_map hnodup hy hmem (of_decide_eq_true htarget)

/-- Every example has its role's list. -/
theorem mem_examples_iff (hs : makeSplits rnd cfg data = .ok s) {split : Split}
    (hsplit : split ≠ .inference) {x : Example} : x ∈ s.examples split ↔
      supervised cfg data x.user = true ∧ x ∈ userExamples data x.user ∧
        s.roles x.targetEvent = split.role := by
  constructor
  · intro hx
    obtain ⟨hu, hxu, hrole, _⟩ := mem_examples hs split hx
    exact ⟨hu, hxu, hrole⟩
  · intro hcase
    obtain ⟨hu, hxu, hrole⟩ := hcase
    obtain ⟨initial, _, hroles, hexamples⟩ := makeSplits_spec hs
    have hsize := mem_byUser.mp (example_cutoff_lt hxu).2.1
    rw [(hexamples split hsplit).mem_iff]
    refine List.mem_flatMap.mpr ⟨x.user, List.mem_filter.mpr ⟨List.mem_range.mpr ?_, hu⟩, ?_⟩
    · rw [← hsize.2]
      exact user_lt_numUsers hsize.1
    · refine List.mem_filter.mpr ⟨hxu, decide_eq_true ?_⟩
      rw [← hroles _ hsize.1, hrole]

/-! ## The last two events -/

section LeaveTwoOut

variable {u : ℕ}

/-- The roles of the later events of a user, by their places. -/
theorem role_of_target (hmode : cfg.split = .leaveTwoOut) (hs : makeSplits rnd cfg data = .ok s)
    (hlen : 4 ≤ (data.byUser u).length) {k e : ℕ} (he : (data.byUser u)[k]? = some e) :
    s.roles e = if k + 1 = (data.byUser u).length then 2
      else if k + 2 = (data.byUser u).length then 1 else 0 := by
  obtain ⟨initial, hinitial, hroles, _⟩ := makeSplits_spec hs
  have hzero := (initialRoles_spec hinitial).1 (by simp [hmode])
  rw [hroles e (mem_byUser.mp (List.mem_of_getElem? he)).1]
  exact finalRole_of_getElem? hmode hlen he (hzero e)

/-- A user has one example in a split when one of its later events has the role. -/
theorem examples_of_user (hs : makeSplits rnd cfg data = .ok s)
    (hu : supervised cfg data u = true) (split : Split) (hsplit : split ≠ .inference)
    {k prev e : ℕ} (hprev : (data.byUser u)[k]? = some prev)
    (he : (data.byUser u)[k + 1]? = some e) (hrole : s.roles e = split.role)
    (honly : ∀ k' e', (data.byUser u)[k' + 1]? = some e' → s.roles e' = split.role → k' = k) :
    (s.examples split).filter (fun x => decide (x.user = u)) = [⟨u, prev, data.item e, e⟩] := by
  have hnodup : (s.examples split).Nodup := by
    have hall := List.Nodup.of_map _ (nodup_all_targets hs)
    rw [List.nodup_append, List.nodup_append] at hall
    cases split with
    | inference => exact absurd rfl hsplit
    | train => exact hall.1.1
    | validation => exact hall.1.2.1
    | test => exact hall.2.1
  refine filter_eq_singleton hnodup ?_ (by simp) fun y hy huser => ?_
  · exact (mem_examples_iff hs hsplit).mpr
      ⟨hu, mem_userExamples_iff.mpr ⟨k, prev, e, hprev, he, rfl⟩, hrole⟩
  · obtain ⟨_, hyu, hyrole⟩ := (mem_examples_iff hs hsplit).mp hy
    obtain rfl := of_decide_eq_true huser
    obtain ⟨k', prev', e', hprev', he', heq⟩ := mem_userExamples_iff.mp hyu
    rw [heq] at hyrole
    obtain rfl := honly k' e' he' hyrole
    obtain rfl := Option.some.inj (hprev'.symm.trans hprev)
    obtain rfl := Option.some.inj (he'.symm.trans he)
    exact heq

/-- **The held-out pair.**  A user with enough events has its last event but one for
validation and its last event for the test. -/
theorem heldOut_of_user (hmode : cfg.split = .leaveTwoOut)
    (hs : makeSplits rnd cfg data = .ok s) {before : List ℕ} {e₁ e₂ e₃ : ℕ}
    (hevents : data.byUser u = before ++ [e₁, e₂, e₃]) (hbefore : before ≠ []) :
    s.validation.filter (fun x => decide (x.user = u)) = [⟨u, e₁, data.item e₂, e₂⟩] ∧
      s.test.filter (fun x => decide (x.user = u)) = [⟨u, e₂, data.item e₃, e₃⟩] := by
  have hpos := List.length_pos_of_ne_nil hbefore
  have hlength : (data.byUser u).length = before.length + 3 := by rw [hevents]; simp
  have hlen : 4 ≤ (data.byUser u).length := by omega
  have hu : supervised cfg data u = true := supervised_iff.mpr fun _ => hlen
  have h₁ : (data.byUser u)[before.length]? = some e₁ := by rw [hevents]; simp
  have h₂ : (data.byUser u)[before.length + 1]? = some e₂ := by rw [hevents]; simp
  have h₃ : (data.byUser u)[before.length + 1 + 1]? = some e₃ := by
    rw [hevents, Nat.add_assoc]
    simp
  have hrole := fun k e (he : (data.byUser u)[k]? = some e) => role_of_target hmode hs hlen he
  constructor
  · refine examples_of_user hs hu .validation (by simp) h₁ h₂ ?_ ?_
    · rw [hrole _ _ h₂, if_neg (by omega), if_pos (by omega)]
      rfl
    · intro k' e' he' hval
      have hlt := (List.getElem?_eq_some_iff.mp he').1
      rw [hrole _ _ he', Split.role] at hval
      split_ifs at hval <;> omega
  · refine examples_of_user hs hu .test (by simp) h₂ h₃ ?_ ?_
    · rw [hrole _ _ h₃, if_pos (by omega)]
      rfl
    · intro k' e' he' hval
      have hlt := (List.getElem?_eq_some_iff.mp he').1
      rw [hrole _ _ he', Split.role] at hval
      split_ifs at hval <;> omega

/-- The last three of at least four events. -/
theorem exists_lastThree {l : List ℕ} (h : 4 ≤ l.length) :
    ∃ before e₁ e₂ e₃, l = before ++ [e₁, e₂, e₃] ∧ before ≠ [] := by
  have hlength : (l.drop (l.length - 3)).length = 3 := by rw [List.length_drop]; omega
  obtain ⟨e₁, e₂, e₃, hlast⟩ := List.length_eq_three.mp hlength
  refine ⟨l.take (l.length - 3), e₁, e₂, e₃, ?_, ?_⟩
  · rw [← hlast, List.take_append_drop]
  · intro hnil
    have hzero := congrArg List.length hnil
    rw [List.length_take, List.length_nil] at hzero
    omega

/-- A user with enough events has an example in every split. -/
theorem examples_ne_nil (hmode : cfg.split = .leaveTwoOut) (hs : makeSplits rnd cfg data = .ok s)
    (hlen : 4 ≤ (data.byUser u).length) : s.train ≠ [] ∧ s.validation ≠ [] ∧ s.test ≠ [] := by
  obtain ⟨before, e₁, e₂, e₃, hevents, hbefore⟩ := exists_lastThree hlen
  obtain ⟨hvalidation, htest⟩ := heldOut_of_user hmode hs hevents hbefore
  have hfirst : (data.byUser u)[0]? = some (data.byUser u)[0] := List.getElem?_eq_getElem (by omega)
  have hsecond : (data.byUser u)[0 + 1]? = some (data.byUser u)[1] :=
    List.getElem?_eq_getElem (by omega)
  refine ⟨?_, ?_, ?_⟩
  · -- The second event is the target of a training example.
    have hmem : (⟨u, (data.byUser u)[0], data.item (data.byUser u)[1], (data.byUser u)[1]⟩ :
        Example) ∈ s.examples .train := by
      refine (mem_examples_iff hs (by simp)).mpr ⟨supervised_iff.mpr fun _ => hlen,
        mem_userExamples_iff.mpr ⟨0, _, _, hfirst, hsecond, rfl⟩, ?_⟩
      rw [role_of_target hmode hs hlen hsecond, if_neg (by omega), if_neg (by omega)]
      rfl
    exact List.ne_nil_of_mem hmem
  · intro hnil
    rw [hnil] at hvalidation
    cases hvalidation
  · intro hnil
    rw [hnil] at htest
    cases htest

end LeaveTwoOut

/-! ## The time ranges -/

/-- `unique_times`. -/
def distinctTimes (data : InteractionData) : List ℤ :=
  ((data.events.map Interaction.time).dedup).insertionSort (· ≤ ·)

theorem distinctTimes_increasing (data : InteractionData) :
    (distinctTimes data).Pairwise (· < ·) := by
  have hsorted := List.pairwise_insertionSort (· ≤ ·) (data.events.map Interaction.time).dedup
  have hnodup : (distinctTimes data).Nodup :=
    (List.perm_insertionSort _ _).nodup_iff.mpr (List.nodup_dedup _)
  exact hsorted.imp₂ (fun _ _ hle hne => lt_of_le_of_ne hle hne) hnodup

theorem mem_distinctTimes {t : ℤ} :
    t ∈ distinctTimes data ↔ ∃ e < data.size, data.time e = t := by
  rw [distinctTimes, List.mem_insertionSort, List.mem_dedup, List.mem_map]
  constructor
  · intro hcase
    obtain ⟨x, hx, rfl⟩ := hcase
    obtain ⟨e, he, rfl⟩ := List.mem_iff_getElem.mp hx
    exact ⟨e, he, by simp [time, List.getElem?_eq_getElem he]⟩
  · intro hcase
    obtain ⟨e, he, rfl⟩ := hcase
    have hget : data.events[e]? = some data.events[e] := List.getElem?_eq_getElem he
    exact ⟨data.events[e], List.getElem_mem he, by simp [time, hget]⟩

variable (rnd cfg) in
/-- Whatever the fractions, both cuts leave something on either side. -/
theorem globalTimeEnds_spec (htimes : 3 ≤ (distinctTimes data).length) :
    ∃ a b, 0 < a ∧ a < b ∧ b < (distinctTimes data).length ∧
      globalTimeEnds rnd cfg data =
        .ok ((distinctTimes data).getD (a - 1) 0, (distinctTimes data).getD (b - 1) 0) := by
  have hnot : ¬ (distinctTimes data).length < 3 := Nat.not_lt.mpr htimes
  unfold globalTimeEnds
  extract_lets times n a b
  have htimes' : times = distinctTimes data := rfl
  have hn : n = (distinctTimes data).length := rfl
  have ha : 0 < a ∧ a ≤ n - 2 := by
    simp only [a]
    omega
  have hb : a < b ∧ b ≤ n - 1 := by
    have hab : b = min (max (a + 1) (⌊rnd (n * rnd (cfg.trainFraction +
      cfg.validationFraction))⌋.toNat)) (n - 1) := rfl
    omega
  refine ⟨a, b, ha.1, hb.1, by omega, ?_⟩
  rw [if_neg (by omega), htimes']

/-- **Three pieces of time.**  `global_time` gives the distinct times one of three roles, in three
pieces none of which is empty. -/
theorem roles_globalTime (hmode : cfg.split = .globalTime)
    (htimes : 3 ≤ (distinctTimes data).length) (hs : makeSplits rnd cfg data = .ok s) :
    ∃ train validation test, distinctTimes data = train ++ validation ++ test ∧
      train ≠ [] ∧ validation ≠ [] ∧ test ≠ [] ∧
      ∀ e < data.size, (s.roles e = 0 ↔ data.time e ∈ train) ∧
        (s.roles e = 1 ↔ data.time e ∈ validation) ∧ (s.roles e = 2 ↔ data.time e ∈ test) := by
  obtain ⟨a, b, ha, hab, hb, hends⟩ := globalTimeEnds_spec rnd cfg htimes
  obtain ⟨initial, hinitial, hroles, _⟩ := makeSplits_spec hs
  have hcut : (distinctTimes data).take b =
      (distinctTimes data).take a ++ ((distinctTimes data).drop a).take (b - a) := by
    rw [← List.take_add, Nat.add_sub_cancel' hab.le]
  have hall : distinctTimes data = (distinctTimes data).take a ++
      ((distinctTimes data).drop a).take (b - a) ++ (distinctTimes data).drop b := by
    rw [← hcut, List.take_append_drop]
  refine ⟨_, _, _, hall, ?_, ?_, ?_, ?_⟩
  · exact List.ne_nil_of_length_pos (by rw [List.length_take]; omega)
  · exact List.ne_nil_of_length_pos (by rw [List.length_take, List.length_drop]; omega)
  · exact List.ne_nil_of_length_pos (by rw [List.length_drop]; omega)
  · intro e he
    have hincreasing := distinctTimes_increasing data
    have hnodup : (distinctTimes data).Nodup := hincreasing.imp fun h => ne_of_lt h
    have hmem : data.time e ∈ distinctTimes data := mem_distinctTimes.mpr ⟨e, he, rfl⟩
    have hinit : initialRoles rnd cfg data = .ok fun e =>
        if data.time e > (distinctTimes data).getD (b - 1) 0 then 2
        else if data.time e > (distinctTimes data).getD (a - 1) 0 then 1 else 0 := by
      rw [initialRoles, hmode]
      simp only [hends]
    have hrole : s.roles e = initial e := by
      rw [hroles e he, finalRole_of_ne (by simp [hmode])]
    rw [hinit] at hinitial
    cases hinitial
    -- A time is in the first `c` of the distinct times when it is not after the last of them.
    have hbelow : ∀ c, 0 < c → c < (distinctTimes data).length →
        (data.time e ∈ (distinctTimes data).take c ↔
          data.time e ≤ (distinctTimes data).getD (c - 1) 0) := by
      intro c hpos hlt
      have hlast : c - 1 < (distinctTimes data).length := by omega
      rw [List.getD_eq_getElem _ _ hlast, ← mem_take_iff_le hincreasing hlast hmem,
        Nat.sub_add_cancel hpos]
    have htrain := hbelow a ha (by omega)
    have htrainValidation := hbelow b (by omega) hb
    have hdisjoint := List.nodup_append.mp (hall ▸ hnodup)
    have hdisjoint' := List.nodup_append.mp hdisjoint.1
    rw [hcut, List.mem_append] at htrainValidation
    have hsome : data.time e ∈ (distinctTimes data).take a ∨
        data.time e ∈ ((distinctTimes data).drop a).take (b - a) ∨
        data.time e ∈ (distinctTimes data).drop b := by
      rw [hall, List.mem_append, List.mem_append, or_assoc] at hmem
      exact hmem
    have hnot₁ : data.time e ∈ (distinctTimes data).take a →
        data.time e ∉ ((distinctTimes data).drop a).take (b - a) := fun h h' =>
      hdisjoint'.2.2 _ h _ h' rfl
    have hnot₂ : data.time e ∈ (distinctTimes data).take a ∨
        data.time e ∈ ((distinctTimes data).drop a).take (b - a) →
        data.time e ∉ (distinctTimes data).drop b := fun h h' =>
      hdisjoint.2.2 _ (List.mem_append.mpr h) _ h' rfl
    rw [hrole]
    simp only [gt_iff_lt, ← not_le, ← htrain, ← htrainValidation]
    rcases hsome with h | h | h
    · simp [h, hnot₁ h, hnot₂ (.inl h)]
    · have hnot := mt hnot₁ (not_not_intro h)
      simp [h, hnot, hnot₂ (.inr h)]
    · have hnot := not_or.mp (mt hnot₂ (not_not_intro h))
      simp [h, hnot.1, hnot.2]

/-- A later event has no earlier role. -/
theorem roles_chronological (hmode : cfg.split = .globalTime)
    (hs : makeSplits rnd cfg data = .ok s) {e e' : ℕ} (he : e < data.size) (he' : e' < data.size)
    (htime : data.time e ≤ data.time e') : s.roles e ≤ s.roles e' := by
  obtain ⟨initial, hinitial, hroles, _⟩ := makeSplits_spec hs
  have hne : cfg.split ≠ .leaveTwoOut := by simp [hmode]
  rw [hroles e he, hroles e' he', finalRole_of_ne hne, finalRole_of_ne hne]
  rw [initialRoles, hmode] at hinitial
  dsimp only at hinitial
  split at hinitial
  · cases hinitial
  · cases hinitial
    dsimp only
    split_ifs <;> omega

/-! ## The partition -/

variable (rnd) in
/-- Only a `global_time` split of fewer than three distinct times is refused. -/
theorem makeSplits_isOk
    (htimes : cfg.split = .globalTime → 3 ≤ (distinctTimes data).length) :
    ∃ s, makeSplits rnd cfg data = .ok s := by
  have hinitial : ∃ initial, initialRoles rnd cfg data = .ok initial := by
    cases hmode : cfg.split with
    | globalTime =>
        obtain ⟨a, b, _, _, _, hends⟩ :=
          globalTimeEnds_spec rnd cfg (htimes hmode)
        rw [initialRoles, hmode]
        simp only [hends]
        exact ⟨_, rfl⟩
    | leaveTwoOut => exact ⟨_, by rw [initialRoles, hmode]⟩
    | none => exact ⟨_, by rw [initialRoles, hmode]⟩
  obtain ⟨initial, hinitial⟩ := hinitial
  exact ⟨_, by rw [makeSplits, hinitial]⟩

/-- **The splits partition the supervision targets.**  Every later event of a supervised user is
the target of one example, whose cutoff is the event before it.  `leave_two_out` holds out the last
two events of a user with enough of them, and uses no other user; `global_time` cuts the distinct
times into three pieces. -/
theorem makeSplits_partition (rnd : ℚ → ℚ) (cfg : Config) (data : InteractionData)
    (htimes : cfg.split = .globalTime → 3 ≤ (distinctTimes data).length) :
    ∃ s, makeSplits rnd cfg data = .ok s ∧
      (∀ u k prev e, (cfg.split = .leaveTwoOut → 4 ≤ (data.byUser u).length) →
        (data.byUser u)[k]? = some prev → (data.byUser u)[k + 1]? = some e →
        (s.train ++ s.validation ++ s.test).filter (fun x => decide (x.targetEvent = e)) =
          [⟨u, prev, data.item e, e⟩]) ∧
      (∀ x ∈ s.train ++ s.validation ++ s.test,
        (cfg.split = .leaveTwoOut → 4 ≤ (data.byUser x.user).length) ∧
        ∃ k, (data.byUser x.user)[k]? = some x.cutoff ∧
          (data.byUser x.user)[k + 1]? = some x.targetEvent) ∧
      (cfg.split = .leaveTwoOut → ∀ u,
        (4 ≤ (data.byUser u).length → ∃ before e₁ e₂ e₃,
          data.byUser u = before ++ [e₁, e₂, e₃] ∧
          s.validation.filter (fun x => decide (x.user = u)) = [⟨u, e₁, data.item e₂, e₂⟩] ∧
          s.test.filter (fun x => decide (x.user = u)) = [⟨u, e₂, data.item e₃, e₃⟩]) ∧
        ((data.byUser u).length < 4 →
          ∀ x ∈ s.train ++ s.validation ++ s.test, x.user ≠ u)) ∧
      (cfg.split = .globalTime →
        (∃ train validation test, distinctTimes data = train ++ validation ++ test ∧
          train ≠ [] ∧ validation ≠ [] ∧ test ≠ [] ∧
          ∀ e < data.size, (s.roles e = 0 ↔ data.time e ∈ train) ∧
            (s.roles e = 1 ↔ data.time e ∈ validation) ∧
            (s.roles e = 2 ↔ data.time e ∈ test)) ∧
        (∀ role ≤ 2, ∃ e < data.size, s.roles e = role) ∧
        ∀ e < data.size, ∀ e' < data.size, data.time e ≤ data.time e' →
          s.roles e ≤ s.roles e') := by
  obtain ⟨s, hs⟩ := makeSplits_isOk rnd htimes
  refine ⟨s, hs, ?_, ?_, ?_, ?_⟩
  · intro u k prev e hu hprev he
    exact examples_of_target hs (supervised_iff.mpr hu) hprev he
  · intro x hx
    obtain ⟨hu, hxu⟩ := (mem_all_examples hs).mp hx
    obtain ⟨_, _, k, hcutoff, htarget⟩ := mem_userExamples hxu
    exact ⟨supervised_iff.mp hu, k, hcutoff, htarget⟩
  · intro hmode u
    constructor
    · intro hlen
      obtain ⟨before, e₁, e₂, e₃, hevents, hbefore⟩ := exists_lastThree hlen
      exact ⟨before, e₁, e₂, e₃, hevents, heldOut_of_user hmode hs hevents hbefore⟩
    · intro hshort x hx huser
      have hlen := supervised_iff.mp ((mem_all_examples hs).mp hx).1 hmode
      rw [huser] at hlen
      omega
  · intro hmode
    obtain ⟨train, validation, test, hall, htrain, hvalidation, htest, hroles⟩ :=
      roles_globalTime hmode (htimes hmode) hs
    refine ⟨⟨train, validation, test, hall, htrain, hvalidation, htest, hroles⟩, ?_, ?_⟩
    · -- Every piece holds the time of some event.
      have hevent : ∀ piece : List ℤ, piece ≠ [] → (∀ t ∈ piece, t ∈ distinctTimes data) →
          ∃ e < data.size, data.time e ∈ piece := by
        intro piece hne hsub
        obtain ⟨t, ht⟩ := List.exists_mem_of_ne_nil piece hne
        obtain ⟨e, he, rfl⟩ := mem_distinctTimes.mp (hsub t ht)
        exact ⟨e, he, ht⟩
      intro role hrole
      rcases (show role = 0 ∨ role = 1 ∨ role = 2 by omega) with rfl | rfl | rfl
      · obtain ⟨e, he, ht⟩ := hevent train htrain fun t ht => by rw [hall]; simp [ht]
        exact ⟨e, he, (hroles e he).1.mpr ht⟩
      · obtain ⟨e, he, ht⟩ := hevent validation hvalidation fun t ht => by rw [hall]; simp [ht]
        exact ⟨e, he, (hroles e he).2.1.mpr ht⟩
      · obtain ⟨e, he, ht⟩ := hevent test htest fun t ht => by rw [hall]; simp [ht]
        exact ⟨e, he, (hroles e he).2.2.mpr ht⟩
    · intro e he e' he' htime
      exact roles_chronological hmode hs he he' htime

/-- The six times of the small table fall into three ranges. -/
theorem makeSplits_partition_small :
    ∃ s, makeSplits id { split := .globalTime } smallData = .ok s ∧
      ∀ role ≤ 2, ∃ e < smallData.size, s.roles e = role := by
  obtain ⟨s, hs, _, _, _, hglobal⟩ :=
    makeSplits_partition id { split := .globalTime } smallData (fun _ => by decide)
  exact ⟨s, hs, (hglobal rfl).2.1⟩

end Dgsr
