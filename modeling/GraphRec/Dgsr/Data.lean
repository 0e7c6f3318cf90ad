import Mathlib.Algebra.Order.Floor.Semiring
import Mathlib.Data.List.GetD
import Mathlib.Data.List.Sort
import Mathlib.Data.Rat.Floor
import Mathlib.Logic.Function.Basic

/-!
# Interaction data and its splits

`InteractionData` is a chronological table of (user, item, time) events with
event ids `0 .. size - 1`; users and items are indices into the id lists.
`makeSplits` gives every event a role (0 train, 1 validation, 2 test) and turns
the consecutive events of a user into next-item examples, each with the id of
the last observed event as its cutoff; `allowedEvents` says which events the
graph of a split may show; `positionCapacity` is the number of rows of the
position embeddings.

`makeSplits_spec` characterises the splits: the examples join the consecutive
events of the supervised users, and the split of an example is the role of its
target.
-/

namespace Dgsr

/-- `long_term`. -/
inductive LongTerm
  | dat | gcn | gru | none
  deriving DecidableEq, Repr

/-- `split`. -/
inductive SplitMode
  | leaveTwoOut | globalTime | none
  deriving DecidableEq, Repr

/-- `graph_policy`. -/
inductive GraphPolicy
  | splitSafe | paperTemporal
  deriving DecidableEq, Repr

/-- The part of `Config` that sampling and splitting read, as `validate` accepts
it; the fractions are the exact values of their floating-point numbers. -/
structure Config where
  longTerm : LongTerm := .dat
  recentItems : ℕ := 50
  samplingOrder : ℕ := 4
  itemNeighborLimit : ℕ := 0
  maxSampleNodes : ℕ := 100000
  maxSampleEdges : ℕ := 1000000
  split : SplitMode := .leaveTwoOut
  trainFraction : ℚ := 4 / 5
  validationFraction : ℚ := 1 / 10
  graphPolicy : GraphPolicy := .splitSafe
  recentItems_pos : 1 ≤ recentItems := by decide

/-- One event. -/
structure Interaction where
  user : ℕ
  item : ℕ
  time : ℤ
  deriving DecidableEq, Repr

/-- The events in the order of their ids, with the names of users and items. -/
structure InteractionData where
  events : List Interaction
  userIds : List String
  itemIds : List String
  user_lt : ∀ x ∈ events, x.user < userIds.length
  item_lt : ∀ x ∈ events, x.item < itemIds.length

namespace InteractionData

variable (data : InteractionData)

def size : ℕ := data.events.length
def numUsers : ℕ := data.userIds.length
def numItems : ℕ := data.itemIds.length

/-- The columns `users`, `items` and `times`, at an event id. -/
def user (e : ℕ) : ℕ := (data.events[e]?).elim 0 Interaction.user
def item (e : ℕ) : ℕ := (data.events[e]?).elim 0 Interaction.item
def time (e : ℕ) : ℤ := (data.events[e]?).elim 0 Interaction.time

/-- `by_user`: the events of a user, by ascending id. -/
def byUser (u : ℕ) : List ℕ :=
  (List.range data.size).filter fun e => decide (data.user e = u)

/-- `by_item`. -/
def byItem (i : ℕ) : List ℕ :=
  (List.range data.size).filter fun e => decide (data.item e = i)

/-- Times do not decrease with the event id. -/
def Chronological : Prop :=
  ∀ ⦃e e' : ℕ⦄, e ≤ e' → e' < data.size → data.time e ≤ data.time e'

variable {data}

theorem user_lt_numUsers {e : ℕ} (he : e < data.size) : data.user e < data.numUsers := by
  have hget : data.events[e]? = some data.events[e] := List.getElem?_eq_getElem he
  simp only [user, hget, Option.elim_some]
  exact data.user_lt _ (List.getElem_mem he)

theorem item_lt_numItems {e : ℕ} (he : e < data.size) : data.item e < data.numItems := by
  have hget : data.events[e]? = some data.events[e] := List.getElem?_eq_getElem he
  simp only [item, hget, Option.elim_some]
  exact data.item_lt _ (List.getElem_mem he)

@[simp] theorem mem_byUser {u e : ℕ} :
    e ∈ data.byUser u ↔ e < data.size ∧ data.user e = u := by simp [byUser]

@[simp] theorem mem_byItem {i e : ℕ} :
    e ∈ data.byItem i ↔ e < data.size ∧ data.item e = i := by simp [byItem]

theorem byUser_increasing (data : InteractionData) (u : ℕ) :
    (data.byUser u).Pairwise (· < ·) :=
  List.pairwise_lt_range.filter _

theorem byItem_increasing (data : InteractionData) (i : ℕ) :
    (data.byItem i).Pairwise (· < ·) :=
  List.pairwise_lt_range.filter _

end InteractionData

open InteractionData

/-- `position_capacity`. -/
def InteractionData.positionCapacity (data : InteractionData) (cfg : Config) : ℕ :=
  let userMax := min cfg.recentItems
    (((List.range data.numUsers).map fun u => (data.byUser u).length).foldl max 0)
  let itemMax := ((List.range data.numItems).map fun i => (data.byItem i).length).foldl max 0
  let itemMax := if cfg.itemNeighborLimit = 0 then itemMax
    else min itemMax cfg.itemNeighborLimit
  max 1 (max userMax itemMax)

/-! ## Splits -/

/-- A next-item example: the last observed event and the target. -/
structure Example where
  user : ℕ
  cutoff : ℕ
  target : ℕ
  targetEvent : ℕ
  deriving DecidableEq, Repr

/-- The arguments of `allowed_events`. -/
inductive Split
  | inference | train | validation | test
  deriving DecidableEq, Repr

/-- The roles of the events and the examples of the three splits. -/
structure Splits where
  roles : ℕ → ℕ
  train : List Example
  validation : List Example
  test : List Example

/-- `examples[name]`. -/
def Splits.examples (s : Splits) : Split → List Example
  | .inference => []
  | .train => s.train
  | .validation => s.validation
  | .test => s.test

/-- `("train", "validation", "test")[role]`, read backwards. -/
def Split.role : Split → ℕ
  | .inference => 0
  | .train => 0
  | .validation => 1
  | .test => 2

/-- What `make_splits` refuses. -/
inductive SplitError
  | tooFewTimestamps
  deriving DecidableEq, Repr

section MakeSplits

-- `rnd` rounds to the nearest floating-point number.
variable (rnd : ℚ → ℚ) (cfg : Config) (data : InteractionData)

/-- The last train time and the last validation time of the `global_time` split. -/
def globalTimeEnds : Except SplitError (ℤ × ℤ) :=
  let uniqueTimes := ((data.events.map Interaction.time).dedup).insertionSort (· ≤ ·)
  let n := uniqueTimes.length
  if n < 3 then .error .tooFewTimestamps
  else
    let a := min (max 1 ⌊rnd (n * cfg.trainFraction)⌋.toNat) (n - 2)
    let b := min (max (a + 1)
      ⌊rnd (n * rnd (cfg.trainFraction + cfg.validationFraction))⌋.toNat) (n - 1)
    .ok (uniqueTimes.getD (a - 1) 0, uniqueTimes.getD (b - 1) 0)

/-- The roles before the users are visited. -/
def initialRoles : Except SplitError (ℕ → ℕ) :=
  match cfg.split with
  | .globalTime =>
      match globalTimeEnds rnd cfg data with
      | .error e => .error e
      | .ok (trainEnd, valEnd) =>
          .ok fun e =>
            if data.time e > valEnd then 2 else if data.time e > trainEnd then 1 else 0
  | .leaveTwoOut | .none => .ok fun _ => 0

/-- The examples of one user: every event after the first, with the one before. -/
def userExamples (u : ℕ) : List Example :=
  ((data.byUser u).zip (data.byUser u).tail).map fun pair =>
    ⟨u, pair.1, data.item pair.2, pair.2⟩

/-- The body of the loop over users. -/
def splitUser (s : Splits) (u : ℕ) : Splits :=
  let events := data.byUser u
  if cfg.split = .leaveTwoOut ∧ events.length < 4 then s
  else
    let roles :=
      if cfg.split = .leaveTwoOut then
        Function.update (Function.update s.roles (events.getD (events.length - 2) 0) 1)
          (events.getD (events.length - 1) 0) 2
      else s.roles
    let named := fun role =>
      (userExamples data u).filter fun x => decide (roles x.targetEvent = role)
    ⟨roles, s.train ++ named 0, s.validation ++ named 1, s.test ++ named 2⟩

/-- `make_splits`. -/
def makeSplits : Except SplitError Splits :=
  match initialRoles rnd cfg data with
  | .error e => .error e
  | .ok roles =>
      let s := (List.range data.numUsers).foldl (splitUser cfg data) ⟨roles, [], [], []⟩
      let sorted := fun l : List Example =>
        l.insertionSort fun x y => x.targetEvent ≤ y.targetEvent
      .ok ⟨s.roles, sorted s.train, sorted s.validation, sorted s.test⟩

/-- `allowed_events`. -/
def allowedEvents (roles : ℕ → ℕ) (split : Split) (e : ℕ) : Bool :=
  if split = .inference ∨ cfg.graphPolicy = .paperTemporal then true
  else
    match split with
    | .inference => true
    | .train => decide (roles e = 0)
    | .validation => decide (roles e ≤ if cfg.split = .globalTime then 1 else 0)
    | .test => decide (roles e ≤ if cfg.split = .globalTime then 2 else 1)

/-! ## What the splits are -/

/-- Does the loop visit the events of this user? -/
def supervised (u : ℕ) : Bool :=
  !(decide (cfg.split = .leaveTwoOut) && decide ((data.byUser u).length < 4))

/-- The role an event ends up with. -/
def finalRole (initial : ℕ → ℕ) (e : ℕ) : ℕ :=
  let events := data.byUser (data.user e)
  if cfg.split = .leaveTwoOut ∧ 4 ≤ events.length then
    if e = events.getD (events.length - 1) 0 then 2
    else if e = events.getD (events.length - 2) 0 then 1
    else initial e
  else initial e

/-- The examples of some users whose target has a role. -/
def roleExamples (initial : ℕ → ℕ) (users : List ℕ) (role : ℕ) : List Example :=
  (users.filter (supervised cfg data)).flatMap fun u =>
    (userExamples data u).filter fun x => decide (finalRole cfg data initial x.targetEvent = role)

variable {cfg data}

/-- An example joins two events of its user, the earlier one first. -/
theorem mem_userExamples {u : ℕ} {x : Example} (h : x ∈ userExamples data u) :
    x.user = u ∧ x.target = data.item x.targetEvent ∧
      ∃ k, (data.byUser u)[k]? = some x.cutoff ∧
        (data.byUser u)[k + 1]? = some x.targetEvent := by
  obtain ⟨⟨prev, next⟩, hmem, rfl⟩ := List.mem_map.mp h
  refine ⟨rfl, rfl, ?_⟩
  obtain ⟨k, hk⟩ := List.mem_iff_getElem?.mp hmem
  rw [List.getElem?_zip_eq_some, List.getElem?_tail] at hk
  exact ⟨k, hk⟩

theorem example_cutoff_lt {u : ℕ} {x : Example} (h : x ∈ userExamples data u) :
    x.cutoff ∈ data.byUser u ∧ x.targetEvent ∈ data.byUser u ∧ x.cutoff < x.targetEvent := by
  obtain ⟨_, _, k, hcutoff, htarget⟩ := mem_userExamples h
  refine ⟨List.mem_of_getElem? hcutoff, List.mem_of_getElem? htarget, ?_⟩
  obtain ⟨hk, hcutoff⟩ := List.getElem?_eq_some_iff.mp hcutoff
  obtain ⟨hk', htarget⟩ := List.getElem?_eq_some_iff.mp htarget
  have hlt := (List.pairwise_iff_getElem.mp (data.byUser_increasing u)) k (k + 1) hk hk'
    (Nat.lt_succ_self k)
  rwa [hcutoff, htarget] at hlt

/-- What the loop has done after the users `us`. -/
structure SplitInv (cfg : Config) (data : InteractionData) (initial : ℕ → ℕ) (us : List ℕ)
    (s : Splits) : Prop where
  visited : ∀ e < data.size, data.user e ∈ us → s.roles e = finalRole cfg data initial e
  unvisited : ∀ e < data.size, data.user e ∉ us → s.roles e = initial e
  examples : ∀ split, split ≠ .inference →
    s.examples split = roleExamples cfg data initial us split.role

/-- The last two events of a user with two events are events of the user. -/
private theorem user_of_getD {u k : ℕ} (hk : k < (data.byUser u).length) :
    data.user ((data.byUser u).getD k 0) = u := by
  have hmem : (data.byUser u).getD k 0 ∈ data.byUser u := by
    rw [List.getD_eq_getElem _ _ hk]
    exact List.getElem_mem hk
  exact (mem_byUser.mp hmem).2

/-- The roles after a visit. -/
theorem splitUser_roles {initial : ℕ → ℕ} {us : List ℕ} {s : Splits} {u : ℕ}
    (hinv : SplitInv cfg data initial us s) (hu : u ∉ us) {e : ℕ} (he : e < data.size) :
    (splitUser cfg data s u).roles e =
      if data.user e = u then finalRole cfg data initial e else s.roles e := by
  have hopen : data.user e = u → s.roles e = initial e := fun heu =>
    hinv.unvisited e he (heu ▸ hu)
  unfold splitUser
  by_cases hshort : cfg.split = .leaveTwoOut ∧ (data.byUser u).length < 4
  · rw [if_pos hshort]
    by_cases heu : data.user e = u
    · have hlen : ¬ 4 ≤ (data.byUser u).length := by omega
      rw [if_pos heu, hopen heu, finalRole, heu, if_neg (fun h => hlen h.2)]
    · rw [if_neg heu]
  · rw [if_neg hshort]
    by_cases hmode : cfg.split = .leaveTwoOut
    · have hlen : 4 ≤ (data.byUser u).length := by
        by_contra h
        exact hshort ⟨hmode, by omega⟩
      simp only [if_pos hmode]
      by_cases heu : data.user e = u
      · rw [if_pos heu, finalRole, heu, if_pos ⟨hmode, hlen⟩]
        by_cases hlast : e = (data.byUser u).getD ((data.byUser u).length - 1) 0
        · rw [if_pos hlast, hlast, Function.update_self]
        · rw [if_neg hlast, Function.update_of_ne hlast]
          by_cases hprev : e = (data.byUser u).getD ((data.byUser u).length - 2) 0
          · rw [if_pos hprev, hprev, Function.update_self]
          · rw [if_neg hprev, Function.update_of_ne hprev, hopen heu]
      · -- Events of other users keep their roles.
        have hother : ∀ k < (data.byUser u).length, e ≠ (data.byUser u).getD k 0 := by
          intro k hk heq
          subst heq
          exact heu (user_of_getD hk)
        rw [if_neg heu, Function.update_of_ne (hother _ (by omega)),
          Function.update_of_ne (hother _ (by omega))]
    · simp only [if_neg hmode]
      by_cases heu : data.user e = u
      · rw [if_pos heu, hopen heu, finalRole, if_neg (fun h => hmode h.1)]
      · rw [if_neg heu]

/-- What one more user adds to the examples of a role. -/
theorem roleExamples_concat (initial : ℕ → ℕ) (us : List ℕ) (u role : ℕ) :
    roleExamples cfg data initial (us ++ [u]) role = roleExamples cfg data initial us role ++
      if supervised cfg data u then
        (userExamples data u).filter fun x =>
          decide (finalRole cfg data initial x.targetEvent = role)
      else [] := by
  unfold roleExamples
  rw [List.filter_append, List.flatMap_append]
  by_cases hs : supervised cfg data u = true <;> simp [hs]

/-- **Step lemma.**  A visit extends what the loop has done. -/
theorem splitUser_inv {initial : ℕ → ℕ} {us : List ℕ} {s : Splits} {u : ℕ}
    (hinv : SplitInv cfg data initial us s) (hu : u ∉ us) :
    SplitInv cfg data initial (us ++ [u]) (splitUser cfg data s u) where
  visited := by
    intro e he hmem
    rw [splitUser_roles hinv hu he]
    split
    · rfl
    · next hne =>
        refine hinv.visited e he ?_
        rcases List.mem_append.mp hmem with hmem | hmem
        · exact hmem
        · exact absurd (List.mem_singleton.mp hmem) hne
  unvisited := by
    intro e he hmem
    rw [List.mem_append, List.mem_singleton, not_or] at hmem
    rw [splitUser_roles hinv hu he, if_neg hmem.2]
    exact hinv.unvisited e he hmem.1
  examples := by
    intro split hsplit
    rw [roleExamples_concat, ← hinv.examples split hsplit]
    by_cases hshort : cfg.split = .leaveTwoOut ∧ (data.byUser u).length < 4
    · have hs : supervised cfg data u = false := by simp [supervised, hshort.1, hshort.2]
      rw [splitUser, if_pos hshort, hs]
      simp
    · have hs : supervised cfg data u = true := by
        simp only [supervised, Bool.not_eq_true', Bool.and_eq_false_imp, decide_eq_true_eq,
          decide_eq_false_iff_not]
        exact fun hmode hlen => hshort ⟨hmode, hlen⟩
      -- The roles of the user's own events are final when the examples are named.
      have hnamed : ∀ role, (userExamples data u).filter (fun x =>
            decide ((splitUser cfg data s u).roles x.targetEvent = role)) =
          (userExamples data u).filter fun x =>
            decide (finalRole cfg data initial x.targetEvent = role) := by
        intro role
        refine List.filter_congr fun x hx => ?_
        have htarget := mem_byUser.mp (example_cutoff_lt hx).2.1
        rw [splitUser_roles hinv hu htarget.1, if_pos htarget.2]
      rw [hs, if_pos rfl, ← hnamed]
      simp only [splitUser, if_neg hshort]
      cases split with
      | inference => exact absurd rfl hsplit
      | train => rfl
      | validation => rfl
      | test => rfl

/-- **The splits.**  Every event has its final role, and the examples of a split
are those of the supervised users whose target has its role. -/
theorem makeSplits_spec {rnd : ℚ → ℚ} {s : Splits} (h : makeSplits rnd cfg data = .ok s) :
    ∃ initial, initialRoles rnd cfg data = .ok initial ∧
      (∀ e < data.size, s.roles e = finalRole cfg data initial e) ∧
      ∀ split, split ≠ .inference → (s.examples split).Perm
        (roleExamples cfg data initial (List.range data.numUsers) split.role) := by
  unfold makeSplits at h
  split at h
  · cases h
  · next initial hinitial =>
      cases h
      have hrun : ∀ n, SplitInv cfg data initial (List.range n)
          ((List.range n).foldl (splitUser cfg data) ⟨initial, [], [], []⟩) := by
        intro n
        induction n with
        | zero =>
            refine ⟨by simp, fun _ _ _ => rfl, ?_⟩
            intro split _
            cases split <;> rfl
        | succ n ih =>
            rw [List.range_succ, List.foldl_append]
            exact splitUser_inv ih (by simp)
      have hend := hrun data.numUsers
      refine ⟨initial, hinitial, ?_, ?_⟩
      · intro e he
        exact hend.visited e he (List.mem_range.mpr (user_lt_numUsers he))
      · intro split hsplit
        rw [← hend.examples split hsplit]
        cases split with
        | inference => exact absurd rfl hsplit
        | train => exact List.perm_insertionSort _ _
        | validation => exact List.perm_insertionSort _ _
        | test => exact List.perm_insertionSort _ _

end MakeSplits

/-! ## A small table -/

/-- Two users over three items; user 0 has a training pair, a validation and a
test target. -/
def smallData : InteractionData where
  events := [⟨0, 0, 10⟩, ⟨1, 1, 11⟩, ⟨0, 1, 12⟩, ⟨1, 0, 13⟩, ⟨0, 2, 14⟩, ⟨0, 0, 15⟩]
  userIds := ["ada", "bob"]
  itemIds := ["x", "y", "z"]
  user_lt := by decide
  item_lt := by decide

theorem smallData_chronological : smallData.Chronological := by
  intro e e' hle hlt
  have hall : ∀ e' < 6, ∀ e ≤ e', smallData.time e ≤ smallData.time e' := by decide
  exact hall e' hlt e hle

end Dgsr
