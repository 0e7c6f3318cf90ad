import GraphRec.Dgsr.Serving
import GraphRec.Serving.Query
import Mathlib.Data.String.Basic

/-!
# Which encoder a query takes

`build_query` encodes a known shopper in the training graph (`encode_known`) when the set of the
items stored for the shopper is the set of the items of the training graph, and as a virtual root
over the stored events (`encode_history`) otherwise.  `queryPath` is that choice, and
`buildQuery_eq_encode` says that building a query is making it and encoding.

The choice compares sets, the encoders read sequences.  A repeated event of a known item, stored
after training, leaves the set as it is, and the shopper is encoded without it
(`not_seesHistory`).  `seesHistory_iff` says when that does not happen.
-/

namespace Serving

variable {R : Type}

/-! ## The choice -/

/-- How a query is encoded. -/
inductive QueryPath
  | unencoded
  | known (user : ℕ)
  | history (events : List Dgsr.HistoryEvent) (user : Option ℕ)
  deriving DecidableEq, Repr

/-- The branches of `build_query`. -/
def queryPath (model : ServedModel R) (events : List CustomerEvent) (request : Request R)
    (now : ℤ) : QueryPath :=
  let history := shopperHistory events request now
  let seen := firstOccurrences (history.map Prod.fst)
  if history = [] then .unencoded
  else
    let user := request.user.bind model.userIndex
    let known := user.filter fun user => sessionItems request.context = [] ∧
      seen.insertionSort (· ≤ ·) = (model.knownHistory user).dedup.insertionSort (· ≤ ·)
    match known with
    | some user => .known user
    | none =>
        let known := modelEvents model events request now
        if known = [] then .unencoded else .history known user

/-- The encoder that a choice calls. -/
def QueryPath.encode (model : ServedModel R) : QueryPath → Except QueryError (Option Encoded)
  | .unencoded => .ok none
  | .known user =>
      match Dgsr.encodeKnown model.artifact user with
      | .error e => .error (.encode e)
      | .ok sample =>
          .ok (some ⟨sample, .personalized, true, (model.artifact.data.byUser user).length⟩)
  | .history events user =>
      match Dgsr.encodeHistory model.artifact events user with
      | .error e => .error (.encode e)
      | .ok sample =>
          .ok (some ⟨sample, if user.isSome then .personalized else .session, user.isSome,
            events.length⟩)

/-- **Building a query is choosing and encoding.** -/
theorem buildQuery_eq_encode (model : ServedModel R) (events : List CustomerEvent)
    (request : Request R) (now : ℤ) :
    buildQuery model events request now =
      ((queryPath model events request now).encode model).map fun encoded =>
        ⟨model, encoded, (shopperHistory events request now).map Prod.fst,
          seenItems events request now⟩ := by
  unfold buildQuery queryPath seenItems
  dsimp only
  by_cases hnil : shopperHistory events request now = []
  · rw [if_pos hnil, if_pos hnil]
    rfl
  · rw [if_neg hnil, if_neg hnil]
    generalize Option.filter _ (request.user.bind model.userIndex) = known
    cases known with
    | some user =>
        dsimp only [QueryPath.encode]
        cases Dgsr.encodeKnown model.artifact user <;> rfl
    | none =>
        dsimp only
        generalize modelEvents model events request now = found
        by_cases hfound : found = []
        · rw [if_pos hfound, if_pos hfound]
          rfl
        · rw [if_neg hfound, if_neg hfound]
          dsimp only [QueryPath.encode]
          cases Dgsr.encodeHistory model.artifact found (request.user.bind model.userIndex) <;>
            rfl

/-! ## Sets of items -/

/-- Sorted without duplicates, two lists agree when they have the same items. -/
theorem sorted_eq_iff {α : Type} [LinearOrder α] (l l' : List α) :
    (firstOccurrences l).insertionSort (· ≤ ·) = l'.dedup.insertionSort (· ≤ ·) ↔
      ∀ a, a ∈ l ↔ a ∈ l' := by
  constructor
  · intro h a
    rw [← mem_firstOccurrences, ← List.mem_insertionSort (· ≤ ·), h, List.mem_insertionSort,
      List.mem_dedup]
  · intro h
    have hperm : (firstOccurrences l).Perm l'.dedup :=
      (List.perm_ext_iff_of_nodup (nodup_firstOccurrences l) (List.nodup_dedup l')).mpr fun a => by
        rw [mem_firstOccurrences, List.mem_dedup, h a]
    refine List.Perm.eq_of_pairwise' (r := (· ≤ ·)) ?_ ?_ ?_
    · exact List.pairwise_insertionSort _ _
    · exact List.pairwise_insertionSort _ _
    · exact (List.perm_insertionSort _ _).trans
        (hperm.trans (List.perm_insertionSort _ _).symm)

/-! ## What the encoder sees -/

section Sees

variable {model : ServedModel R} {events : List CustomerEvent} {request : Request R} {now : ℤ}

/-- The items of a shopper's history, as often as they occur. -/
def historyItems (events : List CustomerEvent) (request : Request R) (now : ℤ) : List String :=
  (shopperHistory events request now).map Prod.fst

/-- The items that are stored for a customer, as often as they occur. -/
def storedItems (events : List CustomerEvent) (name : String) : List String :=
  (storedHistory events name).map Prod.fst

/-- The encoder in the training graph is chosen only for histories all of whose events are the
user's events there; of any other history that has an item of the model, the events of such items
go to the other encoder. -/
structure SeesHistory (model : ServedModel R) (events : List CustomerEvent) (request : Request R)
    (now : ℤ) : Prop where
  known : ∀ user, queryPath model events request now = .known user →
    (historyItems events request now).Subperm (model.knownHistory user)
  other : (∀ user, request.user.bind model.userIndex = some user →
      ¬ (historyItems events request now).Subperm (model.knownHistory user)) →
    (∃ item ∈ historyItems events request now, (model.itemIndex item).isSome) →
    queryPath model events request now =
      .history (modelEvents model events request now) (request.user.bind model.userIndex)

/-- If the items stored for a known shopper without a session are those of the training graph, none
is stored more often than it is there. -/
def KeepsMultiplicity (model : ServedModel R) (events : List CustomerEvent)
    (request : Request R) : Prop :=
  ∀ name user, request.user = some name → model.userIndex name = some user →
    sessionItems request.context = [] →
    (∀ item, item ∈ storedItems events name ↔ item ∈ model.knownHistory user) →
    ∀ item, (storedItems events name).count item ≤ (model.knownHistory user).count item

/-- When the encoder in the training graph is chosen. -/
theorem queryPath_eq_known {user : ℕ} : queryPath model events request now = .known user ↔
    ∃ name, request.user = some name ∧ model.userIndex name = some user ∧
      sessionItems request.context = [] ∧ storedItems events name ≠ [] ∧
      ∀ item, item ∈ storedItems events name ↔ item ∈ model.knownHistory user := by
  constructor
  · intro h
    unfold queryPath at h
    dsimp only at h
    split at h
    · cases h
    · next hhistory =>
        split at h
        · next found hfound =>
            cases h
            obtain ⟨hindex, hcond⟩ := Option.filter_eq_some_iff.mp hfound
            obtain ⟨hsession, hsorted⟩ := of_decide_eq_true hcond
            obtain ⟨name, hname, huser⟩ := Option.bind_eq_some_iff.mp hindex
            have hstored : shopperHistory events request now = storedHistory events name := by
              simp [shopperHistory, hname, hsession]
            rw [hstored] at hhistory hsorted
            refine ⟨name, hname, huser, hsession, ?_, (sorted_eq_iff _ _).mp hsorted⟩
            rw [storedItems, Ne, List.map_eq_nil_iff]
            exact hhistory
        · split at h
          · cases h
          · cases h
  · intro hcase
    obtain ⟨name, hname, huser, hsession, hnonempty, hitems⟩ := hcase
    have hstored : shopperHistory events request now = storedHistory events name := by
      simp [shopperHistory, hname, hsession]
    have hhistory : storedHistory events name ≠ [] := fun hnil => hnonempty (by
      rw [storedItems, hnil, List.map_nil])
    have hsorted := (sorted_eq_iff _ _).mpr hitems
    rw [storedItems] at hsorted
    simp only [queryPath, hstored, if_neg hhistory, hname, Option.bind_some, huser, hsession,
      hsorted, and_self, decide_true, Option.filter_some, if_true]

/-- A history with an item of the model that is not encoded in the training graph goes to the other
encoder, with its events of items of the model. -/
theorem queryPath_eq_history (hnot : ∀ user, queryPath model events request now ≠ .known user)
    (hitem : ∃ item ∈ historyItems events request now, (model.itemIndex item).isSome) :
    queryPath model events request now =
      .history (modelEvents model events request now) (request.user.bind model.userIndex) := by
  obtain ⟨item, hmem, hindex⟩ := hitem
  obtain ⟨⟨item', time⟩, hevent, heq⟩ := List.mem_map.mp hmem
  obtain rfl : item' = item := heq
  obtain ⟨index, hindex⟩ := Option.isSome_iff_exists.mp hindex
  unfold queryPath at hnot ⊢
  dsimp only at hnot ⊢
  split
  · next hnil =>
      rw [hnil] at hevent
      exact absurd hevent List.not_mem_nil
  · next hhistory =>
      rw [if_neg hhistory] at hnot
      split
      · next user hfound =>
          rw [hfound] at hnot
          exact absurd rfl (hnot user)
      · split
        · next hnone =>
            have hgone := List.filterMap_eq_nil_iff.mp hnone _ hevent
            simp [hindex] at hgone
        · rfl

/-- **When the encoder sees the whole history.** -/
theorem seesHistory_iff (model : ServedModel R) (events : List CustomerEvent)
    (request : Request R) (now : ℤ) :
    SeesHistory model events request now ↔ KeepsMultiplicity model events request := by
  constructor
  · intro h name user hname huser hsession hitems item
    by_cases hnil : storedItems events name = []
    · rw [hnil, List.count_nil]
      exact Nat.zero_le _
    · have hsub := h.known user
        (queryPath_eq_known.mpr ⟨name, hname, huser, hsession, hnil, hitems⟩)
      have hstored : historyItems events request now = storedItems events name := by
        simp [historyItems, storedItems, shopperHistory, hname, hsession]
      rw [hstored] at hsub
      exact hsub.count_le item
  · intro h
    have hknown : ∀ user, queryPath model events request now = .known user →
        request.user.bind model.userIndex = some user ∧
          (historyItems events request now).Subperm (model.knownHistory user) := by
      intro user hpath
      obtain ⟨name, hname, huser, hsession, _, hitems⟩ := queryPath_eq_known.mp hpath
      have hstored : historyItems events request now = storedItems events name := by
        simp [historyItems, storedItems, shopperHistory, hname, hsession]
      rw [hstored]
      refine ⟨by rw [hname, Option.bind_some, huser], ?_⟩
      exact List.subperm_ext_iff.mpr fun item _ => h name user hname huser hsession hitems item
    refine ⟨fun user hpath => (hknown user hpath).2, fun hnot hitem => ?_⟩
    refine queryPath_eq_history (fun user hpath => ?_) hitem
    obtain ⟨huser, hsub⟩ := hknown user hpath
    exact hnot user huser hsub

end Sees

/-! ## A repeated purchase -/

/-- The small artifact, whatever the network scores. -/
def smallModel : ServedModel ℕ where
  artifact := Dgsr.smallArtifact
  score := fun _ => .ok fun _ => 0
  unitItems := fun _ => []

/-- The events of user 0 of the small artifact, and a second purchase of one item after training. -/
def repeatedEvents : List CustomerEvent :=
  [CustomerEvent.mk .purchase (some "ada") (some "x") 10000000 10000000,
   CustomerEvent.mk .purchase (some "ada") (some "y") 12000000 12000000,
   CustomerEvent.mk .purchase (some "ada") (some "z") 14000000 14000000,
   CustomerEvent.mk .purchase (some "ada") (some "x") 15000000 15000000,
   CustomerEvent.mk .purchase (some "ada") (some "y") 20000000 20000000]

def repeatedRequest : Request ℕ where
  userId := some "ada"
  topN := 2
  excludeProductIds := []
  context := ⟨none, none⟩
  fallbackAllowed := true
  diversity := none

/-- That shopper is encoded in the training graph, which has one of the two purchases. -/
theorem not_seesHistory :
    queryPath smallModel repeatedEvents repeatedRequest 30000000 = .known 0 ∧
      ¬ ∀ (model : ServedModel ℕ) (events : List CustomerEvent) (request : Request ℕ) (now : ℤ),
        SeesHistory model events request now := by
  have hpath : queryPath smallModel repeatedEvents repeatedRequest 30000000 = .known 0 := by
    decide +kernel
  refine ⟨hpath, fun hall => ?_⟩
  have hsub := (hall smallModel repeatedEvents repeatedRequest 30000000).known 0 hpath
  have hcount := hsub.count_le "y"
  revert hcount
  decide +kernel

end Serving
