import GraphRec.Lib.Fallible
import GraphRec.Lib.RoundRobin
import GraphRec.Serving.FastTopK
import GraphRec.Serving.Pipeline

/-!
# Neighbours of the recent items

`neighbor_anchors` walks the history backwards for the items it starts from; `source_neighbors`
takes the Top-K of every anchor's similarities, excluded items masked, and merges the lists
round-robin.  The merge is `RoundRobin.merge`, the Top-K is `fastTopK`.

`anchorLoop_eq` — the anchors are the most recent distinct items of the model; `anchorList_eq` — an
anchor's list is `nearestItems`, the best items that are not excluded; `neighbors_spec` puts the two
together.
-/

namespace Serving

open Extended TopK

/-! ## The anchors -/

/-- The loop of `neighbor_anchors`, over the history from the end. -/
def anchorLoop (known : String → Bool) (limit : ℕ) : List String → List String → List String
  | [], anchors => anchors
  | item :: items, anchors =>
      if item ∉ anchors ∧ known item = true then
        if (anchors ++ [item]).length = limit then anchors ++ [item]
        else anchorLoop known limit items (anchors ++ [item])
      else anchorLoop known limit items anchors

/-- The loop goes on with the first occurrences that it does not have. -/
theorem anchorLoop_eq (known : String → Bool) {limit : ℕ} (items anchors : List String)
    (h : anchors.length < limit) : anchorLoop known limit items anchors = anchors ++
      ((firstOccurrences (items.filter known)).filter fun item =>
        decide (item ∉ anchors)).take (limit - anchors.length) := by
  induction items generalizing anchors with
  | nil => simp [anchorLoop, firstOccurrences]
  | cons item items ih =>
      rw [anchorLoop]
      by_cases hknown : known item = true
      · rw [List.filter_cons_of_pos hknown, firstOccurrences]
        by_cases hmem : item ∈ anchors
        · rw [if_neg (fun hcase => hcase.1 hmem), ih anchors h,
            List.filter_cons_of_neg (by simpa using hmem), List.filter_filter]
          congr 2
          refine List.filter_congr fun x _ => ?_
          have hne : x ∉ anchors → x ≠ item := fun hx heq => hx (heq ▸ hmem)
          by_cases hx : x ∈ anchors
          · simp [hx]
          · simp [hx, hne hx]
        · rw [if_pos ⟨hmem, hknown⟩, List.filter_cons_of_pos (by simpa using hmem)]
          split
          · next hfull =>
              rw [List.length_append, List.length_singleton] at hfull
              rw [show limit - anchors.length = 1 by omega, List.take_succ_cons, List.take_zero]
          · next hroom =>
              rw [List.length_append, List.length_singleton] at hroom
              have hlt : (anchors ++ [item]).length < limit := by
                rw [List.length_append, List.length_singleton]
                omega
              rw [ih _ hlt, List.append_assoc, List.length_append, List.length_singleton,
                show limit - anchors.length = limit - (anchors.length + 1) + 1 by omega,
                List.take_succ_cons, List.singleton_append, List.filter_filter]
              congr 3
              refine List.filter_congr fun x _ => ?_
              simp [not_or]
      · rw [if_neg (fun hcase => hknown hcase.2), List.filter_cons_of_neg hknown, ih anchors h]

variable {R : Type}

/-- `neighbor_anchors` is its loop. -/
theorem neighborAnchors_eq_anchorLoop [Field R] [LinearOrder R] (q : Query R) :
    neighborAnchors q = anchorLoop (fun item => (q.model.itemIndex item).isSome) maxAnchors
      q.history.reverse [] := by
  rw [anchorLoop_eq _ _ _ (by decide), List.nil_append, List.length_nil, Nat.sub_zero,
    List.filter_eq_self.mpr (by simp), neighborAnchors]

/-! ## The lists -/

/-- `QUOTA_NEIGHBORS`. -/
def quotaNeighbors : ℕ := 60

/-- `item_ids[i]`. -/
def ServedModel.itemId (model : ServedModel R) (i : ℕ) : String :=
  (model.artifact.data.itemIds[i]?).getD ""

/-- `per_anchor`. -/
def perAnchor (anchors : List String) : ℕ := max (quotaNeighbors / anchors.length) 1

section Lists

variable [Field R] [LinearOrder R]

/-- `sims`: the similarities to the item in row `a`, minus infinity in the blocked rows. -/
def neighborSims (model : ServedModel R) (blocked : List ℕ) (a i : ℕ) : Extended R :=
  if i ∉ blocked then .finite (dot (model.unitItems i) (model.unitItems a)) else .negInf

/-- The list of one anchor; indexing the table with no row raises. -/
def anchorList (argpartition : (ℕ → Extended R) → ℕ → ℕ → List ℕ) (model : ServedModel R)
    (blocked : List ℕ) (count : ℕ) (anchor : String) :
    Except SourceError (List (String × String)) :=
  match model.itemIndex anchor with
  | none => .error .raised
  | some a => .ok ((fastTopK argpartition model.artifact.data.numItems
      (neighborSims model blocked a) count).map fun i => (model.itemId i, anchor))

/-- `source_neighbors`: items with the anchors that pulled them in. -/
def sourceNeighbors (argpartition : (ℕ → Extended R) → ℕ → ℕ → List ℕ) (q : Query R)
    (anchors exclude : List String) : Except SourceError (List (String × String)) :=
  if anchors = [] then .ok []
  else
    let blocked := exclude.filterMap q.model.itemIndex
    match anchors.mapM (anchorList argpartition q.model blocked (perAnchor anchors)) with
    | .error e => .error e
    | .ok lists => .ok (RoundRobin.merge Prod.fst lists (perAnchor anchors))

/-- The `count` items most similar to an anchor that are not excluded, best first, ties by row. -/
def nearestItems (model : ServedModel R) (exclude : List String) (count : ℕ) (anchor : String) :
    List String :=
  match model.itemIndex anchor with
  | none => []
  | some a =>
      ((((List.range model.artifact.data.numItems).filter fun i =>
        decide (model.itemId i ∉ exclude)).insertionSort
          (Better (fun i => dot (model.unitItems i) (model.unitItems a)) id)).take count).map
            model.itemId

variable {model : ServedModel R} {exclude : List String} {count : ℕ} {anchor : String}

omit [Field R] [LinearOrder R] in
/-- A row is blocked when its item is excluded. -/
theorem mem_blocked (hids : model.artifact.data.itemIds.Nodup) {i : ℕ}
    (hi : i < model.artifact.data.numItems) :
    i ∈ exclude.filterMap model.itemIndex ↔ model.itemId i ∈ exclude := by
  have hi' : i < model.artifact.data.itemIds.length := hi
  have hget : model.artifact.data.itemIds[i]? = some model.artifact.data.itemIds[i] :=
    List.getElem?_eq_getElem hi'
  have hid : model.itemId i = model.artifact.data.itemIds[i] := by
    rw [ServedModel.itemId, hget, Option.getD_some]
  rw [List.mem_filterMap, hid]
  constructor
  · intro hcase
    obtain ⟨item, hmem, hindex⟩ := hcase
    obtain ⟨_, hitem, _⟩ := List.idxOf?_eq_some_iff.mp hindex
    rwa [hitem]
  · intro hmem
    refine ⟨_, hmem, List.idxOf?_eq_some_iff.mpr ⟨hi', rfl, fun j hji heq => ?_⟩⟩
    have hj := hids.getElem_inj_iff.mp heq
    omega

theorem length_nearestItems_le (model : ServedModel R) (exclude : List String) (count : ℕ)
    (anchor : String) : (nearestItems model exclude count anchor).length ≤ count := by
  unfold nearestItems
  split
  · exact Nat.zero_le _
  · rw [List.length_map]
    exact List.length_take_le _ _

theorem not_excluded_of_mem_nearestItems {item : String}
    (h : item ∈ nearestItems model exclude count anchor) : item ∉ exclude := by
  unfold nearestItems at h
  split at h
  · exact absurd h List.not_mem_nil
  · obtain ⟨i, hi, rfl⟩ := List.mem_map.mp h
    have hmem := (List.mem_insertionSort _).mp (List.mem_of_mem_take hi)
    exact of_decide_eq_true (List.mem_filter.mp hmem).2

variable [IsStrictOrderedRing R] {argpartition : (ℕ → Extended R) → ℕ → ℕ → List ℕ}

/-- **The list of an anchor** has the items most similar to it. -/
theorem anchorList_eq (hargpartition : IsArgpartition argpartition)
    (hids : model.artifact.data.itemIds.Nodup) (hanchor : (model.itemIndex anchor).isSome) :
    anchorList argpartition model (exclude.filterMap model.itemIndex) count anchor =
      .ok ((nearestItems model exclude count anchor).map fun item => (item, anchor)) := by
  obtain ⟨a, ha⟩ := Option.isSome_iff_exists.mp hanchor
  have hsims : neighborSims model (exclude.filterMap model.itemIndex) a = fun i =>
      if decide (i ∉ exclude.filterMap model.itemIndex) = true then
        .finite (dot (model.unitItems i) (model.unitItems a)) else .negInf := by
    funext i
    simp only [neighborSims, decide_eq_true_eq]
  have hrows : (List.range model.artifact.data.numItems).filter (fun i =>
      decide (i ∉ exclude.filterMap model.itemIndex)) =
      (List.range model.artifact.data.numItems).filter fun i =>
        decide (model.itemId i ∉ exclude) := by
    refine List.filter_congr fun i hi => ?_
    rw [decide_eq_decide, mem_blocked hids (List.mem_range.mp hi)]
  have hfinite : ∀ i < model.artifact.data.numItems,
      neighborSims model (exclude.filterMap model.itemIndex) a i ≠ .posInf := by
    intro i _
    unfold neighborSims
    split <;> simp
  simp only [anchorList, nearestItems, ha, fastTopK_eq_topKIndices hargpartition hfinite]
  rw [hsims, topKIndices_masked, hrows, List.map_map]
  rfl

/-! ## The merge -/

omit [Field R] [LinearOrder R] [IsStrictOrderedRing R] in
theorem length_mul_perAnchor_le {anchors : List String} (h : anchors.length ≤ quotaNeighbors) :
    perAnchor anchors * anchors.length ≤ quotaNeighbors := by
  unfold perAnchor
  rcases Nat.eq_zero_or_pos anchors.length with hzero | hpos
  · rw [hzero, Nat.mul_zero]
    exact Nat.zero_le _
  · have hone : 1 ≤ quotaNeighbors / anchors.length := (Nat.one_le_div_iff hpos).mpr h
    rw [max_eq_left hone]
    exact Nat.div_mul_le_self _ _

omit [Field R] [LinearOrder R] [IsStrictOrderedRing R] in
/-- The anchors are items of the model, and few. -/
theorem neighborAnchors_known (q : Query R) :
    (∀ anchor ∈ neighborAnchors q, (q.model.itemIndex anchor).isSome) ∧
      (neighborAnchors q).length ≤ maxAnchors := by
  constructor
  · intro anchor hanchor
    have hmem := mem_firstOccurrences.mp (List.mem_of_mem_take hanchor)
    exact (List.mem_filter.mp hmem).2
  · exact List.length_take_le _ _

/-- The lists that are merged. -/
def anchorLists (q : Query R) (anchors exclude : List String) : List (List (String × String)) :=
  anchors.map fun anchor =>
    (nearestItems q.model exclude (perAnchor anchors) anchor).map fun item => (item, anchor)

/-- For anchors that the model knows the sources are merged. -/
theorem sourceNeighbors_eq (hargpartition : IsArgpartition argpartition) (q : Query R)
    (hids : q.model.artifact.data.itemIds.Nodup) {anchors : List String} (exclude : List String)
    (hknown : ∀ anchor ∈ anchors, (q.model.itemIndex anchor).isSome) :
    sourceNeighbors argpartition q anchors exclude =
      .ok (RoundRobin.merge Prod.fst (anchorLists q anchors exclude) (perAnchor anchors)) := by
  have hlist : ∀ anchor ∈ anchors,
      anchorList argpartition q.model (exclude.filterMap q.model.itemIndex) (perAnchor anchors)
        anchor = .ok ((nearestItems q.model exclude (perAnchor anchors) anchor).map
          fun item => (item, anchor)) :=
    fun anchor hanchor => anchorList_eq hargpartition hids (hknown anchor hanchor)
  have hlists := Fallible.mapM_eq_ok hlist
  unfold sourceNeighbors
  split
  · next hnil =>
      have hempty : RoundRobin.merge Prod.fst (anchorLists q anchors exclude)
          (perAnchor anchors) = [] := by
        rw [← List.length_eq_zero_iff, ← Nat.le_zero]
        refine (RoundRobin.length_merge_le _ _ _).trans ?_
        simp [anchorLists, hnil]
      rw [hempty]
  · dsimp only
    rw [hlists]
    rfl

omit [IsStrictOrderedRing R] in
/-- What stands at a place of the lists. -/
theorem entryAt_anchorLists {q : Query R} {anchors exclude : List String} {rank i : ℕ}
    {item anchor : String} :
    RoundRobin.entryAt (anchorLists q anchors exclude) (toLex (rank, i)) = some (item, anchor) ↔
      anchors[i]? = some anchor ∧
        (nearestItems q.model exclude (perAnchor anchors) anchor)[rank]? = some item := by
  simp only [RoundRobin.entryAt, anchorLists, ofLex_toLex, List.getElem?_map,
    Option.bind_eq_some_iff, Option.map_eq_some_iff]
  constructor
  · intro hcase
    obtain ⟨_, ⟨anchor', hanchor, rfl⟩, hitem⟩ := hcase
    rw [List.getElem?_map, Option.map_eq_some_iff] at hitem
    obtain ⟨item', hitem, heq⟩ := hitem
    cases heq
    exact ⟨hanchor, hitem⟩
  · intro hcase
    obtain ⟨hanchor, hitem⟩ := hcase
    exact ⟨_, ⟨anchor, hanchor, rfl⟩, by rw [List.getElem?_map, hitem]; rfl⟩

omit [IsStrictOrderedRing R] in
/-- The places of the lists are places of the merge. -/
theorem mem_places_of_entry {q : Query R} {anchors exclude : List String} {rank i : ℕ}
    {item anchor : String} (hanchor : anchors[i]? = some anchor)
    (hitem : (nearestItems q.model exclude (perAnchor anchors) anchor)[rank]? = some item) :
    toLex (rank, i) ∈
      RoundRobin.places (perAnchor anchors) (anchorLists q anchors exclude).length := by
  rw [RoundRobin.mem_places, anchorLists, List.length_map]
  refine ⟨?_, (List.getElem?_eq_some_iff.mp hanchor).1⟩
  exact (List.getElem?_eq_some_iff.mp hitem).1.trans_le (length_nearestItems_le _ _ _ _)

omit [IsStrictOrderedRing R] in
/-- What is merged are the items near some anchor. -/
theorem mem_keys_merge_anchorLists {q : Query R} {anchors exclude : List String} {item : String} :
    item ∈ (RoundRobin.merge Prod.fst (anchorLists q anchors exclude)
        (perAnchor anchors)).map Prod.fst ↔
      ∃ anchor ∈ anchors, item ∈ nearestItems q.model exclude (perAnchor anchors) anchor := by
  rw [RoundRobin.mem_keys_merge]
  constructor
  · intro hcase
    obtain ⟨l, hl, x, hx, rfl⟩ := hcase
    obtain ⟨anchor, hanchor, rfl⟩ := List.mem_map.mp hl
    obtain ⟨item, hitem, rfl⟩ := List.mem_map.mp (List.mem_of_mem_take hx)
    exact ⟨anchor, hanchor, hitem⟩
  · intro hcase
    obtain ⟨anchor, hanchor, hitem⟩ := hcase
    refine ⟨_, List.mem_map.mpr ⟨anchor, hanchor, rfl⟩, (item, anchor), ?_, rfl⟩
    have hlength : ((nearestItems q.model exclude (perAnchor anchors) anchor).map
        fun item => (item, anchor)).length ≤ perAnchor anchors := by
      rw [List.length_map]
      exact length_nearestItems_le _ _ _ _
    rw [List.take_of_length_le hlength]
    exact List.mem_map.mpr ⟨item, hitem, rfl⟩

omit [IsStrictOrderedRing R] in
/-- **Attribution.**  An item comes with the anchor of the first place that has it. -/
theorem mem_merge_anchorLists {q : Query R} {anchors exclude : List String}
    {item anchor : String} :
    (item, anchor) ∈ RoundRobin.merge Prod.fst (anchorLists q anchors exclude)
        (perAnchor anchors) ↔
      ∃ rank i : ℕ, anchors[i]? = some anchor ∧
        (nearestItems q.model exclude (perAnchor anchors) anchor)[rank]? = some item ∧
        ∀ (rank' i' : ℕ) (anchor' : String), anchors[i']? = some anchor' →
          (nearestItems q.model exclude (perAnchor anchors) anchor')[rank']? = some item →
          rank < rank' ∨ rank = rank' ∧ i ≤ i' := by
  rw [RoundRobin.mem_merge_iff]
  constructor
  · intro hcase
    obtain ⟨place, _, hentry, hfirst⟩ := hcase
    obtain ⟨hanchor, hitem⟩ := entryAt_anchorLists.mp hentry
    refine ⟨(ofLex place).1, (ofLex place).2, hanchor, hitem, ?_⟩
    intro rank' i' anchor' hanchor' hitem'
    have hle := hfirst (toLex (rank', i')) (mem_places_of_entry hanchor' hitem')
      (item, anchor') (entryAt_anchorLists.mpr ⟨hanchor', hitem'⟩) rfl
    exact Prod.Lex.toLex_le_toLex.mp hle
  · intro hcase
    obtain ⟨rank, i, hanchor, hitem, hfirst⟩ := hcase
    refine ⟨toLex (rank, i), mem_places_of_entry hanchor hitem,
      entryAt_anchorLists.mpr ⟨hanchor, hitem⟩, ?_⟩
    intro place' _ y hentry heq
    obtain ⟨item', anchor'⟩ := y
    obtain rfl : item' = item := heq
    obtain ⟨hanchor', hitem'⟩ := entryAt_anchorLists.mp hentry
    exact Prod.Lex.toLex_le_toLex.mpr (hfirst _ _ _ hanchor' hitem')

/-- **Neighbour merging.**  The anchors are the most recent distinct items that the model knows;
the merge has the items that are nearest to some anchor, each once, none of them excluded and no
more than the quota; and an item comes with the anchor whose list has it first, the more recent one
on ties. -/
theorem neighbors_spec (argpartition : (ℕ → Extended R) → ℕ → ℕ → List ℕ)
    (hargpartition : IsArgpartition argpartition) (q : Query R)
    (hids : q.model.artifact.data.itemIds.Nodup) (exclude : List String) :
    anchorLoop (fun item => (q.model.itemIndex item).isSome) maxAnchors q.history.reverse [] =
        (firstOccurrences (q.history.reverse.filter fun item =>
          (q.model.itemIndex item).isSome)).take maxAnchors ∧
      ∃ out, sourceNeighbors argpartition q (neighborAnchors q) exclude = .ok out ∧
        (out.map Prod.fst).Nodup ∧
        (∀ item ∈ out.map Prod.fst, item ∉ exclude) ∧
        (∀ item : String, item ∈ out.map Prod.fst ↔ ∃ anchor ∈ neighborAnchors q,
          item ∈ nearestItems q.model exclude (perAnchor (neighborAnchors q)) anchor) ∧
        out.length ≤ quotaNeighbors ∧
        ∀ item anchor : String, (item, anchor) ∈ out ↔ ∃ rank i : ℕ,
          (neighborAnchors q)[i]? = some anchor ∧
          (nearestItems q.model exclude (perAnchor (neighborAnchors q)) anchor)[rank]? =
            some item ∧
          ∀ (rank' i' : ℕ) (anchor' : String), (neighborAnchors q)[i']? = some anchor' →
            (nearestItems q.model exclude (perAnchor (neighborAnchors q)) anchor')[rank']? =
              some item →
            rank < rank' ∨ rank = rank' ∧ i ≤ i' := by
  obtain ⟨hknown, hfew⟩ := neighborAnchors_known q
  refine ⟨(neighborAnchors_eq_anchorLoop q).symm, _,
    sourceNeighbors_eq hargpartition q hids exclude hknown, RoundRobin.nodup_merge _ _ _, ?_⟩
  refine ⟨?_, fun item => mem_keys_merge_anchorLists, ?_, fun item anchor => mem_merge_anchorLists⟩
  · intro item hitem
    obtain ⟨_, _, hnear⟩ := mem_keys_merge_anchorLists.mp hitem
    exact not_excluded_of_mem_nearestItems hnear
  · refine (RoundRobin.length_merge_le _ _ _).trans ?_
    rw [anchorLists, List.length_map]
    exact length_mul_perAnchor_le (hfew.trans (by decide))

end Lists

/-! ## An item on two lists -/

/-- The small artifact with vectors, queried after two purchases. -/
def smallQuery : Query ℚ where
  model :=
    { artifact := Dgsr.smallArtifact
      score := fun _ => .ok fun _ => 0
      unitItems := fun i => [[1, 0], [0, 1], [0, 1]].getD i [] }
  encoded := none
  history := ["x", "w", "y"]
  seen := []

/-- The item `"z"` stands on both lists, first on the one of the last purchase. -/
theorem neighbors_spec_small :
    smallQuery.model.artifact.data.itemIds.Nodup ∧
      neighborAnchors smallQuery = ["y", "x"] ∧
      ∃ out, sourceNeighbors argsort smallQuery (neighborAnchors smallQuery) ["x", "y"] = .ok out ∧
        ("z", "y") ∈ out := by
  have hids : smallQuery.model.artifact.data.itemIds.Nodup := by decide
  have hanchors : neighborAnchors smallQuery = ["y", "x"] := by decide +kernel
  obtain ⟨_, out, hout, _, _, _, _, hentries⟩ :=
    neighbors_spec argsort isArgpartition_argsort smallQuery hids ["x", "y"]
  refine ⟨hids, hanchors, out, hout, (hentries "z" "y").mpr ⟨0, 0, ?_, ?_, ?_⟩⟩
  · rw [hanchors]
    rfl
  · rw [hanchors]
    decide +kernel
  · intro rank' i' _ _ _
    omega

end Serving
