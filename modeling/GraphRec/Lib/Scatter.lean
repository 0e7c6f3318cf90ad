import GraphRec.Lib.Grouping
import Mathlib.Algebra.BigOperators.Group.List.Basic
import Mathlib.Algebra.Field.Defs
import Mathlib.Order.WithBot

/-!
# Scattering into arrays

`scatter op base entries` combines each entry's value into the place of `base` that it names, in
the order of the entries.  What ends up at a place depends on the entries for that place only, in
their order (`getElem?_scatter_map`).

Instances: the segment sum and the segment softmax of an array of edges by their destinations, and
`indexCopy`, the write of a batch of values.
-/

namespace Scatter

open Grouping

/-! ## Places -/

section Places

variable {α β γ : Type} (op : β → α → β) (base : List β)

/-- Each entry's value is combined into the place it names. -/
def scatter (entries : List (ℕ × α)) : List β :=
  entries.foldl (fun values e => values.modify e.1 fun b => op b e.2) base

@[simp] theorem length_scatter (entries : List (ℕ × α)) :
    (scatter op base entries).length = base.length := by
  induction entries generalizing base with
  | nil => rfl
  | cons e entries ih =>
      rw [scatter, List.foldl_cons, ← scatter, ih, List.length_modify]

/-- **A place.**  It has the values of its own entries, combined in their order. -/
theorem getElem?_scatter (entries : List (ℕ × α)) (v : ℕ) : (scatter op base entries)[v]? =
    base[v]?.map fun b => ((group Prod.fst entries v).map Prod.snd).foldl op b := by
  induction entries generalizing base with
  | nil => simp [scatter, group]
  | cons e entries ih =>
      rw [scatter, List.foldl_cons, ← scatter, ih, List.getElem?_modify]
      by_cases hv : e.1 = v
      · simp only [if_pos hv, Option.map_eq_map, Option.map_map]
        rw [group, group, List.filter_cons_of_pos (by simp [hv])]
        rfl
      · simp only [if_neg hv, Option.map_eq_map, Option.map_id']
        rw [group, group, List.filter_cons_of_neg (by simp [hv])]

variable {op base}

theorem group_zip_map (key : γ → ℕ) (f : γ → α) (l : List γ) (v : ℕ) :
    (group Prod.fst ((l.map key).zip (l.map f)) v).map Prod.snd = (group key l v).map f := by
  rw [List.zip_map', group, group, List.filter_map, List.map_map]
  rfl

/-- A place, for the values of a list of records. -/
theorem getElem?_scatter_map (key : γ → ℕ) (f : γ → α) (l : List γ) (v : ℕ) :
    (scatter op base ((l.map key).zip (l.map f)))[v]? =
      base[v]?.map fun b => ((group key l v).map f).foldl op b := by
  rw [getElem?_scatter, group_zip_map]

end Places

/-! ## Segments -/

section Segments

variable {γ : Type}

/-- `segment_sum`. -/
def segmentSum {V : Type} [AddCommMonoid V] (values : List V) (destinations : List ℕ)
    (size : ℕ) : List V :=
  scatter (· + ·) (List.replicate size 0) (destinations.zip values)

@[simp] theorem length_segmentSum {V : Type} [AddCommMonoid V] (values : List V)
    (destinations : List ℕ) (size : ℕ) : (segmentSum values destinations size).length = size := by
  simp [segmentSum]

/-- A segment's sum. -/
theorem getD_segmentSum_map {V : Type} [AddCommMonoid V] (key : γ → ℕ) (f : γ → V) (l : List γ)
    {size v : ℕ} (hv : v < size) :
    (segmentSum (l.map f) (l.map key) size).getD v 0 = ((group key l v).map f).sum := by
  have hzero : (List.replicate size (0 : V))[v]? = some 0 := by
    rw [List.getElem?_replicate, if_pos hv]
  rw [List.getD_eq_getElem?_getD, segmentSum, getElem?_scatter_map, hzero, List.sum_eq_foldl]
  rfl

variable {K : Type} [Field K] [LinearOrder K] (exp : K → K)

/-- `segment_softmax`: the maxima of the segments, the exponentials below them and their sums. -/
def segmentSoftmax (scores : List K) (destinations : List ℕ) (size : ℕ) : List K :=
  if scores = [] then scores
  else
    let maxima := scatter (fun m (s : K) => max m (s : WithBot K)) (List.replicate size ⊥)
      (destinations.zip scores)
    let numerator := List.zipWith (fun s d => exp (s - (maxima.getD d ⊥).unbotD 0)) scores
      destinations
    let denominator := segmentSum numerator destinations size
    List.zipWith (fun x d => x / denominator.getD d 0) numerator destinations

/-- The largest of some scores. -/
def largest (scores : List K) : WithBot K := scores.foldl (fun m (s : K) => max m (s : WithBot K)) ⊥

/-- The softmax of one list of scores. -/
def softmax (scores : List K) : List K :=
  let numerator := scores.map fun s => exp (s - (largest scores).unbotD 0)
  numerator.map fun x => x / numerator.sum

/-- **The segment softmax.**  It is computed record by record, and on the records of a segment it
is their softmax. -/
theorem segmentSoftmax_map (key : γ → ℕ) (f : γ → K) (l : List γ) (size : ℕ) :
    ∃ attention : γ → K, segmentSoftmax exp (l.map f) (l.map key) size = l.map attention ∧
      ∀ v < size, (group key l v).map attention = softmax exp ((group key l v).map f) := by
  let maxima := scatter (fun m (s : K) => max m (s : WithBot K)) (List.replicate size ⊥)
    ((l.map key).zip (l.map f))
  let numerator : γ → K := fun a => exp (f a - (maxima.getD (key a) ⊥).unbotD 0)
  let denominator := segmentSum (l.map numerator) (l.map key) size
  refine ⟨fun a => numerator a / denominator.getD (key a) 0, ?_, fun v hv => ?_⟩
  · have hnumerator : List.zipWith (fun s d => exp (s - (maxima.getD d ⊥).unbotD 0)) (l.map f)
        (l.map key) = l.map numerator := by
      rw [List.zipWith_map, List.zipWith_self]
    rw [segmentSoftmax]
    split
    · next hnil =>
        rw [List.map_eq_nil_iff] at hnil
        rw [hnil]
        rfl
    · dsimp only
      rw [hnumerator, List.zipWith_map, List.zipWith_self]
  · -- On a segment the maximum and the sum are those of the segment.
    have hmaxima : maxima.getD v ⊥ = largest ((group key l v).map f) := by
      have hbot : (List.replicate size (⊥ : WithBot K))[v]? = some ⊥ := by
        rw [List.getElem?_replicate, if_pos hv]
      rw [List.getD_eq_getElem?_getD, getElem?_scatter_map, hbot]
      rfl
    have hkey : ∀ a ∈ group key l v, key a = v := fun a ha => (mem_group.mp ha).2
    have hnumerator : (group key l v).map numerator =
        ((group key l v).map f).map fun s =>
          exp (s - (largest ((group key l v).map f)).unbotD 0) := by
      rw [List.map_map]
      refine List.map_congr_left fun a ha => ?_
      simp only [numerator, hkey a ha, hmaxima, Function.comp_apply]
    have hdenominator : denominator.getD v 0 = ((group key l v).map numerator).sum :=
      getD_segmentSum_map key numerator l hv
    rw [softmax, ← hnumerator, List.map_map]
    refine List.map_congr_left fun a ha => ?_
    simp only [hkey a ha, hdenominator, Function.comp_apply]

/-- A sum of values weighted by a segment softmax. -/
theorem getD_weighted {V : Type} [AddCommMonoid V] [SMul K V] (key : γ → ℕ) (f : γ → K) (g : γ → V)
    (l : List γ) {size v : ℕ} (hv : v < size) :
    (segmentSum (List.zipWith (fun x a => x • g a) (segmentSoftmax exp (l.map f) (l.map key) size)
      l) (l.map key) size).getD v 0 =
      (List.zipWith (fun x a => x • g a) (softmax exp ((group key l v).map f))
        (group key l v)).sum := by
  obtain ⟨attention, hattention, hsegment⟩ := segmentSoftmax_map exp key f l size
  rw [hattention, List.zipWith_map_left, List.zipWith_self,
    getD_segmentSum_map key (fun a => attention a • g a) l hv, ← hsegment v hv,
    List.zipWith_map_left, List.zipWith_self]

end Segments

/-! ## Copies -/

/-- `index_copy`: the values are written one after the other. -/
def indexCopy {V : Type} (base : List V) (indices : List ℕ) (values : List V) : List V :=
  scatter (fun _ x => x) base (indices.zip values)

@[simp] theorem length_indexCopy {V : Type} (base : List V) (indices : List ℕ)
    (values : List V) : (indexCopy base indices values).length = base.length := by
  simp [indexCopy]

theorem foldl_last {V : Type} (b : V) (l : List V) :
    l.foldl (fun _ x => x) b = l.getLast?.getD b := by
  induction l generalizing b with
  | nil => rfl
  | cons a l ih => rw [List.foldl_cons, ih, List.getLast?_cons, Option.getD_some]

/-- The last value written to a place stays. -/
theorem getElem?_indexCopy_map {V γ : Type} (base : List V) (key : γ → ℕ) (f : γ → V)
    (l : List γ) (v : ℕ) : (indexCopy base (l.map key) (l.map f))[v]? =
      base[v]?.map fun b => ((group key l v).map f).getLast?.getD b := by
  rw [indexCopy, getElem?_scatter_map]
  simp only [foldl_last]

end Scatter
