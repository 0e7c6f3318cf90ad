import GraphRec.Lib.Capped
import GraphRec.Serving.Rules
import Mathlib.Algebra.Field.Rat
import Mathlib.Algebra.Order.Ring.Rat

/-!
# The category cap

The greedy pass of `rerank` counts the categories of what it has picked and defers a product whose
category is full.  `capLoop_eq` says what it returns: the first `top_n` of the products that the cap
keeps (`Capped.kept`), followed by those that it defers.

`rerank_capped` — no known candidate is lost, and a category exceeds the cap only where the kept
products do not fill the list.
-/

namespace Serving

open Capped

/-! ## The loop -/

section Loop

variable {category : String → Option String} {cap : ℤ} {topN : ℕ}

/-- The counts of the categories picked tell whether there is room. -/
theorem hasRoom_eq_hasPlace (picked : List String) (item : String) :
    hasRoom cap (picked.filterMap category) (category item) =
      hasPlace category cap.toNat picked item := by
  unfold hasPlace
  cases category item with
  | none => rfl
  | some c =>
      have hcount : (picked.filterMap category).count c =
          picked.countP fun b => decide (category b = some c) := by
        rw [List.count_filterMap]
        refine List.countP_congr fun b _ => ?_
        simp
      rw [hasRoom, hcount, decide_eq_decide, Int.lt_toNat]

theorem filterMap_concat (picked : List String) (item : String) :
    (picked ++ [item]).filterMap category = picked.filterMap category ++
      (category item).toList := by
  rw [List.filterMap_append]
  cases h : category item <;> simp [h]

variable (category cap topN) in
/-- **The greedy pass.**  In the state that the entries before have left, it returns what the cap
keeps of the whole list and then what it defers, up to `top_n`. -/
theorem capLoop_eq {ordered before items : List String} (hsplit : ordered = before ++ items)
    (hnodup : ordered.Nodup)
    (hroom : topN = 0 ∨ (kept category cap.toNat before).length < topN) :
    capLoop category cap topN items (kept category cap.toNat before)
        (deferred category cap.toNat before)
        ((kept category cap.toNat before).filterMap category) =
      (kept category cap.toNat ordered ++ deferred category cap.toNat ordered).take topN := by
  induction items generalizing before with
  | nil =>
      rw [List.append_nil] at hsplit
      rw [capLoop, hsplit]
  | cons item items ih =>
      have hsplit' : ordered = before ++ [item] ++ items := by
        rw [hsplit, List.append_assoc, List.singleton_append]
      have hbefore : before.Nodup := by
        rw [hsplit] at hnodup
        exact (List.nodup_append.mp hnodup).1
      have hnot : item ∉ before := by
        rw [hsplit] at hnodup
        exact fun hmem => (List.nodup_append.mp hnodup).2.2 item hmem item List.mem_cons_self rfl
      have hkept := kept_concat category cap.toNat hnot
      have hdeferred := deferred_concat category cap.toNat hnot
      rw [capLoop, hasRoom_eq_hasPlace, hasPlace_kept hbefore]
      split
      · next hplace =>
          rw [if_pos hplace] at hkept hdeferred
          rw [← hkept]
          split
          · next hfull =>
              -- The list is full: what is kept so far is the beginning of what is kept.
              have hfirst : kept category cap.toNat ordered =
                  kept category cap.toNat (before ++ [item]) ++
                    items.filter (within category cap.toNat (before ++ [item] ++ items)) := by
                rw [hsplit', kept_append]
              rw [hfirst, List.append_assoc, ← hfull, List.take_left]
          · next hmore =>
              rw [← hdeferred, ← filterMap_concat, ← hkept]
              refine ih hsplit' ?_
              rw [hkept, List.length_append, List.length_singleton] at hmore ⊢
              omega
      · next hplace =>
          rw [if_neg hplace] at hkept hdeferred
          rw [← hdeferred, ← hkept]
          refine ih hsplit' ?_
          rwa [hkept]

end Loop

/-! ## The result -/

section Result

variable {R : Type} [Field R] [LinearOrder R]

/-- `meta[item][0]`. -/
def categoryOf (info : String → Option ProductMeta) (item : String) : Option String :=
  (info item).bind ProductMeta.category

/-- `cap`, which is at least 1. -/
def RuleSet.cap {R : Type} (rules : RuleSet R) : ℕ := (max rules.maxPerCategory 1).toNat

theorem nodup_knownIds (candidates : List String) (info : String → Option ProductMeta) :
    (knownIds candidates info).Nodup := (nodup_firstOccurrences candidates).filter _

theorem mem_knownIds {candidates : List String} {info : String → Option ProductMeta}
    {item : String} : item ∈ knownIds candidates info ↔ item ∈ candidates ∧ (info item).isSome := by
  rw [knownIds, List.mem_filter, mem_firstOccurrences]

/-- There are as many known ids as known candidates that differ. -/
theorem length_knownIds (candidates : List String) (info : String → Option ProductMeta) :
    (knownIds candidates info).length =
      (candidates.filter fun c => (info c).isSome).dedup.length := by
  refine ((List.perm_ext_iff_of_nodup (nodup_knownIds _ _) (List.nodup_dedup _)).mpr
    fun item => ?_).length_eq
  rw [mem_knownIds, List.mem_dedup, List.mem_filter]

/-- With the category cap `rerank` returns what the cap keeps and then what it defers. -/
theorem rerank_eq_take (halfPower : R → R) (candidates : List String)
    (info : String → Option ProductMeta) (rules : RuleSet R)
    (hdiversity : rules.diversityEnabled = true) (topN : ℕ) (now : ℤ)
    (scores : Option (String → Option R)) :
    rerank halfPower candidates info rules topN now scores =
      (kept (categoryOf info) rules.cap (rulesOrder halfPower candidates info rules now scores) ++
        deferred (categoryOf info) rules.cap
          (rulesOrder halfPower candidates info rules now scores)).take topN := by
  have hnodup : (rulesOrder halfPower candidates info rules now scores).Nodup :=
    (rulesOrder_perm halfPower candidates info rules now scores).nodup_iff.mpr
      (nodup_knownIds _ _)
  have hloop := capLoop_eq (categoryOf info) (max rules.maxPerCategory 1) topN
    (List.nil_append (rulesOrder halfPower candidates info rules now scores)).symm hnodup
    (Nat.eq_zero_or_pos topN)
  have hrerank := rerank_eq halfPower candidates info rules topN now scores
  rw [if_pos hdiversity] at hrerank
  exact hrerank.trans hloop

/-- Rules return as many of the known candidates as there is room for. -/
theorem length_rerank (halfPower : R → R) (candidates : List String)
    (info : String → Option ProductMeta) (rules : RuleSet R) (topN : ℕ) (now : ℤ)
    (scores : Option (String → Option R)) :
    (rerank halfPower candidates info rules topN now scores).length =
      min topN (knownIds candidates info).length := by
  have hordered := (rulesOrder_perm halfPower candidates info rules now scores).length_eq
  by_cases hdiversity : rules.diversityEnabled = true
  · have hparts : (kept (categoryOf info) rules.cap
        (rulesOrder halfPower candidates info rules now scores) ++
        deferred (categoryOf info) rules.cap
          (rulesOrder halfPower candidates info rules now scores)).length = _ :=
      kept_append_deferred_perm.length_eq
    rw [rerank_eq_take halfPower candidates info rules hdiversity, List.length_take, hparts,
      hordered]
  · rw [rerank_eq, if_neg hdiversity, List.length_take, hordered]

/-- A list that starts with enough entries keeps to their counts. -/
theorem countP_take_append_le {l : List String} (l' : List String) {n : ℕ} (h : n ≤ l.length)
    (p : String → Bool) : ((l ++ l').take n).countP p ≤ l.countP p := by
  rw [List.take_append_of_le_length h]
  exact (List.take_sublist n l).countP_le

/-- **Diversity loses nothing.**  With the category cap `rerank` returns distinct known candidates,
`top_n` of them if there are as many; first those that the cap keeps, none of whose categories
exceeds it; and where a category does exceed it, all of them are returned, then the deferred ones in
their order. -/
theorem rerank_capped (halfPower : R → R) (candidates : List String)
    (info : String → Option ProductMeta) (rules : RuleSet R)
    (hdiversity : rules.diversityEnabled = true) (topN : ℕ) (now : ℤ)
    (scores : Option (String → Option R)) :
    let ordered := rulesOrder halfPower candidates info rules now scores
    let respecting := kept (categoryOf info) rules.cap ordered
    let rest := deferred (categoryOf info) rules.cap ordered
    let out := rerank halfPower candidates info rules topN now scores
    out.Nodup ∧
      (∀ item ∈ out, item ∈ candidates ∧ (info item).isSome) ∧
      out.length = min topN (candidates.filter fun c => (info c).isSome).dedup.length ∧
      (respecting ++ rest).Perm (candidates.filter fun c => (info c).isSome).dedup ∧
      out = (respecting ++ rest).take topN ∧
      (∀ c, respecting.countP (fun item => decide (categoryOf info item = some c)) ≤ rules.cap) ∧
      ∀ c, rules.cap < out.countP (fun item => decide (categoryOf info item = some c)) →
        respecting.length < topN ∧ out = respecting ++ rest.take (topN - respecting.length) := by
  intro ordered respecting rest out
  have hordered : ordered.Perm (knownIds candidates info) :=
    rulesOrder_perm halfPower candidates info rules now scores
  have hnodup : ordered.Nodup := hordered.nodup_iff.mpr (nodup_knownIds _ _)
  have hparts : (respecting ++ rest).Perm ordered := kept_append_deferred_perm
  have hout : out = (respecting ++ rest).take topN :=
    rerank_eq_take halfPower candidates info rules hdiversity topN now scores
  have hcounts : ∀ c,
      respecting.countP (fun item => decide (categoryOf info item = some c)) ≤ rules.cap := by
    intro c
    rw [countP_kept hnodup]
    exact min_le_left _ _
  have hall := hparts.trans hordered
  refine ⟨?_, ?_, ?_, ?_, hout, hcounts, fun c hover => ?_⟩
  · rw [hout]
    exact (hall.nodup_iff.mpr (nodup_knownIds _ _)).sublist (List.take_sublist _ _)
  · intro item hitem
    rw [hout] at hitem
    exact mem_knownIds.mp (hall.mem_iff.mp (List.mem_of_mem_take hitem))
  · rw [← length_knownIds]
    exact length_rerank halfPower candidates info rules topN now scores
  · refine hall.trans ((List.perm_ext_iff_of_nodup (nodup_knownIds _ _)
      (List.nodup_dedup _)).mpr fun item => ?_)
    rw [mem_knownIds, List.mem_dedup, List.mem_filter]
  · have hshort : respecting.length < topN := by
      by_contra hnot
      have hle := countP_take_append_le rest (Nat.not_lt.mp hnot)
        fun item => decide (categoryOf info item = some c)
      rw [← hout] at hle
      have hcount := hcounts c
      omega
    refine ⟨hshort, ?_⟩
    rw [hout, List.take_append, List.take_of_length_le hshort.le]

end Result

/-! ## More products than the cap -/

def smallInfo : String → Option ProductMeta
  | "a1" | "a2" | "a3" => some ⟨some "a", 0⟩
  | "b1" => some ⟨some "b", 0⟩
  | _ => none

def smallRules : RuleSet ℚ where
  version := 1
  diversityEnabled := true
  maxPerCategory := 1
  freshnessEnabled := false
  freshnessWeight := 0
  freshnessHalfLifeDays := 30

/-- One product of either category comes first, then the deferred ones. -/
theorem rerank_capped_small : smallRules.diversityEnabled = true ∧
    rerank (fun _ => 1) ["a1", "a2", "a1", "x", "b1", "a3"] smallInfo smallRules 4 0 none =
      ["a1", "b1", "a2", "a3"] := by
  obtain ⟨_, _, _, _, hout, _⟩ := rerank_capped (fun _ => 1)
    ["a1", "a2", "a1", "x", "b1", "a3"] smallInfo smallRules rfl 4 0 none
  refine ⟨rfl, ?_⟩
  rw [hout]
  decide +kernel

end Serving
