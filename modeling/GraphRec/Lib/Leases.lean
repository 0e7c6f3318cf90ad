import Mathlib.Data.List.Nodup
import Mathlib.Data.List.Perm.Subperm

/-!
# Sets of leases with deadlines

A `LeaseSet κ` holds at most one deadline under each key of type `κ`.  A lease is live
as long as its deadline lies ahead.  `grant` sets the deadline of one lease, `revoke`
drops one lease, and `live` drops those whose deadline has passed.
-/

/-- Deadlines under distinct keys. -/
structure LeaseSet (κ : Type) where
  entries : List (κ × ℕ)
  distinct : (entries.map Prod.fst).Nodup

namespace LeaseSet

variable {κ : Type}

/-- No lease. -/
def empty : LeaseSet κ := ⟨[], List.nodup_nil⟩

/-- How many leases there are. -/
def size (s : LeaseSet κ) : ℕ := s.entries.length

/-- The leases that pass a test. -/
def keep (s : LeaseSet κ) (p : κ × ℕ → Bool) : LeaseSet κ :=
  ⟨s.entries.filter p, s.distinct.sublist (List.filter_sublist.map Prod.fst)⟩

/-- The leases whose deadline lies ahead. -/
def live (s : LeaseSet κ) (now : ℕ) : LeaseSet κ :=
  s.keep fun entry => decide (now < entry.2)

variable {s : LeaseSet κ} {k : κ} {entry : κ × ℕ} {now now' deadline : ℕ}

@[simp] theorem size_empty : (empty : LeaseSet κ).size = 0 := rfl

@[simp] theorem live_empty (now : ℕ) : (empty : LeaseSet κ).live now = empty := rfl

@[simp] theorem mem_live : entry ∈ (s.live now).entries ↔ entry ∈ s.entries ∧ now < entry.2 := by
  simp [live, keep]

/-- Dropping leases leaves at most as many. -/
theorem size_keep_le (s : LeaseSet κ) (p : κ × ℕ → Bool) : (s.keep p).size ≤ s.size :=
  List.length_filter_le p s.entries

/-- When every deadline has passed no lease is live. -/
theorem live_eq_empty (h : ∀ entry ∈ s.entries, entry.2 ≤ now) : s.live now = empty := by
  have hnone : s.entries.filter (fun entry => decide (now < entry.2)) = [] := by
    rw [List.filter_eq_nil_iff]
    intro entry hentry
    simpa using h entry hentry
  simp only [live, keep, empty, hnone]

/-- As time passes leases only expire. -/
theorem live_live (s : LeaseSet κ) (hle : now ≤ now') : (s.live now).live now' = s.live now' := by
  have hboth : ∀ entry : κ × ℕ,
      (decide (now' < entry.2) && decide (now < entry.2)) = decide (now' < entry.2) := by
    intro entry
    by_cases h : now' < entry.2
    · simp [h, Nat.lt_of_le_of_lt hle h]
    · simp [h]
  simp only [live, keep, List.filter_filter, hboth]

/-- The number of live leases does not grow with time. -/
theorem size_live_antitone (s : LeaseSet κ) (hle : now ≤ now') :
    (s.live now').size ≤ (s.live now).size := by
  rw [← live_live s hle]
  exact size_keep_le _ _

/-- Dropping leases drops no live lease that it does not drop. -/
theorem live_keep (s : LeaseSet κ) (p : κ × ℕ → Bool) (now : ℕ) :
    (s.keep p).live now = (s.live now).keep p := by
  simp only [live, keep, List.filter_filter, Bool.and_comm]

section Keys

variable [DecidableEq κ]

/-- Drop one lease. -/
def revoke (s : LeaseSet κ) (k : κ) : LeaseSet κ :=
  s.keep fun entry => decide (entry.1 ≠ k)

/-- Set the deadline of one lease. -/
def grant (s : LeaseSet κ) (k : κ) (deadline : ℕ) : LeaseSet κ :=
  ⟨(s.revoke k).entries ++ [(k, deadline)], by
    rw [List.map_append, List.nodup_append]
    refine ⟨(s.revoke k).distinct, by simp, ?_⟩
    intro a ha b hb hab
    obtain ⟨entry, hentry, rfl⟩ := List.mem_map.mp ha
    obtain rfl : b = k := by simpa using hb
    simp only [revoke, keep, List.mem_filter, decide_eq_true_eq] at hentry
    exact hentry.2 hab⟩

@[simp] theorem mem_revoke : entry ∈ (s.revoke k).entries ↔ entry ∈ s.entries ∧ entry.1 ≠ k := by
  simp [revoke, keep]

@[simp] theorem mem_grant :
    entry ∈ (s.grant k deadline).entries ↔
      (entry ∈ s.entries ∧ entry.1 ≠ k) ∨ entry = (k, deadline) := by
  simp [grant]

/-- Revoking a lease leaves every other one as it is. -/
theorem mem_revoke_of_ne (h : entry.1 ≠ k) : entry ∈ (s.revoke k).entries ↔ entry ∈ s.entries := by
  simp [h]

/-- A grant adds at most one lease. -/
theorem size_grant_le (s : LeaseSet κ) (k : κ) (deadline : ℕ) :
    (s.grant k deadline).size ≤ s.size + 1 := by
  have h := size_keep_le s fun entry => decide (entry.1 ≠ k)
  simp only [grant, size, List.length_append, List.length_singleton]
  exact Nat.add_le_add_right h 1

/-- Revoking a lease makes none live. -/
theorem size_live_revoke_le (s : LeaseSet κ) (k : κ) (now : ℕ) :
    ((s.revoke k).live now).size ≤ (s.live now).size := by
  rw [revoke, live_keep]
  exact size_keep_le _ _

omit [DecidableEq κ] in
/-- Distinct keys that all have a lease are at most as many as the leases. -/
theorem length_le_size {keys : List κ} (hkeys : keys.Nodup)
    (hsub : ∀ k ∈ keys, ∃ deadline, (k, deadline) ∈ s.entries) : keys.length ≤ s.size := by
  have hsubset : keys ⊆ s.entries.map Prod.fst := by
    intro k hk
    obtain ⟨deadline, hmem⟩ := hsub k hk
    exact List.mem_map_of_mem (f := Prod.fst) hmem
  calc keys.length ≤ (s.entries.map Prod.fst).length :=
        (List.Nodup.subperm hkeys hsubset).length_le
    _ = s.size := List.length_map _

end Keys

end LeaseSet
