import Mathlib.Data.List.DropRight

/-!
# A least-recently-used cache of a function

The cache is the list of the remembered results, the one used last at the end.  A hit moves its
entry there; a miss computes, remembers the result unless the cache has size zero, and forgets from
the front.

`call_after` is what the users of the function rely on: whatever was asked before, an answer is the
one that computing it gives.  `length_after_le` bounds the memory.
-/

namespace Lru

variable {κ ν ε : Type} [DecidableEq κ] {compute : κ → Except ε ν} {size : ℕ}
  {cache : List (κ × ν)} {key : κ}

/-- One call through the cache: the answer and the cache after it. -/
def call (size : ℕ) (compute : κ → Except ε ν) (cache : List (κ × ν)) (key : κ) :
    Except ε ν × List (κ × ν) :=
  match cache.lookup key with
  | some value => (.ok value, (cache.filter fun p => decide (p.1 ≠ key)) ++ [(key, value)])
  | none =>
      match compute key with
      | .error e => (.error e, cache)
      | .ok value => (.ok value, if size = 0 then cache else (cache ++ [(key, value)]).rtake size)

/-- The cache after some calls, none of which is remembered at first. -/
def after (size : ℕ) (compute : κ → Except ε ν) (keys : List κ) : List (κ × ν) :=
  keys.foldl (fun cache key => (call size compute cache key).2) []

/-- Every entry is a result. -/
def Sound (compute : κ → Except ε ν) (cache : List (κ × ν)) : Prop :=
  ∀ p ∈ cache, compute p.1 = .ok p.2

theorem mem_of_lookup {value : ν} (h : cache.lookup key = some value) : (key, value) ∈ cache := by
  obtain ⟨before, later, rfl, _⟩ := List.lookup_eq_some_iff.mp h
  exact List.mem_append_right _ List.mem_cons_self

/-- The answer through a sound cache is the computed one. -/
theorem Sound.call_fst (h : Sound compute cache) : (call size compute cache key).1 = compute key := by
  unfold call
  split
  · next value hvalue => exact (h _ (mem_of_lookup hvalue)).symm
  · split
    · next e he => exact he.symm
    · next value hvalue => exact hvalue.symm

/-- A call leaves a sound cache sound. -/
theorem Sound.call_snd (h : Sound compute cache) : Sound compute (call size compute cache key).2 := by
  unfold call
  split
  · next value hvalue =>
      intro p hp
      rcases List.mem_append.mp hp with hp | hp
      · exact h p (List.mem_filter.mp hp).1
      · rw [List.mem_singleton.mp hp]
        exact h _ (mem_of_lookup hvalue)
  · split
    · exact h
    · next value hvalue =>
        split
        · exact h
        · intro p hp
          rcases List.mem_append.mp (List.mem_of_mem_drop hp) with hp | hp
          · exact h p hp
          · rw [List.mem_singleton.mp hp]
            exact hvalue

/-- A call leaves no more than `size` entries. -/
theorem length_call_le (h : cache.length ≤ size) : (call size compute cache key).2.length ≤ size := by
  unfold call
  split
  · next value hvalue =>
      have hlt : (cache.filter fun p => decide (p.1 ≠ key)).length < cache.length := by
        refine List.length_filter_lt_length_iff_exists.mpr ⟨(key, value), mem_of_lookup hvalue, ?_⟩
        simp
      rw [List.length_append, List.length_singleton]
      omega
  · split
    · exact h
    · split
      · exact h
      · rw [List.rtake, List.length_drop, List.length_append, List.length_singleton]
        omega

theorem after_append (keys : List κ) (key : κ) :
    after size compute (keys ++ [key]) = (call size compute (after size compute keys) key).2 := by
  rw [after, List.foldl_append]
  rfl

theorem sound_after (size : ℕ) (compute : κ → Except ε ν) (keys : List κ) :
    Sound compute (after size compute keys) := by
  induction keys using List.reverseRecOn with
  | nil => exact fun p hp => absurd hp List.not_mem_nil
  | append_singleton keys key ih =>
      rw [after_append]
      exact ih.call_snd

/-- **A cache is not seen.**  After any calls an answer is the computed one. -/
theorem call_after (size : ℕ) (compute : κ → Except ε ν) (keys : List κ) (key : κ) :
    (call size compute (after size compute keys) key).1 = compute key :=
  (sound_after size compute keys).call_fst

/-- **A cache is bounded.** -/
theorem length_after_le (size : ℕ) (compute : κ → Except ε ν) (keys : List κ) :
    (after size compute keys).length ≤ size := by
  induction keys using List.reverseRecOn with
  | nil => exact Nat.zero_le _
  | append_singleton keys key ih =>
      rw [after_append]
      exact length_call_le ih

end Lru
