import Mathlib.Data.List.Nodup
import Mathlib.Logic.Function.Basic

/-!
# The last-good cache

A served list is remembered under a key per tenant and shopper, or session.
Whether the server answers a call is part of the environment: a call that fails
loads nothing and stores nothing.

`Cache.NoDuplicates` is what the top-up step of the pipeline relies on: no
remembered list names a product twice.  Storing lists without duplicates keeps
it (`store_noDuplicates`), whatever fails and whenever entries expire.
-/

namespace Serving

/-- The server's content, by key. -/
abbrev Cache := String → Option (List String)

namespace Cache

/-- `MAX_ITEMS`. -/
def maxItems : ℕ := 100

/-- `key`; an id that is missing or empty does not count. -/
def key (tenantId : String) (userId sessionId : Option String) : Option String :=
  match userId.filter (· ≠ "") with
  | some user => some ("graphrec:lastgood:" ++ tenantId ++ ":u:" ++ user)
  | none =>
      (sessionId.filter (· ≠ "")).map fun session =>
        "graphrec:lastgood:" ++ tenantId ++ ":s:" ++ session

/-- `load`. -/
def load (answers : Bool) (cache : Cache) (key : Option String) : List String :=
  match key with
  | none => []
  | some k => if answers then ((cache k).getD []).take maxItems else []

/-- `store`. -/
def store (answers : Bool) (cache : Cache) (key : Option String) (items : List String) : Cache :=
  match key with
  | none => cache
  | some k =>
      if items = [] ∨ answers = false then cache
      else Function.update cache k (some (items.take maxItems))

/-- An entry reaches its end of life. -/
def expire (cache : Cache) (key : String) : Cache := Function.update cache key none

/-- No remembered list names a product twice. -/
def NoDuplicates (cache : Cache) : Prop := ∀ k items, cache k = some items → items.Nodup

theorem noDuplicates_empty : NoDuplicates fun _ => none := fun _ _ h => by cases h

theorem nodup_load {cache : Cache} (h : cache.NoDuplicates) (answers : Bool)
    (key : Option String) : (cache.load answers key).Nodup := by
  cases key with
  | none => exact List.nodup_nil
  | some k =>
      rw [load]
      split
      · cases hk : cache k with
        | none => exact List.nodup_nil
        | some items => exact (h k items hk).sublist (List.take_sublist _ _)
      · exact List.nodup_nil

theorem store_noDuplicates {cache : Cache} (h : cache.NoDuplicates) (answers : Bool)
    (key : Option String) {items : List String} (hitems : items.Nodup) :
    (cache.store answers key items).NoDuplicates := by
  cases key with
  | none => exact h
  | some k =>
      rw [store]
      split
      · exact h
      · intro k' items' hk'
        by_cases hk : k' = k
        · subst hk
          rw [Function.update_self, Option.some.injEq] at hk'
          rw [← hk']
          exact hitems.sublist (List.take_sublist _ _)
        · rw [Function.update_of_ne hk] at hk'
          exact h k' items' hk'

theorem expire_noDuplicates {cache : Cache} (h : cache.NoDuplicates) (key : String) :
    (cache.expire key).NoDuplicates := by
  intro k items hk
  by_cases hkey : k = key
  · subst hkey
    rw [expire, Function.update_self] at hk
    cases hk
  · rw [expire, Function.update_of_ne hkey] at hk
    exact h k items hk

end Cache

end Serving
