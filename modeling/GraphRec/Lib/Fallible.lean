import Mathlib.Data.List.Basic

/-!
# Fallible computations over lists

What a traversal gives, when it succeeds on every entry, and where its results come from.
-/

namespace Fallible

/-- Running a computation that succeeds on every entry. -/
theorem mapM_eq_ok {α β ε : Type} {f : α → Except ε β} {g : α → β} {l : List α}
    (h : ∀ a ∈ l, f a = .ok (g a)) : l.mapM f = .ok (l.map g) := by
  induction l with
  | nil => rfl
  | cons a l ih =>
      rw [List.mapM_cons, h a List.mem_cons_self, ih fun b hb => h b (List.mem_cons_of_mem _ hb)]
      rfl

/-- What a computation gives on a list, it gives on its entries. -/
theorem exists_of_mapM_eq_ok {α β ε : Type} {f : α → Except ε β} {l : List α} {out : List β}
    (h : l.mapM f = .ok out) : ∀ b ∈ out, ∃ a ∈ l, f a = .ok b := by
  induction l generalizing out with
  | nil =>
      cases h
      exact fun b hb => absurd hb List.not_mem_nil
  | cons a l ih =>
      rw [List.mapM_cons] at h
      cases hhead : f a with
      | error e =>
          rw [hhead] at h
          cases h
      | ok b =>
          cases htail : l.mapM f with
          | error e =>
              rw [hhead, htail] at h
              cases h
          | ok rest =>
              rw [hhead, htail] at h
              cases h
              rw [List.forall_mem_cons]
              refine ⟨⟨a, List.mem_cons_self, hhead⟩, fun b' hb' => ?_⟩
              obtain ⟨a', ha', hfa'⟩ := ih htail b' hb'
              exact ⟨a', List.mem_cons_of_mem _ ha', hfa'⟩

/-- What an optional computation gives on a list, entry by entry. -/
theorem forall₂_of_mapM_eq_some {α β : Type} {f : α → Option β} {l : List α} {out : List β}
    (h : l.mapM f = some out) : List.Forall₂ (fun a b => f a = some b) l out := by
  induction l generalizing out with
  | nil =>
      cases h
      exact .nil
  | cons a l ih =>
      rw [List.mapM_cons] at h
      obtain ⟨b, hhead, hrest⟩ := Option.bind_eq_some_iff.mp h
      obtain ⟨rest, htail, hout⟩ := Option.bind_eq_some_iff.mp hrest
      obtain rfl := Option.some.inj hout
      exact .cons hhead (ih htail)

end Fallible
