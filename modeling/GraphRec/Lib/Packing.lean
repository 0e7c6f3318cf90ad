import Mathlib.Data.List.Basic
import Mathlib.Order.Basic

/-!
# Packing items into envelopes

Items are packed one after another into envelopes.  An envelope weighs `overhead` when it is
empty, its items weigh `weight` each, and one more unit separates any two of them.  An item goes
into the current envelope unless this would make it heavier than `capacity` or it already holds
`limit` items; an item that is too heavy for an envelope of its own ends the packing.

* `pack` — the envelopes, or the first item that fits into none;
* `pack_ok` — what is packed is the items in their order, in envelopes that are not empty, not
  heavier than the capacity, and hold at most `limit` items;
* `pack_isError_iff` — the packing fails exactly when some item is too heavy by itself;
* `pack_map` — items that are packed under other names;
* `pack_singleton` — one item that is not too heavy gets an envelope of its own.
-/

namespace Packing

variable {α : Type} (weight : α → ℕ) (overhead capacity limit : ℕ)

/-- The weight of items with a separator between any two. -/
def joined : List α → ℕ
  | [] => 0
  | [a] => weight a
  | a :: b :: rest => weight a + 1 + joined (b :: rest)

/-- Go on packing, with `current` in the envelope that is open and `size` its weight. -/
def packInto : List α → ℕ → List α → Except α (List (List α))
  | current, _, [] => .ok (if current = [] then [] else [current])
  | current, size, item :: rest =>
    if capacity < overhead + weight item then .error item
    else if current ≠ [] ∧
        (capacity < size + (weight item + 1) ∨ limit ≤ current.length) then
      (packInto [item] (overhead + weight item) rest).map (current :: ·)
    else
      packInto (current ++ [item])
        (size + (weight item + if current = [] then 0 else 1)) rest

/-- The envelopes. -/
def pack (items : List α) : Except α (List (List α)) :=
  packInto weight overhead capacity limit [] overhead items

variable {weight overhead capacity limit} {current items rest : List α} {size : ℕ}
  {chunks : List (List α)}

theorem joined_append_singleton (h : current ≠ []) (a : α) :
    joined weight (current ++ [a]) = joined weight current + (weight a + 1) := by
  induction current with
  | nil => exact absurd rfl h
  | cons b tail ih =>
    cases tail with
    | nil => simp only [joined, List.cons_append, List.nil_append]; omega
    | cons c tail =>
      have htail := ih (List.cons_ne_nil c tail)
      simp only [joined, List.cons_append] at htail ⊢
      omega

/-- An envelope that may be sent. -/
structure Fits (weight : α → ℕ) (overhead capacity limit : ℕ) (chunk : List α) : Prop where
  nonempty : chunk ≠ []
  weight_le : overhead + joined weight chunk ≤ capacity
  length_le : chunk.length ≤ limit

/-- The envelope that is open: its weight is known, and it fits if there is anything in it. -/
structure Open (weight : α → ℕ) (overhead capacity limit : ℕ) (current : List α) (size : ℕ) :
    Prop where
  size_eq : size = overhead + joined weight current
  fits : current ≠ [] → Fits weight overhead capacity limit current

/-- The next item opens an envelope. -/
theorem open_singleton (hlimit : 0 < limit) {item : α}
    (hitem : ¬ capacity < overhead + weight item) :
    Open weight overhead capacity limit [item] (overhead + weight item) := by
  refine ⟨rfl, fun _ => ⟨List.cons_ne_nil _ _, ?_, hlimit⟩⟩
  simp only [joined]
  omega

/-- The next item goes into the envelope that is open. -/
theorem Open.append (hopen : Open weight overhead capacity limit current size)
    (hlimit : 0 < limit) {item : α} (hitem : ¬ capacity < overhead + weight item)
    (hroom : ¬ (current ≠ [] ∧
      (capacity < size + (weight item + 1) ∨ limit ≤ current.length))) :
    Open weight overhead capacity limit (current ++ [item])
      (size + (weight item + if current = [] then 0 else 1)) := by
  by_cases hempty : current = []
  · subst hempty
    have hsize := hopen.size_eq
    simp only [joined, Nat.add_zero] at hsize
    simpa only [hsize, if_true, List.nil_append, Nat.add_zero] using open_singleton hlimit hitem
  · obtain ⟨hweight, hlength⟩ := not_or.mp (not_and.mp hroom hempty)
    have hjoined : joined weight (current ++ [item]) = _ := joined_append_singleton hempty item
    have hsize := hopen.size_eq
    rw [if_neg hempty]
    refine ⟨by omega, fun _ => ⟨by simp, by omega, ?_⟩⟩
    rw [List.length_append, List.length_singleton]
    omega

/-- **What is packed.** -/
theorem packInto_ok (hlimit : 0 < limit) (hopen : Open weight overhead capacity limit current size)
    (h : packInto weight overhead capacity limit current size items = .ok chunks) :
    chunks.flatten = current ++ items ∧
      ∀ chunk ∈ chunks, Fits weight overhead capacity limit chunk := by
  fun_induction packInto weight overhead capacity limit current size items
      generalizing chunks with
  | case1 current size =>
    obtain rfl := Except.ok.inj h
    split
    next hempty => simp [hempty]
    next hne =>
      simp only [List.flatten_cons, List.flatten_nil, List.append_nil, List.mem_singleton,
        forall_eq, true_and]
      exact hopen.fits hne
  | case2 => cases h
  | case3 current size item rest hitem hclose ih =>
    cases hrest : packInto weight overhead capacity limit [item] (overhead + weight item) rest with
    | error e =>
      rw [hrest] at h
      cases h
    | ok tail =>
      rw [hrest] at h
      obtain rfl := Except.ok.inj h
      obtain ⟨hflatten, hfits⟩ := ih (open_singleton hlimit hitem) hrest
      refine ⟨by rw [List.flatten_cons, hflatten]; rfl, ?_⟩
      rintro chunk (_ | ⟨_, hchunk⟩)
      · exact hopen.fits hclose.1
      · exact hfits chunk hchunk
  | case4 current size item rest hitem hroom ih =>
    obtain ⟨hflatten, hfits⟩ := ih (hopen.append hlimit hitem hroom) h
    exact ⟨by rw [hflatten, List.append_assoc]; rfl, hfits⟩

/-- The packing fails at the first item that is too heavy. -/
theorem packInto_isError_iff :
    (∃ e, packInto weight overhead capacity limit current size items = .error e)
      ↔ ∃ item ∈ items, capacity < overhead + weight item := by
  fun_induction packInto weight overhead capacity limit current size items with
  | case1 => simp
  | case2 current size item rest hitem => simp [hitem]
  | case3 current size item rest hitem hclose ih =>
    have hmap : (∃ e, (packInto weight overhead capacity limit [item] (overhead + weight item)
        rest).map (current :: ·) = .error e)
        ↔ ∃ e, packInto weight overhead capacity limit [item] (overhead + weight item) rest
          = .error e := by
      cases packInto weight overhead capacity limit [item] (overhead + weight item) rest with
      | error e => simp [Except.map]
      | ok tail => simp [Except.map]
    rw [hmap, ih]
    simp [hitem]
  | case4 current size item rest hitem hroom ih =>
    rw [ih]
    simp [hitem]

/-- **Envelopes.** -/
theorem pack_ok (hlimit : 0 < limit) (h : pack weight overhead capacity limit items = .ok chunks) :
    chunks.flatten = items ∧ ∀ chunk ∈ chunks, Fits weight overhead capacity limit chunk :=
  packInto_ok hlimit ⟨rfl, fun hne => absurd rfl hne⟩ h

/-- **Failure.** -/
theorem pack_isError_iff : (∃ e, pack weight overhead capacity limit items = .error e)
    ↔ ∃ item ∈ items, capacity < overhead + weight item :=
  packInto_isError_iff

/-- Items under other names are packed alike. -/
theorem pack_map {β : Type} (f : β → α) (items : List β) :
    pack weight overhead capacity limit (items.map f) =
      match pack (weight ∘ f) overhead capacity limit items with
      | .ok chunks => .ok (chunks.map (List.map f))
      | .error item => .error (f item) := by
  suffices h : ∀ (current : List β) (size : ℕ),
      packInto weight overhead capacity limit (current.map f) size (items.map f) =
        match packInto (weight ∘ f) overhead capacity limit current size items with
        | .ok chunks => .ok (chunks.map (List.map f))
        | .error item => .error (f item) from h [] overhead
  induction items with
  | nil =>
    intro current size
    by_cases hempty : current = []
    · simp [packInto, hempty]
    · simp [packInto, hempty]
  | cons item rest ih =>
    intro current size
    simp only [List.map_cons, packInto, ne_eq, List.map_eq_nil_iff, List.length_map,
      Function.comp_apply]
    split
    · rfl
    · split
      · have hnext := ih [item] (overhead + weight (f item))
        rw [List.map_singleton] at hnext
        rw [hnext]
        cases packInto (weight ∘ f) overhead capacity limit [item]
          (overhead + weight (f item)) rest with
        | ok chunks => rfl
        | error e => rfl
      · have hnext := ih (current ++ [item])
          (size + (weight (f item) + if current = [] then 0 else 1))
        rw [List.map_append, List.map_singleton] at hnext
        exact hnext

theorem pack_singleton {item : α} (hitem : overhead + weight item ≤ capacity) :
    pack weight overhead capacity limit [item] = .ok [[item]] := by
  have hfits : ¬ capacity < overhead + weight item := by omega
  simp [pack, packInto, hfits]

end Packing
