import Mathlib.Order.Lattice
import Mathlib.Data.List.Basic
import Mathlib.Data.List.TakeWhile

/-!
# Sliding windows

A sliding-window log keeps the times of the attempts it admitted.  At an attempt it drops
those that lie a whole width or more in the past, and admits the attempt while fewer than
`limit` are left.  Times are any linear order with an addition.

* `run_bounded` — no window of that width holds more than `limit` admitted attempts;
* `run_refused` — an attempt is refused only when the window ending at it is full.
-/

namespace SlidingWindow

variable {τ : Type}

/-- The attempts that were admitted. -/
def taken (attempts : List (τ × Bool)) : List τ := (attempts.filter Prod.snd).map Prod.fst

/-- What a first attempt adds to the admitted ones. -/
theorem taken_cons (a : τ) (b : Bool) (attempts : List (τ × Bool)) :
    taken ((a, b) :: attempts) = (if b then [a] else []) ++ taken attempts := by
  cases b <;> rfl

variable [LinearOrder τ] [Add τ] (width : τ) (limit : ℕ)

/-- What is left of a log at a time. -/
def live (now : τ) (log : List τ) : List τ := log.filter fun m => decide (now < m + width)

/-- Is an attempt admitted? -/
def admits (log : List τ) (now : τ) : Bool := decide ((live width now log).length < limit)

/-- The log after an attempt. -/
def next (log : List τ) (now : τ) : List τ :=
  if admits width limit log now then live width now log ++ [now] else live width now log

/-- The attempts of a run, each with whether it was admitted. -/
def run (log : List τ) : List τ → List (τ × Bool)
  | [] => []
  | now :: times => (now, admits width limit log now) :: run (next width limit log now) times

/-- The admitted attempts of the window that ends at a time. -/
def within (t : τ) (history : List τ) : List τ :=
  history.filter fun m => decide (m ≤ t) && decide (t < m + width)

variable {width limit} {now t : τ} {log history : List τ}

theorem mem_live {m : τ} : m ∈ live width now log ↔ m ∈ log ∧ now < m + width := by
  simp [live]

/-- The log after an attempt is part of the log and the attempt. -/
theorem next_sublist : (next width limit log now).Sublist (log ++ [now]) := by
  unfold next
  split
  · exact List.Sublist.append_right List.filter_sublist [now]
  · exact List.filter_sublist.trans (List.sublist_append_left log [now])

/-- A log within the limit stays within it. -/
theorem next_length (h : log.length ≤ limit) : (next width limit log now).length ≤ limit := by
  unfold next
  split
  · next hadmits =>
      rw [List.length_append, List.length_singleton]
      exact of_decide_eq_true hadmits
  · exact Nat.le_trans (List.length_filter_le _ _) h

/-- What is left is less once one of it is a width in the past. -/
theorem live_shorter {m : τ} (hm : m ∈ log) (ht : m + width ≤ t) :
    (live width t log).length < log.length := by
  unfold live
  rw [List.length_filter_lt_length_iff_exists]
  exact ⟨m, hm, by simpa using ht⟩

/-- What is left later is left of what is left now. -/
theorem live_live (h : now ≤ t) : live width t (live width now log) = live width t log := by
  unfold live
  rw [List.filter_filter]
  apply List.filter_congr
  intro m _
  by_cases hm : t < m + width
  · simp [hm, lt_of_le_of_lt h hm]
  · simp [hm]

/-- An ascending log is left without its first entries. -/
theorem dropWhile_eq_live (hmono : ∀ a b : τ, a ≤ b → a + width ≤ b + width)
    (hsorted : log.Pairwise (· ≤ ·)) {old : τ → Bool}
    (hold : ∀ m ∈ log, old m = decide (m + width ≤ now)) :
    log.dropWhile old = live width now log := by
  unfold live
  induction log with
  | nil => rfl
  | cons m log ih =>
      rw [List.pairwise_cons] at hsorted
      have hhead := hold m (List.mem_cons_self ..)
      by_cases hm : m + width ≤ now
      · rw [List.dropWhile_cons_of_pos (by simpa [hhead] using hm),
          List.filter_cons_of_neg (by simpa using hm)]
        exact ih hsorted.2 (fun a ha => hold a (List.mem_cons_of_mem m ha))
      · rw [List.dropWhile_cons_of_neg (by simpa [hhead] using hm)]
        symm
        rw [List.filter_eq_self]
        intro a ha
        rw [decide_eq_true_eq]
        have hma : m ≤ a := by
          rcases List.mem_cons.mp ha with rfl | ha
          · exact le_refl a
          · exact hsorted.1 a ha
        exact lt_of_lt_of_le (not_le.mp hm) (hmono m a hma)

/-- A log that keeps an entry too long is longer than what is left. -/
theorem live_lt_dropWhile {old : τ → Bool} (hold : ∀ m ∈ log, old m = true → m + width ≤ now)
    {m : τ} (hm : m ∈ log) (hexpired : m + width ≤ now) (hkept : old m = false) :
    (live width now log).length < (log.dropWhile old).length := by
  have hsplit : log.takeWhile old ++ log.dropWhile old = log :=
    List.takeWhile_append_dropWhile
  have htaken : ∀ a ∈ log.takeWhile old, old a = true := fun a ha => List.mem_takeWhile_imp ha
  have hnone : (log.takeWhile old).filter (fun a => decide (now < a + width)) = [] := by
    rw [List.filter_eq_nil_iff]
    intro a ha
    have hlog : a ∈ log := (List.takeWhile_sublist old).subset ha
    simpa using hold a hlog (htaken a ha)
  have hlive : live width now log = live width now (log.dropWhile old) := by
    unfold live
    conv_lhs => rw [← hsplit, List.filter_append, hnone, List.nil_append]
  have hmem : m ∈ log.dropWhile old := by
    rw [← hsplit] at hm
    rcases List.mem_append.mp hm with hm | hm
    · rw [htaken m hm] at hkept
      cases hkept
    · exact hm
  rw [hlive]
  exact live_shorter hmem hexpired

/-! ## The log and the history of a run -/

/-- A log keeps what a history of admitted attempts leaves from now on. -/
structure Tracks (width : τ) (limit : ℕ) (log history : List τ) (now : τ) : Prop where
  left : ∀ t, now ≤ t → live width t log = live width t history
  past : ∀ m ∈ history, m ≤ now
  bounded : ∀ t, (within width t history).length ≤ limit
  length : log.length ≤ limit

/-- The window that ends now is what is left now. -/
theorem within_eq_live (h : ∀ m ∈ history, m ≤ t) :
    within width t history = live width t history := by
  unfold within live
  apply List.filter_congr
  intro m hm
  simp [h m hm]

/-- A log without entries tracks no history. -/
theorem tracks_nil (now : τ) : Tracks width limit [] [] now where
  left := fun _ _ => rfl
  past := by
    intro m hm
    cases hm
  bounded := fun _ => Nat.zero_le _
  length := Nat.zero_le _

/-- A log tracks its history from then on. -/
theorem Tracks.later (h : Tracks width limit log history now) (hle : now ≤ t) :
    Tracks width limit log history t :=
  ⟨fun u hu => h.left u (hle.trans hu), fun m hm => (h.past m hm).trans hle, h.bounded, h.length⟩

/-- What is left of a log tracks the history as well. -/
theorem Tracks.keep (h : Tracks width limit log history now) :
    Tracks width limit (live width now log) history now :=
  ⟨fun u hu => (live_live hu).trans (h.left u hu), h.past, h.bounded,
    (List.length_filter_le _ _).trans h.length⟩

/-- A log of which nothing is left can be forgotten. -/
theorem Tracks.forget (h : Tracks width limit log history now)
    (hnone : ∀ m ∈ log, m + width ≤ now) : Tracks width limit [] history now := by
  have hempty : live width now log = [] := by
    refine List.filter_eq_nil_iff.mpr fun m hm => ?_
    rw [decide_eq_true_eq, not_lt]
    exact hnone m hm
  exact hempty ▸ h.keep

/-- **Step lemma.**  An attempt keeps the log in step with the history. -/
theorem tracks_next (h : Tracks width limit log history now) (hle : now ≤ t) :
    Tracks width limit (next width limit log t)
      (history ++ if admits width limit log t then [t] else []) t := by
  have hlength : (next width limit log t).length ≤ limit := next_length h.length
  cases hadmits : admits width limit log t with
  | false =>
      simp only [next, hadmits, Bool.false_eq_true, if_false, List.append_nil] at hlength ⊢
      exact (h.later hle).keep
  | true =>
      simp only [next, hadmits, if_true] at hlength ⊢
      have hpast : ∀ m ∈ history ++ [t], m ≤ t := by
        intro m hm
        rcases List.mem_append.mp hm with hm | hm
        · exact le_trans (h.past m hm) hle
        · exact le_of_eq (List.mem_singleton.mp hm)
      have hnew : ∀ u, t ≤ u → live width u (live width t log ++ [t]) =
          live width u (history ++ [t]) := by
        intro u hu
        have hold : live width u (live width t log) = live width u history :=
          (live_live hu).trans (h.left u (le_trans hle hu))
        unfold live at hold ⊢
        rw [List.filter_append, List.filter_append, hold]
      refine ⟨hnew, hpast, ?_, hlength⟩
      intro u
      by_cases hu : t ≤ u
      · rw [within_eq_live (fun m hm => le_trans (hpast m hm) hu), ← hnew u hu]
        exact Nat.le_trans (List.length_filter_le _ _) hlength
      · have hsame : within width u (history ++ [t]) = within width u history := by
          unfold within
          rw [List.filter_append, List.filter_cons_of_neg (by simp [hu]), List.filter_nil,
            List.append_nil]
        rw [hsame]
        exact h.bounded u

/-- **Run lemma.**  The history of a run is bounded in every window. -/
theorem run_bounded {times : List τ} (h : Tracks width limit log history now)
    (hsorted : (now :: times).Pairwise (· ≤ ·)) (u : τ) :
    (within width u (history ++ taken (run width limit log times))).length ≤ limit := by
  induction times generalizing log history now with
  | nil =>
      rw [show taken (run width limit log []) = [] from rfl, List.append_nil]
      exact h.bounded u
  | cons t times ih =>
      rw [List.pairwise_cons] at hsorted
      have hnext := tracks_next h (hsorted.1 t (List.mem_cons_self ..))
      rw [run, taken_cons, ← List.append_assoc]
      exact ih hnext hsorted.2

/-- **Run lemma.**  An attempt of a run is refused only when the window ending at it is
full. -/
theorem run_refused {times : List τ} (h : Tracks width limit log history now)
    (hsorted : (now :: times).Pairwise (· ≤ ·)) {before after : List (τ × Bool)} {t : τ}
    (hrun : run width limit log times = before ++ (t, false) :: after) :
    (within width t (history ++ taken before)).length = limit := by
  induction times generalizing log history now before with
  | nil => simp [run] at hrun
  | cons t' times ih =>
      rw [List.pairwise_cons] at hsorted
      have hle := hsorted.1 t' (List.mem_cons_self ..)
      cases before with
      | nil =>
          rw [run, List.nil_append, List.cons.injEq, Prod.mk.injEq] at hrun
          obtain ⟨⟨rfl, hadmits⟩, _⟩ := hrun
          rw [show taken ([] : List (τ × Bool)) = [] from rfl, List.append_nil]
          apply Nat.le_antisymm (h.bounded t')
          rw [within_eq_live (fun m hm => le_trans (h.past m hm) hle), ← h.left t' hle]
          exact Nat.le_of_not_lt (of_decide_eq_false hadmits)
      | cons first before =>
          rw [run, List.cons_append, List.cons.injEq] at hrun
          obtain ⟨rfl, hrest⟩ := hrun
          rw [taken_cons, ← List.append_assoc]
          exact ih (tracks_next h hle) hsorted.2 hrest

end SlidingWindow
