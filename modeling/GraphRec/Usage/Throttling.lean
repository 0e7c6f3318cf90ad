import GraphRec.Usage.Windows
import Mathlib.Tactic.Linarith

/-!
# Throttling is a sliding window

`Remembers` is the invariant: what the table has of each subject tracks the attempts it was admitted
for.  Comparing two readings through a rounded difference is exact, so an attempt is dropped from its
deque just when it has left the window, and a rounded wait is never too short.

A full table refuses a subject that it tracks, although the table would not grow.
`throttled_iff` — a run is throttled right exactly when each of its attempts finds room, and none
finds a rounded edge.
-/

namespace LocalFallback

open SlidingWindow (live within Tracks)

/-! ## Times -/

section Reading

variable {t now later oldest latest : ℚ} {windowSeconds : ℕ}

/-- A window that is not longer than a reading is converted exactly. -/
theorem Reading.round_window (h : Reading t) (hle : (windowSeconds : ℚ) ≤ t) :
    Binary64.round windowSeconds = windowSeconds :=
  Binary64.isDouble_natCast (by have := h.lt; linarith)

/-- A longer one stays longer. -/
theorem Reading.lt_round_window (h : Reading t) (hlt : t < windowSeconds) :
    t < Binary64.round windowSeconds := by
  have hbound : Binary64.IsDouble ((2 ^ 50 : ℕ) : ℚ) := Binary64.isDouble_natCast (by norm_num)
  rcases le_or_gt ((2 ^ 50 : ℕ) : ℚ) windowSeconds with hlong | hshort
  · calc t < ((2 ^ 50 : ℕ) : ℚ) := by exact_mod_cast h.lt
      _ = Binary64.round ((2 ^ 50 : ℕ) : ℚ) := hbound.symm
      _ ≤ Binary64.round windowSeconds := Binary64.round_mono (Nat.cast_nonneg _) hlong
  · have hexact : Binary64.IsDouble (windowSeconds : ℚ) :=
      Binary64.isDouble_natCast (by push_cast at hshort; linarith)
    rw [hexact]
    exact hlt

/-- **The comparison is exact.** -/
theorem expired_eq (hnow : Reading now) (hold : Reading oldest) :
    expired windowSeconds now oldest = decide (oldest + windowSeconds ≤ now) := by
  have hnonneg := hold.nonneg
  rw [expired, decide_eq_decide]
  rcases le_or_gt (windowSeconds : ℚ) now with hle | hlt
  · have hexact : Binary64.IsDouble (now - windowSeconds) :=
      hnow.double.sub_natCast (by have := hnow.lt; linarith) hle
    rw [hnow.round_window hle, hexact]
    exact le_sub_iff_add_le
  · have hneg : Binary64.round (now - Binary64.round windowSeconds) < 0 := by
      rw [← neg_sub, Binary64.round_neg, neg_lt_zero]
      exact Binary64.round_pos (sub_pos.mpr (hnow.lt_round_window hlt))
    constructor <;> intro h <;> linarith

/-- A window that ends after a reading expires no earlier. -/
theorem Reading.le_expiry (h : Reading t) (hlatest : 0 ≤ latest)
    (hlt : t < latest + windowSeconds) : t ≤ expiry windowSeconds latest := by
  rw [expiry, ← h.double]
  refine Binary64.round_mono h.nonneg ?_
  rcases le_or_gt (windowSeconds : ℚ) t with hle | hlonger
  · rw [h.round_window hle]
    exact hlt.le
  · have := h.lt_round_window hlonger
    linarith

/-- **The wait is sufficient**, for any reading after it. -/
theorem le_of_retryAfter (hold : Reading oldest) (hnow : Reading now) (hlater : Reading later)
    (hwait : now + retryAfter windowSeconds now oldest ≤ later) :
    oldest + windowSeconds ≤ later := by
  by_contra hearly
  have hexpiry := hlater.le_expiry hold.nonneg (not_le.mp hearly)
  have hone : 1 ≤ retryAfter windowSeconds now oldest := le_max_left _ _
  have hmore : Binary64.truncate (Binary64.round (expiry windowSeconds oldest - now)) + 1 ≤
      retryAfter windowSeconds now oldest := le_max_right _ _
  obtain ⟨seconds, hseconds⟩ := Int.eq_ofNat_of_zero_le (zero_le_one.trans hone)
  rw [hseconds] at hwait hone hmore
  have hexact : Binary64.IsDouble (seconds : ℚ) := by
    refine Binary64.isDouble_natCast ?_
    have := hlater.lt
    have := hnow.nonneg
    push_cast at hwait
    linarith
  have hround : (seconds : ℚ) ≤ Binary64.round (expiry windowSeconds oldest - now) := by
    rw [← hexact]
    refine Binary64.round_mono (Nat.cast_nonneg seconds) ?_
    push_cast at hwait
    linarith
  have hfloor : (seconds : ℤ) ≤
      Binary64.truncate (Binary64.round (expiry windowSeconds oldest - now)) := by
    rw [Binary64.truncate, if_pos ((Nat.cast_nonneg seconds).trans hround)]
    exact Int.le_floor.mpr (by exact_mod_cast hround)
  omega

end Reading

/-! ## One attempt -/

section Window

variable {Key : Type} [DecidableEq Key] {windows : Table Key Window} {key : Key} {now : ℚ}
  {limit windowSeconds : ℕ}

theorem attemptsOf_of_get? {w : Window} (h : windows.get? key = some w) :
    attemptsOf windows key = w.attempts := by
  rw [attemptsOf, h]
  rfl

theorem attemptsOf_of_none (h : windows.get? key = none) : attemptsOf windows key = [] := by
  rw [attemptsOf, h]
  rfl

theorem attemptsOf_put (w : Window) (key' : Key) :
    attemptsOf (windows.put key w) key' = if key' = key then w.attempts else
      attemptsOf windows key' := by
  rw [attemptsOf, Table.get?_put]
  split <;> rfl

theorem get?_prune (hfull : maxWindows ≤ windows.rows.length) (key : Key) :
    (prune windows now).get? key =
      (windows.get? key).filter fun w => !decide (w.expires ≤ now) := by
  rw [prune, if_pos hfull, Table.get?_deleteWhere]

/-- A subject that has expired is forgotten by a full table. -/
theorem attemptsOf_prune_of_le {w : Window} (hfull : maxWindows ≤ windows.rows.length)
    (hw : windows.get? key = some w) (hstale : w.expires ≤ now) :
    attemptsOf (prune windows now) key = [] := by
  refine attemptsOf_of_none ?_
  rw [get?_prune hfull, hw, Option.filter_some_neg (by simpa using hstale)]

/-- The others keep their deque. -/
theorem attemptsOf_prune (h : maxWindows ≤ windows.rows.length → ∀ w, windows.get? key = some w →
    now < w.expires) : attemptsOf (prune windows now) key = attemptsOf windows key := by
  by_cases hfull : maxWindows ≤ windows.rows.length
  · cases hw : windows.get? key with
    | none => rw [attemptsOf_of_none hw, attemptsOf_of_none (by rw [get?_prune hfull, hw]; rfl)]
    | some w =>
        have hlater := h hfull w hw
        have hkept : (prune windows now).get? key = some w := by
          rw [get?_prune hfull, hw, Option.filter_some_pos (by simpa using hlater)]
        rw [attemptsOf_of_get? hw, attemptsOf_of_get? hkept]
  · rw [prune, if_neg hfull]

omit [DecidableEq Key] in
theorem length_prune_le (windows : Table Key Window) (now : ℚ) :
    (prune windows now).rows.length ≤ windows.rows.length := by
  unfold prune
  split
  · exact List.length_filter_le _ _
  · exact le_rfl

omit [DecidableEq Key] in
/-- A table in which no subject has expired is not pruned. -/
theorem prune_eq_self (h : ∀ row ∈ windows.rows, now < row.2.expires) :
    prune windows now = windows := by
  have hall : (windows.rows.filter fun row => !decide (row.2.expires ≤ now)) = windows.rows :=
    List.filter_eq_self.mpr fun row hrow => by simpa using h row hrow
  obtain ⟨rows, hnodup⟩ := windows
  unfold prune
  split
  · simp only [Table.deleteWhere, hall]
  · rfl

omit [DecidableEq Key] in
/-- A table that is still full has not been pruned. -/
theorem prune_full (hsize : windows.rows.length ≤ maxWindows)
    (h : maxWindows ≤ (prune windows now).rows.length) : prune windows now = windows := by
  unfold prune at h ⊢
  split at h
  · next hfull =>
      rw [if_pos hfull]
      have hall : (windows.rows.filter fun row => !decide (row.2.expires ≤ now)) = windows.rows :=
        List.filter_sublist.eq_of_length_le (hsize.trans h)
      obtain ⟨rows, hnodup⟩ := windows
      simp only [Table.deleteWhere, hall]
  · next hroom => rw [if_neg hroom]

/-- What an attempt can do. -/
theorem window_cases (hlimit : 1 ≤ limit) {log : List ℚ}
    (hlog : (attemptsOf (prune windows now) key).dropWhile (expired windowSeconds now) = log) :
    (limit ≤ log.length ∧ ∃ oldest latest, log.head? = some oldest ∧ log.getLast? = some latest ∧
      window windows key limit windowSeconds now =
        (.retryAfter (retryAfter windowSeconds now oldest),
          (prune windows now).put key ⟨expiry windowSeconds latest, log⟩)) ∨
    (log.length < limit ∧ maxWindows ≤ (prune windows now).rows.length ∧
      window windows key limit windowSeconds now = (.retryAfter windowSeconds,
        (prune windows now).update key fun w => { w with attempts := log })) ∨
    (log.length < limit ∧ (prune windows now).rows.length < maxWindows ∧
      window windows key limit windowSeconds now = (.admitted,
        (prune windows now).put key ⟨expiry windowSeconds now, log ++ [now]⟩)) := by
  unfold window
  simp only [hlog, Table.put_update, Table.length_update]
  by_cases hfull : limit ≤ log.length
  · refine Or.inl ⟨hfull, ?_⟩
    have hne : log ≠ [] := List.ne_nil_of_length_pos (by omega)
    obtain ⟨oldest, holdest⟩ := Option.ne_none_iff_exists'.mp (mt List.head?_eq_none_iff.mp hne)
    obtain ⟨latest, hlatest⟩ :=
      Option.ne_none_iff_exists'.mp (mt List.getLast?_eq_none_iff.mp hne)
    refine ⟨oldest, latest, holdest, hlatest, ?_⟩
    rw [if_pos hfull, holdest, hlatest]
  · rw [if_neg hfull]
    by_cases hroom : maxWindows ≤ (prune windows now).rows.length
    · exact Or.inr (Or.inl ⟨not_le.mp hfull, hroom, if_pos hroom⟩)
    · exact Or.inr (Or.inr ⟨not_le.mp hfull, not_le.mp hroom, if_neg hroom⟩)

end Window

/-! ## What the table remembers -/

section Remembers

variable {Key : Type} [DecidableEq Key] (policy : Policy Key)

/-- What the table has of each subject tracks the attempts it was admitted for. -/
structure Remembers (windows : Table Key Window) (history : Key → List ℚ) (now : ℚ) : Prop where
  tracks : ∀ key, Tracks (policy.windowSeconds key : ℚ) (policy.limit key)
    (attemptsOf windows key) (history key) now
  reading : ∀ key, ∀ t ∈ history key, Reading t
  subset : ∀ key, attemptsOf windows key ⊆ history key
  sorted : ∀ key, (attemptsOf windows key).Pairwise (· ≤ ·)
  expires : ∀ key w, windows.get? key = some w → ∃ latest, w.attempts.getLast? = some latest ∧
    w.expires = expiry (policy.windowSeconds key) latest
  size : windows.rows.length ≤ maxWindows

variable {policy} {windows : Table Key Window} {history : Key → List ℚ} {now t : ℚ} {key : Key}

theorem Remembers.later (h : Remembers policy windows history now) (hle : now ≤ t) :
    Remembers policy windows history t :=
  { h with tracks := fun key => (h.tracks key).later hle }

/-- What the deque of a subject is left with. -/
theorem Remembers.dropWhile_eq (h : Remembers policy windows history now) (hnow : Reading now)
    (key : Key) :
    (attemptsOf windows key).dropWhile (expired (policy.windowSeconds key) now) =
      live (policy.windowSeconds key : ℚ) now (attemptsOf windows key) :=
  SlidingWindow.dropWhile_eq_live (fun _ _ hab => add_le_add_left hab _) (h.sorted key)
    fun t ht => expired_eq hnow (h.reading key t (h.subset key ht))

/-- An entry after the others of an ascending list. -/
theorem le_of_getLast? {log : List ℚ} {latest : ℚ} (hsorted : log.Pairwise (· ≤ ·))
    (hlatest : log.getLast? = some latest) : ∀ t ∈ log, t ≤ latest := by
  obtain ⟨before, rfl⟩ := List.getLast?_eq_some_iff.mp hlatest
  intro t ht
  rcases List.mem_append.mp ht with ht | ht
  · exact (List.pairwise_append.mp hsorted).2.2 t ht latest (List.mem_singleton_self latest)
  · exact (List.mem_singleton.mp ht).le

/-- The new entry of a subject. -/
theorem Remembers.put (h : Remembers policy windows history now) {log new : List ℚ} {latest : ℚ}
    (htracks : Tracks (policy.windowSeconds key : ℚ) (policy.limit key) log new now)
    (hreading : ∀ t ∈ new, Reading t) (hsubset : log ⊆ new) (hsorted : log.Pairwise (· ≤ ·))
    (hlatest : log.getLast? = some latest)
    (hroom : windows.get? key = none → windows.rows.length < maxWindows) :
    Remembers policy (windows.put key ⟨expiry (policy.windowSeconds key) latest, log⟩)
      (Function.update history key new) now := by
  -- The other subjects keep their deques and their histories.
  have hcases : ∀ key',
      (key' = key ∧
        attemptsOf (windows.put key ⟨expiry (policy.windowSeconds key) latest, log⟩) key' = log ∧
          Function.update history key new key' = new) ∨
      (attemptsOf (windows.put key ⟨expiry (policy.windowSeconds key) latest, log⟩) key' =
          attemptsOf windows key' ∧
        Function.update history key new key' = history key') := by
    intro key'
    rw [attemptsOf_put]
    by_cases hkey : key' = key
    · subst hkey
      exact Or.inl ⟨rfl, if_pos rfl, Function.update_self _ _ _⟩
    · exact Or.inr ⟨if_neg hkey, Function.update_of_ne hkey _ _⟩
  refine ⟨fun key' => ?_, fun key' => ?_, fun key' => ?_, fun key' => ?_, fun key' w hw => ?_, ?_⟩
  · rcases hcases key' with ⟨rfl, hlog, hnew⟩ | ⟨hlog, hold⟩
    · rw [hlog, hnew]
      exact htracks
    · rw [hlog, hold]
      exact h.tracks key'
  · rcases hcases key' with ⟨rfl, -, hnew⟩ | ⟨-, hold⟩
    · rw [hnew]
      exact hreading
    · rw [hold]
      exact h.reading key'
  · rcases hcases key' with ⟨rfl, hlog, hnew⟩ | ⟨hlog, hold⟩
    · rw [hlog, hnew]
      exact hsubset
    · rw [hlog, hold]
      exact h.subset key'
  · rcases hcases key' with ⟨rfl, hlog, -⟩ | ⟨hlog, -⟩
    · rw [hlog]
      exact hsorted
    · rw [hlog]
      exact h.sorted key'
  · rw [Table.get?_put] at hw
    split at hw
    · next hkey =>
        obtain rfl := hkey
        cases hw
        exact ⟨latest, hlatest, rfl⟩
    · exact h.expires key' w hw
  · rw [Table.length_put]
    have hsize := h.size
    split
    · next hfresh => exact hroom hfresh
    · exact hsize

/-- Pruning forgets no attempt, when no end of a window was rounded down past the time. -/
theorem Remembers.prune (h : Remembers policy windows history now)
    (hedges : maxWindows ≤ windows.rows.length → ∀ key, ∀ latest,
      (attemptsOf windows key).getLast? = some latest →
        expiry (policy.windowSeconds key) latest ≤ now →
          latest + policy.windowSeconds key ≤ now) :
    Remembers policy (prune windows now) history now := by
  -- A subject keeps its deque, or all of its attempts have left the window.
  have hlog : ∀ key, attemptsOf (LocalFallback.prune windows now) key = attemptsOf windows key ∨
      attemptsOf (LocalFallback.prune windows now) key = [] ∧
        ∀ t ∈ attemptsOf windows key, t + policy.windowSeconds key ≤ now := by
    intro key
    by_cases hstale : maxWindows ≤ windows.rows.length ∧ ∃ w, windows.get? key = some w ∧
        w.expires ≤ now
    · obtain ⟨hfull, w, hw, hexpired⟩ := hstale
      refine Or.inr ⟨attemptsOf_prune_of_le hfull hw hexpired, fun t ht => ?_⟩
      obtain ⟨latest, hlatest, hexpires⟩ := h.expires key w hw
      rw [← attemptsOf_of_get? hw] at hlatest
      have hedge := hedges hfull key latest hlatest (hexpires ▸ hexpired)
      have hle := le_of_getLast? (h.sorted key) hlatest t ht
      linarith
    · push Not at hstale
      exact Or.inl (attemptsOf_prune hstale)
  refine ⟨fun key => ?_, h.reading, fun key => ?_, fun key => ?_, fun key w hw => ?_, ?_⟩
  · rcases hlog key with hsame | ⟨hnone, hout⟩
    · rw [hsame]
      exact h.tracks key
    · rw [hnone]
      exact (h.tracks key).forget hout
  · rcases hlog key with hsame | ⟨hnone, -⟩
    · rw [hsame]
      exact h.subset key
    · rw [hnone]
      exact List.nil_subset _
  · rcases hlog key with hsame | ⟨hnone, -⟩
    · rw [hsame]
      exact h.sorted key
    · rw [hnone]
      exact List.Pairwise.nil
  · by_cases hfull : maxWindows ≤ windows.rows.length
    · rw [get?_prune hfull, Option.filter_eq_some_iff] at hw
      exact h.expires key w hw.1
    · rw [LocalFallback.prune, if_neg hfull] at hw
      exact h.expires key w hw
  · exact (length_prune_le windows now).trans h.size

/-- The history after an attempt. -/
def extend (history : Key → List ℚ) (a : Attempt Key) (key : Key) : List ℚ :=
  history key ++ if a.key = key ∧ a.answer = .admitted then [a.now] else []

theorem extend_of_refused {a : Attempt Key} (h : a.answer ≠ .admitted) :
    extend history a = history := by
  funext key
  rw [extend, if_neg fun hadmitted => h hadmitted.2, List.append_nil]

theorem extend_of_admitted {a : Attempt Key} (h : a.answer = .admitted) :
    extend history a = Function.update history a.key (history a.key ++ [a.now]) := by
  funext key
  rw [extend]
  by_cases hkey : a.key = key
  · subst hkey
    rw [if_pos ⟨rfl, h⟩, Function.update_self]
  · rw [if_neg fun hadmitted => hkey hadmitted.1, List.append_nil,
      Function.update_of_ne (Ne.symm hkey)]

/-- In a table that is still full, a subject that finds no room has no entry or is at its limit. -/
theorem Finds.of_full (h : Finds policy (attempt policy windows key now))
    (hfull : maxWindows ≤ (LocalFallback.prune windows now).rows.length)
    (hbelow : ((attemptsOf windows key).dropWhile
      (expired (policy.windowSeconds key) now)).length < policy.limit key) :
    windows.get? key = none := by
  by_contra htracked
  exact absurd (h.room htracked hbelow) (not_lt.mpr hfull)

/-- **Step lemma.**  The table after an attempt remembers the history after it. -/
theorem Remembers.after (h : Remembers policy windows history now) (hle : now ≤ t)
    (hreading : Reading t) (hfinds : Finds policy (attempt policy windows key t)) :
    Remembers policy (after policy windows key t)
      (extend history (attempt policy windows key t)) t := by
  have hpruned := (h.later hle).prune hfinds.edges
  have hdrop := hpruned.dropWhile_eq hreading key
  have hlive := (hpruned.tracks key).keep
  have hsublist : (live (policy.windowSeconds key : ℚ) t
      (attemptsOf (LocalFallback.prune windows t) key)).Sublist
        (attemptsOf (LocalFallback.prune windows t) key) := List.filter_sublist
  rcases @window_cases _ _ windows key t _ (policy.windowSeconds key) (policy.limit_pos key) _
    hdrop with ⟨-, oldest, latest, hhead, hlast, hwindow⟩ | ⟨hbelow, hfull, hwindow⟩ |
      ⟨hbelow, hroom, hwindow⟩
  · -- At the limit: the deque without its expired attempts is stored.
    have hanswer : (attempt policy windows key t).answer ≠ .admitted := by
      rw [attempt, hwindow]
      exact Answer.noConfusion
    rw [extend_of_refused hanswer, LocalFallback.after, hwindow,
      ← Function.update_eq_self key history]
    refine hpruned.put hlive (h.reading key)
      (List.Subset.trans hsublist.subset (hpruned.subset key))
      ((hpruned.sorted key).sublist hsublist) hlast fun hnone => ?_
    rw [attemptsOf_of_none hnone] at hhead
    cases hhead
  · -- Full: the subject is not tracked, so nothing changes.
    have hanswer : (attempt policy windows key t).answer ≠ .admitted := by
      rw [attempt, hwindow]
      exact Answer.noConfusion
    have hsame := prune_full h.size hfull
    rw [hsame] at hdrop hbelow hpruned hwindow
    have hnone := hfinds.of_full hfull (hdrop ▸ hbelow)
    rw [extend_of_refused hanswer, LocalFallback.after, hwindow,
      Table.update_eq_self windows fun w hw => absurd hw (by rw [hnone]; exact nofun)]
    exact hpruned
  · -- Admitted.
    have hanswer : (attempt policy windows key t).answer = .admitted := by
      rw [attempt, hwindow]
    rw [extend_of_admitted hanswer, LocalFallback.after, hwindow]
    have hadmits : SlidingWindow.admits (policy.windowSeconds key : ℚ) (policy.limit key)
        (attemptsOf (LocalFallback.prune windows t) key) t = true := decide_eq_true hbelow
    have hnext := SlidingWindow.tracks_next (hpruned.tracks key) le_rfl
    rw [SlidingWindow.next, hadmits, if_pos rfl, if_pos rfl] at hnext
    have hpast : ∀ m ∈ live (policy.windowSeconds key : ℚ) t
        (attemptsOf (LocalFallback.prune windows t) key), m ≤ t := fun m hm =>
      (hpruned.tracks key).past m (hpruned.subset key (hsublist.subset hm))
    refine hpruned.put hnext ?_ ?_ ?_ List.getLast?_concat fun _ => hroom
    · intro m hm
      rcases List.mem_append.mp hm with hm | hm
      · exact h.reading key m hm
      · rw [List.mem_singleton.mp hm]
        exact hreading
    · exact List.append_subset.mpr
        ⟨List.Subset.trans (List.Subset.trans hsublist.subset (hpruned.subset key))
          (List.subset_append_left _ _), List.subset_append_right _ _⟩
    · refine List.pairwise_append.mpr
        ⟨(hpruned.sorted key).sublist hsublist, List.pairwise_singleton _ _, fun m hm m' hm' => ?_⟩
      rw [List.mem_singleton.mp hm']
      exact hpast m hm

/-- The attempts of a subject that are in its window: those in its deque. -/
theorem Remembers.live_eq (h : Remembers policy windows history now) (key : Key) :
    live (policy.windowSeconds key : ℚ) now (history key) =
      live (policy.windowSeconds key : ℚ) now (attemptsOf windows key) :=
  ((h.tracks key).left now le_rfl).symm

/-- An attempt that finds what it has to is treated right. -/
theorem Remembers.treated (h : Remembers policy windows history now) (hle : now ≤ t)
    (hreading : Reading t) (hfinds : Finds policy (attempt policy windows key t)) :
    Treated policy history (attempt policy windows key t) := by
  have hpruned := (h.later hle).prune hfinds.edges
  have hdrop := hpruned.dropWhile_eq hreading key
  have hcases := @window_cases _ _ windows key t _ (policy.windowSeconds key)
    (policy.limit_pos key) _ hdrop
  refine ⟨fun seconds hrefused later hlater hwait => ?_, fun key' m hm hin => ?_,
    fun htracked hbelow => ?_⟩
  · dsimp only [attempt] at hrefused hwait ⊢
    rcases hcases with ⟨-, oldest, latest, hhead, -, hwindow⟩ | ⟨-, -, hwindow⟩ | ⟨-, -, hwindow⟩
    · -- The oldest attempt of the deque has left the window by then.
      rw [hwindow] at hrefused
      cases hrefused
      have holdest := SlidingWindow.mem_live.mp (List.mem_of_mem_head? hhead)
      have hone : (1 : ℚ) ≤ retryAfter (policy.windowSeconds key) t oldest := by
        exact_mod_cast le_max_left 1 _
      have hout := le_of_retryAfter (h.reading key oldest (hpruned.subset key holdest.1))
        hreading hlater hwait
      rw [← (hpruned.tracks key).left later (by linarith)]
      exact (SlidingWindow.live_shorter holdest.1 hout).trans_le (hpruned.tracks key).length
    · -- All attempts have.
      rw [hwindow] at hrefused
      cases hrefused
      have hnone : live (policy.windowSeconds key : ℚ) later (history key) = [] := by
        refine List.filter_eq_nil_iff.mpr fun m hm => ?_
        have hpast := (hpruned.tracks key).past m hm
        rw [Int.cast_natCast] at hwait
        rw [decide_eq_true_eq, not_lt]
        linarith
      rw [hnone]
      exact policy.limit_pos key
    · rw [hwindow] at hrefused
      cases hrefused
  · have hlive : m ∈ live (policy.windowSeconds key' : ℚ) t (history key') :=
      SlidingWindow.mem_live.mpr ⟨hm, hin⟩
    rw [hpruned.live_eq key'] at hlive
    exact (SlidingWindow.mem_live.mp hlive).1
  · dsimp only [attempt] at htracked hbelow ⊢
    rw [hpruned.live_eq key] at hbelow
    rcases hcases with ⟨hlimit, -⟩ | ⟨-, hfull, -⟩ | ⟨-, -, hwindow⟩
    · exact absurd hbelow (not_lt.mpr hlimit)
    · rw [← hdrop, prune_full h.size hfull] at hbelow
      exact absurd (hfinds.of_full hfull hbelow) htracked
    · rw [hwindow]

/-- An attempt that is treated right has found what it has to. -/
theorem Remembers.finds (h : Remembers policy windows history now) (hle : now ≤ t)
    (hreading : Reading t) (htreated : Treated policy history (attempt policy windows key t)) :
    Finds policy (attempt policy windows key t) := by
  have hnow := h.later hle
  refine ⟨fun htracked hbelow => ?_, fun hfull key' latest hlast hexpired => ?_⟩
  · -- A tracked subject below its limit is refused by a full table.
    by_contra hroom
    dsimp only [attempt] at htracked hbelow hroom
    have hdrop := hnow.dropWhile_eq hreading key
    have hadmitted := htreated.unblocked htracked (by
      dsimp only [attempt]
      rw [hnow.live_eq key, ← hdrop]
      exact hbelow)
    dsimp only [attempt] at hadmitted
    rcases @window_cases _ _ windows key t _ (policy.windowSeconds key) (policy.limit_pos key) _
      rfl with ⟨-, _, _, -, -, hwindow⟩ | ⟨-, -, hwindow⟩ | ⟨-, hfree, -⟩
    · rw [hwindow] at hadmitted
      cases hadmitted
    · rw [hwindow] at hadmitted
      cases hadmitted
    · exact hroom hfree
  · -- The last attempt of a subject that was pruned too early is forgotten.
    by_contra hin
    obtain ⟨w, hw⟩ : ∃ w, windows.get? key' = some w := by
      refine Option.ne_none_iff_exists'.mp fun hnone => ?_
      dsimp only [attempt] at hlast
      rw [attemptsOf_of_none hnone] at hlast
      cases hlast
    obtain ⟨latest', hlast', hexpires⟩ := h.expires key' w hw
    dsimp only [attempt] at hfull hlast hexpired hin
    rw [attemptsOf_of_get? hw, hlast'] at hlast
    obtain rfl := Option.some.inj hlast
    have hmem : latest' ∈ history key' := by
      refine h.subset key' ?_
      rw [attemptsOf_of_get? hw]
      exact List.mem_of_getLast? hlast'
    have hkept := htreated.remembered key' latest' hmem (not_le.mp hin)
    dsimp only [attempt] at hkept
    rw [attemptsOf_prune_of_le hfull hw (hexpires ▸ hexpired)] at hkept
    cases hkept

end Remembers

/-! ## Runs -/

section Run

variable {Key : Type} [DecidableEq Key] {policy : Policy Key} {windows : Table Key Window}
  {history : Key → List ℚ} {now : ℚ}

/-- The history and the admitted attempts of a run, after its first attempt. -/
theorem append_admitted_cons (a : Attempt Key) (attempts : List (Attempt Key)) (key : Key) :
    history key ++ admitted (a :: attempts) key = extend history a key ++ admitted attempts key := by
  rw [extend, List.append_assoc, admitted, admitted, List.filter_cons]
  by_cases hadmitted : a.key = key ∧ a.answer = .admitted
  · rw [if_pos (decide_eq_true hadmitted), if_pos hadmitted, List.map_cons]
    rfl
  · rw [if_neg (by simpa using hadmitted), if_neg hadmitted, List.nil_append]

/-- **Run lemma.**  The attempts of a run are throttled right exactly when each finds what it has
to. -/
theorem Remembers.throttled_iff (h : Remembers policy windows history now)
    {attempts : List (Key × ℚ)} (hsorted : (now :: attempts.map Prod.snd).Pairwise (· ≤ ·))
    (hreading : ∀ t ∈ attempts.map Prod.snd, Reading t) :
    ((∀ key t, (within (policy.windowSeconds key : ℚ) t
        (history key ++ admitted (run policy windows attempts) key)).length ≤ policy.limit key) ∧
      ∀ before a rest, run policy windows attempts = before ++ a :: rest →
        Treated policy (fun key => history key ++ admitted before key) a) ↔
      ∀ a ∈ run policy windows attempts, Finds policy a := by
  induction attempts generalizing windows history now with
  | nil =>
      refine ⟨fun _ a ha => absurd ha List.not_mem_nil, fun _ => ⟨fun key t => ?_, ?_⟩⟩
      · exact (List.append_nil (history key)).symm ▸ (h.tracks key).bounded t
      · intro before a rest hsplit
        exact absurd hsplit.symm (by simp [run])
  | cons first attempts ih =>
      obtain ⟨key, t⟩ := first
      rw [List.map_cons, List.pairwise_cons] at hsorted
      have hle := hsorted.1 t List.mem_cons_self
      have ht := hreading t List.mem_cons_self
      have hrest : ∀ t ∈ attempts.map Prod.snd, Reading t := fun t ht =>
        hreading t (List.mem_cons_of_mem _ ht)
      rw [run, List.forall_mem_cons]
      constructor
      · rintro ⟨hbounded, htreated⟩
        have hfirst := htreated [] _ _ rfl
        simp only [admitted, List.filter_nil, List.map_nil, List.append_nil] at hfirst
        have hfinds := h.finds hle ht hfirst
        refine ⟨hfinds, (ih (h.after hle ht hfinds) hsorted.2 hrest).mp ⟨fun key t => ?_, ?_⟩⟩
        · rw [← append_admitted_cons]
          exact hbounded key t
        · intro before a rest hsplit
          have hthis := htreated (attempt policy windows key t :: before) a rest (by
            rw [hsplit, List.cons_append])
          simpa only [append_admitted_cons] using hthis
      · rintro ⟨hfinds, hall⟩
        obtain ⟨hbounded, htreated⟩ := (ih (h.after hle ht hfinds) hsorted.2 hrest).mpr hall
        refine ⟨fun key t => ?_, fun before a rest hsplit => ?_⟩
        · rw [append_admitted_cons]
          exact hbounded key t
        · cases before with
          | nil =>
              obtain ⟨rfl, rfl⟩ := List.cons.inj hsplit
              simp only [admitted, List.filter_nil, List.map_nil, List.append_nil]
              exact h.treated hle ht hfinds
          | cons b before =>
              obtain ⟨rfl, htail⟩ := List.cons.inj hsplit
              simp only [append_admitted_cons]
              exact htreated before a rest htail

/-- The empty table remembers no attempt. -/
theorem remembers_empty (policy : Policy Key) (now : ℚ) :
    Remembers policy .empty (fun _ => []) now where
  tracks := fun _ => SlidingWindow.tracks_nil now
  reading := fun _ _ ht => absurd ht List.not_mem_nil
  subset := fun _ => List.Subset.refl []
  sorted := fun _ => List.Pairwise.nil
  expires := nofun
  size := Nat.zero_le _

theorem length_after_le (policy : Policy Key) (windows : Table Key Window) (key : Key) (now : ℚ) :
    (after policy windows key now).rows.length ≤ windows.rows.length + 1 := by
  have hprune := length_prune_le windows now
  have hput : ∀ w, ((prune windows now).put key w).rows.length ≤ windows.rows.length + 1 := by
    intro w
    rw [Table.length_put]
    split <;> omega
  rcases @window_cases _ _ windows key now _ (policy.windowSeconds key) (policy.limit_pos key) _
    rfl with ⟨-, _, _, -, -, hwindow⟩ | ⟨-, -, hwindow⟩ | ⟨-, -, hwindow⟩
  · rw [after, hwindow]
    exact hput _
  · rw [after, hwindow, Table.length_update]
    omega
  · rw [after, hwindow]
    exact hput _

/-- Attempts that cannot fill the table find what they have to. -/
theorem finds_of_length {attempts : List (Key × ℚ)}
    (h : windows.rows.length + attempts.length ≤ maxWindows) :
    ∀ a ∈ run policy windows attempts, Finds policy a := by
  induction attempts generalizing windows with
  | nil => exact fun a ha => absurd ha List.not_mem_nil
  | cons first attempts ih =>
      obtain ⟨key, now⟩ := first
      rw [List.length_cons] at h
      have hafter := length_after_le policy windows key now
      have hprune := length_prune_le windows now
      rw [run, List.forall_mem_cons]
      refine ⟨⟨fun _ _ => ?_, fun hfull => ?_⟩, ih (by omega)⟩
      · dsimp only [attempt]
        omega
      · dsimp only [attempt] at hfull
        omega

/-- The table after a run. -/
def afterAll (policy : Policy Key) (windows : Table Key Window) (attempts : List (Key × ℚ)) :
    Table Key Window :=
  attempts.foldl (fun windows a => after policy windows a.1 a.2) windows

theorem run_append (attempts attempts' : List (Key × ℚ)) :
    run policy windows (attempts ++ attempts') =
      run policy windows attempts ++ run policy (afterAll policy windows attempts) attempts' := by
  induction attempts generalizing windows with
  | nil => rfl
  | cons first attempts ih =>
      rw [List.cons_append, run, run, ih]
      rfl

theorem keys_run (attempts : List (Key × ℚ)) :
    (run policy windows attempts).map Attempt.key = attempts.map Prod.fst := by
  induction attempts generalizing windows with
  | nil => rfl
  | cons first attempts ih => rw [run, List.map_cons, List.map_cons, ih]; rfl

theorem length_admitted_le (attempts : List (Attempt Key)) (key : Key) :
    (admitted attempts key).length ≤ (attempts.map Attempt.key).count key := by
  rw [admitted, List.length_map, List.count_eq_countP, List.countP_map,
    List.countP_eq_length_filter]
  refine (List.monotone_filter_right attempts fun a ha => ?_).length_le
  rw [decide_eq_true_eq] at ha
  exact beq_iff_eq.mpr ha.1

/-- A new subject is remembered while there is room. -/
theorem rows_after {key : Key} (hroom : windows.rows.length < maxWindows)
    (hfresh : windows.get? key = none) :
    (after policy windows key now).rows =
      windows.rows ++ [(key, ⟨expiry (policy.windowSeconds key) now, [now]⟩)] := by
  have hsame : prune windows now = windows := if_neg (not_le.mpr hroom)
  have hlog : (attemptsOf (prune windows now) key).dropWhile
      (expired (policy.windowSeconds key) now) = [] := by
    rw [hsame, attemptsOf_of_none hfresh]
    rfl
  have hlimit := policy.limit_pos key
  rcases window_cases hlimit hlog with ⟨hfull, -⟩ | ⟨-, hfull, -⟩ | ⟨-, -, hwindow⟩
  · exact absurd hfull (not_le.mpr hlimit)
  · exact absurd (hsame ▸ hfull) (not_le.mpr hroom)
  · rw [after, hwindow, hsame, Table.rows_put hfresh]
    rfl

/-- New subjects fill the table. -/
theorem rows_afterAll {keys : List Key} (hnodup : keys.Nodup)
    (hfresh : ∀ key ∈ keys, windows.get? key = none)
    (hroom : windows.rows.length + keys.length ≤ maxWindows) :
    (afterAll policy windows (keys.map fun key => (key, now))).rows = windows.rows ++
      keys.map fun key => (key, ⟨expiry (policy.windowSeconds key) now, [now]⟩) := by
  induction keys generalizing windows with
  | nil => exact (List.append_nil _).symm
  | cons key keys ih =>
      rw [List.nodup_cons] at hnodup
      rw [List.length_cons] at hroom
      have hrows : (after policy windows key now).rows =
          windows.rows ++ [(key, ⟨expiry (policy.windowSeconds key) now, [now]⟩)] :=
        rows_after (by omega) (hfresh key List.mem_cons_self)
      have hrest : ∀ key' ∈ keys, (after policy windows key now).get? key' = none := by
        intro key' hkey'
        have hold := hfresh key' (List.mem_cons_of_mem key hkey')
        rw [Table.get?_eq_none_iff] at hold ⊢
        rw [hrows, List.map_append, List.mem_append]
        rintro (hmem | hmem)
        · exact hold hmem
        · obtain rfl : key' = key := List.mem_singleton.mp hmem
          exact hnodup.1 hkey'
      have hmore := ih hnodup.2 hrest (by
        rw [hrows, List.length_append, List.length_singleton]
        omega)
      rw [List.map_cons, List.map_cons, afterAll, List.foldl_cons]
      refine hmore.trans ?_
      rw [hrows, List.append_assoc, List.singleton_append]

/-- **Login throttling is right, exactly while no tracked subject meets a full table** and no
subject of a full table meets a rounded edge. -/
theorem throttled_iff_finds {attempts : List (Key × ℚ)}
    (hsorted : (attempts.map Prod.snd).Pairwise (· ≤ ·))
    (hreading : ∀ t ∈ attempts.map Prod.snd, Reading t) :
    Throttled policy (run policy .empty attempts) ↔
      ∀ a ∈ run policy .empty attempts, Finds policy a := by
  have hall : (0 :: attempts.map Prod.snd).Pairwise (· ≤ ·) :=
    List.pairwise_cons.mpr ⟨fun t ht => (hreading t ht).nonneg, hsorted⟩
  have hiff := (remembers_empty policy 0).throttled_iff hall hreading
  simp only [List.nil_append] at hiff
  exact ⟨fun h => hiff.mp ⟨h.bounded, h.treated⟩, fun h => ⟨(hiff.mpr h).1, (hiff.mpr h).2⟩⟩

end Run

/-! ## A full table -/

/-- Two attempts a minute. -/
def twice : Policy ℕ where
  limit := fun _ => 2
  windowSeconds := fun _ => 60
  limit_pos := fun _ => Nat.le_succ 1

/-- One subject meets its limit, and later has room again. -/
theorem throttled_iff_finds_minute :
    Throttled twice (run twice .empty [(7, 0), (7, 1 / 2), (8, 1), (7, 30), (7, 61)]) :=
  (throttled_iff_finds (by decide +kernel) (by decide +kernel)).mpr
    (finds_of_length (by decide))

/-- As many subjects as the table remembers, at once. -/
def crowd : List (ℕ × ℚ) := (List.range maxWindows).map fun key => (key, 0)

theorem rows_crowd : (afterAll twice .empty crowd).rows =
    (List.range maxWindows).map fun key => (key, ⟨expiry 60 0, [0]⟩) := by
  have hroom : (Table.empty : Table ℕ Window).rows.length + (List.range maxWindows).length ≤
      maxWindows := by
    rw [List.length_range]
    exact (Nat.zero_add _).le
  have hfill := @rows_afterAll ℕ _ twice .empty 0 _ List.nodup_range
    (fun key _ => Table.get?_empty key) hroom
  rw [crowd, hfill]
  exact List.nil_append _

theorem keys_crowd : crowd.map Prod.fst = List.range maxWindows := by
  rw [crowd, List.map_map]
  exact List.map_id _

/-- The second attempt of a subject of the crowd is refused. -/
theorem window_crowd {windows : Table ℕ Window}
    (hrows : windows.rows = (List.range maxWindows).map fun key => (key, ⟨expiry 60 0, [0]⟩)) :
    windows.get? 0 = some ⟨expiry 60 0, [0]⟩ ∧ (window windows 0 2 60 1).1 = .retryAfter 60 := by
  have hlength : windows.rows.length = maxWindows := by
    rw [hrows, List.length_map, List.length_range]
  have hexpiry : 1 < expiry 60 0 := by decide +kernel
  have hget : windows.get? 0 = some ⟨expiry 60 0, [0]⟩ := by
    rw [← Table.mem_rows_iff, hrows]
    exact List.mem_map.mpr ⟨0, List.mem_range.mpr (Nat.zero_lt_succ _), rfl⟩
  have hprune : prune windows 1 = windows := by
    refine prune_eq_self fun row hrow => ?_
    rw [hrows] at hrow
    obtain ⟨key, -, rfl⟩ := List.mem_map.mp hrow
    exact hexpiry
  have hlog : (attemptsOf (prune windows 1) 0).dropWhile (expired 60 1) = [0] := by
    rw [hprune, attemptsOf_of_get? hget]
    decide +kernel
  refine ⟨hget, ?_⟩
  rcases window_cases (Nat.le_succ 1) hlog with ⟨hfull, -⟩ | ⟨-, -, hwindow⟩ | ⟨-, hfree, -⟩
  · exact absurd hfull (by decide)
  · rw [hwindow]
    rfl
  · rw [hprune, hlength] at hfree
    exact absurd hfree (lt_irrefl _)

/-- It has made one attempt of the two, and is not treated right. -/
theorem not_treated_crowd {windows : Table ℕ Window} {history : ℕ → List ℚ}
    (hrows : windows.rows = (List.range maxWindows).map fun key => (key, ⟨expiry 60 0, [0]⟩))
    (honce : (history 0).length ≤ 1) : ¬ Treated twice history (attempt twice windows 0 1) := by
  intro htreated
  obtain ⟨hget, hrefused⟩ := window_crowd hrows
  have hadmitted : (attempt twice windows 0 1).answer = .admitted := by
    refine htreated.unblocked ?_ ?_
    · dsimp only [attempt]
      rw [hget]
      exact Option.some_ne_none _
    · exact (List.length_filter_le _ _).trans_lt (honce.trans_lt Nat.one_lt_two)
  exact absurd (hrefused.symm.trans hadmitted) (by decide)

theorem length_admitted_crowd : (admitted (run twice .empty crowd) 0).length ≤ 1 := by
  refine (length_admitted_le _ _).trans ?_
  rw [keys_run, keys_crowd]
  exact List.nodup_iff_count_le_one.mp List.nodup_range 0

/-- A crowd keeps a subject from its second attempt. -/
theorem not_throttled : ¬ Throttled twice (run twice .empty (crowd ++ [(0, 1)])) := by
  intro h
  refine not_treated_crowd rows_crowd length_admitted_crowd (h.treated _ _ [] ?_)
  rw [run_append, run, run]

end LocalFallback
