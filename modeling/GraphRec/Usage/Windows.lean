import GraphRec.Lib.Binary64
import GraphRec.Lib.Dict
import GraphRec.Lib.SlidingWindow

/-!
# Login throttling

While Redis does not answer, the attempts to log in, to register and so on are limited inside the
process.  `_LocalFallback.window` keeps a sliding-window log for each subject, in one bounded table
that all subjects share.  When the table has reached its bound, the subjects whose last attempt has
left its window are pruned first.

Times are seconds of `time.monotonic`, which are doubles; each operation on them is rounded.
-/

namespace LocalFallback

open Binary64 (truncate IsDouble)
open SlidingWindow (live within)

/-- `MAX_WINDOWS`. -/
def maxWindows : ℕ := 50000

/-- What is remembered of a subject: when it expires, and the deque of its attempts. -/
structure Window where
  expires : ℚ
  attempts : List ℚ
  deriving DecidableEq, Repr

/-- What an attempt gets. -/
inductive Answer
  | admitted
  | retryAfter (seconds : ℤ)
  | indexError
  deriving DecidableEq, Repr

section Window

variable {Key : Type} [DecidableEq Key]

/-- The deque of a subject. -/
def attemptsOf (windows : Table Key Window) (key : Key) : List ℚ :=
  (windows.get? key).elim [] Window.attempts

/-- The pruning at the start of `window`. -/
def prune (windows : Table Key Window) (now : ℚ) : Table Key Window :=
  if maxWindows ≤ windows.rows.length then
    windows.deleteWhere fun _ w => decide (w.expires ≤ now)
  else windows

/-- `attempts[0] <= now - window_seconds`. -/
def expired (windowSeconds : ℕ) (now oldest : ℚ) : Bool :=
  decide (oldest ≤ Binary64.round (now - Binary64.round windowSeconds))

/-- When a subject expires that made its last attempt at a time. -/
def expiry (windowSeconds : ℕ) (latest : ℚ) : ℚ :=
  Binary64.round (latest + Binary64.round windowSeconds)

/-- `max(1, int(attempts[0] + window_seconds - now) + 1)`. -/
def retryAfter (windowSeconds : ℕ) (now oldest : ℚ) : ℤ :=
  max 1 (truncate (Binary64.round (expiry windowSeconds oldest - now)) + 1)

/-- `_LocalFallback.window`, and the table that it leaves. -/
def window (windows : Table Key Window) (key : Key) (limit windowSeconds : ℕ) (now : ℚ) :
    Answer × Table Key Window :=
  let windows := prune windows now
  let attempts := (attemptsOf windows key).dropWhile (expired windowSeconds now)
  -- `popleft` changes the deque that is in the table.
  let windows := windows.update key fun w => { w with attempts := attempts }
  if limit ≤ attempts.length then
    match attempts.head?, attempts.getLast? with
    | some oldest, some latest => (.retryAfter (retryAfter windowSeconds now oldest),
        windows.put key ⟨expiry windowSeconds latest, attempts⟩)
    | _, _ => (.indexError, windows)
  else if maxWindows ≤ windows.rows.length then (.retryAfter windowSeconds, windows)
  else (.admitted, windows.put key ⟨expiry windowSeconds now, attempts ++ [now]⟩)

end Window

/-! ## Runs -/

/-- The limit of each subject: those of one name share a limit and a window. -/
structure Policy (Key : Type) where
  limit : Key → ℕ
  windowSeconds : Key → ℕ
  limit_pos : ∀ key, 1 ≤ limit key

/-- An attempt of a run: the table that it finds, whose it is, when, and what it gets. -/
structure Attempt (Key : Type) where
  windows : Table Key Window
  key : Key
  now : ℚ
  answer : Answer

section Run

variable {Key : Type} [DecidableEq Key] (policy : Policy Key)

/-- An attempt. -/
def attempt (windows : Table Key Window) (key : Key) (now : ℚ) : Attempt Key :=
  ⟨windows, key, now, (window windows key (policy.limit key) (policy.windowSeconds key) now).1⟩

/-- The table after an attempt. -/
def after (windows : Table Key Window) (key : Key) (now : ℚ) : Table Key Window :=
  (window windows key (policy.limit key) (policy.windowSeconds key) now).2

/-- The attempts of a run. -/
def run (windows : Table Key Window) : List (Key × ℚ) → List (Attempt Key)
  | [] => []
  | (key, now) :: rest => attempt policy windows key now :: run (after policy windows key now) rest

/-- When a subject was admitted. -/
def admitted (attempts : List (Attempt Key)) (key : Key) : List ℚ :=
  (attempts.filter fun a => decide (a.key = key ∧ a.answer = .admitted)).map Attempt.now

/-- A time that the clock can show, within 35 million years of its start. -/
structure Reading (t : ℚ) : Prop where
  nonneg : 0 ≤ t
  lt : t < 2 ^ 50
  double : IsDouble t

instance (t : ℚ) : Decidable (Reading t) :=
  decidable_of_iff (0 ≤ t ∧ t < 2 ^ 50 ∧ IsDouble t)
    ⟨fun ⟨hnonneg, hlt, hdouble⟩ => ⟨hnonneg, hlt, hdouble⟩, fun h => ⟨h.nonneg, h.lt, h.double⟩⟩

/-! ## What throttling is for -/

/-- An attempt is treated right, after the admitted ones of each subject. -/
structure Treated (history : Key → List ℚ) (a : Attempt Key) : Prop where
  sufficient : ∀ seconds, a.answer = .retryAfter seconds →
    ∀ later, Reading later → a.now + seconds ≤ later →
      (live (policy.windowSeconds a.key : ℚ) later (history a.key)).length < policy.limit a.key
  remembered : ∀ key, ∀ t ∈ history key, a.now < t + policy.windowSeconds key →
    t ∈ attemptsOf (prune a.windows a.now) key
  unblocked : a.windows.get? a.key ≠ none →
    (live (policy.windowSeconds a.key : ℚ) a.now (history a.key)).length < policy.limit a.key →
      a.answer = .admitted

/-- The attempts of a run are throttled right. -/
structure Throttled (attempts : List (Attempt Key)) : Prop where
  bounded : ∀ key t, (within (policy.windowSeconds key : ℚ) t (admitted attempts key)).length ≤
    policy.limit key
  treated : ∀ before a rest, attempts = before ++ a :: rest →
    Treated policy (admitted before) a

/-! ## Where it is met -/

/-- What an attempt has to find.  A tracked subject below its limit finds room in the pruned table,
and no subject is pruned because the end of its last window was rounded down. -/
structure Finds (a : Attempt Key) : Prop where
  room : a.windows.get? a.key ≠ none →
    ((attemptsOf a.windows a.key).dropWhile
      (expired (policy.windowSeconds a.key) a.now)).length < policy.limit a.key →
      (prune a.windows a.now).rows.length < maxWindows
  edges : maxWindows ≤ a.windows.rows.length → ∀ key, ∀ latest,
    (attemptsOf a.windows key).getLast? = some latest →
      expiry (policy.windowSeconds key) latest ≤ a.now →
        latest + policy.windowSeconds key ≤ a.now

end Run

end LocalFallback
