import GraphRec.Lib.SlidingWindow
import GraphRec.Lib.Binary64
import Mathlib.Data.List.Sort

/-!
# The rate limit

The requests per minute of a tenant are counted by a sliding-window log, kept twice.
`_RATE_LUA` keeps it in Redis, in whole milliseconds; `_LocalFallback.rate` keeps it in
the process while Redis does not answer, in the seconds of `time.monotonic`, which are
doubles.

An attempt that comes 60 seconds after an entry, to the millisecond, finds it expired in
Redis.  The doubles may see it a little less than 60 seconds in the past, and the process
then refuses what Redis admits.  `rate_exact` says that this is all that can differ.
-/

namespace Usage

open Binary64 (truncate)
open SlidingWindow (live admits next within)

/-- `RATE_WINDOW_MS`. -/
def rateWindowMs : ℕ := 60000

/-- `RateResult`. -/
structure RateResult where
  limit : ℕ
  remaining : ℤ
  resetSeconds : ℤ
  deriving DecidableEq, Repr

/-- `RateResult.headers`. -/
def RateResult.headers (r : RateResult) : List (String × ℤ) :=
  [("X-RateLimit-Limit", r.limit), ("X-RateLimit-Remaining", max 0 r.remaining),
    ("X-RateLimit-Reset", max 0 r.resetSeconds)]

/-- The `ApiError` of `_rate_limited`. -/
structure RateLimited where
  statusCode : ℕ
  code : String
  message : String
  retryable : Bool
  retryAfterSeconds : ℤ
  limitName : String
  limit : ℕ
  used : ℕ
  headers : List (String × ℤ)
  deriving DecidableEq, Repr

/-- `_rate_limited`. -/
def rateLimited (limit : ℕ) (result : RateResult) : RateLimited where
  statusCode := 429
  code := "quota_exceeded"
  message := "The recommendation request rate limit has been reached."
  retryable := true
  retryAfterSeconds := max 1 result.resetSeconds
  limitName := "requests_per_minute"
  limit := limit
  used := limit
  headers := result.headers

/-- What `check_rate` has in hand at its end. -/
structure RateAnswer where
  allowed : Bool
  result : RateResult
  deriving DecidableEq, Repr

/-- What `check_rate` raises. -/
def RateAnswer.error (a : RateAnswer) : Option RateLimited :=
  if a.allowed then none else some (rateLimited a.result.limit a.result)

/-! ## The script -/

/-- The sorted set under a key: the scores in ascending order, and when the key expires. -/
structure RateKey where
  scores : List ℕ
  expires : ℕ
  deriving DecidableEq, Repr

/-- No key. -/
def RateKey.missing : RateKey := ⟨[], 0⟩

/-- What Redis still has of the set at a time. -/
def RateKey.present (key : RateKey) (now : ℕ) : List ℕ :=
  if key.expires ≤ now then [] else key.scores

/-- `ZREMRANGEBYSCORE`, from `-inf` up to a score. -/
def removeUpTo (top : ℤ) (scores : List ℕ) : List ℕ :=
  scores.filter fun score => !decide ((score : ℤ) ≤ top)

/-- The script's `reset`: until the first entry expires, or a whole window. -/
def resetMs (window now : ℕ) (scores : List ℕ) : ℤ :=
  match scores.head? with
  | some oldest => oldest + window - now
  | none => window

/-- `_RATE_LUA`: whether it allows, the remaining count and the reset time, and the key
it leaves. -/
def rateScript (key : RateKey) (limit window now : ℕ) : (Bool × ℤ × ℤ) × RateKey :=
  let scores := removeUpTo (now - window) (key.present now)
  let allowed := decide (scores.length < limit)
  let used : ℤ := if allowed then scores.length + 1 else scores.length
  let key' : RateKey :=
    if allowed then ⟨scores.orderedInsert (· ≤ ·) now, now + (window + 1000)⟩
    else ⟨scores, key.expires⟩
  ((allowed, limit - used, resetMs window now key'.scores), key')

/-- `check_rate`, when Redis answers. -/
def checkRateRedis (limit : ℕ) (key : RateKey) (now : ℕ) : RateAnswer × RateKey :=
  let ((allowed, remaining, reset), key') := rateScript key limit rateWindowMs now
  (⟨allowed, limit, remaining, -(-reset / 1000)⟩, key')

/-! ## The window of a process -/

/-- `time.monotonic` at a number of milliseconds: seconds, to the nearest double. -/
def monotonic (ms : ℕ) : ℚ := Binary64.round (ms / 1000)

/-- `RATE_WINDOW_MS / 1000`, which is a double. -/
def rateWindowSeconds : ℚ := rateWindowMs / 1000

/-- `window[0] <= now - RATE_WINDOW_MS / 1000`. -/
def expired (oldest now : ℚ) : Bool :=
  decide (oldest ≤ Binary64.round (now - rateWindowSeconds))

/-- The fallback's `reset`. -/
def resetSeconds (now : ℚ) (window : List ℚ) : ℤ :=
  match window with
  | oldest :: _ =>
      truncate (Binary64.round (Binary64.round (oldest + rateWindowSeconds) - now)) + 1
  | [] => rateWindowMs / 1000

/-- `_LocalFallback.rate`, and the deque it leaves. -/
def localRate (limit : ℕ) (window : List ℚ) (now : ℚ) : (Bool × ℤ × ℤ) × List ℚ :=
  let window := window.dropWhile fun oldest => expired oldest now
  let allowed := decide (window.length < limit)
  let window := if allowed then window ++ [now] else window
  ((allowed, limit - window.length, resetSeconds now window), window)

/-- `check_rate`, when Redis does not answer. -/
def checkRateLocal (limit : ℕ) (window : List ℚ) (ms : ℕ) : RateAnswer × List ℚ :=
  let ((allowed, remaining, reset), window') := localRate limit window (monotonic ms)
  (⟨allowed, limit, remaining, reset⟩, window')

/-! ## Attempts one after another -/

/-- Attempts at the given times, with what each comes to. -/
def attempts {σ : Type} (check : σ → ℕ → RateAnswer × σ) (s : σ) :
    List ℕ → List (ℕ × RateAnswer)
  | [] => []
  | now :: times => (now, (check s now).1) :: attempts check (check s now).2 times

/-- Attempts that Redis counts. -/
def redisAttempts (limit : ℕ) (times : List ℕ) : List (ℕ × RateAnswer) :=
  attempts (checkRateRedis limit) RateKey.missing times

/-- Attempts that the process counts. -/
def localAttempts (limit : ℕ) (times : List ℕ) : List (ℕ × RateAnswer) :=
  attempts (checkRateLocal limit) [] times

/-- Which attempts are admitted, and the remaining count that each reports. -/
def told (attempts : List (ℕ × RateAnswer)) : List (ℕ × Bool × ℤ) :=
  attempts.map fun a => (a.1, a.2.allowed, a.2.result.remaining)

/-- Which attempts are admitted. -/
def verdicts (attempts : List (ℕ × RateAnswer)) : List (ℕ × Bool) :=
  attempts.map fun a => (a.1, a.2.allowed)

/-- The times of the admitted attempts. -/
def admitted (attempts : List (ℕ × RateAnswer)) : List ℕ :=
  SlidingWindow.taken (verdicts attempts)

/-- The waits that a refusal returns: its reset time and its retry time. -/
def RateAnswer.waits (a : RateAnswer) : List ℤ :=
  a.result.resetSeconds :: a.error.toList.map RateLimited.retryAfterSeconds

/-- The attempts are admitted by an exact sliding window. -/
structure ExactWindow (limit : ℕ) (attempts : List (ℕ × RateAnswer)) : Prop where
  bounded : ∀ t, (within rateWindowMs t (admitted attempts)).length ≤ limit
  refused : ∀ (before after : List (ℕ × RateAnswer)) (now : ℕ) (answer : RateAnswer),
    attempts = before ++ (now, answer) :: after →
    answer.allowed = false →
    (within rateWindowMs now (admitted before)).length = limit
  retried : ∀ (before after : List (ℕ × RateAnswer)) (now later : ℕ)
    (answer again : RateAnswer),
    attempts = before ++ (now, answer) :: (later, again) :: after →
    answer.allowed = false →
    (∃ wait ∈ answer.waits, (now : ℤ) + 1000 * wait ≤ later) →
    again.allowed = true

/-- Both windows are exact, and they agree. -/
structure RateExact (limit : ℕ) (times : List ℕ) : Prop where
  agree : told (redisAttempts limit times) = told (localAttempts limit times)
  redis : ExactWindow limit (redisAttempts limit times)
  fallback : ExactWindow limit (localAttempts limit times)

/-- Whenever an attempt comes exactly a window after an entry of the exact log, the doubles
see the entry expired. -/
def EdgesExpired (limit : ℕ) (log : List ℕ) : List ℕ → Prop
  | [] => True
  | now :: times =>
      (∀ m ∈ log, now = m + rateWindowMs → expired (monotonic m) (monotonic now) = true) ∧
        EdgesExpired limit (next rateWindowMs limit log now) times

instance decidableEdgesExpired (limit : ℕ) (log times : List ℕ) :
    Decidable (EdgesExpired limit log times) :=
  match times with
  | [] => isTrue trivial
  | now :: times =>
      have := decidableEdgesExpired limit (next rateWindowMs limit log now) times
      inferInstanceAs (Decidable (_ ∧ _))

/-- The clock counts nanoseconds in 64 bits. -/
def Readable (ms : ℕ) : Prop := ms * 1000000 < 2 ^ 63

instance (ms : ℕ) : Decidable (Readable ms) := inferInstanceAs (Decidable (_ < _))

/-! ## One attempt -/

/-- What an attempt is told when a number of entries is left. -/
def tell (limit kept : ℕ) : Bool × ℤ :=
  (decide (kept < limit), limit - if kept < limit then kept + 1 else kept)

/-- The number of entries shows in what is told. -/
theorem tell_injective {limit a b : ℕ} (h : tell limit a = tell limit b) : a = b := by
  simp only [tell, Prod.mk.injEq, decide_eq_decide] at h
  obtain ⟨hiff, hremaining⟩ := h
  by_cases ha : a < limit
  · rw [if_pos ha, if_pos (hiff.mp ha)] at hremaining
    omega
  · rw [if_neg ha, if_neg (fun hb => ha (hiff.mpr hb))] at hremaining
    omega

/-- A refusal waits until the oldest entry is a whole window in the past. -/
def RateAnswer.Covers (a : RateAnswer) (now : ℕ) (log : List ℕ) : Prop :=
  a.allowed = false → ∀ oldest ∈ log.head?, ∀ wait ∈ a.waits,
    ((oldest + rateWindowMs : ℕ) : ℤ) ≤ now + 1000 * wait

/-- The retry time is no less than the reset time. -/
theorem RateAnswer.reset_le_waits {a : RateAnswer} {wait : ℤ} (h : wait ∈ a.waits) :
    a.result.resetSeconds ≤ wait := by
  rw [waits, List.mem_cons] at h
  rcases h with rfl | h
  · exact le_refl _
  · rw [List.mem_map] at h
    obtain ⟨error, herror, rfl⟩ := h
    rw [Option.mem_toList, RateAnswer.error] at herror
    split at herror
    · cases herror
    · cases herror
      exact le_max_right _ _

/-- A reset time that reaches the expiry covers a refusal. -/
theorem RateAnswer.covers_of_reset {a : RateAnswer} {now : ℕ} {log : List ℕ}
    (h : ∀ oldest ∈ log.head?,
      ((oldest + rateWindowMs : ℕ) : ℤ) ≤ now + 1000 * a.result.resetSeconds) :
    a.Covers now log := by
  intro _ oldest holdest wait hwait
  have hreset := h oldest holdest
  have hle := reset_le_waits hwait
  omega

/-- An attempt follows the exact log. -/
structure Follows (limit : ℕ) (log : List ℕ) (now : ℕ) (a : RateAnswer) : Prop where
  verdict : (a.allowed, a.result.remaining) = tell limit (live rateWindowMs now log).length
  covers : a.Covers now (next rateWindowMs limit log now)

/-- The verdict of an attempt that follows the exact log. -/
theorem Follows.allowed {limit : ℕ} {log : List ℕ} {now : ℕ} {a : RateAnswer}
    (h : Follows limit log now a) : a.allowed = admits rateWindowMs limit log now :=
  congrArg Prod.fst h.verdict

/-! ### Redis -/

/-- The key holds the log, and does not expire before its entries. -/
structure Holds (key : RateKey) (log : List ℕ) : Prop where
  scores : key.scores = log
  expires : ∀ m ∈ log, m + rateWindowMs ≤ key.expires

/-- What the script keeps is what is left of the log. -/
theorem Holds.kept {key : RateKey} {log : List ℕ} (h : Holds key log) (now : ℕ) :
    removeUpTo (now - rateWindowMs) (key.present now) = live rateWindowMs now log := by
  have hlive : removeUpTo (now - rateWindowMs) log = live rateWindowMs now log := by
    unfold removeUpTo live
    apply List.filter_congr
    intro m _
    rw [← decide_not, decide_eq_decide]
    omega
  unfold RateKey.present
  split
  · next hexpired =>
      symm
      unfold live removeUpTo
      rw [List.filter_nil, List.filter_eq_nil_iff]
      intro m hm
      have := h.expires m hm
      simp only [decide_eq_true_eq]
      omega
  · rw [h.scores, hlive]

/-- An insertion above everything is at the end. -/
theorem orderedInsert_last {log : List ℕ} {now : ℕ} (h : (log ++ [now]).Pairwise (· ≤ ·)) :
    log.orderedInsert (· ≤ ·) now = log ++ [now] := by
  have hlog : log.Pairwise (· ≤ ·) := h.sublist (List.sublist_append_left log [now])
  have hperm : (log.orderedInsert (· ≤ ·) now).Perm (log ++ [now]) :=
    (List.perm_orderedInsert _ now log).trans (List.perm_append_singleton now log).symm
  exact hperm.eq_of_pairwise' (hlog.orderedInsert now log) h

/-- What the script answers, and the key it leaves. -/
theorem Holds.rateScript {key : RateKey} {log : List ℕ} (h : Holds key log) {limit now : ℕ}
    (hsorted : (log ++ [now]).Pairwise (· ≤ ·)) :
    rateScript key limit rateWindowMs now =
      ((admits rateWindowMs limit log now, (tell limit (live rateWindowMs now log).length).2,
          resetMs rateWindowMs now (next rateWindowMs limit log now)),
        ⟨next rateWindowMs limit log now,
          if admits rateWindowMs limit log now then now + (rateWindowMs + 1000)
          else key.expires⟩) := by
  have hlive : (live rateWindowMs now log ++ [now]).Pairwise (· ≤ ·) :=
    hsorted.sublist (List.Sublist.append_right List.filter_sublist [now])
  unfold Usage.rateScript
  rw [h.kept]
  by_cases hroom : (live rateWindowMs now log).length < limit
  · simp [next, admits, tell, hroom, orderedInsert_last hlive]
  · simp [next, admits, tell, hroom]

/-- The key holds the log after the script. -/
theorem Holds.next {key : RateKey} {log : List ℕ} (h : Holds key log) {limit now : ℕ}
    (hsorted : (log ++ [now]).Pairwise (· ≤ ·)) :
    Holds (checkRateRedis limit key now).2 (next rateWindowMs limit log now) := by
  unfold checkRateRedis
  rw [h.rateScript hsorted]
  refine ⟨rfl, ?_⟩
  intro m hm
  cases hadmits : admits rateWindowMs limit log now with
  | true =>
      have hle : m ≤ now := by
        rcases List.mem_append.mp (SlidingWindow.next_sublist.subset hm) with hold | hnew
        · exact (List.pairwise_append.mp hsorted).2.2 m hold now (List.mem_singleton.mpr rfl)
        · exact le_of_eq (List.mem_singleton.mp hnew)
      simp only [if_true]
      omega
  | false =>
      simp only [SlidingWindow.next, hadmits, Bool.false_eq_true, if_false] at hm ⊢
      exact h.expires m (SlidingWindow.mem_live.mp hm).1

/-- Redis follows the exact log. -/
theorem Holds.follows {key : RateKey} {log : List ℕ} (h : Holds key log) {limit now : ℕ}
    (hsorted : (log ++ [now]).Pairwise (· ≤ ·)) :
    Follows limit log now (checkRateRedis limit key now).1 := by
  unfold checkRateRedis
  rw [h.rateScript hsorted]
  refine ⟨rfl, RateAnswer.covers_of_reset ?_⟩
  intro oldest holdest
  simp only [resetMs, Option.mem_def.mp holdest]
  omega

/-! ### The process -/

/-- A rounding adds less than a tenth of a millisecond to an error. -/
theorem round_within {x y e : ℚ} (h : |x - y| ≤ e) (he : e ≤ 1) (hy : |y| ≤ 10000000000) :
    |Binary64.round x - y| ≤ e + 1 / 10000 := by
  have hx : |x| ≤ 2 ^ 34 := by
    have hsum : |x| ≤ |x - y| + |y| := by
      simpa using abs_add_le (x - y) y
    linarith
  have hround : |Binary64.round x - x| ≤ 1 / 10000 := by
    have hbound : |x| / 2 ^ 53 ≤ 2 ^ 34 / 2 ^ 53 :=
      div_le_div_of_nonneg_right hx (by norm_num)
    have hsmall : (2 : ℚ) ^ 34 / 2 ^ 53 ≤ 1 / 10000 := by norm_num
    exact le_trans (Binary64.round_error x) (le_trans hbound hsmall)
  calc |Binary64.round x - y|
      ≤ |Binary64.round x - x| + |x - y| := abs_sub_le _ _ _
    _ ≤ 1 / 10000 + e := add_le_add hround h
    _ = e + 1 / 10000 := add_comm _ _

/-- The seconds that the clock can return. -/
theorem Readable.seconds {ms : ℕ} (h : Readable ms) :
    0 ≤ (ms : ℚ) / 1000 ∧ (ms : ℚ) / 1000 ≤ 9300000000 := by
  unfold Readable at h
  have hms : ms ≤ 9300000000000 := by omega
  have hcast : (ms : ℚ) ≤ 9300000000000 := by exact_mod_cast hms
  refine ⟨by positivity, ?_⟩
  linarith

/-- The clock is right to a tenth of a millisecond. -/
theorem Readable.close {ms : ℕ} (h : Readable ms) :
    |monotonic ms - ms / 1000| ≤ 1 / 10000 := by
  obtain ⟨hnonneg, hle⟩ := h.seconds
  have hround : |monotonic ms - ms / 1000| ≤ 0 + 1 / 10000 := by
    apply round_within
    · rw [sub_self, abs_zero]
    · norm_num
    · rw [abs_of_nonneg hnonneg]
      linarith
  linarith

/-- The window in seconds. -/
theorem rateWindowSeconds_eq : rateWindowSeconds = 60 := by
  norm_num [rateWindowSeconds, rateWindowMs]

/-- The start of the window, as the doubles have it. -/
theorem Readable.start_close {ms : ℕ} (h : Readable ms) :
    |Binary64.round (monotonic ms - rateWindowSeconds) - (ms / 1000 - 60)| ≤
      1 / 10000 + 1 / 10000 := by
  obtain ⟨hnonneg, hle⟩ := h.seconds
  rw [rateWindowSeconds_eq]
  apply round_within
  · rw [sub_sub_sub_cancel_right]
    exact h.close
  · norm_num
  · rw [abs_le]
    constructor <;> linarith

/-- What the doubles see expired has expired. -/
theorem expired_le {m now : ℕ} (hm : Readable m) (hnow : Readable now)
    (h : expired (monotonic m) (monotonic now) = true) : m + rateWindowMs ≤ now := by
  have hle := of_decide_eq_true h
  have hclose := abs_le.mp hm.close
  have hstart := abs_le.mp hnow.start_close
  by_contra hlt
  have hnat : now + 1 ≤ m + 60000 := by
    simp only [rateWindowMs] at hlt
    omega
  have hcast : (now : ℚ) + 1 ≤ m + 60000 := by exact_mod_cast hnat
  linarith [hclose.1, hstart.2]

/-- What expired a millisecond ago, the doubles see expired. -/
theorem expired_of_lt {m now : ℕ} (hm : Readable m) (hnow : Readable now)
    (h : m + rateWindowMs < now) : expired (monotonic m) (monotonic now) = true := by
  apply decide_eq_true
  have hclose := abs_le.mp hm.close
  have hstart := abs_le.mp hnow.start_close
  have hnat : m + 60000 + 1 ≤ now := h
  have hcast : (m : ℚ) + 60000 + 1 ≤ now := by exact_mod_cast hnat
  linarith [hclose.2, hstart.1]

/-- Off the edge of the window the doubles are exact. -/
theorem expired_eq {m now : ℕ} (hm : Readable m) (hnow : Readable now)
    (hedge : now = m + rateWindowMs → expired (monotonic m) (monotonic now) = true) :
    expired (monotonic m) (monotonic now) = decide (m + rateWindowMs ≤ now) := by
  rw [Bool.eq_iff_iff, decide_eq_true_eq]
  refine ⟨expired_le hm hnow, ?_⟩
  intro hle
  rcases Nat.eq_or_lt_of_le hle with heq | hlt
  · exact hedge heq.symm
  · exact expired_of_lt hm hnow hlt

/-- The wait until an entry expires, as the doubles have it. -/
theorem Readable.wait_close {m now : ℕ} (hm : Readable m) (hnow : Readable now) :
    |Binary64.round (Binary64.round (monotonic m + rateWindowSeconds) - monotonic now) -
      ((m / 1000 + 60) - now / 1000)| ≤ 3 / 10000 + 1 / 10000 := by
  obtain ⟨hmNonneg, hmLe⟩ := hm.seconds
  obtain ⟨hnowNonneg, hnowLe⟩ := hnow.seconds
  rw [rateWindowSeconds_eq]
  have hend : |Binary64.round (monotonic m + 60) - (m / 1000 + 60)| ≤
      1 / 10000 + 1 / 10000 := by
    apply round_within
    · rw [add_sub_add_right_eq_sub]
      exact hm.close
    · norm_num
    · rw [abs_le]
      constructor <;> linarith
  apply round_within
  · have hclose := abs_le.mp hnow.close
    rw [abs_le] at hend ⊢
    constructor <;> linarith
  · norm_num
  · rw [abs_le]
    constructor <;> linarith

/-- The reset time of the process reaches the expiry. -/
theorem resetSeconds_covers {m now : ℕ} (hm : Readable m) (hnow : Readable now)
    (window : List ℚ) :
    ((m + rateWindowMs : ℕ) : ℤ) ≤
      now + 1000 * resetSeconds (monotonic now) (monotonic m :: window) := by
  dsimp only [resetSeconds]
  have hwait := (abs_le.mp (hm.wait_close hnow)).1
  have htruncate := Binary64.lt_truncate
    (Binary64.round (Binary64.round (monotonic m + rateWindowSeconds) - monotonic now))
  generalize truncate (Binary64.round
    (Binary64.round (monotonic m + rateWindowSeconds) - monotonic now)) = seconds at *
  have hrat : (m : ℚ) + 60000 < now + 1000 * ((seconds : ℚ) + 1) + 1 := by linarith
  have hint : (m : ℤ) + 60000 < now + 1000 * (seconds + 1) + 1 := by exact_mod_cast hrat
  simp only [rateWindowMs]
  omega

/-- What the process tells, by what is left in its deque. -/
theorem checkRateLocal_verdict (limit : ℕ) (log : List ℕ) (now : ℕ) :
    ((checkRateLocal limit (log.map monotonic) now).1.allowed,
        (checkRateLocal limit (log.map monotonic) now).1.result.remaining) =
      tell limit (log.dropWhile fun m => expired (monotonic m) (monotonic now)).length := by
  have hdrop : (log.map monotonic).dropWhile (fun oldest => expired oldest (monotonic now)) =
      (log.dropWhile fun m => expired (monotonic m) (monotonic now)).map monotonic := by
    rw [List.dropWhile_map]
    rfl
  unfold checkRateLocal localRate
  rw [hdrop]
  by_cases hroom :
      (log.dropWhile fun m => expired (monotonic m) (monotonic now)).length < limit
  · simp [tell, hroom]
  · simp [tell, hroom]

/-- Where the deque is left as the log, so is it after the attempt. -/
theorem checkRateLocal_window {limit : ℕ} {log : List ℕ} {now : ℕ}
    (h : log.dropWhile (fun m => expired (monotonic m) (monotonic now)) =
      live rateWindowMs now log) :
    (checkRateLocal limit (log.map monotonic) now).2 =
        (next rateWindowMs limit log now).map monotonic ∧
      (checkRateLocal limit (log.map monotonic) now).1.result.resetSeconds =
        resetSeconds (monotonic now) ((next rateWindowMs limit log now).map monotonic) := by
  have hdrop : (log.map monotonic).dropWhile (fun oldest => expired oldest (monotonic now)) =
      (live rateWindowMs now log).map monotonic := by
    rw [← h, List.dropWhile_map]
    rfl
  unfold checkRateLocal localRate
  rw [hdrop]
  by_cases hroom : (live rateWindowMs now log).length < limit
  · simp [next, admits, hroom]
  · simp [next, admits, hroom]

/-- The entries that an attempt at a time finds are no later, and readable. -/
structure Earlier (log times : List ℕ) : Prop where
  sorted : (log ++ times).Pairwise (· ≤ ·)
  readable : ∀ m ∈ log ++ times, Readable m

/-- The attempts after the first find the log after it. -/
theorem Earlier.next {log times : List ℕ} {limit now : ℕ} (h : Earlier log (now :: times)) :
    Earlier (next rateWindowMs limit log now) times := by
  have hsublist : (SlidingWindow.next rateWindowMs limit log now ++ times).Sublist
      (log ++ now :: times) := by
    rw [List.append_cons]
    exact List.Sublist.append_right SlidingWindow.next_sublist times
  exact ⟨h.sorted.sublist hsublist, fun m hm => h.readable m (hsublist.subset hm)⟩

/-- The first attempt finds entries that are no later. -/
theorem Earlier.first {log times : List ℕ} {now : ℕ} (h : Earlier log (now :: times)) :
    (log ++ [now]).Pairwise (· ≤ ·) := by
  have hsorted := h.sorted
  rw [List.append_cons] at hsorted
  exact hsorted.sublist (List.sublist_append_left _ times)

/-- Where the edge is seen, the deque is left as the log. -/
theorem Earlier.dropWhile_eq {log times : List ℕ} {now : ℕ} (h : Earlier log (now :: times))
    (hedges : ∀ m ∈ log, now = m + rateWindowMs →
      expired (monotonic m) (monotonic now) = true) :
    log.dropWhile (fun m => expired (monotonic m) (monotonic now)) =
      live rateWindowMs now log := by
  have hsorted : log.Pairwise (· ≤ ·) :=
    h.sorted.sublist (List.sublist_append_left log (now :: times))
  apply SlidingWindow.dropWhile_eq_live (fun a b hab => Nat.add_le_add_right hab _) hsorted
  intro m hm
  apply expired_eq (h.readable m (List.mem_append_left _ hm)) _ (hedges m hm)
  exact h.readable now (List.mem_append_right _ (List.mem_cons_self ..))

/-- Where the edge is seen, the process follows the exact log. -/
theorem Earlier.follows {log times : List ℕ} {limit now : ℕ} (h : Earlier log (now :: times))
    (hedges : ∀ m ∈ log, now = m + rateWindowMs →
      expired (monotonic m) (monotonic now) = true) :
    Follows limit log now (checkRateLocal limit (log.map monotonic) now).1 := by
  have hdrop := h.dropWhile_eq hedges
  refine ⟨?_, RateAnswer.covers_of_reset ?_⟩
  · rw [checkRateLocal_verdict, hdrop]
  · intro oldest holdest
    rw [(checkRateLocal_window hdrop).2]
    have hmem : oldest ∈ log ++ [now] :=
      SlidingWindow.next_sublist.subset (List.mem_of_mem_head? holdest)
    have hoccurs : oldest ∈ log ++ now :: times := by
      rw [List.append_cons]
      exact List.mem_append_left times hmem
    obtain ⟨rest, hrest⟩ := List.head?_eq_some_iff.mp (Option.mem_def.mp holdest)
    rw [hrest, List.map_cons]
    apply resetSeconds_covers (h.readable oldest hoccurs)
    exact h.readable now (List.mem_append_right _ (List.mem_cons_self ..))

/-! ## A run of attempts -/

/-- Each attempt follows the exact log. -/
def FollowsAll (limit : ℕ) (log : List ℕ) : List (ℕ × RateAnswer) → Prop
  | [] => True
  | (now, answer) :: rest =>
      Follows limit log now answer ∧
        FollowsAll limit (next rateWindowMs limit log now) rest

/-- **Run lemma.**  Redis follows the exact log. -/
theorem redis_followsAll {limit : ℕ} {key : RateKey} {log times : List ℕ}
    (hholds : Holds key log) (h : Earlier log times) :
    FollowsAll limit log (attempts (checkRateRedis limit) key times) := by
  induction times generalizing key log with
  | nil => trivial
  | cons now times ih =>
      exact ⟨hholds.follows h.first, ih (hholds.next h.first) h.next⟩

/-- **Run lemma.**  The process follows the exact log while it sees the edges. -/
theorem local_followsAll {limit : ℕ} {log times : List ℕ} (h : Earlier log times)
    (hedges : EdgesExpired limit log times) :
    FollowsAll limit log (attempts (checkRateLocal limit) (log.map monotonic) times) := by
  induction times generalizing log with
  | nil => trivial
  | cons now times ih =>
      obtain ⟨hfirst, hrest⟩ := hedges
      refine ⟨h.follows hfirst, ?_⟩
      rw [(checkRateLocal_window (h.dropWhile_eq hfirst)).1]
      exact ih h.next hrest

/-- What the first attempt of a run is told, and the others. -/
theorem told_cons {σ : Type} (check : σ → ℕ → RateAnswer × σ) (s : σ) (now : ℕ)
    (times : List ℕ) :
    told (attempts check s (now :: times)) =
      (now, (check s now).1.allowed, (check s now).1.result.remaining) ::
        told (attempts check (check s now).2 times) := rfl

/-- **Both windows tell the same exactly while the process sees the edges.** -/
theorem agree_iff {limit : ℕ} {key : RateKey} {log times : List ℕ} (hholds : Holds key log)
    (h : Earlier log times) :
    told (attempts (checkRateRedis limit) key times) =
        told (attempts (checkRateLocal limit) (log.map monotonic) times) ↔
      EdgesExpired limit log times := by
  induction times generalizing key log with
  | nil => exact ⟨fun _ => trivial, fun _ => rfl⟩
  | cons now times ih =>
      have hredis : Follows limit log now (checkRateRedis limit key now).1 :=
        hholds.follows h.first
      rw [told_cons, told_cons, hredis.verdict, checkRateLocal_verdict, List.cons.injEq,
        Prod.mk.injEq]
      by_cases hedges : ∀ m ∈ log, now = m + rateWindowMs →
          expired (monotonic m) (monotonic now) = true
      · have hdrop := h.dropWhile_eq hedges
        rw [hdrop, (checkRateLocal_window hdrop).1, ih (hholds.next h.first) h.next]
        constructor
        · rintro ⟨_, hrest⟩
          exact ⟨hedges, hrest⟩
        · rintro ⟨_, hrest⟩
          exact ⟨⟨rfl, rfl⟩, hrest⟩
      · -- The deque keeps an entry that Redis has dropped.
        constructor
        · rintro ⟨⟨_, htell⟩, _⟩
          exfalso
          push Not at hedges
          obtain ⟨m, hm, hedge, hkept⟩ := hedges
          have hnow : Readable now :=
            h.readable now (List.mem_append_right _ (List.mem_cons_self ..))
          have hlonger := SlidingWindow.live_lt_dropWhile
            (fun m hm => expired_le (h.readable m (List.mem_append_left _ hm)) hnow)
            hm (le_of_eq hedge.symm) (Bool.eq_false_iff.mpr hkept)
          exact absurd (tell_injective htell) (Nat.ne_of_lt hlonger)
        · rintro ⟨hfirst, _⟩
          exact absurd hfirst hedges

/-- The verdicts of attempts that follow the exact log are those of its run. -/
theorem FollowsAll.verdicts {limit : ℕ} {log : List ℕ} {attempts : List (ℕ × RateAnswer)}
    (h : FollowsAll limit log attempts) :
    verdicts attempts = SlidingWindow.run rateWindowMs limit log (attempts.map Prod.fst) := by
  induction attempts generalizing log with
  | nil => rfl
  | cons first rest ih =>
      obtain ⟨now, answer⟩ := first
      obtain ⟨hfirst, hrest⟩ := h
      rw [List.map_cons, SlidingWindow.run, ← ih hrest, ← hfirst.allowed]
      rfl

/-- The later attempts follow the log that the earlier ones leave. -/
theorem FollowsAll.later {limit : ℕ} {log : List ℕ} {before after : List (ℕ × RateAnswer)}
    (h : FollowsAll limit log (before ++ after)) (hlength : log.length ≤ limit) :
    ∃ log' : List ℕ, FollowsAll limit log' after ∧ log'.length ≤ limit := by
  induction before generalizing log with
  | nil => exact ⟨log, h, hlength⟩
  | cons first before ih =>
      obtain ⟨_, hrest⟩ := h
      exact ih hrest (SlidingWindow.next_length hlength)

/-- After a refusal and one of its waits the next attempt is admitted. -/
theorem FollowsAll.retried {limit : ℕ} {log : List ℕ} {now later : ℕ}
    {answer again : RateAnswer} {after : List (ℕ × RateAnswer)}
    (h : FollowsAll limit log ((now, answer) :: (later, again) :: after))
    (hlimit : 1 ≤ limit) (hlength : log.length ≤ limit) (hrefused : answer.allowed = false)
    {wait : ℤ} (hwait : wait ∈ answer.waits) (hlater : (now : ℤ) + 1000 * wait ≤ later) :
    again.allowed = true := by
  obtain ⟨hfirst, hagain, _⟩ := h
  have hadmits : admits rateWindowMs limit log now = false := hfirst.allowed.symm.trans hrefused
  have hkept : next rateWindowMs limit log now = live rateWindowMs now log := by
    simp [next, hadmits]
  have hfull : limit ≤ (next rateWindowMs limit log now).length := by
    rw [hkept]
    exact Nat.le_of_not_lt (of_decide_eq_false hadmits)
  have hbound : (next rateWindowMs limit log now).length ≤ limit :=
    SlidingWindow.next_length hlength
  cases hnext : next rateWindowMs limit log now with
  | nil =>
      rw [hnext, List.length_nil] at hfull
      omega
  | cons oldest rest =>
      -- The oldest entry has expired when the attempt is repeated.
      have hcovers := hfirst.covers hrefused oldest (by rw [hnext]; rfl) wait hwait
      have hshorter := SlidingWindow.live_shorter
        (show oldest ∈ next rateWindowMs limit log now by rw [hnext]; exact List.mem_cons_self ..)
        (show oldest + rateWindowMs ≤ later by omega)
      rw [hagain.allowed]
      exact decide_eq_true (Nat.lt_of_lt_of_le hshorter hbound)

/-- **Attempts that follow the exact log have an exact window.** -/
theorem FollowsAll.exactWindow {limit : ℕ} {attempts : List (ℕ × RateAnswer)}
    (h : FollowsAll limit [] attempts) (hlimit : 1 ≤ limit)
    (hsorted : (attempts.map Prod.fst).Pairwise (· ≤ ·)) : ExactWindow limit attempts := by
  have hall : (0 :: attempts.map Prod.fst).Pairwise (· ≤ ·) :=
    List.pairwise_cons.mpr ⟨fun m _ => Nat.zero_le m, hsorted⟩
  have hrun := h.verdicts
  refine ⟨?_, ?_, ?_⟩
  · intro t
    rw [admitted, hrun]
    exact SlidingWindow.run_bounded (SlidingWindow.tracks_nil 0) hall t
  · intro before after now answer hsplit hrefused
    have hsame : SlidingWindow.run rateWindowMs limit [] (attempts.map Prod.fst) =
        Usage.verdicts before ++ (now, false) :: Usage.verdicts after := by
      rw [← hrun, hsplit, Usage.verdicts, List.map_append, List.map_cons, hrefused]
      rfl
    exact SlidingWindow.run_refused (SlidingWindow.tracks_nil 0) hall hsame
  · intro before after now later answer again hsplit hrefused hwaited
    obtain ⟨wait, hwait, hlater⟩ := hwaited
    rw [hsplit] at h
    obtain ⟨log, hfollows, hlength⟩ := h.later (Nat.zero_le limit)
    exact hfollows.retried hlimit hlength hrefused hwait hlater

/-- The times of a run. -/
theorem attempts_times {σ : Type} (check : σ → ℕ → RateAnswer × σ) (s : σ)
    (times : List ℕ) : (attempts check s times).map Prod.fst = times := by
  induction times generalizing s with
  | nil => rfl
  | cons now times ih => rw [attempts, List.map_cons, ih]

/-- No key holds no entries. -/
theorem holds_missing : Holds RateKey.missing [] where
  scores := rfl
  expires := by
    intro m hm
    cases hm

/-- Redis keeps an exact window, whatever the edges. -/
theorem redis_exactWindow {limit : ℕ} {times : List ℕ} (h : Earlier [] times)
    (hlimit : 1 ≤ limit) : ExactWindow limit (redisAttempts limit times) := by
  apply (redis_followsAll holds_missing h).exactWindow hlimit
  rw [attempts_times]
  exact h.sorted

/-- The process keeps an exact window while it sees the edges. -/
theorem local_exactWindow {limit : ℕ} {times : List ℕ} (h : Earlier [] times)
    (hlimit : 1 ≤ limit) (hedges : EdgesExpired limit [] times) :
    ExactWindow limit (localAttempts limit times) := by
  apply (local_followsAll h hedges).exactWindow hlimit
  rw [attempts_times]
  exact h.sorted

/-- **The rate limit is an exact sliding window exactly while the doubles see the edges.** -/
theorem rate_exact (limit : ℕ) (times : List ℕ) (hlimit : 1 ≤ limit)
    (hsorted : times.Pairwise (· ≤ ·)) (hreadable : ∀ ms ∈ times, Readable ms) :
    RateExact limit times ↔ EdgesExpired limit [] times := by
  have hearlier : Earlier [] times := ⟨hsorted, hreadable⟩
  have hagree : told (redisAttempts limit times) = told (localAttempts limit times) ↔
      EdgesExpired limit [] times := agree_iff holds_missing hearlier
  refine ⟨fun h => hagree.mp h.agree, ?_⟩
  intro hedges
  exact ⟨hagree.mpr hedges, redis_exactWindow hearlier hlimit,
    local_exactWindow hearlier hlimit hedges⟩

/-- Two entries are met at the edge, and both are seen. -/
theorem rate_exact_edges : RateExact 2 [0, 1000, 30000, 60000, 60001, 61000] :=
  (rate_exact 2 [0, 1000, 30000, 60000, 60001, 61000] (by decide) (by decide)
    (by decide)).mpr (by decide +kernel)

/-- An entry at one millisecond is a minute old at 60 001, and the difference of the doubles
falls short of it: Redis admits the attempt, the process refuses it. -/
theorem edge_missed : ¬ ∀ (limit : ℕ) (times : List ℕ), 1 ≤ limit →
    times.Pairwise (· ≤ ·) → (∀ ms ∈ times, Readable ms) → RateExact limit times := by
  intro hexact
  have hagree := (hexact 1 [1, 60001] (by decide) (by decide) (by decide)).agree
  exact absurd hagree (by decide +kernel)

end Usage
