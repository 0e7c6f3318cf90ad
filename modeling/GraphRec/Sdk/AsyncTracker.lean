import GraphRec.Lib.Transition
import GraphRec.Sdk.Queue
import Mathlib.Data.List.Nodup

/-!
# The asynchronous event tracker

`AsyncEventTracker`: tasks that push events and flush, one of which may be the tracker's own, which
flushes in the background.  A step is what a task does between two awaits; at an await it may be
cancelled.

A batch that is being sent is in a variable of the flush and nowhere else.  A failure of the send
hands it over or puts it back, but `CancelledError` is not an `Exception`: the flush that is
cancelled then leaves without its batch.  `close` does this to its own background task.

* `Inv` — what every step keeps but the cancellation of a send;
* `async_accounts` — without one, each event is accounted for;
* `cancelled_send_loses` — with one, an event is nowhere.
-/

namespace Sdk.AsyncTracker

open Transition

abbrev TaskId := ℕ

/-- An event with its ticket, its place in the order of the pushes. -/
abbrev Entry (ε : Type) := ℕ × ε

/-- Where a task is. -/
inductive Phase (ε : Type)
  /-- Not in a flush; the background task sleeps. -/
  | idle
  /-- It awaits the flush lock. -/
  | acquiring
  /-- It holds the lock and awaits `create_batch`. -/
  | sending (batch : List (Entry ε))
  /-- It holds the lock and awaits the handler. -/
  | handling
  /-- In `close`, it awaits the background task that it cancelled. -/
  | closing (task : TaskId)
  /-- The background task is over. -/
  | ended

/-- The arguments of a tracker.  `onError` says whether there is a handler. -/
structure Settings where
  bound : Bound
  batchSize : ℕ
  onError : Bool

/-- The tracker and its tasks, and what became of the events. -/
structure State (ε : Type) (bound : Bound) where
  queue : Queue (Entry ε) bound
  lock : Option TaskId
  tasks : TaskId → Phase ε
  background : Option TaskId
  pushed : List (Entry ε)
  delivered : List (Entry ε)
  handed : List (Entry ε)
  dropped : List (Entry ε)

/-- The steps of a task. -/
inductive Action (ε : Type)
  /-- It pushes an event, and flushes if there are enough. -/
  | track (i : TaskId) (event : ε)
  /-- It flushes; the background task wakes up. -/
  | flush (i : TaskId)
  /-- It gets the lock. -/
  | acquire (i : TaskId)
  | succeed (i : TaskId)
  /-- The send raises an `Exception`; the handler, if there is one, may return a coroutine. -/
  | fail (i : TaskId) (coroutine : Bool)
  /-- The coroutine is done, or raised. -/
  | handled (i : TaskId)
  /-- A cancellation is delivered where it awaits. -/
  | cancel (i : TaskId)
  /-- The background task is started. -/
  | start (i : TaskId)
  /-- It calls `close`, which cancels the background task. -/
  | close (i : TaskId)
  /-- The task that it awaits is over, and it flushes. -/
  | closed (i : TaskId)
  deriving DecidableEq, Repr

variable {ε : Type}

namespace State

variable {bound : Bound} (s : State ε bound)

/-- A new tracker. -/
def init : State ε bound := ⟨.empty, none, fun _ => .idle, none, [], [], [], []⟩

/-- A task moves on. -/
def move (i : TaskId) (phase : Phase ε) : State ε bound :=
  { s with tasks := Function.update s.tasks i phase }

/-- Where a task goes from a flush. -/
def afterFlush (i : TaskId) : Phase ε := if s.background = some i then .ended else .idle

/-- Is there a background task that is not over? -/
def isRunning : Bool :=
  match s.background with
  | none => false
  | some j =>
    match s.tasks j with
    | .ended => false
    | _ => true

/-- A task leaves the flush and gives the lock back. -/
def leave (i : TaskId) (phase : Phase ε) : State ε bound :=
  { s.move i phase with lock := none }

end State

/-- The part of `_enqueue` before the flush. -/
def pushEvent {bound : Bound} (s : State ε bound) (event : ε) : State ε bound :=
  let entry := (s.pushed.length, event)
  { s with
    queue := s.queue.push entry
    pushed := s.pushed ++ [entry]
    dropped := s.dropped ++ (s.queue.items ++ [entry]).rdrop bound.size }

/-- The flush gets the lock: it takes the batch, if there is any. -/
def takeBatch {bound : Bound} (s : State ε bound) (i : TaskId) : State ε bound :=
  if s.queue.items = [] then s.move i .idle
  else { s.move i (.sending s.queue.items) with queue := s.queue.take, lock := some i }

/-- The send failed. -/
def failBatch (onError coroutine : Bool) {bound : Bound} (s : State ε bound) (i : TaskId)
    (batch : List (Entry ε)) : State ε bound :=
  if onError then
    if coroutine then { s.move i .handling with handed := s.handed ++ batch }
    else { s.leave i .idle with handed := s.handed ++ batch }
  else { s.leave i .idle with
    queue := s.queue.requeue batch
    dropped := s.dropped ++ (batch ++ s.queue.items).rdrop bound.size }

/-- One step. -/
def step (settings : Settings) (s : State ε settings.bound) :
    Action ε → Option (State ε settings.bound)
  | .track i event =>
    match s.tasks i with
    | .idle =>
      if s.background = some i then none
      else
        let s' := pushEvent s event
        some (if settings.batchSize ≤ s'.queue.items.length then s'.move i .acquiring else s')
    | _ => none
  | .flush i =>
    match s.tasks i with
    | .idle => some (s.move i .acquiring)
    | _ => none
  | .acquire i =>
    match s.tasks i, s.lock with
    | .acquiring, none => some (takeBatch s i)
    | _, _ => none
  | .succeed i =>
    match s.tasks i with
    | .sending batch => some { s.leave i .idle with delivered := s.delivered ++ batch }
    | _ => none
  | .fail i coroutine =>
    match s.tasks i with
    | .sending batch => some (failBatch settings.onError coroutine s i batch)
    | _ => none
  | .handled i =>
    match s.tasks i with
    | .handling => some (s.leave i .idle)
    | _ => none
  | .cancel i =>
    match s.tasks i with
    -- `except Exception` does not catch the cancellation: the batch is gone
    | .sending _ => some (s.leave i (s.afterFlush i))
    | .handling => some (s.leave i (s.afterFlush i))
    | .idle | .acquiring => some (s.move i (s.afterFlush i))
    -- `close` suppresses it
    | .closing _ => some s
    | .ended => none
  | .start i =>
    match s.tasks i with
    | .idle => some (if s.isRunning then s else { s with background := some i })
    | _ => none
  | .close i =>
    match s.tasks i, s.background with
    | .idle, none => some (s.move i .acquiring)
    | .idle, some j => if i = j then none else some (s.move i (.closing j))
    | _, _ => none
  | .closed i =>
    match s.tasks i with
    | .closing j =>
      match s.tasks j with
      | .ended => some { s.move i .acquiring with background := none }
      | _ => none
    | _ => none

/-- The tracker as a transition system. -/
def tracker (ε : Type) (settings : Settings) :
    System (State ε settings.bound) (Action ε) where
  init := .init
  step := step settings

/-! ## What a step keeps -/

/-- Does a task hold the lock? -/
def Phase.holdsLock : Phase ε → Bool
  | .sending _ | .handling => true
  | _ => false

/-- The batch that it sends. -/
def Phase.batch : Phase ε → List (Entry ε)
  | .sending batch => batch
  | _ => []

theorem Phase.batch_of_holdsLock {phase : Phase ε} (h : phase.holdsLock = false) :
    phase.batch = [] := by
  cases phase with
  | sending batch => cases h
  | _ => rfl

namespace State

variable {bound : Bound} (s : State ε bound)

/-- The batch that is being sent. -/
def inFlight : List (Entry ε) := s.lock.elim [] fun i => (s.tasks i).batch

@[simp] theorem move_tasks_self (i : TaskId) (phase : Phase ε) :
    (s.move i phase).tasks i = phase := Function.update_self _ _ _

theorem move_tasks_of_ne {i j : TaskId} (h : j ≠ i) (phase : Phase ε) :
    (s.move i phase).tasks j = s.tasks j := Function.update_of_ne h _ _

theorem afterFlush_holdsLock (i : TaskId) : (s.afterFlush i).holdsLock = false := by
  unfold afterFlush
  split
  all_goals rfl

end State

/-- What every step keeps but the cancellation of a send. -/
structure Inv {bound : Bound} (s : State ε bound) : Prop where
  tickets : s.pushed.map Prod.fst = List.range s.pushed.length
  account : s.pushed.Perm (s.delivered ++ s.handed ++ s.dropped ++ s.inFlight ++ s.queue.items)
  counted : s.queue.dropped = s.dropped.length
  locked : ∀ i, (s.tasks i).holdsLock = true → s.lock = some i

section Steps

variable {bound : Bound} {s : State ε bound} (h : Inv s) {i : TaskId} {phase : Phase ε}

include h

/-- The task that holds the lock is the only one. -/
theorem others_wait (hfrom : (s.tasks i).holdsLock = true) {j : TaskId} (hj : j ≠ i) :
    (s.tasks j).holdsLock = false := by
  rw [Bool.eq_false_iff]
  intro hother
  have hlock := (h.locked i hfrom).symm.trans (h.locked j hother)
  exact hj (Option.some.inj hlock).symm

/-- What the task that holds the lock sends is what is in flight. -/
theorem inFlight_eq (hfrom : (s.tasks i).holdsLock = true) : s.inFlight = (s.tasks i).batch := by
  rw [State.inFlight, h.locked i hfrom, Option.elim_some]

/-- A task that neither holds the lock nor gets it. -/
theorem inv_move (hfrom : (s.tasks i).holdsLock = false) (hto : phase.holdsLock = false) :
    Inv (s.move i phase) := by
  have hflight : (s.move i phase).inFlight = s.inFlight := by
    unfold State.inFlight
    change s.lock.elim [] (fun j => ((s.move i phase).tasks j).batch) = _
    cases s.lock with
    | none => rfl
    | some j =>
      rw [Option.elim_some, Option.elim_some]
      by_cases hj : j = i
      · rw [hj, s.move_tasks_self, Phase.batch_of_holdsLock hfrom, Phase.batch_of_holdsLock hto]
      · rw [s.move_tasks_of_ne hj]
  constructor
  · exact h.tickets
  · rw [hflight]
    exact h.account
  · exact h.counted
  · intro j hholds
    by_cases hj : j = i
    · rw [hj, s.move_tasks_self, hto] at hholds
      cases hholds
    · rw [s.move_tasks_of_ne hj] at hholds
      exact h.locked j hholds

theorem inv_push (event : ε) : Inv (pushEvent s event) := by
  constructor
  · simp only [pushEvent]
    rw [List.map_append, h.tickets, List.length_append, List.map_singleton, List.length_singleton,
      List.range_succ]
  · classical
    have hkept := Newest.rdrop_append_rtake bound.size
      (s.queue.items ++ [(s.pushed.length, event)])
    have hflight : (pushEvent s event).inFlight = s.inFlight := rfl
    rw [hflight]
    simp only [pushEvent]
    rw [Queue.push_items, List.perm_iff_count]
    intro e
    have hone := congrArg (List.count e) hkept
    have hold := List.perm_iff_count.mp h.account e
    simp only [List.count_append] at hone hold ⊢
    omega
  · simp only [pushEvent]
    rw [Queue.push_dropped, h.counted, List.length_append]
  · exact h.locked

/-- A flush gets the lock. -/
theorem inv_takeBatch (hfrom : (s.tasks i).holdsLock = false) (hlock : s.lock = none) :
    Inv (takeBatch s i) := by
  unfold takeBatch
  split
  next => exact inv_move h hfrom rfl
  next =>
    have hnone : s.inFlight = [] := by rw [State.inFlight, hlock, Option.elim_none]
    have haccount := h.account
    rw [hnone, List.append_nil] at haccount
    constructor
    · exact h.tickets
    · have hflight : State.inFlight { s.move i (.sending s.queue.items) with
          queue := s.queue.take, lock := some i } = s.queue.items := by
        unfold State.inFlight
        dsimp only
        rw [Option.elim_some, s.move_tasks_self]
        rfl
      rw [hflight]
      exact haccount.trans (by simp [Queue.take, State.move])
    · exact h.counted
    · intro j hholds
      by_cases hj : j = i
      · rw [hj]
      · dsimp only at hholds
        rw [s.move_tasks_of_ne hj] at hholds
        have hother := h.locked j hholds
        rw [hlock] at hother
        cases hother

/-- A batch that is not in flight any more is delivered, handed over, back or dropped. -/
theorem inv_settle (hfrom : (s.tasks i).holdsLock = true) {s' : State ε bound}
    (hpushed : s'.pushed = s.pushed) (htasks : s'.tasks = (s.move i phase).tasks)
    (hbatch : phase.batch = [])
    (hlock : s'.lock = none ∧ phase.holdsLock = false ∨ s'.lock = some i)
    (hcounted : s'.queue.dropped = s'.dropped.length)
    (hplaces : (s'.delivered ++ s'.handed ++ s'.dropped ++ s'.queue.items).Perm
      (s.delivered ++ s.handed ++ s.dropped ++ (s.tasks i).batch ++ s.queue.items)) : Inv s' := by
  have hflight : s'.inFlight = [] := by
    unfold State.inFlight
    rcases hlock with ⟨hnone, -⟩ | hsome
    · rw [hnone, Option.elim_none]
    · rw [hsome, Option.elim_some, htasks, s.move_tasks_self, hbatch]
  constructor
  · rw [hpushed]
    exact h.tickets
  · have haccount := h.account
    rw [inFlight_eq h hfrom] at haccount
    rw [hpushed, hflight, List.append_nil]
    exact haccount.trans hplaces.symm
  · exact hcounted
  · intro j hholds
    rw [htasks] at hholds
    by_cases hj : j = i
    · subst hj
      rw [s.move_tasks_self] at hholds
      rcases hlock with ⟨-, hfree⟩ | hsome
      · rw [hfree] at hholds
        cases hholds
      · exact hsome
    · rw [s.move_tasks_of_ne hj, others_wait h hfrom hj] at hholds
      cases hholds

/-- The send failed. -/
theorem inv_failBatch {batch : List (Entry ε)} (hphase : s.tasks i = .sending batch)
    (onError coroutine : Bool) : Inv (failBatch onError coroutine s i batch) := by
  have hfrom : (s.tasks i).holdsLock = true := by rw [hphase]; rfl
  have hhand : (s.delivered ++ (s.handed ++ batch) ++ s.dropped ++ s.queue.items).Perm
      (s.delivered ++ s.handed ++ s.dropped ++ (s.tasks i).batch ++ s.queue.items) := by
    classical
    rw [hphase, Phase.batch, List.perm_iff_count]
    intro e
    simp only [List.count_append]
    omega
  unfold failBatch
  split
  next =>
    split
    next => exact inv_settle h hfrom rfl rfl rfl (.inr (h.locked i hfrom)) h.counted hhand
    next => exact inv_settle h hfrom rfl rfl rfl (.inl ⟨rfl, rfl⟩) h.counted hhand
  next =>
    refine inv_settle h hfrom rfl rfl rfl (.inl ⟨rfl, rfl⟩) ?_ ?_
    · dsimp only
      rw [Queue.requeue_dropped, h.counted, List.length_append]
    · classical
      have hkept := Newest.rdrop_append_rtake bound.size (batch ++ s.queue.items)
      dsimp only [State.leave, State.move]
      rw [hphase, Phase.batch, Queue.requeue_items, List.perm_iff_count]
      intro e
      have hone := congrArg (List.count e) hkept
      simp only [List.count_append] at hone ⊢
      omega

/-- A flush is over with nothing in flight. -/
theorem inv_leave (hfrom : (s.tasks i).holdsLock = true) (hempty : (s.tasks i).batch = [])
    (hto : phase.holdsLock = false) : Inv (s.leave i phase) := by
  refine inv_settle h hfrom rfl rfl (Phase.batch_of_holdsLock hto) (.inl ⟨rfl, hto⟩) h.counted ?_
  rw [hempty, List.append_nil]
  exact .refl _

end Steps

/-! ## Runs -/

/-- Is a send cancelled? -/
def cancelsSend {bound : Bound} (s : State ε bound) : Action ε → Bool
  | .cancel i =>
    match s.tasks i with
    | .sending _ => true
    | _ => false
  | _ => false

/-- The event that a step pushes. -/
def Action.tracks : Action ε → Option ε
  | .track _ event => some event
  | _ => none

theorem inv_init {bound : Bound} : Inv (.init : State ε bound) := by
  constructor
  · rfl
  · exact .refl _
  · rfl
  · intro i hholds
    cases hholds

/-- What the push of a task that is not in a flush does. -/
theorem step_track {settings : Settings} {s s' : State ε settings.bound} {i : TaskId} {event : ε}
    (h : step settings s (.track i event) = some s') :
    s.tasks i = .idle ∧
      (s' = (pushEvent s event).move i .acquiring ∨ s' = pushEvent s event) := by
  simp only [step] at h
  split at h
  next hphase =>
    refine ⟨hphase, ?_⟩
    split at h
    next => cases h
    next =>
      split at h
      next => exact .inl (Option.some.inj h).symm
      next => exact .inr (Option.some.inj h).symm
  next => cases h

/-- **Every step keeps the invariant** but the cancellation of a send. -/
theorem inv_step {settings : Settings} {s s' : State ε settings.bound} {a : Action ε} (h : Inv s)
    (hok : cancelsSend s a = false) (hstep : step settings s a = some s') : Inv s' := by
  have hfree : ∀ {i : TaskId} {phase : Phase ε}, s.tasks i = phase → phase.holdsLock = false →
      (s.tasks i).holdsLock = false := by
    intro i phase hphase hnot
    rw [hphase, hnot]
  cases a with
  | track i event =>
    obtain ⟨hphase, rfl | rfl⟩ := step_track hstep
    · exact inv_move (inv_push h event) (hfree hphase rfl) rfl
    · exact inv_push h event
  | flush i =>
    simp only [step] at hstep
    split at hstep
    next hphase =>
      obtain rfl := Option.some.inj hstep
      exact inv_move h (hfree hphase rfl) rfl
    next => cases hstep
  | acquire i =>
    simp only [step] at hstep
    split at hstep
    next hphase hlock =>
      obtain rfl := Option.some.inj hstep
      exact inv_takeBatch h (hfree hphase rfl) hlock
    next => cases hstep
  | succeed i =>
    simp only [step] at hstep
    split at hstep
    next batch hphase =>
      obtain rfl := Option.some.inj hstep
      have hfrom : (s.tasks i).holdsLock = true := by rw [hphase]; rfl
      refine inv_settle h hfrom rfl rfl rfl (.inl ⟨rfl, rfl⟩) h.counted ?_
      classical
      dsimp only [State.leave, State.move]
      rw [hphase, Phase.batch, List.perm_iff_count]
      intro e
      simp only [List.count_append]
      omega
    next => cases hstep
  | fail i coroutine =>
    simp only [step] at hstep
    split at hstep
    next batch hphase =>
      obtain rfl := Option.some.inj hstep
      exact inv_failBatch h hphase settings.onError coroutine
    next => cases hstep
  | handled i =>
    simp only [step] at hstep
    split at hstep
    next hphase =>
      obtain rfl := Option.some.inj hstep
      exact inv_leave h (by rw [hphase]; rfl) (by rw [hphase]; rfl) rfl
    next => cases hstep
  | cancel i =>
    simp only [step] at hstep
    cases hphase : s.tasks i with
    | sending batch =>
      rw [cancelsSend, hphase] at hok
      cases hok
    | handling =>
      rw [hphase] at hstep
      obtain rfl := Option.some.inj hstep
      exact inv_leave h (by rw [hphase]; rfl) (by rw [hphase]; rfl) (s.afterFlush_holdsLock i)
    | idle =>
      rw [hphase] at hstep
      obtain rfl := Option.some.inj hstep
      exact inv_move h (hfree hphase rfl) (s.afterFlush_holdsLock i)
    | acquiring =>
      rw [hphase] at hstep
      obtain rfl := Option.some.inj hstep
      exact inv_move h (hfree hphase rfl) (s.afterFlush_holdsLock i)
    | closing j =>
      rw [hphase] at hstep
      obtain rfl := Option.some.inj hstep
      exact h
    | ended =>
      rw [hphase] at hstep
      cases hstep
  | start i =>
    simp only [step] at hstep
    split at hstep
    next =>
      obtain rfl := Option.some.inj hstep
      split
      next => exact h
      next => exact ⟨h.tickets, h.account, h.counted, h.locked⟩
    next => cases hstep
  | close i =>
    simp only [step] at hstep
    split at hstep
    next hphase _ =>
      obtain rfl := Option.some.inj hstep
      exact inv_move h (hfree hphase rfl) rfl
    next j hphase _ =>
      split at hstep
      next => cases hstep
      next =>
        obtain rfl := Option.some.inj hstep
        exact inv_move h (hfree hphase rfl) rfl
    next => cases hstep
  | closed i =>
    simp only [step] at hstep
    split at hstep
    next j hphase =>
      split at hstep
      next =>
        obtain rfl := Option.some.inj hstep
        have hmoved : Inv (s.move i .acquiring) := inv_move h (hfree hphase rfl) rfl
        exact ⟨hmoved.tickets, hmoved.account, hmoved.counted, hmoved.locked⟩
      next => cases hstep
    next => cases hstep

theorem takeBatch_pushed {bound : Bound} (s : State ε bound) (i : TaskId) :
    (takeBatch s i).pushed = s.pushed := by
  unfold takeBatch
  split
  all_goals rfl

theorem failBatch_pushed (onError coroutine : Bool) {bound : Bound} (s : State ε bound)
    (i : TaskId) (batch : List (Entry ε)) :
    (failBatch onError coroutine s i batch).pushed = s.pushed := by
  unfold failBatch
  split
  next =>
    split
    all_goals rfl
  next => rfl

/-- Only a step that tracks an event pushes one. -/
theorem step_pushed {settings : Settings} {s s' : State ε settings.bound} {a : Action ε}
    (h : step settings s a = some s') :
    s'.pushed.map Prod.snd = s.pushed.map Prod.snd ++ a.tracks.toList := by
  cases a with
  | track i event =>
    have hpush : (pushEvent s event).pushed.map Prod.snd = s.pushed.map Prod.snd ++ [event] :=
      List.map_append
    obtain ⟨-, rfl | rfl⟩ := step_track h
    · exact hpush
    · exact hpush
  | _ =>
    have hsame : s'.pushed = s.pushed := by
      simp only [step] at h
      repeat' split at h
      all_goals cases h
      all_goals first
        | rfl
        | exact takeBatch_pushed s _
        | exact failBatch_pushed _ _ s _ _
    rw [hsame]
    exact (List.append_nil _).symm

/-- The pushed events are those of the steps, in their order. -/
theorem pushed_of_run {settings : Settings} {s s' : State ε settings.bound}
    {ok : State ε settings.bound → Action ε → Prop} {as : List (Action ε)}
    (h : Run (tracker ε settings) ok s as s') :
    s'.pushed.map Prod.snd = s.pushed.map Prod.snd ++ as.filterMap Action.tracks := by
  induction h with
  | nil => exact (List.append_nil _).symm
  | @cons s s' t a as _ hstep _ ih =>
    rw [ih, step_pushed hstep, List.append_assoc, List.filterMap_cons]
    cases a.tracks with
    | none => rfl
    | some event => rfl

namespace State

variable {bound : Bound} (s : State ε bound)

/-- No batch is being sent. -/
def Quiescent : Prop := ∀ i batch, s.tasks i ≠ .sending batch

/-- Each event is in one place: delivered, pending, dropped and counted, or handed to the handler,
unless some batch is being sent. -/
def Accounted : Prop :=
  s.Quiescent → (s.pushed.map Prod.fst).Nodup ∧
    s.pushed.Perm (s.delivered ++ s.queue.items ++ s.dropped ++ s.handed) ∧
    s.queue.dropped = s.dropped.length

end State

theorem Inv.accounted {bound : Bound} {s : State ε bound} (h : Inv s) : s.Accounted := by
  intro hquiescent
  have hflight : s.inFlight = [] := by
    unfold State.inFlight
    cases hlock : s.lock with
    | none => rfl
    | some i =>
      rw [Option.elim_some]
      cases hphase : s.tasks i with
      | sending batch => exact absurd hphase (hquiescent i batch)
      | _ => rfl
  refine ⟨?_, ?_, h.counted⟩
  · rw [h.tickets]
    exact List.nodup_range
  · classical
    rw [List.perm_iff_count]
    intro e
    have haccount := List.perm_iff_count.mp h.account e
    rw [hflight] at haccount
    simp only [List.count_append, List.count_nil] at haccount ⊢
    omega

/-- **No event is lost** in a run in which no send is cancelled. -/
theorem async_accounts {settings : Settings} {as : List (Action ε)} {s : State ε settings.bound}
    (h : Run (tracker ε settings) (fun s a => cancelsSend s a = false) .init as s) :
    s.pushed.map Prod.snd = as.filterMap Action.tracks ∧ s.Accounted := by
  have hinv : Inv s := h.invariant (fun _ _ _ hs hok hstep => inv_step hs hok hstep) inv_init
  exact ⟨pushed_of_run h, hinv.accounted⟩

/-- A tracker with room for two events and no handler. -/
def twoEvents : Settings := ⟨⟨2, Nat.le_succ 1⟩, 5, false⟩

/-- A background task whose flush fails and is put back, `close`, and the flush of `close`. -/
def closingRun : List (Action String) :=
  [.start 0, .track 1 "a", .flush 0, .acquire 0, .track 1 "b", .fail 0 false, .close 1, .cancel 0,
    .closed 1, .acquire 1, .succeed 1]

/-- In that run each event is accounted for. -/
theorem async_accounts_closing :
    ∃ s : State String twoEvents.bound,
      Run (tracker String twoEvents) (fun s a => cancelsSend s a = false) .init closingRun s ∧
        s.pushed.map Prod.snd = ["a", "b"] ∧ s.Accounted := by
  obtain ⟨s, hrun⟩ : ∃ s : State String twoEvents.bound,
      Run (tracker String twoEvents) (fun s a => cancelsSend s a = false) .init closingRun s := by
    obtain ⟨s, hs⟩ := Option.isSome_iff_exists.mp (show (execWhile (tracker String twoEvents)
      (fun s a => !cancelsSend s a) .init closingRun).isSome = true by decide)
    refine ⟨s, (run_of_execWhile hs).weaken ?_⟩
    intro s a hok
    simpa using hok
  obtain ⟨hpushed, haccounted⟩ := async_accounts hrun
  exact ⟨s, hrun, hpushed, haccounted⟩

/-- The background task is cancelled by `close` while it sends: the event is nowhere. -/
theorem cancelled_send_loses :
    ¬ ∀ (as : List (Action String)) (s : State String twoEvents.bound),
      Run (tracker String twoEvents) anyStep .init as s → s.Accounted := by
  intro h
  have hrun : Run (tracker String twoEvents) anyStep .init
      [.start 0, .track 1 "a", .flush 0, .acquire 0, .close 1, .cancel 0] _ := run_of_exec rfl
  obtain ⟨-, hplaces, -⟩ := h _ _ hrun (by
    intro i batch hphase
    match i with
    | 0 =>
      have hended : Phase.ended = Phase.sending batch := hphase
      cases hended
    | 1 =>
      have hclosing : Phase.closing 0 = Phase.sending batch := hphase
      cases hclosing
    | _ + 2 =>
      have hidle : Phase.idle = Phase.sending batch := hphase
      cases hidle)
  have hlength := hplaces.length_eq
  revert hlength
  decide

end Sdk.AsyncTracker
