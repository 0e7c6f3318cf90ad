import GraphRec.Lib.Transition
import GraphRec.Sdk.Queue
import Mathlib.Data.List.Nodup
import Mathlib.Data.List.Perm.Basic

/-!
# The event tracker

`EventTracker`: threads push events while one of them, which holds the flush lock, sends the batch
it took.  A step is what happens under the lock of the queue; a flush is two of them, and anything
may come between.

An event is told from others by its ticket, its place in the order of the pushes.  What became of
the events is kept beside the queue, for what is proved; no step reads it.

* `Inv` — what every step keeps;
* `queue_conserves` — the queue holds the newest events of those that are left, and each event is
  accounted for;
* `queue_not_suffix` — a dropped event does not come back when there is room again.
-/

namespace Sdk.Tracker

open Transition

/-- An event with its ticket. -/
abbrev Entry (ε : Type) := ℕ × ε

/-- The tracker: the queue, the batch of the flush that runs, and what became of the events.
`earlier` are those that were dropped when the last batch was taken. -/
structure State (ε : Type) (bound : Bound) where
  queue : Queue (Entry ε) bound
  flight : Option (List (Entry ε))
  pushed : List (Entry ε)
  delivered : List (Entry ε)
  handed : List (Entry ε)
  dropped : List (Entry ε)
  earlier : List (Entry ε)

/-- The steps. -/
inductive Action (ε : Type)
  | push (event : ε)
  /-- A flush begins. -/
  | take
  /-- It ends: the batch was sent, or was not. -/
  | succeed
  | fail
  deriving DecidableEq, Repr

variable {ε : Type} {bound : Bound}

/-- A new tracker. -/
def State.init : State ε bound := ⟨.empty, none, [], [], [], [], []⟩

/-- One step.  `onError` says whether there is a handler. -/
def step (onError : Bool) (s : State ε bound) : Action ε → Option (State ε bound)
  | .push event =>
    let entry := (s.pushed.length, event)
    some { s with
      queue := s.queue.push entry
      pushed := s.pushed ++ [entry]
      dropped := s.dropped ++ (s.queue.items ++ [entry]).rdrop bound.size }
  | .take =>
    match s.flight with
    | some _ => none
    | none =>
      if s.queue.items = [] then some s
      else some { s with
        queue := s.queue.take
        flight := some s.queue.items
        earlier := s.dropped }
  | .succeed =>
    s.flight.map fun batch => { s with flight := none, delivered := s.delivered ++ batch }
  | .fail =>
    s.flight.map fun batch =>
      if onError then { s with flight := none, handed := s.handed ++ batch }
      else { s with
        queue := s.queue.requeue batch
        flight := none
        dropped := s.dropped ++ (batch ++ s.queue.items).rdrop bound.size }

/-- The tracker as a transition system. -/
def tracker (ε : Type) (bound : Bound) (onError : Bool) :
    System (State ε bound) (Action ε) where
  init := .init
  step := step onError

namespace State

variable (s : State ε bound)

/-- The batch in flight. -/
def batch : List (Entry ε) := s.flight.getD []

/-- Is the event neither delivered nor in flight, nor handed to the handler, nor was it dropped
before the last batch was taken? -/
def isLeft (e : Entry ε) : Bool :=
  decide (e.1 ∉ (s.delivered ++ s.batch ++ s.handed ++ s.earlier).map Prod.fst)

/-- These events, in the order in which they were pushed. -/
def left : List (Entry ε) := s.pushed.filter s.isLeft

end State

/-- What every step keeps. -/
structure Inv (s : State ε bound) : Prop where
  tickets : s.pushed.map Prod.fst = List.range s.pushed.length
  account : s.pushed.Perm (s.delivered ++ s.handed ++ s.dropped ++ s.batch ++ s.queue.items)
  counted : s.queue.dropped = s.dropped.length
  earlier : s.earlier <+: s.dropped
  ordered : (s.batch ++ s.left).Pairwise fun a b => a.1 < b.1
  content : s.queue.items = s.left.rtake bound.size

/-! ## Tickets -/

section Tickets

variable {s : State ε bound}

/-- A ticket is a place among the pushes. -/
theorem Inv.ticket_lt (h : Inv s) {e : Entry ε} (he : e ∈ s.pushed) : e.1 < s.pushed.length := by
  have hmem := List.mem_map_of_mem (f := Prod.fst) he
  rwa [h.tickets, List.mem_range] at hmem

/-- No two events have one ticket. -/
theorem Inv.pushed_nodup (h : Inv s) : (s.pushed.map Prod.fst).Nodup := by
  rw [h.tickets]
  exact List.nodup_range

/-- Events with one ticket are one. -/
theorem Inv.eq_of_ticket (h : Inv s) {a b : Entry ε} (ha : a ∈ s.pushed) (hb : b ∈ s.pushed)
    (heq : a.1 = b.1) : a = b :=
  List.inj_on_of_nodup_map h.pushed_nodup ha hb heq

/-- Where an event may be is among the pushes. -/
theorem Inv.mem_pushed (h : Inv s) {e : Entry ε}
    (he : e ∈ s.delivered ++ s.batch ++ s.handed ++ s.earlier) : e ∈ s.pushed := by
  rw [h.account.mem_iff]
  have hearlier : e ∈ s.earlier → e ∈ s.dropped := fun hmem => h.earlier.subset hmem
  simp only [List.mem_append] at he ⊢
  tauto

/-- An event is in one place only. -/
theorem Inv.places_nodup (h : Inv s) :
    ((s.delivered ++ s.handed ++ s.dropped ++ s.batch ++ s.queue.items).map Prod.fst).Nodup :=
  (h.account.map Prod.fst).nodup_iff.mp h.pushed_nodup

/-- What is in flight is nowhere else. -/
theorem Inv.not_both (h : Inv s) {e : Entry ε} (hbatch : e ∈ s.batch)
    (helse : e ∈ s.delivered ++ s.handed ++ s.earlier) : False := by
  have hnodup := h.places_nodup
  rw [List.map_append, List.nodup_append, List.map_append, List.nodup_append] at hnodup
  refine hnodup.1.2.2 e.1 ?_ e.1 (List.mem_map_of_mem hbatch) rfl
  have hearlier : e ∈ s.earlier → e ∈ s.dropped := fun hmem => h.earlier.subset hmem
  refine List.mem_map_of_mem ?_
  simp only [List.mem_append] at helse ⊢
  tauto

/-- The events that are left are in order. -/
theorem Inv.left_sorted (h : Inv s) : s.left.Pairwise fun a b => a.1 < b.1 :=
  (List.pairwise_append.mp h.ordered).2.1

end Tickets

/-! ## Steps -/

section Steps

variable {s : State ε bound} (h : Inv s)

include h

/-- A push puts its event after those that are left. -/
theorem left_push (event : ε) :
    (s.pushed ++ [(s.pushed.length, event)]).filter s.isLeft =
      s.left ++ [(s.pushed.length, event)] := by
  have hnew : s.isLeft (s.pushed.length, event) = true := by
    refine decide_eq_true ?_
    intro hmem
    obtain ⟨e, he, hticket⟩ := List.mem_map.mp hmem
    have hlt := h.ticket_lt (h.mem_pushed he)
    omega
  rw [List.filter_append, List.filter_singleton, hnew]
  rfl

theorem inv_push (event : ε) :
    Inv { s with
      queue := s.queue.push (s.pushed.length, event)
      pushed := s.pushed ++ [(s.pushed.length, event)]
      dropped := s.dropped ++
        (s.queue.items ++ [(s.pushed.length, event)]).rdrop bound.size } := by
  have hleft := left_push h event
  constructor
  · rw [List.map_append, h.tickets, List.length_append, List.map_singleton, List.length_singleton,
      List.range_succ]
  · classical
    have hkept := Newest.rdrop_append_rtake bound.size
      (s.queue.items ++ [(s.pushed.length, event)])
    have haccount := List.perm_iff_count.mp h.account
    dsimp only
    rw [Queue.push_items, List.perm_iff_count]
    intro e
    have hone := congrArg (List.count e) hkept
    have hold := haccount e
    simp only [State.batch, List.count_append] at hone hold ⊢
    omega
  · rw [Queue.push_dropped, h.counted, List.length_append]
  · exact h.earlier.trans (List.prefix_append _ _)
  · change (s.batch ++ List.filter s.isLeft _).Pairwise _
    rw [hleft, ← List.append_assoc, List.pairwise_append]
    refine ⟨h.ordered, List.pairwise_singleton _ _, ?_⟩
    intro a ha b hb
    obtain rfl := List.mem_singleton.mp hb
    refine h.ticket_lt ?_
    rcases List.mem_append.mp ha with hbatch | hmem
    · refine h.mem_pushed ?_
      simp only [List.mem_append]
      tauto
    · exact List.mem_of_mem_filter hmem
  · change _ = List.rtake (List.filter s.isLeft _) _
    rw [hleft, Queue.push_items, h.content]
    exact Newest.rtake_rtake_append _ _ _

/-- A flush takes all that is left. -/
theorem inv_take (hflight : s.flight = none) :
    Inv { s with
      queue := s.queue.take
      flight := some s.queue.items
      earlier := s.dropped } := by
  have hbatch : s.batch = [] := by rw [State.batch, hflight, Option.getD_none]
  have haccount := h.account
  rw [hbatch, List.append_nil] at haccount
  have hleft : State.left { s with
      queue := s.queue.take, flight := some s.queue.items, earlier := s.dropped } = [] := by
    refine List.filter_eq_nil_iff.mpr ?_
    intro e he
    have hplace := haccount.mem_iff.mp he
    rw [Bool.not_eq_true, State.isLeft, decide_eq_false_iff_not, not_not]
    refine List.mem_map_of_mem ?_
    simp only [State.batch, Option.getD_some, List.mem_append] at hplace ⊢
    tauto
  constructor
  · exact h.tickets
  · exact haccount.trans (by simp [State.batch, Queue.take])
  · exact h.counted
  · exact List.prefix_refl _
  · rw [hleft, List.append_nil]
    change s.queue.items.Pairwise _
    rw [h.content]
    exact h.left_sorted.sublist (List.drop_sublist _ _)
  · rw [hleft, List.rtake_nil]
    rfl

/-- A batch that is not in flight any more is delivered or handed over. -/
theorem inv_settle {s' : State ε bound} (hqueue : s'.queue = s.queue)
    (hpushed : s'.pushed = s.pushed) (hdropped : s'.dropped = s.dropped)
    (hearlier : s'.earlier = s.earlier) (hflight : s'.batch = [])
    (hplaces : (s'.delivered ++ s'.handed).Perm (s.delivered ++ s.handed ++ s.batch)) : Inv s' := by
  have hleft : s'.left = s.left := by
    rw [State.left, State.left, hpushed]
    refine List.filter_congr ?_
    intro e _
    refine decide_eq_decide.mpr (not_congr ?_)
    have hmem : ∀ f, f ∈ s'.delivered ++ s'.batch ++ s'.handed ++ s'.earlier ↔
        f ∈ s.delivered ++ s.batch ++ s.handed ++ s.earlier := by
      intro f
      have hplace := hplaces.mem_iff (a := f)
      rw [hflight, hearlier]
      simp only [List.mem_append, List.append_nil] at hplace ⊢
      tauto
    simp only [List.mem_map, hmem]
  constructor
  · rw [hpushed]
    exact h.tickets
  · classical
    rw [hpushed, hdropped, hqueue, hflight, List.perm_iff_count]
    intro e
    have haccount := List.perm_iff_count.mp h.account e
    have hplace := List.perm_iff_count.mp hplaces e
    simp only [List.count_append, List.count_nil] at haccount hplace ⊢
    omega
  · rw [hqueue, hdropped]
    exact h.counted
  · rw [hearlier, hdropped]
    exact h.earlier
  · rw [hflight, hleft]
    exact h.left_sorted
  · rw [hqueue, hleft]
    exact h.content

/-- A batch that comes back is again before the events that are left. -/
theorem left_requeue {s' : State ε bound} (hpushed : s'.pushed = s.pushed)
    (hdelivered : s'.delivered = s.delivered) (hhanded : s'.handed = s.handed)
    (hearlier : s'.earlier = s.earlier) (hflight : s'.batch = []) :
    s'.left = s.batch ++ s.left := by
  have hsorted : s'.left.Pairwise fun a b => a.1 < b.1 := by
    have hpairs : (s.pushed.map Prod.fst).Pairwise (· < ·) := by
      rw [h.tickets]
      exact List.pairwise_lt_range
    rw [State.left, hpushed]
    exact (List.pairwise_map.mp hpairs).filter _
  have hnodup' : ∀ {l : List (Entry ε)}, l.Pairwise (fun a b => a.1 < b.1) → l.Nodup := by
    intro l hl
    refine List.Pairwise.imp ?_ hl
    rintro a b hlt rfl
    exact Nat.lt_irrefl _ hlt
  have hperm : s'.left.Perm (s.batch ++ s.left) := by
    rw [List.perm_ext_iff_of_nodup (hnodup' hsorted) (hnodup' h.ordered)]
    intro e
    have hbatch : e ∈ s.batch → e ∈ s.pushed := fun hmem => h.mem_pushed (by simp [hmem])
    simp only [State.left, hpushed, List.mem_append, List.mem_filter]
    constructor
    · rintro ⟨he, hisLeft⟩
      by_cases hmem : e ∈ s.batch
      · exact .inl hmem
      · refine .inr ⟨he, decide_eq_true ?_⟩
        intro hticket
        have hout := of_decide_eq_true hisLeft
        rw [hdelivered, hhanded, hearlier, hflight, List.append_nil] at hout
        obtain ⟨f, hf, heq⟩ := List.mem_map.mp hticket
        obtain rfl := h.eq_of_ticket he (h.mem_pushed hf) heq.symm
        refine hout (List.mem_map_of_mem ?_)
        simp only [List.mem_append] at hf ⊢
        tauto
    · rintro (hmem | ⟨he, hisLeft⟩)
      · refine ⟨hbatch hmem, decide_eq_true ?_⟩
        intro hticket
        rw [hdelivered, hhanded, hearlier, hflight, List.append_nil] at hticket
        obtain ⟨f, hf, heq⟩ := List.mem_map.mp hticket
        have hpushed' : f ∈ s.pushed := h.mem_pushed (by
          simp only [List.mem_append] at hf ⊢
          tauto)
        obtain rfl := h.eq_of_ticket hpushed' (hbatch hmem) heq
        exact h.not_both hmem (by
          simp only [List.mem_append] at hf ⊢
          tauto)
      · refine ⟨he, decide_eq_true ?_⟩
        intro hticket
        rw [hdelivered, hhanded, hearlier, hflight, List.append_nil] at hticket
        refine of_decide_eq_true hisLeft ?_
        obtain ⟨f, hf, heq⟩ := List.mem_map.mp hticket
        refine List.mem_map.mpr ⟨f, ?_, heq⟩
        simp only [List.mem_append] at hf ⊢
        tauto
  refine hperm.eq_of_pairwise ?_ hsorted h.ordered
  intro a b _ _ hab hba
  omega

/-- A flush that fails without a handler. -/
theorem inv_requeue {batch : List (Entry ε)} (hflight : s.flight = some batch) :
    Inv { s with
      queue := s.queue.requeue batch
      flight := none
      dropped := s.dropped ++ (batch ++ s.queue.items).rdrop bound.size } := by
  have hbatch : s.batch = batch := by rw [State.batch, hflight, Option.getD_some]
  have hleft : State.left { s with
      queue := s.queue.requeue batch
      flight := none
      dropped := s.dropped ++ (batch ++ s.queue.items).rdrop bound.size } = s.batch ++ s.left :=
    left_requeue h rfl rfl rfl rfl rfl
  constructor
  · exact h.tickets
  · classical
    have hkept := Newest.rdrop_append_rtake bound.size (batch ++ s.queue.items)
    dsimp only
    rw [Queue.requeue_items, List.perm_iff_count]
    intro e
    have hone := congrArg (List.count e) hkept
    have hold := List.perm_iff_count.mp h.account e
    simp only [State.batch, hflight, Option.getD_some, Option.getD_none, List.count_append,
      List.count_nil] at hone hold ⊢
    omega
  · rw [Queue.requeue_dropped, h.counted, List.length_append]
  · exact h.earlier.trans (List.prefix_append _ _)
  · rw [hleft]
    exact h.ordered
  · rw [hleft, Queue.requeue_items, hbatch, h.content]
    exact Newest.rtake_append_rtake _ _ _

end Steps

/-! ## Runs -/

/-- The event that a step pushes. -/
def Action.pushes : Action ε → Option ε
  | .push event => some event
  | _ => none

theorem inv_init : Inv (.init : State ε bound) := by
  constructor
  · rfl
  · exact .refl _
  · rfl
  · exact List.prefix_refl _
  · exact List.Pairwise.nil
  · exact (List.rtake_nil _).symm

/-- What the begin of a flush does. -/
theorem step_take {onError : Bool} {s s' : State ε bound} (h : step onError s .take = some s') :
    s.flight = none ∧ (s' = s ∨ s' = { s with
      queue := s.queue.take
      flight := some s.queue.items
      earlier := s.dropped }) := by
  simp only [step] at h
  cases hflight : s.flight with
  | some batch =>
    rw [hflight] at h
    cases h
  | none =>
    rw [hflight] at h
    dsimp only at h
    by_cases hempty : s.queue.items = []
    · rw [if_pos hempty] at h
      exact ⟨rfl, .inl (Option.some.inj h).symm⟩
    · rw [if_neg hempty] at h
      exact ⟨rfl, .inr (Option.some.inj h).symm⟩

/-- **Every step keeps the invariant.** -/
theorem inv_step {onError : Bool} {s s' : State ε bound} {a : Action ε} (h : Inv s)
    (hstep : step onError s a = some s') : Inv s' := by
  cases a with
  | push event =>
    obtain rfl := Option.some.inj hstep
    exact inv_push h event
  | take =>
    obtain ⟨hflight, rfl | rfl⟩ := step_take hstep
    · exact h
    · exact inv_take h hflight
  | succeed =>
    obtain ⟨batch, hflight, rfl⟩ := Option.map_eq_some_iff.mp hstep
    refine inv_settle h rfl rfl rfl rfl rfl ?_
    classical
    rw [List.perm_iff_count]
    intro e
    simp only [State.batch, hflight, Option.getD_some, List.count_append]
    omega
  | fail =>
    obtain ⟨batch, hflight, rfl⟩ := Option.map_eq_some_iff.mp hstep
    split
    · refine inv_settle h rfl rfl rfl rfl rfl ?_
      rw [State.batch, hflight, Option.getD_some, List.append_assoc]
    · exact inv_requeue h hflight

/-- The pushed events are those of the steps, in their order. -/
theorem pushed_of_run {onError : Bool} {s s' : State ε bound} {as : List (Action ε)}
    (h : Run (tracker ε bound onError) anyStep s as s') :
    s'.pushed.map Prod.snd = s.pushed.map Prod.snd ++ as.filterMap Action.pushes := by
  induction h with
  | nil => exact (List.append_nil _).symm
  | @cons s s' t a as _ hstep _ ih =>
    rw [ih]
    cases a with
    | push event =>
      obtain rfl := Option.some.inj hstep
      rw [List.map_append, List.append_assoc]
      rfl
    | take =>
      obtain ⟨-, rfl | rfl⟩ := @step_take ε bound onError _ _ hstep
      · rfl
      · rfl
    | succeed =>
      obtain ⟨batch, -, rfl⟩ := Option.map_eq_some_iff.mp hstep
      rfl
    | fail =>
      obtain ⟨batch, -, rfl⟩ := Option.map_eq_some_iff.mp hstep
      split
      all_goals rfl

/-- **The queue conserves events.**  It is not longer than its bound; it holds the newest of the
events that are left, in the order of the pushes; and every event that was pushed is delivered,
pending, in flight, dropped or handed to the handler. -/
theorem queue_conserves {onError : Bool} {as : List (Action ε)} {s : State ε bound}
    (h : Run (tracker ε bound onError) anyStep .init as s) :
    s.queue.items.length ≤ bound.size ∧
      s.queue.items = s.left.rtake bound.size ∧
      s.pushed.map Prod.snd = as.filterMap Action.pushes ∧
      (as.filterMap Action.pushes).length =
        s.delivered.length + s.queue.items.length + s.batch.length + s.queue.dropped +
          s.handed.length := by
  have hinv : Inv s := h.invariant (fun _ _ _ hs _ hstep => inv_step hs hstep) inv_init
  have hpushed : s.pushed.map Prod.snd = as.filterMap Action.pushes := pushed_of_run h
  refine ⟨s.queue.length_le, hinv.content, hpushed, ?_⟩
  have hlength := hinv.account.length_eq
  have hcount := congrArg List.length hpushed
  rw [List.length_map] at hcount
  simp only [List.length_append] at hlength
  rw [← hcount, hlength, hinv.counted]
  omega

/-- Room for one event. -/
def oneEvent : Bound := ⟨1, Nat.le_refl 1⟩

/-- Two events, a flush that fails while another comes, and one that succeeds. -/
def busyRun : List (Action String) :=
  [.push "a", .push "b", .take, .push "c", .fail, .take, .push "d", .succeed]

/-- In that run the queue does as it should. -/
theorem queue_conserves_busy :
    ∃ s : State String oneEvent, Run (tracker String oneEvent false) anyStep .init busyRun s ∧
      s.queue.items = s.left.rtake 1 ∧
      4 = s.delivered.length + s.queue.items.length + s.batch.length + s.queue.dropped +
        s.handed.length := by
  have hrun : Run (tracker String oneEvent false) anyStep .init busyRun _ := run_of_exec rfl
  obtain ⟨-, hcontent, -, hlength⟩ := queue_conserves hrun
  exact ⟨_, hrun, hcontent, hlength⟩

/-- An event that was dropped is neither delivered nor in flight, and not in the queue although
there is room. -/
theorem queue_not_suffix :
    ¬ ∀ (onError : Bool) (as : List (Action String)) (s : State String oneEvent),
      Run (tracker String oneEvent onError) anyStep .init as s →
        s.queue.items = (s.pushed.filter fun e =>
          decide (e ∉ s.delivered ++ s.batch)).rtake oneEvent.size := by
  intro h
  have hrun : Run (tracker String oneEvent false) anyStep .init
      [.push "a", .push "b", .take, .succeed] _ := run_of_exec rfl
  have hempty := h false _ _ hrun
  revert hempty
  decide

end Sdk.Tracker
