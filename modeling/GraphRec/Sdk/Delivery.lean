import GraphRec.Ingestion.ExactlyOnce
import GraphRec.Lib.Fallible
import GraphRec.Sdk.Bulk
import GraphRec.Sdk.Tracker

/-!
# Events from a tracker to the store

`EventTracker` without a handler, the requests of its flushes, and the server that carries them
out among any other requests of the tenant.  A request may be sent again, its answer may be lost,
and a flush may end while the server still works on what it sent: the batch is then back in the
queue, and what was stored of it is sent a second time.

* `Inv` — what every step keeps;
* `answered_settled` — what an answer says of an event;
* `addedRow_genuine` — what a request of the tracker adds;
* `delivered_exactly_once` — no event is lost but those that are counted as dropped, and none is
  stored twice.
-/

namespace Sdk.Delivery

open Ingestion (BatchResponse Config Constraint EventBatchSubmit EventSubmit LogEntry Op
  SerialHistory Start Store SystemState Time)
open Transition
open Tracker (Entry)

/-- A tracker's client, and its server. -/
structure Setting (ε : Type) where
  bound : Bound
  limits : Limits
  /-- What is sent for an event, and what the server reads from it. -/
  wire : ε → Json
  validate : ε → Option EventSubmit
  /-- What is supplied besides the ids of the events. -/
  otherValues : List EventSubmit → String
  cfg : Config
  first : Start

/-- `create_batch`: the chunks that are not answered, the requests for the first of them, and the
answers. -/
structure Sending (ε : Type) where
  chunks : List (List (Entry ε))
  asked : List (ℕ × EventBatchSubmit)
  batches : List BatchResponse

/-- The tracker, the server and the call in between; all requests that were sent, and the answers
that the flushes returned. -/
structure State (ε : Type) (bound : Bound) where
  tracker : Tracker.State ε bound
  server : SystemState
  sending : Option (Sending ε)
  sent : List (ℕ × EventBatchSubmit)
  returned : List BatchResponse

/-- The steps. -/
inductive Action (ε : Type)
  | push (event : ε)
  /-- A flush begins. -/
  | take
  /-- The first of the chunks is sent, for the first time or again; `i` carries it out. -/
  | send (i : Transactions.ThreadId) (id : ℕ)
  /-- The server goes on, with this request or another. -/
  | serve (a : Transactions.Action Op)
  /-- An answer arrives. -/
  | answer (k : ℕ)
  /-- The flush returns, or raises. -/
  | succeed
  | fail

variable {ε : Type} (setting : Setting ε)

/-- The chunks of a batch, none if they cannot be planned. -/
def Setting.plan (batch : List (Entry ε)) : Option (List (List (Entry ε))) :=
  (planItems .events setting.limits (setting.wire ∘ Prod.snd) batch).toOption

/-- The request of a chunk, as the server reads it; none if it does not validate. -/
def Setting.request (chunk : List (Entry ε)) : Option EventBatchSubmit :=
  (chunk.mapM fun entry => setting.validate entry.2).map fun events =>
    ⟨none, events, setting.otherValues events, Ingestion.noRequestId⟩

/-- A chunk is sent. -/
def send (s : State ε setting.bound) (sending : Sending ε) (i : Transactions.ThreadId) (id : ℕ) :
    Option (State ε setting.bound) := do
  let chunk ← sending.chunks.head?
  let request ← setting.request chunk
  let server ← Transactions.step (Ingestion.program setting.cfg) s.server
    (.start i (.submitBatch id request))
  return { s with
    server := server
    sending := some { sending with asked := (id, request) :: sending.asked }
    sent := (id, request) :: s.sent }

/-- The answer to a request for the first of the chunks. -/
def readAnswer (sending : Sending ε) (entry : LogEntry) : Option BatchResponse :=
  match entry.op, entry.result with
  | .submitBatch id request, .ok (.batch response) =>
      if (id, request) ∈ sending.asked then some response else none
  | _, _ => none

/-- An answer arrives. -/
def answer (s : State ε setting.bound) (sending : Sending ε) (k : ℕ) :
    Option (State ε setting.bound) := do
  let entry ← s.server.log[k]?
  let response ← readAnswer sending entry
  return { s with
    sending := some ⟨sending.chunks.tail, [], sending.batches ++ [response]⟩ }

/-- One step. -/
def step (s : State ε setting.bound) : Action ε → Option (State ε setting.bound)
  | .push event =>
      (Tracker.step false s.tracker (.push event)).map fun tracker => { s with tracker := tracker }
  | .take =>
      (Tracker.step false s.tracker .take).map fun tracker => { s with
        tracker := tracker
        sending := (tracker.flight.bind setting.plan).map fun chunks => ⟨chunks, [], []⟩ }
  | .send i id => s.sending.bind fun sending => send setting s sending i id
  | .serve a =>
      (Transactions.step (Ingestion.program setting.cfg) s.server a).map fun server =>
        { s with server := server }
  | .answer k => s.sending.bind fun sending => answer setting s sending k
  | .succeed => s.sending.bind fun sending =>
      if sending.chunks = [] then
        (Tracker.step false s.tracker .succeed).map fun tracker => { s with
          tracker := tracker
          sending := none
          returned := s.returned ++ sending.batches }
      else none
  | .fail =>
      (Tracker.step false s.tracker .fail).map fun tracker =>
        { s with tracker := tracker, sending := none }

/-- The tracker and its server. -/
def system : System (State ε setting.bound) (Action ε) where
  init := ⟨.init, (Ingestion.tenant setting.cfg setting.first).init, none, [], []⟩
  step := step setting

/-! ## Answers -/

/-- A request with the event, without a request id, was answered so. -/
def Answered (log : List LogEntry) (event : EventSubmit) (response : BatchResponse) : Prop :=
  ∃ entry ∈ log, ∃ id request, entry.op = .submitBatch id request ∧ request.requestId = none ∧
    event ∈ request.events ∧ entry.result = .ok (.batch response)

/-- One of the answers is to a request with the event. -/
def Received (log : List LogEntry) (batches : List BatchResponse) (e : ε) : Prop :=
  ∃ event, setting.validate e = some event ∧ ∃ response ∈ batches, Answered log event response

variable {setting}

/-- What was received stays so. -/
theorem Received.mono {log log' : List LogEntry} {batches batches' : List BatchResponse} {e : ε}
    (h : Received setting log batches e) (hlog : log <+: log')
    (hbatches : ∀ response ∈ batches, response ∈ batches') : Received setting log' batches' e := by
  obtain ⟨event, hvalid, response, hresponse, entry, hentry, hrest⟩ := h
  exact ⟨event, hvalid, response, hbatches response hresponse, entry, hlog.subset hentry, hrest⟩

/-- The events of a request are those of its chunk. -/
theorem request_events {chunk : List (Entry ε)} {request : EventBatchSubmit}
    (h : setting.request chunk = some request) : request.requestId = none ∧
      (∀ entry ∈ chunk, ∃ event ∈ request.events, setting.validate entry.2 = some event) ∧
      ∀ event ∈ request.events, ∃ entry ∈ chunk, setting.validate entry.2 = some event := by
  obtain ⟨events, hevents, rfl⟩ := Option.map_eq_some_iff.mp h
  have hpairs := Fallible.forall₂_of_mapM_eq_some hevents
  refine ⟨rfl, ?_, ?_⟩
  · intro entry hentry
    obtain ⟨i, hi, rfl⟩ := List.getElem_of_mem hentry
    have hlength : i < events.length := hpairs.length_eq ▸ hi
    exact ⟨events[i], List.getElem_mem hlength, hpairs.get hi hlength⟩
  · intro event hevent
    obtain ⟨i, hi, rfl⟩ := List.getElem_of_mem hevent
    have hlength : i < chunk.length := hpairs.length_eq.symm ▸ hi
    exact ⟨chunk[i], List.getElem_mem hlength, hpairs.get hlength hi⟩

/-- What an answer is to. -/
theorem readAnswer_eq {sending : Sending ε} {entry : LogEntry} {response : BatchResponse}
    (h : readAnswer sending entry = some response) : ∃ id request,
      entry.op = .submitBatch id request ∧ entry.result = .ok (.batch response) ∧
      (id, request) ∈ sending.asked := by
  unfold readAnswer at h
  split at h
  next id request response' hop hresult =>
    split at h
    · next hasked =>
        obtain rfl := Option.some.inj h
        exact ⟨id, request, hop, hresult, hasked⟩
    · cases h
  next => cases h

/-! ## Steps -/

/-- What every step keeps. -/
structure Inv (s : State ε setting.bound) : Prop where
  tracker : Tracker.Inv s.tracker
  server : ∃ as, Run (Ingestion.tenant setting.cfg setting.first) anyStep
    (Ingestion.tenant setting.cfg setting.first).init as s.server
  handed : s.tracker.handed = []
  delivered : ∀ entry ∈ s.tracker.delivered,
    Received setting s.server.log s.returned entry.2
  /-- What is not to be sent any more was answered. -/
  sending : ∀ sending, s.sending = some sending → ∃ done,
    s.tracker.flight = some (done ++ sending.chunks.flatten) ∧
      ∀ entry ∈ done, Received setting s.server.log sending.batches entry.2
  asked : ∀ sending, s.sending = some sending → ∀ asked ∈ sending.asked,
    ∃ chunk, sending.chunks.head? = some chunk ∧ setting.request chunk = some asked.2
  sent : ∀ sent ∈ s.sent, sent.2.requestId = none ∧ ∀ event ∈ sent.2.events,
    ∃ entry ∈ s.tracker.pushed, setting.validate entry.2 = some event

variable {s s' : State ε setting.bound}

/-- A flush does not hand anything over, as there is no handler. -/
theorem tracker_step {t t' : Tracker.State ε setting.bound} {a : Tracker.Action ε}
    (h : Tracker.step false t a = some t') :
    t'.handed = t.handed ∧ t.pushed <+: t'.pushed ∧
      (a = .succeed ∨ t'.delivered = t.delivered) := by
  cases a with
  | push event =>
      obtain rfl := Option.some.inj h
      exact ⟨rfl, List.prefix_append _ _, .inr rfl⟩
  | take =>
      obtain ⟨-, rfl | rfl⟩ := Tracker.step_take h
      · exact ⟨rfl, List.prefix_refl _, .inr rfl⟩
      · exact ⟨rfl, List.prefix_refl _, .inr rfl⟩
  | succeed =>
      obtain ⟨batch, -, rfl⟩ := Option.map_eq_some_iff.mp h
      exact ⟨rfl, List.prefix_refl _, .inl rfl⟩
  | fail =>
      obtain ⟨batch, -, rfl⟩ := Option.map_eq_some_iff.mp h
      exact ⟨rfl, List.prefix_refl _, .inr rfl⟩

/-- The requests that were sent are of events that were pushed. -/
theorem Inv.sent_later (h : Inv s) {pushed : List (Entry ε)}
    (hpushed : s.tracker.pushed <+: pushed) :
    ∀ sent ∈ s.sent, sent.2.requestId = none ∧ ∀ event ∈ sent.2.events,
      ∃ entry ∈ pushed, setting.validate entry.2 = some event := by
  intro sent hsent
  obtain ⟨hnone, hevents⟩ := h.sent sent hsent
  refine ⟨hnone, ?_⟩
  intro event hevent
  obtain ⟨entry, hentry, hvalid⟩ := hevents event hevent
  exact ⟨entry, hpushed.subset hentry, hvalid⟩

/-- A push leaves the flush alone. -/
theorem inv_push {event : ε} (h : Inv s) (hstep : step setting s (.push event) = some s') :
    Inv s' := by
  rw [step] at hstep
  obtain ⟨tracker, htracker, rfl⟩ := Option.map_eq_some_iff.mp hstep
  obtain ⟨hhanded, hpushed, -⟩ := tracker_step htracker
  have hflight : tracker.flight = s.tracker.flight := by
    obtain rfl := Option.some.inj htracker
    rfl
  have hdelivered : tracker.delivered = s.tracker.delivered := by
    obtain rfl := Option.some.inj htracker
    rfl
  exact {
    tracker := Tracker.inv_step h.tracker htracker
    server := h.server
    handed := hhanded.trans h.handed
    delivered := by
      rw [hdelivered]
      exact h.delivered
    sending := by
      rw [hflight]
      exact h.sending
    asked := h.asked
    sent := h.sent_later hpushed }

/-- A flush plans its batch, and has no answers yet. -/
theorem inv_take (h : Inv s) (hstep : step setting s .take = some s') : Inv s' := by
  rw [step] at hstep
  obtain ⟨tracker, htracker, rfl⟩ := Option.map_eq_some_iff.mp hstep
  obtain ⟨hhanded, hpushed, hdelivered | hdelivered⟩ := tracker_step htracker
  · cases hdelivered
  exact {
    tracker := Tracker.inv_step h.tracker htracker
    server := h.server
    handed := hhanded.trans h.handed
    delivered := by
      rw [hdelivered]
      exact h.delivered
    sending := by
      intro sending hsending
      obtain ⟨chunks, hchunks, rfl⟩ := Option.map_eq_some_iff.mp hsending
      obtain ⟨batch, hbatch, hplan⟩ := Option.bind_eq_some_iff.mp hchunks
      have hflatten : chunks.flatten = batch := by
        unfold Setting.plan at hplan
        cases hitems : planItems .events setting.limits (setting.wire ∘ Prod.snd) batch with
        | error e =>
            rw [hitems] at hplan
            cases hplan
        | ok planned =>
            rw [hitems] at hplan
            obtain rfl := Option.some.inj hplan
            exact (chunkItems_map hitems).2
      refine ⟨[], ?_, ?_⟩
      · rw [List.nil_append, hflatten]
        exact hbatch
      · intro entry hentry
        cases hentry
    asked := by
      intro sending hsending asked hasked
      obtain ⟨chunks, -, rfl⟩ := Option.map_eq_some_iff.mp hsending
      cases hasked
    sent := h.sent_later hpushed }

/-- What the server does changes no answer. -/
theorem Inv.serve (h : Inv s) {a : Transactions.Action Op} {server : SystemState}
    (hserver : Transactions.step (Ingestion.program setting.cfg) s.server a = some server) :
    Inv ({ s with server := server } : State ε setting.bound) := by
  have hlog := Transactions.step_log hserver
  obtain ⟨as, hrun⟩ := h.server
  exact {
    tracker := h.tracker
    server := ⟨as ++ [a], hrun.append (.single trivial hserver)⟩
    handed := h.handed
    delivered := fun entry hentry => (h.delivered entry hentry).mono hlog fun _ hmem => hmem
    sending := by
      intro sending hsending
      obtain ⟨done, hflight, hdone⟩ := h.sending sending hsending
      exact ⟨done, hflight, fun entry hentry => (hdone entry hentry).mono hlog fun _ hmem => hmem⟩
    asked := h.asked
    sent := h.sent }

/-- A chunk is of the batch in flight, which was pushed. -/
theorem Inv.chunk_pushed (h : Inv s) {sending : Sending ε} (hsending : s.sending = some sending)
    {chunk : List (Entry ε)} (hchunk : chunk ∈ sending.chunks) {entry : Entry ε}
    (hentry : entry ∈ chunk) : entry ∈ s.tracker.pushed := by
  obtain ⟨done, hflight, -⟩ := h.sending sending hsending
  refine h.tracker.mem_pushed ?_
  have hbatch : entry ∈ s.tracker.batch := by
    rw [Tracker.State.batch, hflight, Option.getD_some]
    exact List.mem_append_right _ (List.mem_flatten.mpr ⟨chunk, hchunk, hentry⟩)
  simp only [List.mem_append]
  tauto

theorem inv_send {i : Transactions.ThreadId} {id : ℕ} (h : Inv s)
    (hstep : step setting s (.send i id) = some s') : Inv s' := by
  rw [step] at hstep
  obtain ⟨sending, hsending, hsend⟩ := Option.bind_eq_some_iff.mp hstep
  obtain ⟨chunk, hchunk, hsend⟩ := Option.bind_eq_some_iff.mp hsend
  obtain ⟨request, hrequest, hsend⟩ := Option.bind_eq_some_iff.mp hsend
  obtain ⟨server, hserver, hsend⟩ := Option.bind_eq_some_iff.mp hsend
  obtain rfl := Option.some.inj hsend
  have hserved := h.serve hserver
  obtain ⟨hnone, -, hevents⟩ := request_events hrequest
  refine { hserved with sending := ?_, asked := ?_, sent := ?_ }
  · intro sending' hsending'
    obtain rfl := Option.some.inj hsending'
    exact hserved.sending sending hsending
  · intro sending' hsending' asked hasked
    obtain rfl := Option.some.inj hsending'
    rcases List.mem_cons.mp hasked with rfl | hold
    · exact ⟨chunk, hchunk, hrequest⟩
    · exact h.asked sending hsending asked hold
  · intro sent hsent
    rcases List.mem_cons.mp hsent with rfl | hold
    · refine ⟨hnone, ?_⟩
      intro event hevent
      obtain ⟨entry, hentry, hvalid⟩ := hevents event hevent
      exact ⟨entry, h.chunk_pushed hsending (List.mem_of_head? hchunk) hentry, hvalid⟩
    · exact h.sent sent hold

/-- An answer is to the first of the chunks. -/
theorem inv_answer {k : ℕ} (h : Inv s) (hstep : step setting s (.answer k) = some s') :
    Inv s' := by
  rw [step] at hstep
  obtain ⟨sending, hsending, hanswer⟩ := Option.bind_eq_some_iff.mp hstep
  obtain ⟨entry, hentry, hanswer⟩ := Option.bind_eq_some_iff.mp hanswer
  obtain ⟨response, hresponse, hanswer⟩ := Option.bind_eq_some_iff.mp hanswer
  obtain rfl := Option.some.inj hanswer
  obtain ⟨id, request, hop, hresult, hasked⟩ := readAnswer_eq hresponse
  obtain ⟨chunk, hchunk, hrequest⟩ := h.asked sending hsending _ hasked
  obtain ⟨hnone, hevents, -⟩ := request_events hrequest
  obtain ⟨done, hflight, hdone⟩ := h.sending sending hsending
  have hlog := List.mem_of_getElem? hentry
  refine { h with sending := ?_, asked := ?_ }
  · intro sending' hsending'
    obtain rfl := Option.some.inj hsending'
    refine ⟨done ++ chunk, ?_, ?_⟩
    · have hchunks : sending.chunks = chunk :: sending.chunks.tail :=
        List.eq_cons_of_mem_head? hchunk
      rw [hflight, hchunks, List.flatten_cons, List.append_assoc, List.tail_cons]
    · intro e he
      rcases List.mem_append.mp he with hold | hnew
      · exact (hdone e hold).mono (List.prefix_refl _) fun _ hmem => List.mem_append_left _ hmem
      · obtain ⟨event, hevent, hvalid⟩ := hevents e hnew
        exact ⟨event, hvalid, response, List.mem_append_right _ (List.mem_singleton_self _),
          entry, hlog, id, request, hop, hnone, hevent, hresult⟩
  · intro sending' hsending' asked hasked'
    obtain rfl := Option.some.inj hsending'
    cases hasked'

/-- A flush that returns delivers what was answered. -/
theorem inv_succeed (h : Inv s) (hstep : step setting s .succeed = some s') : Inv s' := by
  rw [step] at hstep
  obtain ⟨sending, hsending, hsucceed⟩ := Option.bind_eq_some_iff.mp hstep
  split at hsucceed
  case isFalse => cases hsucceed
  case isTrue hchunks =>
    obtain ⟨tracker, htracker, rfl⟩ := Option.map_eq_some_iff.mp hsucceed
    obtain ⟨hhanded, hpushed, -⟩ := tracker_step htracker
    obtain ⟨done, hflight, hdone⟩ := h.sending sending hsending
    rw [hchunks, List.flatten_nil, List.append_nil] at hflight
    have hdelivered : tracker.delivered = s.tracker.delivered ++ done := by
      obtain ⟨batch, hbatch, rfl⟩ := Option.map_eq_some_iff.mp htracker
      obtain rfl := Option.some.inj (hflight.symm.trans hbatch)
      rfl
    exact {
      tracker := Tracker.inv_step h.tracker htracker
      server := h.server
      handed := hhanded.trans h.handed
      delivered := by
        intro entry hentry
        rw [hdelivered] at hentry
        rcases List.mem_append.mp hentry with hold | hnew
        · exact (h.delivered entry hold).mono (List.prefix_refl _)
            fun _ hmem => List.mem_append_left _ hmem
        · exact (hdone entry hnew).mono (List.prefix_refl _)
            fun _ hmem => List.mem_append_right _ hmem
      sending := fun _ hnone => nomatch hnone
      asked := fun _ hnone => nomatch hnone
      sent := h.sent_later hpushed }

/-- A flush that raises delivers nothing. -/
theorem inv_fail (h : Inv s) (hstep : step setting s .fail = some s') : Inv s' := by
  rw [step] at hstep
  obtain ⟨tracker, htracker, rfl⟩ := Option.map_eq_some_iff.mp hstep
  obtain ⟨hhanded, hpushed, hdelivered | hdelivered⟩ := tracker_step htracker
  · cases hdelivered
  exact {
    tracker := Tracker.inv_step h.tracker htracker
    server := h.server
    handed := hhanded.trans h.handed
    delivered := by
      rw [hdelivered]
      exact h.delivered
    sending := fun _ hnone => nomatch hnone
    asked := fun _ hnone => nomatch hnone
    sent := h.sent_later hpushed }

/-- **Every step keeps the invariant.** -/
theorem inv_step {a : Action ε} (h : Inv s) (hstep : step setting s a = some s') : Inv s' := by
  cases a with
  | push event => exact inv_push h hstep
  | take => exact inv_take h hstep
  | send i id => exact inv_send h hstep
  | serve a =>
      rw [step] at hstep
      obtain ⟨server, hserver, rfl⟩ := Option.map_eq_some_iff.mp hstep
      exact h.serve hserver
  | answer k => exact inv_answer h hstep
  | succeed => exact inv_succeed h hstep
  | fail => exact inv_fail h hstep

theorem inv_init : Inv (system setting).init where
  tracker := Tracker.inv_init
  server := ⟨[], .nil _⟩
  handed := rfl
  delivered := fun _ hentry => nomatch hentry
  sending := fun _ hnone => nomatch hnone
  asked := fun _ hnone => nomatch hnone
  sent := fun _ hsent => nomatch hsent

/-! ## What an answer says -/

section Server

variable {cfg : Config} {first : Start} {log : List LogEntry} {store : Store} {now : Time}

/-- The outcome of each event of a batch: its id was stored, is stored now, or is rejected. -/
theorem tally_each (known seen : List String) (now : Time) (events : List EventSubmit) :
    ∀ event ∈ events, event.eventId ∈ seen ∨
      event.eventId ∈ (Ingestion.tallyEvents known now seen events).newEvents.map Prod.fst ∨
      ⟨event.eventId, .rejected, some "unknown_product"⟩ ∈
        (Ingestion.tallyEvents known now seen events).outcomes := by
  fun_induction Ingestion.tallyEvents known now seen events with
  | case1 => simp
  | case2 seen p rest hseen t ih | case4 seen p rest hseen hknown t ih =>
      intro event hevent
      rcases List.mem_cons.mp hevent with rfl | hrest
      · simp [hseen]
      · rcases ih event hrest with hold | hnew | hrejected
        · exact .inl hold
        · exact .inr (.inl hnew)
        · exact .inr (.inr (List.mem_cons_of_mem _ hrejected))
  | case3 seen p rest hseen hknown t ih =>
      intro event hevent
      rcases List.mem_cons.mp hevent with rfl | hrest
      · exact .inr (.inl List.mem_cons_self)
      · rcases ih event hrest with hold | hnew | hrejected
        · rcases List.mem_cons.mp hold with hsame | hold
          · exact .inr (.inl (hsame ▸ List.mem_cons_self))
          · exact .inl hold
        · exact .inr (.inl (List.mem_cons_of_mem _ hnew))
        · exact .inr (.inr (List.mem_cons_of_mem _ hrejected))

/-- What a request leaves stored is stored at the end. -/
theorem stored_stays (h : SerialHistory cfg first log store now) :
    ∀ entry ∈ log, ∀ row ∈ entry.after.events.rows, row ∈ store.events.rows := by
  refine (Transactions.Serial.pairwise (R := fun _ _ => True)
    (K := fun entry s => ∀ row ∈ entry.after.events.rows, row ∈ s.events.rows) h ?_ ?_ ?_).2
  · exact fun _ _ _ _ hrow => hrow
  · intro entry op notes s t result s' _ hkept hgood row hrow
    obtain ⟨new, hgrow⟩ := Ingestion.opEnds_grow hgood
    rw [hgrow.rows]
    exact List.mem_append_left _ (hkept row hrow)
  · exact fun _ _ _ _ _ => trivial

/-- A batch that was carried out, without a request id. -/
theorem batch_settled {id : ℕ} {request : EventBatchSubmit} {notes : List Ingestion.Note}
    {before after : Store} {response : BatchResponse} (hnone : request.requestId = none)
    (h : Ingestion.SubmitBatchEnds cfg id request notes before now (.ok (.batch response)) after) :
    ∀ event ∈ request.events, event.eventId ∈ after.events.rows.map Prod.fst ∨
      ⟨event.eventId, .rejected, some "unknown_product"⟩ ∈ response.outcomes := by
  cases h with
  | replayed hid =>
      rw [hnone] at hid
      cases hid
  | @stored _ _ _ _ read known _ _ _ _ hwrite =>
      intro event hevent
      have hgrow := Ingestion.writeBatch_grows hwrite
      rw [hgrow.rows, List.map_append]
      rcases tally_each known (Ingestion.existingEventIds before request.events) read
        request.events event hevent with hold | hnew | hrejected
      · refine .inl (List.mem_append_left _ ?_)
        have hstored := (List.mem_filter.mp hold).2
        by_contra habsent
        rw [← Table.get?_eq_none_iff] at habsent
        simp [habsent] at hstored
      · exact .inl (List.mem_append_right _ hnew)
      · exact .inr hrejected

/-- **Answers.**  An event that was answered is stored, or rejected in the answer. -/
theorem answered_settled (h : SerialHistory cfg first log store now) {event : EventSubmit}
    {response : BatchResponse} (hanswered : Answered log event response) :
    store.events.get? event.eventId ≠ none ∨
      ⟨event.eventId, .rejected, some "unknown_product"⟩ ∈ response.outcomes := by
  obtain ⟨entry, hentry, id, request, hop, hnone, hevent, hresult⟩ := hanswered
  have hgood := (h.each hentry).2
  rw [hop, hresult] at hgood
  rcases batch_settled hnone hgood event hevent with hstored | hrejected
  · left
    rw [ne_eq, Table.get?_eq_none_iff, not_not]
    obtain ⟨row, hrow, hid⟩ := List.mem_map.mp hstored
    exact hid ▸ List.mem_map_of_mem (stored_stays h entry hentry row hrow)
  · exact .inr hrejected

/-- **What a batch adds** are events of its own. -/
theorem addedRow_genuine (h : SerialHistory cfg first log store now) {entry : LogEntry}
    (hentry : entry ∈ log) {id : ℕ} {request : EventBatchSubmit}
    (hop : entry.op = .submitBatch id request) :
    ∀ row ∈ Ingestion.newEvents entry, ∃ event ∈ request.events, ∃ time,
      row = (event.eventId, event.row time) := by
  have hgood := (h.each hentry).2
  rw [hop] at hgood
  obtain ⟨op, notes, time, before, result, after⟩ := entry
  intro row hrow
  simp only at hgood
  cases hgood with
  | replayed | conflict | refused | rejected =>
      rw [Ingestion.newEvents_of_same rfl] at hrow
      cases hrow
  | @stored _ _ _ _ read _ _ _ _ _ hwrite =>
      rw [(Ingestion.writeBatch_grows hwrite).newEvents] at hrow
      obtain ⟨event, hevent, hrow, -⟩ := Ingestion.tally_rows _ _ _ _ row hrow
      exact ⟨event, hevent, read, hrow⟩

end Server

/-! ## Runs -/

/-- The event that a step pushes. -/
def Action.pushes : Action ε → Option ε
  | .push event => some event
  | _ => none

/-- The pushed events are those of the steps, in their order. -/
theorem pushed_of_run {as : List (Action ε)} (h : Run (system setting) anyStep s as s') :
    s'.tracker.pushed.map Prod.snd =
      s.tracker.pushed.map Prod.snd ++ as.filterMap Action.pushes := by
  induction h with
  | nil => exact (List.append_nil _).symm
  | @cons s s' t a as _ hstep _ ih =>
    rw [ih]
    have hsame : ∀ {b : Tracker.Action ε} {tracker : Tracker.State ε setting.bound},
        Tracker.step false s.tracker b = some tracker → b.pushes = none →
        tracker.pushed = s.tracker.pushed := by
      intro b tracker hb hnone
      cases b with
      | push event => cases hnone
      | take =>
          obtain ⟨-, rfl | rfl⟩ := Tracker.step_take hb
          · rfl
          · rfl
      | succeed | fail =>
          obtain ⟨batch, -, rfl⟩ := Option.map_eq_some_iff.mp hb
          rfl
    change step setting s a = some s' at hstep
    cases a with
    | push event =>
        rw [step] at hstep
        obtain ⟨tracker, htracker, rfl⟩ := Option.map_eq_some_iff.mp hstep
        obtain rfl := Option.some.inj htracker
        rw [List.map_append, List.append_assoc]
        rfl
    | take | fail =>
        rw [step] at hstep
        obtain ⟨tracker, htracker, rfl⟩ := Option.map_eq_some_iff.mp hstep
        rw [hsame htracker rfl]
        rfl
    | send i id =>
        rw [step] at hstep
        obtain ⟨sending, -, hsend⟩ := Option.bind_eq_some_iff.mp hstep
        obtain ⟨chunk, -, hsend⟩ := Option.bind_eq_some_iff.mp hsend
        obtain ⟨request, -, hsend⟩ := Option.bind_eq_some_iff.mp hsend
        obtain ⟨server, -, hsend⟩ := Option.bind_eq_some_iff.mp hsend
        obtain rfl := Option.some.inj hsend
        rfl
    | serve a =>
        rw [step] at hstep
        obtain ⟨server, -, rfl⟩ := Option.map_eq_some_iff.mp hstep
        rfl
    | answer k =>
        rw [step] at hstep
        obtain ⟨sending, -, hanswer⟩ := Option.bind_eq_some_iff.mp hstep
        obtain ⟨entry, -, hanswer⟩ := Option.bind_eq_some_iff.mp hanswer
        obtain ⟨response, -, hanswer⟩ := Option.bind_eq_some_iff.mp hanswer
        obtain rfl := Option.some.inj hanswer
        rfl
    | succeed =>
        rw [step] at hstep
        obtain ⟨sending, -, hsucceed⟩ := Option.bind_eq_some_iff.mp hstep
        split at hsucceed
        · obtain ⟨tracker, htracker, rfl⟩ := Option.map_eq_some_iff.mp hsucceed
          rw [hsame htracker rfl]
          rfl
        · cases hsucceed

/-- A row that a request of somebody else added. -/
def AddedByOthers (s : State ε setting.bound) (row : String × Ingestion.CustomerEvent) : Prop :=
  ∃ entry ∈ s.server.log, row ∈ Ingestion.newEvents entry ∧
    ∀ sent ∈ s.sent, entry.op ≠ .submitBatch sent.1 sent.2

variable (setting) in
/-- A row of an event that was pushed. -/
def PushedRow (s : State ε setting.bound) (row : String × Ingestion.CustomerEvent) : Prop :=
  ∃ entry ∈ s.tracker.pushed, ∃ event time, setting.validate entry.2 = some event ∧
    row = (event.eventId, event.row time)

/-- What holds after a run that pushed these events. -/
structure DeliveredOnce (events : List ε) (s : State ε setting.bound) : Prop where
  pushed : s.tracker.pushed.map Prod.snd = events
  /-- An event is delivered, dropped, in flight or in the queue. -/
  account : s.tracker.pushed.Perm (s.tracker.delivered ++ s.tracker.dropped ++ s.tracker.batch ++
    s.tracker.queue.items)
  counted : s.tracker.queue.dropped = s.tracker.dropped.length
  /-- One that is delivered is stored, unless a flush has returned that it was rejected. -/
  delivered : ∀ entry ∈ s.tracker.delivered, ∃ event, setting.validate entry.2 = some event ∧
    (s.server.store.events.get? event.eventId ≠ none ∨ ∃ response ∈ s.returned,
      ⟨event.eventId, .rejected, some "unknown_product"⟩ ∈ response.outcomes)
  /-- However often it was sent, it is stored once, and booked once. -/
  unique : (s.server.store.events.rows.map Prod.fst).Nodup
  booked : s.server.store.total .acceptedEvents + setting.first.store.events.rows.length =
    setting.first.store.total .acceptedEvents + s.server.store.events.rows.length
  /-- Nothing else is stored. -/
  genuine : ∀ row ∈ s.server.store.events.rows,
    row ∈ setting.first.store.events.rows ∨ AddedByOthers s row ∨ PushedRow setting s row

/-- **Delivery.**  Whatever is interleaved with whatever else, and whatever fails or is sent
again. -/
theorem delivered_exactly_once {as : List (Action ε)}
    (h : Run (system setting) anyStep (system setting).init as s) :
    DeliveredOnce (as.filterMap Action.pushes) s := by
  have hinv : Inv s := h.invariant (fun _ _ _ hs _ hstep => inv_step hs hstep) inv_init
  obtain ⟨_, hrun⟩ := hinv.server
  obtain ⟨t, -, hserial⟩ := Ingestion.serializable setting.cfg hrun
  have hgrow := Ingestion.history_grows hserial
  have haccount := hinv.tracker.account
  rw [hinv.handed, List.append_nil] at haccount
  refine ⟨pushed_of_run h, haccount, hinv.tracker.counted, ?_, s.server.store.events.nodup, ?_, ?_⟩
  · intro entry hentry
    obtain ⟨event, hvalid, response, hresponse, hanswered⟩ := hinv.delivered entry hentry
    refine ⟨event, hvalid, ?_⟩
    rcases answered_settled hserial hanswered with hstored | hrejected
    · exact .inl hstored
    · exact .inr ⟨response, hresponse, hrejected⟩
  · rw [hgrow.booked, hgrow.rows, List.length_append]
    omega
  · intro row hrow
    rw [hgrow.rows] at hrow
    rcases List.mem_append.mp hrow with hold | hnew
    · exact .inl hold
    · obtain ⟨entry, hentry, hadded⟩ := List.mem_flatMap.mp hnew
      by_cases hours : ∃ sent ∈ s.sent, entry.op = .submitBatch sent.1 sent.2
      · obtain ⟨sent, hsent, hop⟩ := hours
        obtain ⟨event, hevent, time, rfl⟩ := addedRow_genuine hserial hentry hop row hadded
        obtain ⟨pushed, hpushed, hvalid⟩ := (hinv.sent sent hsent).2 event hevent
        exact .inr (.inr ⟨pushed, hpushed, event, time, hvalid, rfl⟩)
      · refine .inr (.inl ⟨entry, hentry, hadded, ?_⟩)
        exact fun sent hsent hop => hours ⟨sent, hsent, hop⟩

/-! ## A lost answer -/

/-- Two events in a request, and room for three in the queue. -/
def pairSetting : Setting EventSubmit where
  bound := ⟨3, Nat.succ_pos 2⟩
  limits := pairLimits
  wire := pairSession.wireEvent
  validate := some
  otherValues _ := "text"
  cfg := Ingestion.smallPlan 5 5 5
  first := Ingestion.oneProduct

/-- The next statements of a request. -/
def serves (i : Transactions.ThreadId) (n : ℕ) : List (Action EventSubmit) :=
  List.replicate n (.serve (.run i))

/-- The first flush gives up before the server is done, and the second sends the events again. -/
def lostAnswerRun : List (Action EventSubmit) :=
  [.push (Ingestion.someEvent "e" "lamp"), .push (Ingestion.someEvent "f" "desk"), .take,
      .send 0 7] ++ serves 0 1 ++ [.fail, .push (Ingestion.someEvent "g" "lamp")] ++ serves 0 8 ++
    [.take, .send 1 8] ++ serves 1 5 ++ [.answer 1, .send 1 9] ++ serves 1 9 ++
    [.answer 2, .succeed]

/-- In that run the events are delivered, and the one that was sent twice is stored once. -/
theorem delivered_exactly_once_lostAnswer :
    ∃ s, Run (system pairSetting) anyStep (system pairSetting).init lostAnswerRun s ∧
      s.server.store.events.rows.map Prod.fst = ["e", "g"] ∧ s.tracker.delivered.length = 3 ∧
      DeliveredOnce [Ingestion.someEvent "e" "lamp", Ingestion.someEvent "f" "desk",
        Ingestion.someEvent "g" "lamp"] s := by
  have hdone : (exec (system pairSetting) (system pairSetting).init lostAnswerRun).map
      (fun s => (s.server.store.events.rows.map Prod.fst, s.tracker.delivered.length)) =
        some (["e", "g"], 3) := by
    decide +kernel
  obtain ⟨s, hexec, hend⟩ := Option.map_eq_some_iff.mp hdone
  obtain ⟨hstored, hdelivered⟩ := Prod.mk.inj hend
  exact ⟨s, run_of_exec hexec, hstored, hdelivered, delivered_exactly_once (run_of_exec hexec)⟩

end Sdk.Delivery
