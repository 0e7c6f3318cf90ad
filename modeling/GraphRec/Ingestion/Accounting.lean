import GraphRec.Ingestion.VersionOutcomes
import Mathlib.Data.List.Infix

/-!
# What the requests add

The loop over a batch counts each event once, and what it counts as accepted are the rows
that are new.  Whatever a request is, the events it adds follow those that are stored, and
the ledger of accepted events grows by as many.
-/

namespace Ingestion

open Transactions

/-! ## The tally of a batch -/

/-- How many outcomes have a status. -/
def countStatus (outcomes : List EventOutcome) (status : EventStatus) : ℕ :=
  outcomes.countP fun o => decide (o.status = status)

/-- The ids of the accepted outcomes. -/
def acceptedIds (outcomes : List EventOutcome) : List String :=
  (outcomes.filter fun o => decide (o.status = .accepted)).map EventOutcome.eventId

/-- A response reports its events: one outcome for each, in order, and the counts of the
outcomes. -/
structure Reports (events : List EventSubmit) (r : BatchResponse) : Prop where
  items : r.outcomes.map EventOutcome.eventId = events.map EventSubmit.eventId
  accepted : r.acceptedCount = countStatus r.outcomes .accepted
  duplicate : r.duplicateCount = countStatus r.outcomes .duplicate
  rejected : r.rejectedCount = countStatus r.outcomes .rejected
  total : r.acceptedCount + r.duplicateCount + r.rejectedCount = events.length

/-- A report is one of the events with the same ids, in order. -/
theorem Reports.of_ids {events events' : List EventSubmit} {r : BatchResponse}
    (h : Reports events r)
    (hids : events.map EventSubmit.eventId = events'.map EventSubmit.eventId) :
    Reports events' r where
  items := h.items.trans hids
  accepted := h.accepted
  duplicate := h.duplicate
  rejected := h.rejected
  total := by
    have hlength := congrArg List.length hids
    rw [List.length_map, List.length_map] at hlength
    rw [h.total, hlength]

section Tally

variable (known : List String) (now : Time) (seen : List String) (events : List EventSubmit)

/-- There is one outcome for each event. -/
theorem tally_items :
    (tallyEvents known now seen events).outcomes.map EventOutcome.eventId =
      events.map EventSubmit.eventId := by
  fun_induction tallyEvents known now seen events <;> simp_all +zetaDelta

/-- The counts are those of the outcomes. -/
theorem tally_counts :
    (tallyEvents known now seen events).accepted =
        countStatus (tallyEvents known now seen events).outcomes .accepted ∧
      (tallyEvents known now seen events).duplicates =
        countStatus (tallyEvents known now seen events).outcomes .duplicate ∧
      (tallyEvents known now seen events).rejected =
        countStatus (tallyEvents known now seen events).outcomes .rejected := by
  fun_induction tallyEvents known now seen events <;> simp_all +zetaDelta [countStatus]

/-- Each event is counted once. -/
theorem tally_total :
    (tallyEvents known now seen events).accepted +
        (tallyEvents known now seen events).duplicates +
        (tallyEvents known now seen events).rejected = events.length := by
  fun_induction tallyEvents known now seen events with
  | case1 => rfl
  | case2 seen p rest hseen t ih | case3 seen p rest hseen hknown t ih
  | case4 seen p rest hseen hknown t ih =>
      subst t
      simp only [List.length_cons]
      omega

/-- The rows to insert are those of the accepted outcomes. -/
theorem tally_newEvents :
    (tallyEvents known now seen events).newEvents.map Prod.fst =
        acceptedIds (tallyEvents known now seen events).outcomes ∧
      (tallyEvents known now seen events).newEvents.length =
        (tallyEvents known now seen events).accepted := by
  fun_induction tallyEvents known now seen events <;> simp_all +zetaDelta [acceptedIds]

/-- What is accepted: the ids that are new and come once with a product that is known. -/
theorem mem_tally_ids (id : String) :
    id ∈ (tallyEvents known now seen events).newEvents.map Prod.fst ↔
      id ∉ seen ∧ ∃ p ∈ events, p.eventId = id ∧ p.productKnown known = true := by
  fun_induction tallyEvents known now seen events with
  | case1 => simp
  | case2 seen p rest hseen t ih =>
      simp only [List.exists_mem_cons_iff]
      rw [ih]
      refine and_congr_right fun hnew => ?_
      rw [or_iff_right]
      rintro ⟨rfl, -⟩
      exact hnew hseen
  | case3 seen p rest hseen hknown t ih =>
      simp only [List.map_cons, List.mem_cons]
      rw [ih, List.mem_cons, not_or]
      by_cases hid : id = p.eventId
      · subst hid
        simp [hseen, hknown]
      · have hne : ¬ p.eventId = id := fun h => hid h.symm
        simp [hid, hne]
  | case4 seen p rest hseen hknown t ih =>
      simp only [List.exists_mem_cons_iff]
      rw [ih]
      refine and_congr_right fun _ => ?_
      rw [or_iff_right]
      rintro ⟨-, h⟩
      exact hknown h

/-- No id is accepted twice. -/
theorem tally_nodup : ((tallyEvents known now seen events).newEvents.map Prod.fst).Nodup := by
  fun_induction tallyEvents known now seen events with
  | case1 => exact List.nodup_nil
  | case2 seen p rest hseen t ih | case4 seen p rest hseen hknown t ih => exact ih
  | case3 seen p rest hseen hknown t ih =>
      rw [List.map_cons, List.nodup_cons, mem_tally_ids]
      refine ⟨?_, ih⟩
      rintro ⟨hnew, -⟩
      exact hnew List.mem_cons_self

/-- A row to insert is that of an event of the batch, whose user is registered with it. -/
theorem tally_rows :
    ∀ row ∈ (tallyEvents known now seen events).newEvents, ∃ p ∈ events,
      row = (p.eventId, p.row now) ∧
      ∀ user ∈ truthy p.userId, user ∈ (tallyEvents known now seen events).customers := by
  fun_induction tallyEvents known now seen events with
  | case1 =>
      intro row hrow
      cases hrow
  | case2 seen p rest hseen t ih | case4 seen p rest hseen hknown t ih =>
      intro row hrow
      obtain ⟨q, hq, hrest⟩ := ih row hrow
      exact ⟨q, List.mem_cons_of_mem _ hq, hrest⟩
  | case3 seen p rest hseen hknown t ih =>
      intro row hrow
      rcases List.mem_cons.mp hrow with rfl | hold
      · refine ⟨p, List.mem_cons_self, rfl, ?_⟩
        intro user huser
        exact List.mem_append_left _ (Option.mem_toList.mpr huser)
      · obtain ⟨q, hq, hrow', hcustomers⟩ := ih row hold
        exact ⟨q, List.mem_cons_of_mem _ hq, hrow',
          fun user huser => List.mem_append_right _ (hcustomers user huser)⟩

end Tally

/-- A batch that is carried out reports its events. -/
theorem row_reports (cfg : Config) (id : ℕ) (p : EventBatchSubmit) (s : Store)
    (known : List String) (now : Time) :
    Reports p.events (p.row cfg id s known now).response where
  items := tally_items known now _ p.events
  accepted := (tally_counts known now _ p.events).1
  duplicate := (tally_counts known now _ p.events).2.1
  rejected := (tally_counts known now _ p.events).2.2
  total := tally_total known now _ p.events

/-- What a batch is checked for is what it accepts. -/
theorem quantity_eq (p : EventBatchSubmit) (s : Store) (known : List String) (now : Time) :
    p.quantity s known = (p.tally s known now).accepted := by
  have hperm : List.Perm (validNewIds (existingEventIds s p.events) known p.events)
      ((p.tally s known now).newEvents.map Prod.fst) := by
    refine (List.perm_ext_iff_of_nodup (List.nodup_dedup _) (tally_nodup _ _ _ _)).mpr ?_
    intro id
    refine Iff.trans ?_ (mem_tally_ids known now (existingEventIds s p.events) p.events id).symm
    rw [List.mem_dedup, List.mem_map]
    constructor
    · rintro ⟨q, hq, rfl⟩
      simp only [List.mem_filter, Bool.and_eq_true, decide_eq_true_eq] at hq
      exact ⟨hq.2.1, q, hq.1, rfl, hq.2.2⟩
    · rintro ⟨hnew, q, hq, rfl, hknown⟩
      refine ⟨q, ?_, rfl⟩
      simp only [List.mem_filter, Bool.and_eq_true, decide_eq_true_eq]
      exact ⟨hq, hnew, hknown⟩
  rw [EventBatchSubmit.quantity, hperm.length_eq, List.length_map]
  exact (tally_newEvents known now _ p.events).2

/-- The accepted ids of a batch are not stored. -/
theorem tally_fresh (p : EventBatchSubmit) (s : Store) (known : List String) (now : Time) :
    ∀ id ∈ (p.tally s known now).newEvents.map Prod.fst, s.events.get? id = none := by
  intro id hid
  obtain ⟨hnew, q, hq, rfl, -⟩ := (mem_tally_ids _ _ _ _ _).mp hid
  by_contra hstored
  refine hnew (List.mem_filter.mpr ⟨List.mem_map_of_mem hq, ?_⟩)
  exact Option.isSome_iff_ne_none.mpr hstored

/-! ## Growth -/

/-- What the ledger of a dimension adds up to. -/
def Store.total (s : Store) (d : Dimension) : ℕ := ((s.ledger d).map UsageEvent.quantity).sum

/-- The events after are those before and `new`, and the ledger grows by as many. -/
structure EventsGrow (s s' : Store) (new : List (String × CustomerEvent)) : Prop where
  rows : s'.events.rows = s.events.rows ++ new
  booked : s'.total .acceptedEvents = s.total .acceptedEvents + new.length

/-- The ledger after a row. -/
theorem total_append (s : Store) (rows : List UsageEvent) (d : Dimension) :
    ({ s with usage := s.usage ++ rows } : Store).total d =
      s.total d + ((rows.filter fun row => decide (row.usageType = d)).map
        UsageEvent.quantity).sum := by
  simp [Store.total, Store.ledger]

/-- What is booked for a dimension, and for another. -/
theorem sum_booked (d d' : Dimension) (quantity : ℕ) (now : Time) :
    (((booked d quantity now).filter fun row => decide (row.usageType = d')).map
      UsageEvent.quantity).sum = if d = d' then quantity else 0 := by
  unfold booked
  by_cases hd : d = d'
  · split
    · simp [hd]
    · next hzero => simp [Nat.eq_zero_of_not_pos hzero]
  · split <;> simp [hd]

theorem EventsGrow.none {s s' : Store} (hevents : s'.events = s.events)
    (hledger : s'.ledger .acceptedEvents = s.ledger .acceptedEvents) : EventsGrow s s' [] where
  rows := by rw [hevents, List.append_nil]
  booked := by rw [Store.total, Store.total, hledger, List.length_nil, Nat.add_zero]

theorem EventsGrow.refl (s : Store) : EventsGrow s s [] := .none rfl rfl

/-- Growth of a request and of those before it. -/
theorem EventsGrow.trans {s s' s'' : Store} {new new' : List (String × CustomerEvent)}
    (h : EventsGrow s s' new) (h' : EventsGrow s' s'' new') : EventsGrow s s'' (new ++ new') where
  rows := by rw [h'.rows, h.rows, List.append_assoc]
  booked := by rw [h'.booked, h.booked, List.length_append, Nat.add_assoc]

/-- An event that is stored. -/
theorem writeEvent_grows {p : EventSubmit} {now : Time} {s s' : Store}
    (hnew : s.events.get? p.eventId = none) (h : writeEvent p now s = .ok s') :
    EventsGrow s s' [(p.eventId, p.row now)] := by
  rw [writeEvent_ok h]
  exact ⟨Table.rows_insert _ hnew _, total_append s _ _⟩

/-- A batch that is stored adds its accepted events. -/
theorem writeBatch_grows {cfg : Config} {id : ℕ} {p : EventBatchSubmit} {known : List String}
    {now : Time} {s s' : Store}
    (h : writeBatch (p.row cfg id s known now) (p.tally s known now) now s = .ok s') :
    EventsGrow s s' (p.tally s known now).newEvents := by
  rw [writeBatch_ok h]
  refine ⟨Table.rows_insertAll _ (tally_nodup _ _ _ _) (tally_fresh p s known now), ?_⟩
  refine (total_append s _ _).trans ?_
  rw [sum_booked, if_pos rfl]
  exact congrArg _ (tally_newEvents _ _ _ _).2.symm

/-- A load adds rows of its own. -/
theorem storeLoad_grows {id : ℕ} {now : Time} {rows : List Interaction} {s s' : Store}
    (h : storeLoad id now rows s = .ok s') :
    ∃ new, EventsGrow s s' new ∧ new.length = acceptedEvents s (eventRows now rows) := by
  obtain ⟨new, hnew⟩ := Table.prefix_insertAll s.events (eventRows now rows)
  have hlength : new.length = acceptedEvents s (eventRows now rows) := by
    rw [acceptedEvents, ← hnew, List.length_append, Nat.add_sub_cancel_left]
  rw [writeLoad_ok h]
  refine ⟨new, ⟨hnew.symm, ?_⟩, hlength⟩
  refine (total_append s _ _).trans ?_
  rw [List.filter_append, List.map_append, List.sum_append, sum_booked, sum_booked, hlength]
  simp [loadAccepted]

/-- A request that leaves the events and their ledger adds none. -/
theorem flush_grows (s : Store) (externalId : String) (loaded assigned : Product) :
    EventsGrow s (s.flushProduct externalId loaded assigned) [] := .none rfl rfl

/-- A sync books products only. -/
theorem writeSync_grows {sync : CatalogSync} {tally : SyncTally} {now : Time} {s s' : Store}
    (h : writeSync sync tally now s = .ok s') : EventsGrow s s' [] := by
  rw [writeSync_ok h]
  refine ⟨(List.append_nil _).symm, ?_⟩
  refine (total_append s _ _).trans ?_
  rw [sum_booked, if_neg Dimension.noConfusion, List.length_nil]

/-- **Growth.**  Every request leaves the events before it where they are and books as many
as it adds. -/
theorem opEnds_grow {cfg : Config} {op : Op} {notes : List Note} {s s' : Store} {t : Time}
    {result : Result} (h : OpEnds cfg op notes s t result s') : ∃ new, EventsGrow s s' new := by
  cases opEnds_writes h with
  | nothing => exact ⟨_, .refl s⟩
  | event hnew hwrite => exact ⟨_, writeEvent_grows hnew hwrite⟩
  | batch _ hwrite => exact ⟨_, writeBatch_grows hwrite⟩
  | load hwrite =>
      obtain ⟨new, hgrow, -⟩ := storeLoad_grows hwrite
      exact ⟨new, hgrow⟩
  | sync _ hwrite => exact ⟨_, writeSync_grows hwrite⟩
  | create => exact ⟨[], .none rfl rfl⟩
  | flush => exact ⟨_, flush_grows s _ _ _⟩
  | versions hsame => exact ⟨[], .none hsame.events (hsame.ledger _ (Or.inl rfl))⟩

/-! ## Batches -/

/-- What a request does to the batches: nothing, a batch without a payload, or the batch it
was asked for. -/
theorem opEnds_batches {cfg : Config} {op : Op} {notes : List Note} {s s' : Store} {t : Time}
    {result : Result} (h : OpEnds cfg op notes s t result s') :
    s'.batches = s.batches ∨
      (∃ id accepted total now, s'.batches = s.batches ++ [loadBatch id accepted total now]) ∨
      ∃ id p known now, op = .submitBatch id p ∧ p.Fresh s ∧
        s'.batches = s.batches ++ [p.row cfg id s known now] := by
  cases opEnds_writes h with
  | nothing | create | flush => exact Or.inl rfl
  | event _ hwrite =>
      rw [writeEvent_ok hwrite]
      exact Or.inl rfl
  | batch hnew hwrite =>
      rw [writeBatch_ok hwrite]
      exact Or.inr (Or.inr ⟨_, _, _, _, rfl, hnew, rfl⟩)
  | load hwrite =>
      rw [writeLoad_ok hwrite]
      exact Or.inr (Or.inl ⟨_, _, _, _, rfl⟩)
  | sync _ hwrite =>
      rw [writeSync_ok hwrite]
      exact Or.inl rfl
  | versions hsame => exact Or.inl hsame.batches

/-- What a request does to the syncs: nothing, or the sync it was asked for. -/
theorem opEnds_syncs {cfg : Config} {op : Op} {notes : List Note} {s s' : Store} {t : Time}
    {result : Result} (h : OpEnds cfg op notes s t result s') :
    s'.syncs = s.syncs ∨ ∃ id p tally now, op = .bulkUpsert id p ∧ p.Fresh s ∧
      s'.syncs = s.syncs ++ [p.row cfg id tally now] := by
  cases opEnds_writes h with
  | nothing | create | flush => exact Or.inl rfl
  | event _ hwrite =>
      rw [writeEvent_ok hwrite]
      exact Or.inl rfl
  | batch _ hwrite =>
      rw [writeBatch_ok hwrite]
      exact Or.inl rfl
  | load hwrite =>
      rw [writeLoad_ok hwrite]
      exact Or.inl rfl
  | sync hnew hwrite =>
      rw [writeSync_ok hwrite]
      exact Or.inr ⟨_, _, _, _, rfl, hnew, rfl⟩
  | versions hsame => exact Or.inl hsame.syncs

end Ingestion
