import GraphRec.Ingestion.ExactlyOnce
import Mathlib.Data.List.Perm.Subperm

/-!
# The monthly quota of events

A request books its events in the month of one reading of the clock and checks the quota in
the month of another.  `submit_batch` reads the clock for its booking last, so that a later
month in which it books has no booking yet; `submit_event` and `load_interaction_log` read
it first, and may book in a month that they did not check.
-/

namespace Ingestion

open Transactions Transition

/-- What a month's ledger of accepted events adds up to. -/
def monthTotal (cfg : Config) (s : Store) (m : Usage.Month) : ℕ :=
  ledgerUsage s .acceptedEvents (cfg.calendar.monthStart m) (cfg.calendar.monthStart (m + 1))

/-- No month has more than the limit. -/
def MonthsWithin (cfg : Config) (limit : ℕ) (s : Store) : Prop :=
  ∀ m, monthTotal cfg s m ≤ limit

/-- The reading that dates a request's bookings and those of its checks of the quota are of
one month. -/
def SameMonth (cfg : Config) (_ : Op) (notes : List Note) (_ : Store) : Prop :=
  ∀ now check, .reading now ∈ notes → .check check ∈ notes → check.dimension = .acceptedEvents →
    cfg.calendar.monthOf now = cfg.calendar.monthOf check.checkedAt

/-! ## Chunks -/

/-- The loop of `toChunks` loses nothing. -/
theorem flatten_toChunks_go {α : Type} (n : ℕ) (xs : List α) (acc : Array α)
    (done : Array (List α)) :
    (List.toChunks.go n xs acc done).flatten = done.toList.flatten ++ acc.toList ++ xs := by
  induction xs generalizing acc done with
  | nil => simp [List.toChunks.go]
  | cons x xs ih =>
      rw [List.toChunks.go]
      split
      · rw [ih]
        simp
      · rw [ih]
        simp

/-- The chunks are the rows. -/
theorem flatten_toChunks {α : Type} (n : ℕ) (xs : List α) : (xs.toChunks n).flatten = xs := by
  cases xs with
  | nil => cases n <;> rfl
  | cons x xs =>
      cases n with
      | zero => simp [List.toChunks]
      | succ n =>
          rw [List.toChunks, flatten_toChunks_go]
          · simp
          · exact Nat.succ_ne_zero n

/-- The keys of rows that a table does not have. -/
def freshKeys (events : Table String CustomerEvent) (rows : List (String × CustomerEvent)) :
    List String :=
  (rows.map Prod.fst).dedup.filter fun id => decide (events.get? id = none)

theorem mem_freshKeys {events : Table String CustomerEvent} {rows : List (String × CustomerEvent)}
    {id : String} : id ∈ freshKeys events rows ↔
      id ∈ rows.map Prod.fst ∧ events.get? id = none := by
  simp only [freshKeys, List.mem_filter, List.mem_dedup, decide_eq_true_eq]

theorem freshKeys_nodup (events : Table String CustomerEvent)
    (rows : List (String × CustomerEvent)) : (freshKeys events rows).Nodup :=
  (List.nodup_dedup _).filter _

/-- Rows in chunks have at most as many fresh keys as the chunks. -/
theorem length_freshKeys_flatten (events : Table String CustomerEvent)
    (chunks : List (List (String × CustomerEvent))) :
    (freshKeys events chunks.flatten).length ≤
      (chunks.map fun chunk => (freshKeys events chunk).length).sum := by
  induction chunks with
  | nil => exact Nat.le_refl _
  | cons chunk chunks ih =>
      have hsub : (freshKeys events (chunk :: chunks).flatten).length ≤
          (freshKeys events chunk ++ freshKeys events chunks.flatten).length := by
        refine (List.Nodup.subperm (freshKeys_nodup _ _) ?_).length_le
        intro id hid
        rw [mem_freshKeys, List.flatten_cons, List.map_append, List.mem_append] at hid
        rw [List.mem_append, mem_freshKeys, mem_freshKeys]
        rcases hid with ⟨hfirst | hrest, hnone⟩
        · exact Or.inl ⟨hfirst, hnone⟩
        · exact Or.inr ⟨hrest, hnone⟩
      rw [List.length_append] at hsub
      rw [List.map_cons, List.sum_cons]
      exact Nat.le_trans hsub (Nat.add_le_add_left ih _)

/-- A load is checked for at least the events it adds. -/
theorem acceptedEvents_le (s : Store) (rows : List (String × CustomerEvent)) :
    acceptedEvents s rows ≤ newEventCount s rows := by
  have hcount : acceptedEvents s rows = (freshKeys s.events rows).length := by
    rw [acceptedEvents, Table.length_insertAll, Nat.add_sub_cancel_left, freshKeys]
    congr 1
    refine List.filter_congr ?_
    intro id _
    cases s.events.get? id <;> rfl
  have hchunks := length_freshKeys_flatten s.events (rows.toChunks bulkChunk)
  rw [flatten_toChunks] at hchunks
  rw [hcount]
  exact hchunks

/-! ## Bookings -/

/-- What a request books: nothing, or one row for which it was admitted.  The time of the row
is a reading it noted, or later than the check. -/
inductive Books (cfg : Config) (notes : List Note) (s : Store) (t : Time) (s' : Store) : Prop
  | none (hledger : s'.ledger .acceptedEvents = s.ledger .acceptedEvents)
  | row (row : UsageEvent) (check : Check) (quantity : ℕ)
      (hledger : s'.ledger .acceptedEvents = s.ledger .acceptedEvents ++ [row])
      (hnoted : .check check ∈ notes) (hcheck : Admitted cfg .acceptedEvents quantity s t check)
      (hquantity : row.quantity ≤ quantity)
      (htime : .reading row.occurredAt ∈ notes ∨ check.checkedAt ≤ row.occurredAt)

/-- The rows of the ledger after some are booked. -/
theorem ledger_booked (s : Store) (d : Dimension) (quantity : ℕ) (now : Time)
    (rows : List UsageEvent) (hrows : ∀ row ∈ rows, row.usageType ≠ d) :
    ({ s with usage := s.usage ++ (rows ++ booked d quantity now) } : Store).ledger d =
      s.ledger d ++ booked d quantity now := by
  have hnone : rows.filter (fun row => row.usageType = d) = [] := by
    refine List.filter_eq_nil_iff.mpr ?_
    intro row hrow
    simpa using hrows row hrow
  have hall : (booked d quantity now).filter (fun row => row.usageType = d) =
      booked d quantity now := by
    unfold booked
    split <;> simp
  simp only [Store.ledger, List.filter_append, hnone, hall, List.nil_append]

/-- A booking of at most what was asked for. -/
theorem books_of_booked {cfg : Config} {notes : List Note} {s s' : Store} {t now : Time}
    {booking quantity : ℕ} {checks : List Note}
    (hledger : s'.ledger .acceptedEvents = s.ledger .acceptedEvents ++
      booked .acceptedEvents booking now)
    (hadmits : Admits cfg .acceptedEvents quantity s t checks) (hle : booking ≤ quantity)
    (hnotes : ∀ note ∈ checks, note ∈ notes)
    (htime : ∀ check, .check check ∈ checks → .reading now ∈ notes ∨ check.checkedAt ≤ now) :
    Books cfg notes s t s' := by
  by_cases hbooking : 0 < booking
  · rcases hadmits with ⟨rfl, -⟩ | ⟨check, rfl, -, hcheck⟩
    · omega
    · rw [booked, if_pos hbooking] at hledger
      have hmem : Note.check check ∈ [Note.check check] := List.mem_singleton_self _
      exact .row _ check quantity hledger (hnotes _ hmem) hcheck hle (htime check hmem)
  · rw [booked, if_neg hbooking, List.append_nil] at hledger
    exact .none hledger

theorem opEnds_books {cfg : Config} {op : Op} {notes : List Note} {s s' : Store} {t : Time}
    {result : Result} (h : OpEnds cfg op notes s t result s') : Books cfg notes s t s' := by
  cases op with
  | submitEvent p =>
      cases h with
      | duplicate | unknownProduct | refused | rejected => exact .none rfl
      | stored hnew hadmits _ hwrite =>
          rw [writeEvent_ok hwrite]
          rcases hadmits with ⟨hzero, -⟩ | ⟨check, rfl, -, hcheck⟩
          · cases hzero
          · have hledger (row : UsageEvent) (hrow : row.usageType = .acceptedEvents) :
                (s.usage ++ [row]).filter (fun row => row.usageType = .acceptedEvents) =
                  s.ledger .acceptedEvents ++ [row] := by
              simp [Store.ledger, hrow]
            exact .row _ check 1 (hledger _ rfl)
              (List.mem_cons_of_mem _ (List.mem_singleton_self _)) hcheck (Nat.le_refl 1)
              (Or.inl List.mem_cons_self)
  | submitBatch id p =>
      cases h with
      | replayed | conflict | refused | rejected => exact .none rfl
      | stored hnew hadmits hchecked htime hwrite =>
          rename_i now known
          have hquantity : (p.tally s known now).accepted ≤ p.quantity s known :=
            Nat.le_of_eq (quantity_eq p s known now).symm
          rw [writeBatch_ok hwrite]
          exact books_of_booked (ledger_booked s .acceptedEvents _ _ [] (by simp)) hadmits
            hquantity (fun _ hnote => hnote) fun check hcheck => Or.inr (hchecked check hcheck)
  | loadInteractionLog id rows =>
      cases h with
      | outOfRange | productsRefused | eventsRefused | rejected => exact .none rfl
      | stored _ hevents _ hwrite =>
          rw [writeLoad_ok hwrite]
          refine books_of_booked ?_ hevents (acceptedEvents_le s _)
            (fun _ hnote => List.mem_cons_of_mem _ (List.mem_append_right _ hnote))
            fun _ _ => Or.inl List.mem_cons_self
          refine ledger_booked s .acceptedEvents _ _ _ ?_
          intro row hrow
          rw [usageType_of_booked hrow]
          exact Dimension.noConfusion
  | bulkUpsert id p =>
      cases h with
      | replayed | conflict | refused | rejected => exact .none rfl
      | stored _ _ _ hwrite =>
          rw [writeSync_ok hwrite]
          refine .none (ledger_append s _ _ ?_)
          intro row hrow
          rw [usageType_of_booked hrow]
          exact Dimension.noConfusion
  | updateProduct externalId p => cases h <;> exact .none rfl
  | disableProduct externalId => cases h <;> exact .none rfl
  | registerModelVersion | createTrainingJob | finishTraining | activateModelVersion
  | archiveModelVersion | changeJobs =>
      cases h with
      | answered | rejected => exact .none rfl
      | registered _ _ _ _ hsame | changed _ _ hsame => exact .none (hsame.ledger _ (Or.inl rfl))

/-! ## Months -/

/-- A time lies in a month just when that is its month. -/
theorem contains_iff_monthOf (cal : MonthCalendar) (m : Usage.Month) (t : Time) :
    cal.contains m t = true ↔ cal.monthOf t = m := by
  constructor
  · exact fun h => cal.contains_unique (cal.contains_monthOf t) h
  · rintro rfl
    exact cal.contains_monthOf t

theorem monthTotal_eq (cfg : Config) (s : Store) (m : Usage.Month) :
    monthTotal cfg s m = (((s.ledger .acceptedEvents).filter fun row =>
      cfg.calendar.contains m row.occurredAt).map UsageEvent.quantity).sum :=
  ledgerUsage_eq s .acceptedEvents _ _

/-- The months after a row is booked. -/
theorem monthTotal_row {cfg : Config} {s s' : Store} {row : UsageEvent}
    (hledger : s'.ledger .acceptedEvents = s.ledger .acceptedEvents ++ [row]) (m : Usage.Month) :
    monthTotal cfg s' m =
      monthTotal cfg s m + if cfg.calendar.monthOf row.occurredAt = m then row.quantity else 0 := by
  rw [monthTotal_eq, monthTotal_eq, hledger, List.filter_append, List.map_append, List.sum_append]
  congr 1
  have hin := contains_iff_monthOf cfg.calendar m row.occurredAt
  by_cases hm : cfg.calendar.monthOf row.occurredAt = m
  · simp [hm, hin.mpr hm]
  · have hout := Bool.eq_false_iff.mpr (fun h => hm (hin.mp h))
    simp [hm, hout]

/-- A month after every booking is empty. -/
theorem monthTotal_of_later {cfg : Config} {s : Store} {t : Time} {m : Usage.Month}
    (hdated : Dated s t) (hlater : t < cfg.calendar.monthStart m) : monthTotal cfg s m = 0 := by
  rw [monthTotal_eq, List.filter_eq_nil_iff.mpr]
  · rfl
  · intro row hrow hin
    simp only [Usage.Calendar.contains, Bool.and_eq_true, decide_eq_true_eq] at hin
    exact Nat.not_le_of_lt hlater (Nat.le_trans hin.1 (hdated row hrow))

/-- **One booking.**  A row that is booked in the month that was checked, or later than the
check, keeps every month within the limit. -/
theorem monthsWithin_row {cfg : Config} {limits : Dimension → Option ℕ} {limit quantity : ℕ}
    {s s' : Store} {t : Time} {row : UsageEvent} {check : Check}
    (hlimits : cfg.limits = some limits) (hlimit : limits .acceptedEvents = some limit)
    (hs : MonthsWithin cfg limit s)
    (hledger : s'.ledger .acceptedEvents = s.ledger .acceptedEvents ++ [row])
    (hcheck : Admitted cfg .acceptedEvents quantity s t check) (hquantity : row.quantity ≤ quantity)
    (htime : cfg.calendar.monthOf row.occurredAt = cfg.calendar.monthOf check.checkedAt ∨
      check.checkedAt ≤ row.occurredAt) : MonthsWithin cfg limit s' := by
  intro m
  rw [monthTotal_row hledger]
  by_cases hm : cfg.calendar.monthOf row.occurredAt = m
  · rw [if_pos hm]
    obtain ⟨limits', hlimits', hlimit'⟩ := hcheck.limit
    have heq : check.limit = limit := by
      rw [hlimits] at hlimits'
      obtain rfl := Option.some.inj hlimits'
      rw [hlimit] at hlimit'
      exact (Option.some.inj hlimit').symm
    have hroom := hcheck.room
    rw [hcheck.quantity, heq] at hroom
    by_cases hsame : cfg.calendar.monthOf check.checkedAt = m
    · have hused : monthTotal cfg s m ≤ check.used := by
        rw [← hsame]
        exact hcheck.used rfl
      omega
    · -- The month is later than the check, so that nothing has been booked in it.
      have hlater : check.checkedAt ≤ row.occurredAt :=
        htime.resolve_left (fun h => hsame (h.symm.trans hm))
      have hin := (contains_iff_monthOf cfg.calendar m row.occurredAt).mpr hm
      have hout : ¬ cfg.calendar.contains m check.checkedAt = true :=
        fun h => hsame ((contains_iff_monthOf _ _ _).mp h)
      simp only [Usage.Calendar.contains, Bool.and_eq_true, decide_eq_true_eq] at hin hout
      have hearlier : check.checkedAt < cfg.calendar.monthStart m :=
        Nat.lt_of_not_le fun hle => hout ⟨hle, Nat.lt_of_le_of_lt hlater hin.2⟩
      rw [monthTotal_of_later (hcheck.dated rfl) hearlier]
      omega
  · rw [if_neg hm]
    exact hs m

/-! ## Every run -/

/-- **The monthly quota.**  In a run in which no request commits with its readings of the
clock in different months, no month has more than the limit. -/
theorem monthly_quota_kept {cfg : Config} {first : Start} {as : List (Action Op)}
    {st : SystemState} {limits : Dimension → Option ℕ} {limit : ℕ}
    (hlimits : cfg.limits = some limits) (hlimit : limits .acceptedEvents = some limit)
    (hfirst : MonthsWithin cfg limit first.store)
    (h : Run (tenant cfg first) (committing (SameMonth cfg)) (tenant cfg first).init as st) :
    MonthsWithin cfg limit st.store := by
  have hcommitted := committed h
  obtain ⟨t, -, hserial⟩ := serializable cfg (h.weaken fun _ _ _ => trivial)
  generalize st.log = log at hcommitted hserial
  generalize st.store = s at hserial ⊢
  induction hserial with
  | nil => exact hfirst
  | snoc entry _ hbefore _ _ hgood ih =>
      have hs := ih fun e he => hcommitted e (List.mem_append_left _ he)
      rw [← hbefore] at hs
      rcases hcommitted entry (List.mem_append_right _ (List.mem_singleton_self _)) with
        hmonth | ⟨hsame, -⟩
      · cases opEnds_books hgood with
        | none hledger =>
            intro m
            rw [monthTotal_eq, hledger, ← monthTotal_eq]
            exact hs m
        | row row check quantity hledger hnoted hcheck hquantity htime =>
            refine monthsWithin_row hlimits hlimit hs hledger hcheck hquantity ?_
            exact htime.imp (fun hread => hmonth _ check hread hnoted hcheck.dimension) id
      · rw [hsame]
        exact hs

/-- Are the readings in the notes of one month? -/
def readsOneMonth (cfg : Config) (notes : List Note) : Bool :=
  notes.all fun note =>
    match note with
    | .check _ => true
    | .reading now => notes.all fun note =>
        match note with
        | .reading _ => true
        | .check check => decide (check.dimension = .acceptedEvents →
            cfg.calendar.monthOf now = cfg.calendar.monthOf check.checkedAt)

/-- The condition of `monthly_quota_kept`, computed. -/
def commitsInMonth (cfg : Config) (st : SystemState) : Action Op → Bool
  | .run i => (st.threads i).all fun thread =>
      !thread.prog.commits || readsOneMonth cfg thread.notes
  | _ => true

theorem committing_of_commitsInMonth {cfg : Config} {st : SystemState} {a : Action Op}
    (h : commitsInMonth cfg st a = true) : committing (SameMonth cfg) st a := by
  rintro i thread rfl hthread hcommits now check hread hcheck hd
  simp only [commitsInMonth, hthread, Option.all_some, hcommits, Bool.not_true, Bool.false_or,
    readsOneMonth, List.all_eq_true] at h
  have hnotes := h _ hread
  simp only [List.all_eq_true] at hnotes
  exact of_decide_eq_true (hnotes _ hcheck) hd

/-- An event in the first month; then a batch that is checked at the end of that month and
booked in the next. -/
def crossingBatch : List (Action Op) :=
  [.start 0 (.submitEvent (someEvent "e" "lamp"))] ++ statements 0 10 ++
    [.tick 99, .start 1 (.submitBatch 7 ⟨none, [someEvent "f" "lamp"], "text", noRequestId⟩)] ++
    statements 1 7 ++ [.tick 1] ++ statements 1 2

/-- That run is one, and each month has one event of two. -/
theorem monthly_quota_kept_crossing :
    ∃ st, Run (tenant (smallPlan 2 5 5) oneProduct) (committing (SameMonth (smallPlan 2 5 5)))
        (tenant (smallPlan 2 5 5) oneProduct).init crossingBatch st ∧
      (monthTotal (smallPlan 2 5 5) st.store 0 = 1 ∧ monthTotal (smallPlan 2 5 5) st.store 1 = 1) ∧
      MonthsWithin (smallPlan 2 5 5) 2 st.store := by
  have hdone : (execWhile (tenant (smallPlan 2 5 5) oneProduct) (commitsInMonth (smallPlan 2 5 5))
      (tenant (smallPlan 2 5 5) oneProduct).init crossingBatch).map
      (fun st => (monthTotal (smallPlan 2 5 5) st.store 0, monthTotal (smallPlan 2 5 5) st.store 1)) =
      some (1, 1) := by
    decide +kernel
  obtain ⟨st, hexec, hst⟩ := Option.map_eq_some_iff.mp hdone
  have hrun := (run_of_execWhile hexec).weaken fun _ _ => committing_of_commitsInMonth
  simp only [Prod.mk.injEq] at hst
  exact ⟨st, hrun, hst, monthly_quota_kept rfl rfl (fun _ => Nat.zero_le _) hrun⟩

/-- An event fills the first month.  Another reads the clock at the end of that month and is
checked in the next. -/
def crossingEvent : List (Action Op) :=
  [.start 0 (.submitEvent (someEvent "e" "lamp"))] ++ statements 0 10 ++
    [.tick 99, .start 1 (.submitEvent (someEvent "f" "lamp"))] ++ statements 1 4 ++ [.tick 1] ++
    statements 1 6

/-- Without the condition a month may have more than the limit. -/
theorem not_monthly_quota_kept :
    ¬ ∀ (as : List (Action Op)) (st : SystemState), Run (tenant (smallPlan 1 5 5) oneProduct) anyStep
      (tenant (smallPlan 1 5 5) oneProduct).init as st →
      MonthsWithin (smallPlan 1 5 5) 1 st.store := by
  intro hall
  have hdone : (exec (tenant (smallPlan 1 5 5) oneProduct)
      (tenant (smallPlan 1 5 5) oneProduct).init crossingEvent).map
      (fun st => monthTotal (smallPlan 1 5 5) st.store 0) = some 2 := by
    decide +kernel
  obtain ⟨st, hexec, hst⟩ := Option.map_eq_some_iff.mp hdone
  have hwithin := hall crossingEvent st (run_of_exec hexec) 0
  rw [hst] at hwithin
  exact absurd hwithin (by decide)

end Ingestion
