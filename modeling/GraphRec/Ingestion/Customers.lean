import GraphRec.Ingestion.ExactlyOnce

/-!
# Customers

The foreign key makes every stored event's user a customer.  `submit_event` and
`submit_batch` register the users of the events they insert; `load_interaction_log` does not,
and the key rejects a file that would add an event of a user who is not registered.
-/

namespace Ingestion

open Transactions Transition

/-- Every stored event's user is a customer. -/
def EventUsers (s : Store) : Prop := s.events.All fun _ e => s.customerKnown e = true

/-- Every event that the rows would add has a user who is a customer. -/
def Store.Registers (s : Store) (rows : List (String × CustomerEvent)) : Prop :=
  ∀ id e, (s.events.insertAll rows).get? id = some e → s.events.get? id = none →
    s.customerKnown e = true

/-- A load commits only when the users of the events it would add are customers. -/
def LoadRegisters (op : Op) (_ : List Note) (s : Store) : Prop :=
  ∀ id rows now, op = .loadInteractionLog id rows → s.Registers (eventRows now rows)

theorem customerKnown_of_subset {s s' : Store} {e : CustomerEvent}
    (h : ∀ user ∈ s.customers, user ∈ s'.customers) (hknown : s.customerKnown e = true) :
    s'.customerKnown e = true := by
  unfold Store.customerKnown at hknown ⊢
  cases he : e.userId with
  | none => rfl
  | some user =>
      rw [he] at hknown
      exact decide_eq_true (h user (of_decide_eq_true hknown))

/-! ## Registering -/

/-- Who is a customer after some are registered. -/
theorem mem_ensureCustomers (s : Store) (ids : List String) (user : String) :
    user ∈ (s.ensureCustomers ids).customers ↔ user ∈ s.customers ∨ user ∈ ids := by
  unfold Store.ensureCustomers
  dsimp only
  generalize s.customers = customers
  induction ids generalizing customers with
  | nil => simp
  | cons id ids ih =>
      rw [List.foldl_cons, ih, List.mem_insert_iff, List.mem_cons]
      tauto

/-- A submitted event whose user is registered with it. -/
theorem row_known {s : Store} {p : EventSubmit} (now : Time)
    (h : ∀ user ∈ truthy p.userId, user ∈ s.customers) : s.customerKnown (p.row now) = true := by
  unfold Store.customerKnown
  split
  · next user huser =>
      refine decide_eq_true (h user ?_)
      rw [truthy_of_ne p.user_nonempty]
      exact Option.mem_def.mpr huser
  · rfl

/-- Events with users who are customers. -/
theorem eventUsers_insertAll {s s' : Store} {rows : List (String × CustomerEvent)}
    (h : EventUsers s) (hevents : s'.events = s.events.insertAll rows)
    (hsub : ∀ user ∈ s.customers, user ∈ s'.customers)
    (hrows : ∀ row ∈ rows, s'.customerKnown row.2 = true) : EventUsers s' := by
  intro id e he
  rw [hevents, Table.get?_insertAll] at he
  cases hold : s.events.get? id with
  | some old =>
      rw [hold, Option.some_or] at he
      obtain rfl := Option.some.inj he
      exact customerKnown_of_subset hsub (h id old hold)
  | none =>
      rw [hold, Option.none_or] at he
      obtain ⟨row, hrow, rfl⟩ := Option.map_eq_some_iff.mp he
      exact hrows row (List.mem_of_find?_eq_some hrow)

/-! ## Each request -/

/-- An event of a submission finds its user registered. -/
theorem insertEvents_registered {s : Store} {rows : List (String × CustomerEvent)}
    (hknown : ∀ row ∈ rows, s.customerKnown row.2 = true) {e : Constraint}
    (h : rows.foldlM Store.insertEvent s = .error e) : e ≠ .customerForeignKey := by
  induction rows generalizing s with
  | nil => cases h
  | cons row rows ih =>
      rw [List.foldlM_cons] at h
      cases hrow : s.insertEvent row with
      | error c =>
          rw [hrow] at h
          cases h
          rcases insertEvent_error hrow with ⟨rfl, -⟩ | ⟨-, -, hunknown⟩
          · exact Constraint.noConfusion
          · rw [hknown row List.mem_cons_self] at hunknown
            cases hunknown
      | ok s₁ =>
          rw [hrow] at h
          refine ih ?_ h
          intro row' hrow'
          rw [(insertEvent_ok hrow).2.2]
          exact hknown row' (List.mem_cons_of_mem _ hrow')

/-- The users of an event are customers once they are registered. -/
theorem submitted_known {p : EventSubmit} (now : Time) (s : Store) {ids : List String}
    (h : ∀ user ∈ truthy p.userId, user ∈ ids) :
    (s.ensureCustomers ids).customerKnown (p.row now) = true :=
  row_known now fun user huser => (mem_ensureCustomers s ids user).mpr (Or.inr (h user huser))

/-- `submit_event` registers the user first. -/
theorem writeEvent_registered {p : EventSubmit} {now : Time} {s : Store} {e : Constraint}
    (h : writeEvent p now s = .error e) : e ≠ .customerForeignKey := by
  unfold writeEvent at h
  simp only [bind, Except.bind] at h
  split at h
  · next c hevent =>
      cases h
      rcases insertEvent_error hevent with ⟨rfl, -⟩ | ⟨-, -, hunknown⟩
      · exact Constraint.noConfusion
      · rw [submitted_known now s fun user huser => Option.mem_toList.mpr huser] at hunknown
        cases hunknown
  · rw [insertUsage_error h]
    exact Constraint.noConfusion

/-- The users of the accepted events of a batch are registered. -/
theorem tally_known (p : EventBatchSubmit) (s : Store) (known : List String) (now : Time) :
    ∀ row ∈ (p.tally s known now).newEvents,
      (s.ensureCustomers (p.tally s known now).customers).customerKnown row.2 = true := by
  intro row hrow
  obtain ⟨q, -, rfl, hcustomers⟩ := tally_rows known now _ p.events row hrow
  exact submitted_known now s hcustomers

/-- `submit_batch` registers the users of what it accepts. -/
theorem writeBatch_registered {cfg : Config} {id : ℕ} {p : EventBatchSubmit} {known : List String}
    {now : Time} {s : Store} {e : Constraint}
    (h : writeBatch (p.row cfg id s known now) (p.tally s known now) now s = .error e) :
    e ≠ .customerForeignKey := by
  unfold writeBatch at h
  simp only [bind, Except.bind, bookUsage_eq] at h
  split at h
  · next c hevents =>
      cases h
      exact insertEvents_registered (tally_known p s known now) hevents
  · split at h
    · next c hbatch =>
        cases h
        rw [insertBatch_error hbatch]
        exact Constraint.noConfusion
    · cases h

/-! ## Loads -/

/-- What a load inserts, or why it is rejected: by the users of the events it would add. -/
theorem addEvents_result (s : Store) (rows : List (String × CustomerEvent)) :
    (s.Registers rows ∧
      rows.foldlM Store.addEvent s = .ok { s with events := s.events.insertAll rows }) ∨
    (¬ s.Registers rows ∧ rows.foldlM Store.addEvent s = .error .customerForeignKey) := by
  induction rows generalizing s with
  | nil =>
      refine Or.inl ⟨?_, rfl⟩
      intro id e he hnone
      rw [Table.insertAll_nil, hnone] at he
      cases he
  | cons row rows ih =>
      rw [List.foldlM_cons]
      cases hstored : s.events.get? row.1 with
      | some old =>
          have hadd : s.addEvent row = .ok s := by simp [Store.addEvent, hstored]
          have hsame : s.events.insertAll (row :: rows) = s.events.insertAll rows := by
            rw [Table.insertAll_cons, Table.insert_of_some _ hstored]
          rw [hadd, Store.Registers, hsame]
          exact ih s
      | none =>
          cases hknown : s.customerKnown row.2 with
          | false =>
              refine Or.inr ⟨?_, ?_⟩
              · intro hregisters
                have hfirst : (s.events.insertAll (row :: rows)).get? row.1 = some row.2 := by
                  refine Table.get?_insertAll_of_some _ ?_ rows
                  rw [Table.get?_insert _ hstored, if_pos rfl]
                rw [hregisters row.1 row.2 hfirst hstored] at hknown
                cases hknown
              · have hadd : s.addEvent row = .error .customerForeignKey := by
                  simp [Store.addEvent, Store.insertEvent, hstored, hknown]
                rw [hadd]
                rfl
          | true =>
              have hadd :
                  s.addEvent row = .ok { s with events := s.events.insert row.1 row.2 } := by
                simp [Store.addEvent, Store.insertEvent, hstored, hknown]
              have hiff : s.Registers (row :: rows) ↔
                  ({ s with events := s.events.insert row.1 row.2 } : Store).Registers rows := by
                constructor
                · intro h id e he hnone
                  refine h id e he ?_
                  rw [Table.get?_insert _ hstored] at hnone
                  split at hnone
                  · cases hnone
                  · exact hnone
                · intro h id e he hnone
                  by_cases hid : id = row.1
                  · have hfirst : (s.events.insertAll (row :: rows)).get? row.1 = some row.2 := by
                      refine Table.get?_insertAll_of_some _ ?_ rows
                      rw [Table.get?_insert _ hstored, if_pos rfl]
                    rw [hid, hfirst] at he
                    obtain rfl := Option.some.inj he
                    exact hknown
                  · refine h id e he ?_
                    rw [Table.get?_insert _ hstored, if_neg hid]
                    exact hnone
              rw [hadd, hiff]
              exact ih _

/-- A load is rejected just when the users of the events it would add are not customers. -/
theorem storeLoad_result (id : ℕ) (now : Time) (rows : List Interaction) (s : Store) :
    (s.Registers (eventRows now rows) ∧ ∃ s', storeLoad id now rows s = .ok s') ∨
    (¬ s.Registers (eventRows now rows) ∧
      storeLoad id now rows s = .error .customerForeignKey) := by
  unfold storeLoad writeLoad
  simp only [bind, Except.bind, bookUsage_eq]
  rcases addEvents_result (s.addProducts (logProducts now rows)) (eventRows now rows) with
    ⟨hregisters, hrows⟩ | ⟨hregisters, hrows⟩
  · refine Or.inl ⟨hregisters, ?_⟩
    rw [hrows]
    exact ⟨_, rfl⟩
  · refine Or.inr ⟨hregisters, ?_⟩
    rw [hrows]

/-! ## Every run -/

/-- Does the request insert events? -/
def Op.ingests : Op → Bool
  | .submitEvent _ | .submitBatch _ _ | .loadInteractionLog _ _ => true
  | _ => false

/-- What holds of every request: it is not rejected by the foreign key, and keeps the users
of the events customers. -/
theorem opEnds_users {cfg : Config} {op : Op} {notes : List Note} {s s' : Store} {t : Time}
    {result : Result} (h : OpEnds cfg op notes s t result s') (hs : EventUsers s)
    (hload : LoadRegisters op notes s ∨ ∃ answer, result = .ok answer) :
    (op.ingests = true → result ≠ .error .customerForeignKey) ∧ EventUsers s' := by
  cases op with
  | submitEvent p =>
      cases h with
      | duplicate | unknownProduct | refused => exact ⟨nofun, hs⟩
      | rejected _ hwrite =>
          exact ⟨fun _ h => writeEvent_registered hwrite (Except.error.inj h), hs⟩
      | stored hnew hadmits htime hwrite =>
          rename_i now
          refine ⟨nofun, ?_⟩
          rw [writeEvent_ok hwrite]
          have hevents : s.events.insert p.eventId (p.row now) =
              s.events.insertAll [(p.eventId, p.row now)] := rfl
          refine eventUsers_insertAll hs hevents ?_ ?_
          · exact fun user huser => (mem_ensureCustomers _ _ _).mpr (Or.inl huser)
          · intro row hrow
            obtain rfl := List.mem_singleton.mp hrow
            exact submitted_known now s fun user huser => Option.mem_toList.mpr huser
  | submitBatch id p =>
      cases h with
      | replayed | conflict | refused => exact ⟨nofun, hs⟩
      | rejected _ hwrite =>
          exact ⟨fun _ h => writeBatch_registered hwrite (Except.error.inj h), hs⟩
      | stored _ _ _ _ hwrite =>
          refine ⟨nofun, ?_⟩
          rw [writeBatch_ok hwrite]
          refine eventUsers_insertAll hs rfl ?_ (tally_known p s _ _)
          exact fun user huser => (mem_ensureCustomers _ _ _).mpr (Or.inl huser)
  | loadInteractionLog id rows =>
      cases h with
      | outOfRange | productsRefused | eventsRefused => exact ⟨nofun, hs⟩
      | rejected hwrite =>
          rename_i now c
          rcases hload with hload | ⟨answer, hanswer⟩
          · rcases storeLoad_result id now rows s with ⟨-, s', hok⟩ | ⟨hnot, -⟩
            · rw [hok] at hwrite
              cases hwrite
            · exact absurd (hload id rows now rfl) hnot
          · cases hanswer
      | stored hproducts hevents htime hwrite =>
          rename_i now
          refine ⟨nofun, ?_⟩
          rcases storeLoad_result id now rows s with ⟨hregisters, -⟩ | ⟨-, herror⟩
          · rw [writeLoad_ok hwrite]
            intro id e he
            cases hold : s.events.get? id with
            | none => exact hregisters id e he hold
            | some old =>
                rw [Table.get?_insertAll_of_some _ hold] at he
                obtain rfl := Option.some.inj he
                exact hs id old hold
          · rw [herror] at hwrite
            cases hwrite
  | bulkUpsert id p =>
      cases h with
      | replayed | conflict | refused | rejected => exact ⟨nofun, hs⟩
      | stored _ _ _ hwrite =>
          rw [writeSync_ok hwrite]
          exact ⟨nofun, hs⟩
  | updateProduct externalId p => cases h <;> exact ⟨nofun, hs⟩
  | disableProduct externalId => cases h <;> exact ⟨nofun, hs⟩
  | registerModelVersion | createTrainingJob | finishTraining | activateModelVersion
  | archiveModelVersion | changeJobs =>
      cases h with
      | answered | rejected => exact ⟨nofun, hs⟩
      | registered _ _ _ _ hsame | changed _ _ hsame =>
          refine ⟨nofun, ?_⟩
          intro id e he
          rw [hsame.events] at he
          exact customerKnown_of_subset (fun user huser => hsame.customers ▸ huser) (hs id e he)

/-- **Registered users.**  In a run in which a load commits only when the users of the events
it would add are customers, no upload is rejected by the foreign key, and every stored
event's user is a customer. -/
theorem customers_registered {cfg : Config} {first : Start} {as : List (Action Op)}
    {st : SystemState} (hfirst : EventUsers first.store)
    (h : Run (tenant cfg first) (committing LoadRegisters) (tenant cfg first).init as st) :
    (∀ entry ∈ st.log, entry.op.ingests = true → entry.result ≠ .error .customerForeignKey) ∧
      EventUsers st.store := by
  have hcommitted := committed h
  obtain ⟨t, -, hserial⟩ := serializable cfg (h.weaken fun _ _ _ => trivial)
  generalize st.log = log at hcommitted hserial ⊢
  generalize st.store = s at hserial ⊢
  induction hserial with
  | nil =>
      refine ⟨?_, hfirst⟩
      intro entry hentry
      cases hentry
  | snoc entry _ hbefore _ _ hgood ih =>
      obtain ⟨hlog, hs⟩ := ih fun e he => hcommitted e (List.mem_append_left _ he)
      rw [← hbefore] at hs
      have hend := hcommitted entry (List.mem_append_right _ (List.mem_singleton_self _))
      have hstep := opEnds_users hgood hs (hend.imp id And.right)
      refine ⟨?_, hstep.2⟩
      intro e he
      rcases List.mem_append.mp he with hold | hlast
      · exact hlog e hold
      · obtain rfl := List.mem_singleton.mp hlast
        exact hstep.1

/-- The users of a file's rows are those of its events. -/
theorem mem_numberRows {before rows : List Interaction} {row : Interaction × ℕ}
    (h : row ∈ numberRows before rows) : row.1 ∈ rows := by
  induction rows generalizing before with
  | nil => cases h
  | cons first rest ih =>
      rcases List.mem_cons.mp h with rfl | hrest
      · exact List.mem_cons_self
      · exact List.mem_cons_of_mem _ (ih hrest)

theorem registers_of_users {s : Store} {rows : List Interaction}
    (h : ∀ row ∈ rows, row.user ∈ s.customers) (now : Time) :
    s.Registers (eventRows now rows) := by
  intro id e he hnone
  rw [Table.get?_insertAll, hnone, Option.none_or] at he
  obtain ⟨found, hfound, rfl⟩ := Option.map_eq_some_iff.mp he
  obtain ⟨row, hrow, rfl⟩ := List.mem_map.mp (List.mem_of_find?_eq_some hfound)
  exact decide_eq_true (h row.1 (mem_numberRows hrow))

/-- Are the users of a file customers when it is loaded? -/
def loadsRegistered (st : SystemState) : Action Op → Bool
  | .run i => (st.threads i).all fun thread =>
      match thread.op with
      | .loadInteractionLog _ rows => !thread.prog.commits ||
          rows.all fun row => decide (row.user ∈ st.store.customers)
      | _ => true
  | _ => true

theorem committing_of_loadsRegistered {st : SystemState} {a : Action Op}
    (h : loadsRegistered st a = true) : committing LoadRegisters st a := by
  rintro i thread rfl hthread hcommits id rows now hop
  simp only [loadsRegistered, hthread, Option.all_some, hop, hcommits, Bool.not_true,
    Bool.false_or, List.all_eq_true, decide_eq_true_eq] at h
  exact registers_of_users h now

/-- An event of a user, and then a file with the same user. -/
def knownUserRun : List (Action Op) :=
  [.start 0 (.submitEvent (someEvent "e" "lamp")),
    .start 1 (.loadInteractionLog 7 [⟨"ann", "sofa", 5⟩, ⟨"ann", "lamp", 6⟩])] ++
    statements 0 10 ++ statements 1 17

/-- That run is one, and nothing is rejected. -/
theorem customers_registered_known :
    ∃ st, Run (tenant (smallPlan 5 5 5) oneProduct) (committing LoadRegisters)
        (tenant (smallPlan 5 5 5) oneProduct).init knownUserRun st ∧
      st.log.map (fun entry => entry.after.events.rows.length) = [1, 3] ∧
      (∀ entry ∈ st.log, entry.op.ingests = true → entry.result ≠ .error .customerForeignKey) ∧
      EventUsers st.store := by
  have hdone : (execWhile (tenant (smallPlan 5 5 5) oneProduct) loadsRegistered
      (tenant (smallPlan 5 5 5) oneProduct).init knownUserRun).map
      (fun st => st.log.map fun entry => entry.after.events.rows.length) = some [1, 3] := by
    decide +kernel
  obtain ⟨st, hexec, hlog⟩ := Option.map_eq_some_iff.mp hdone
  have hrun := (run_of_execWhile hexec).weaken fun _ _ => committing_of_loadsRegistered
  refine ⟨st, hrun, hlog, customers_registered ?_ hrun⟩
  intro id e he
  cases he

/-- A file with a user never seen before. -/
def newUserRun : List (Action Op) :=
  .start 0 (.loadInteractionLog 7 [⟨"ann", "sofa", 5⟩]) :: statements 0 17

/-- Without the condition an upload is rejected by the foreign key. -/
theorem not_customers_registered :
    ¬ ∀ (as : List (Action Op)) (st : SystemState),
      Run (tenant (smallPlan 5 5 5) oneProduct) anyStep
      (tenant (smallPlan 5 5 5) oneProduct).init as st →
      (∀ entry ∈ st.log, entry.op.ingests = true → entry.result ≠ .error .customerForeignKey) ∧
      EventUsers st.store := by
  intro hall
  have hdone : (exec (tenant (smallPlan 5 5 5) oneProduct)
      (tenant (smallPlan 5 5 5) oneProduct).init newUserRun).map
      (fun st => st.log.map fun entry => (entry.op.ingests, entry.result)) =
      some [(true, .error .customerForeignKey)] := by
    decide +kernel
  obtain ⟨st, hexec, hlog⟩ := Option.map_eq_some_iff.mp hdone
  have hkept := (hall newUserRun st (run_of_exec hexec)).1
  obtain ⟨entry, hentry, heq⟩ := List.mem_map.mp
    (hlog ▸ List.mem_singleton_self (true, Except.error Constraint.customerForeignKey))
  simp only [Prod.mk.injEq] at heq
  exact hkept entry hentry heq.1 heq.2

end Ingestion
