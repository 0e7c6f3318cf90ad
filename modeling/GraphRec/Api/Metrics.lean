import GraphRec.Lib.Counters
import GraphRec.Lib.Transition
import Mathlib.Algebra.BigOperators.Fin
import Mathlib.Order.Basic
import Mathlib.Data.Rat.Init

/-!
# Metrics of several processes

`Metrics`: every process counts its requests and sends what it has counted to one hash of all
processes, command by command.  A flush may fail after any part of it has been carried out, and the
commands that were sent may still be carried out afterwards.

* `Conserved` — every observation is in the hash, pending, on its way or in the process's own
  counts;
* `scrape_sound` — the hash never counts a request that was not there, nor twice, and of every
  route it counts no more requests in a bucket than in all.
-/

open scoped BigOperators

namespace Metrics

open Transition

/-- A field of the hash; its text joins the parts with bars. -/
inductive Field (τ : Type)
  | req (method route klass : String)
  | sum (route : String)
  | count (route : String)
  | bucket (route : String) (bound : τ)
  deriving DecidableEq, Repr

/-- `STANDARD_METHODS`. -/
def standardMethods : List String := ["GET", "POST", "PUT", "PATCH", "DELETE", "HEAD", "OPTIONS"]

variable {τ : Type} [LinearOrder τ]

/-- The bounds of the buckets, and how a duration is counted in microseconds. -/
structure Config (τ : Type) where
  buckets : List τ
  distinct : buckets.Nodup
  micros : τ → ℕ

/-- A request that was answered. -/
structure Observation (τ : Type) where
  method : String
  route : String
  status : ℕ
  seconds : τ

/-- The method that is counted. -/
def Observation.label (o : Observation τ) : String :=
  if o.method ∈ standardMethods then o.method else "OTHER"

/-- The counts of `observe`, in its order. -/
def Observation.counts (cfg : Config τ) (o : Observation τ) : List (Field τ × ℕ) :=
  (.req o.label o.route (toString (o.status / 100) ++ "xx"), 1) :: (.count o.route, 1) ::
    (.sum o.route, cfg.micros o.seconds) ::
      (cfg.buckets.filter fun bound => decide (o.seconds ≤ bound)).map fun bound =>
        (.bucket o.route bound, 1)

/-- What became of the commands of a flush. -/
inductive Status
  | sending
  | done
  /-- The flush raised; its commands may still arrive. -/
  | failed
  deriving DecidableEq, Repr

/-- A flush: what it took, and how many of its commands were carried out. -/
structure Flight (τ : Type) (processes : ℕ) where
  process : Fin processes
  taken : Table (Field τ) ℕ
  sent : ℕ
  status : Status

/-- The commands that were carried out. -/
def Flight.arrived {processes : ℕ} (f : Flight τ processes) : List (Field τ × ℕ) :=
  f.taken.rows.take f.sent

/-- A process. -/
structure Process (τ : Type) where
  pending : Table (Field τ) ℕ
  counts : Table (Field τ) ℕ

/-- The processes, the hash and the flushes; `observed` is what there was to count. -/
structure State (τ : Type) (processes : ℕ) where
  process : Fin processes → Process τ
  shared : Table (Field τ) ℕ
  flights : List (Flight τ processes)
  observed : Table (Field τ) ℕ

/-- The steps. -/
inductive Action (τ : Type) (processes : ℕ)
  | observe (p : Fin processes) (o : Observation τ)
  /-- A flush takes what is pending. -/
  | take (p : Fin processes)
  /-- The next `HINCRBY` of a flush is carried out. -/
  | arrive (i : ℕ)
  /-- `execute` returns. -/
  | finish (i : ℕ)
  /-- `execute` raises. -/
  | fail (i : ℕ)

variable {processes : ℕ}

/-- A process changes. -/
def State.set (s : State τ processes) (p : Fin processes) (process : Process τ) :
    State τ processes :=
  { s with process := Function.update s.process p process }

/-- One step. -/
def step (cfg : Config τ) (s : State τ processes) : Action τ processes → Option (State τ processes)
  | .observe p o =>
    let counted := { s.process p with pending := (s.process p).pending.bumpAll (o.counts cfg) }
    some { s.set p counted with observed := s.observed.bumpAll (o.counts cfg) }
  | .take p =>
    if (s.process p).pending.rows = [] then none
    else
      some { s.set p { s.process p with pending := .empty } with
        flights := s.flights ++ [⟨p, (s.process p).pending, 0, .sending⟩] }
  | .arrive i =>
    match s.flights[i]? with
    | none => none
    | some f =>
      match f.taken.rows[f.sent]? with
      | none => none
      | some row =>
        some { s with
          shared := s.shared.bump row.1 row.2
          flights := s.flights.set i { f with sent := f.sent + 1 } }
  | .finish i =>
    match s.flights[i]? with
    | none => none
    | some f =>
      if f.status = .sending ∧ f.sent = f.taken.rows.length then
        some { s with flights := s.flights.set i { f with status := .done } }
      else none
  | .fail i =>
    match s.flights[i]? with
    | none => none
    | some f =>
      if f.status = .sending then
        let failed := s.process f.process
        some { s.set f.process { failed with counts := failed.counts.bumpAll f.taken.rows } with
          flights := s.flights.set i { f with status := .failed } }
      else none

/-- Processes that have counted nothing. -/
def system (cfg : Config τ) (processes : ℕ) : System (State τ processes) (Action τ processes) :=
  ⟨⟨fun _ => ⟨.empty, .empty⟩, .empty, [], .empty⟩, step cfg⟩

/-! ## Sums -/

section Sums

variable {α : Type}

/-- An element of a list is replaced. -/
theorem sum_map_set {l : List α} {i : ℕ} {x : α} (h : l[i]? = some x) (φ : α → ℕ) (y : α) :
    ((l.set i y).map φ).sum + φ x = (l.map φ).sum + φ y := by
  induction l generalizing i with
  | nil => cases h
  | cons a l ih =>
    cases i with
    | zero =>
      obtain rfl := Option.some.inj h
      simp only [List.set_cons_zero, List.map_cons, List.sum_cons]
      omega
    | succ i =>
      have hrest := ih (List.getElem?_cons_succ ▸ h)
      simp only [List.set_cons_succ, List.map_cons, List.sum_cons]
      omega

/-- One process changes. -/
theorem sum_update (process : Fin processes → α) (p : Fin processes) (φ : α → ℕ) (y : α) :
    ∑ q, φ (Function.update process p y q) + φ (process p) = ∑ q, φ (process q) + φ y := by
  have hrest : ∑ q ∈ Finset.univ.erase p, φ (Function.update process p y q) =
      ∑ q ∈ Finset.univ.erase p, φ (process q) := by
    refine Finset.sum_congr rfl ?_
    intro q hq
    rw [Function.update_of_ne (Finset.ne_of_mem_erase hq)]
  rw [← Finset.add_sum_erase _ _ (Finset.mem_univ p), hrest, Function.update_self,
    ← Finset.add_sum_erase _ (fun q => φ (process q)) (Finset.mem_univ p)]
  omega

end Sums

/-! ## Observations -/

section Observations

variable {cfg : Config τ} {t : Table (Field τ) ℕ} {o : Observation τ}

/-- Counts of a process: of every route no more requests in a bucket than in all, which are counted
first, and no more in a bucket than in a wider one. -/
structure Orderly (cfg : Config τ) (t : Table (Field τ) ℕ) : Prop where
  order : ∀ route bound, Table.Precedes (t.rows.map Prod.fst) (.count route) (.bucket route bound)
  within : ∀ route bound, t.value (.bucket route bound) ≤ t.value (.count route)
  wider : ∀ route, ∀ bound bound', bound ≤ bound' → bound' ∈ cfg.buckets →
    t.value (.bucket route bound) ≤ t.value (.bucket route bound')

theorem orderly_empty (cfg : Config τ) : Orderly cfg .empty := by
  refine ⟨?_, fun _ _ => le_rfl, fun _ _ _ _ _ => le_rfl⟩
  intro route bound pre post h
  cases pre <;> cases h

/-- A request is counted once. -/
theorem sumAt_counts_count (route : String) :
    Table.sumAt (o.counts cfg) (.count route) = if o.route = route then 1 else 0 := by
  have hrest : Table.sumAt ((cfg.buckets.filter fun bound => decide (o.seconds ≤ bound)).map
      fun bound => ((.bucket o.route bound : Field τ), 1)) (.count route) = 0 := by
    refine Table.sumAt_of_notMem ?_
    simp
  simp [Observation.counts, hrest]

/-- It is counted once in each bucket that is wide enough. -/
theorem sumAt_counts_bucket (route : String) (bound : τ) :
    Table.sumAt (o.counts cfg) (.bucket route bound) =
      if o.route = route ∧ bound ∈ cfg.buckets ∧ o.seconds ≤ bound then 1 else 0 := by
  have hbuckets : ∀ bounds : List τ, bounds.Nodup →
      Table.sumAt (bounds.map fun bound => ((.bucket o.route bound : Field τ), 1))
        (.bucket route bound) = if o.route = route ∧ bound ∈ bounds then 1 else 0 := by
    intro bounds hnodup
    induction bounds with
    | nil => simp
    | cons first bounds ih =>
      rw [List.nodup_cons] at hnodup
      rw [List.map_cons, Table.sumAt_cons, ih hnodup.2]
      by_cases hroute : o.route = route
      · by_cases hfirst : first = bound
        · subst hfirst
          simp [hroute, hnodup.1]
        · have hne : ¬ bound = first := fun h => hfirst h.symm
          simp [hroute, hfirst, hne]
      · simp [hroute]
  have hfiltered := hbuckets _ (cfg.distinct.filter fun bound => decide (o.seconds ≤ bound))
  simp only [List.mem_filter, decide_eq_true_eq] at hfiltered
  simp [Observation.counts, hfiltered]

/-- **A request is counted in order.** -/
theorem Orderly.observe (h : Orderly cfg t) (o : Observation τ) :
    Orderly cfg (t.bumpAll (o.counts cfg)) := by
  refine ⟨?_, ?_, ?_⟩
  · intro route bound
    have hreq := (h.order route bound).bump
      (k := .req o.label o.route (toString (o.status / 100) ++ "xx")) (fun heq => by cases heq) 1
    have hcount := hreq.bump (k := .count o.route) (fun heq => by cases heq) 1
    refine hcount.bumpAll ?_
    -- every bucket of this request is one of its route, which is counted already
    intro hmem
    rw [Table.mem_keys_bump]
    simp only [List.map_cons, List.mem_cons, reduceCtorEq, List.map_map, List.mem_map,
      Function.comp_apply, false_or] at hmem
    obtain ⟨bound', -, heq⟩ := hmem
    injection heq with hroute
    exact .inl (by rw [hroute])
  · intro route bound
    have hle := h.within route bound
    rw [Table.value_bumpAll, Table.value_bumpAll, sumAt_counts_bucket, sumAt_counts_count]
    by_cases hroute : o.route = route
    · simp only [hroute, true_and, if_true]
      split <;> omega
    · simp only [hroute, false_and, if_false]
      omega
  · intro route bound bound' hbound hmem
    have hle := h.wider route bound bound' hbound hmem
    rw [Table.value_bumpAll, Table.value_bumpAll, sumAt_counts_bucket, sumAt_counts_bucket]
    by_cases hcounted : o.route = route ∧ bound ∈ cfg.buckets ∧ o.seconds ≤ bound
    · rw [if_pos hcounted, if_pos ⟨hcounted.1, hmem, hcounted.2.2.trans hbound⟩]
      omega
    · rw [if_neg hcounted]
      omega

end Observations

/-! ## Steps -/

section Steps

variable {cfg : Config τ} {s s' : State τ processes}

/-- The counts that a flush leaves to its process. -/
def Flight.returned (f : Flight τ processes) (k : Field τ) : ℕ :=
  if f.status = .failed then f.taken.value k else 0

/-- Where the observations are. -/
structure Conserved (cfg : Config τ) (s : State τ processes) : Prop where
  shared : ∀ k, s.shared.value k = (s.flights.map fun f => Table.sumAt f.arrived k).sum
  counts : ∀ k, ∑ p, (s.process p).counts.value k = (s.flights.map fun f => f.returned k).sum
  observed : ∀ k, s.observed.value k =
    ∑ p, (s.process p).pending.value k + (s.flights.map fun f => f.taken.value k).sum
  done : ∀ f ∈ s.flights, f.status = .done → f.sent = f.taken.rows.length
  pending : ∀ p, Orderly cfg (s.process p).pending
  taken : ∀ f ∈ s.flights, Orderly cfg f.taken

theorem conserved_init (cfg : Config τ) (processes : ℕ) :
    Conserved cfg (system cfg processes).init := by
  refine ⟨fun _ => rfl, ?_, ?_, ?_, fun _ => orderly_empty cfg, ?_⟩
  · intro k
    exact Finset.sum_eq_zero fun _ _ => rfl
  · intro k
    have hnothing : ∑ p, ((system cfg processes).init.process p).pending.value k = 0 :=
      Finset.sum_eq_zero fun _ _ => rfl
    rw [hnothing]
    rfl
  · intro f hf
    cases hf
  · intro f hf
    cases hf

/-- What holds of all flushes holds of them when one is replaced. -/
theorem forall_mem_set {α : Type} {P : α → Prop} {l : List α} {i : ℕ} {y : α}
    (h : ∀ x ∈ l, P x) (hy : P y) : ∀ x ∈ l.set i y, P x := by
  intro x hx
  rcases List.mem_or_eq_of_mem_set hx with hold | hnew
  · exact h x hold
  · exact hnew ▸ hy

/-- The next command of a flush. -/
theorem sumAt_arrived_succ {f : Flight τ processes} {row : Field τ × ℕ}
    (hrow : f.taken.rows[f.sent]? = some row) (k : Field τ) :
    Table.sumAt (f.taken.rows.take (f.sent + 1)) k =
      Table.sumAt f.arrived k + if k = row.1 then row.2 else 0 := by
  rw [List.take_add_one, hrow, Table.sumAt_append, Flight.arrived]
  simp only [Option.toList_some, Table.sumAt_cons, Table.sumAt_nil, Nat.add_zero, eq_comm]

omit [LinearOrder τ] in
/-- What holds of what all processes have pending holds of it when one changes. -/
theorem forall_pending_set {P : Table (Field τ) ℕ → Prop} {p : Fin processes} {process : Process τ}
    (h : ∀ q, P (s.process q).pending) (hp : P process.pending) :
    ∀ q, P ((s.set p process).process q).pending := by
  intro q
  by_cases hq : q = p
  · subst hq
    simpa only [State.set, Function.update_self] using hp
  · simpa only [State.set, Function.update_of_ne hq] using h q

/-- A request is pending. -/
theorem conserved_observe {p : Fin processes} {o : Observation τ} (h : Conserved cfg s)
    (hstep : step cfg s (.observe p o) = some s') : Conserved cfg s' := by
  obtain rfl := Option.some.inj hstep
  refine ⟨h.shared, ?_, ?_, h.done, forall_pending_set h.pending ?_, h.taken⟩
  · intro k
    have hsum := sum_update s.process p (fun q => q.counts.value k)
      { s.process p with pending := (s.process p).pending.bumpAll (o.counts cfg) }
    have hold := h.counts k
    dsimp only at hsum
    simp only [State.set]
    omega
  · intro k
    have hsum := sum_update s.process p (fun q => q.pending.value k)
      { s.process p with pending := (s.process p).pending.bumpAll (o.counts cfg) }
    have hold := h.observed k
    dsimp only at hsum
    rw [Table.value_bumpAll] at hsum
    simp only [State.set, Table.value_bumpAll]
    omega
  · dsimp only
    exact (h.pending p).observe o

/-- What was pending is on its way. -/
theorem conserved_take {p : Fin processes} (h : Conserved cfg s)
    (hstep : step cfg s (.take p) = some s') : Conserved cfg s' := by
  simp only [step] at hstep
  split at hstep
  · cases hstep
  obtain rfl := Option.some.inj hstep
  refine ⟨?_, ?_, ?_, ?_, forall_pending_set h.pending (orderly_empty cfg), ?_⟩
  · intro k
    simp [State.set, Flight.arrived, h.shared k]
  · intro k
    have hsum := sum_update s.process p (fun q => q.counts.value k)
      { s.process p with pending := .empty }
    have hold := h.counts k
    dsimp only at hsum
    simp only [State.set, List.map_append, List.sum_append, List.map_singleton,
      List.sum_singleton, Flight.returned, reduceCtorEq, if_false]
    simp only [Flight.returned] at hold
    omega
  · intro k
    have hsum := sum_update s.process p (fun q => q.pending.value k)
      { s.process p with pending := .empty }
    have hold := h.observed k
    dsimp only at hsum
    rw [Table.value_empty] at hsum
    simp only [State.set, List.map_append, List.sum_append, List.map_singleton,
      List.sum_singleton]
    omega
  · refine List.forall_mem_append.mpr ⟨h.done, List.forall_mem_singleton.mpr ?_⟩
    exact fun hdone => by cases hdone
  · exact List.forall_mem_append.mpr ⟨h.taken, List.forall_mem_singleton.mpr (h.pending p)⟩

/-- The hash counts one command more. -/
theorem conserved_arrive {i : ℕ} (h : Conserved cfg s)
    (hstep : step cfg s (.arrive i) = some s') : Conserved cfg s' := by
  simp only [step] at hstep
  split at hstep
  · cases hstep
  next f hf =>
  split at hstep
  · cases hstep
  next row hrow =>
  obtain rfl := Option.some.inj hstep
  have hmem := List.mem_of_getElem? hf
  refine ⟨?_, ?_, ?_, ?_, h.pending, forall_mem_set h.taken (h.taken f hmem)⟩
  · intro k
    have hsum := sum_map_set hf (fun f => Table.sumAt f.arrived k) { f with sent := f.sent + 1 }
    have hnext := sumAt_arrived_succ hrow k
    have hold := h.shared k
    simp only [Flight.arrived] at hsum hnext hold ⊢
    rw [Table.value_bump]
    omega
  · intro k
    have hsum := sum_map_set hf (fun f => f.returned k) { f with sent := f.sent + 1 }
    have hold := h.counts k
    simp only [Flight.returned] at hsum hold ⊢
    omega
  · intro k
    have hsum := sum_map_set hf (fun f => f.taken.value k) { f with sent := f.sent + 1 }
    have hold := h.observed k
    dsimp only at hsum ⊢
    omega
  · refine forall_mem_set h.done ?_
    intro hdone
    -- nothing comes after the last command
    have hlast := h.done f hmem hdone
    rw [hlast, List.getElem?_eq_none le_rfl] at hrow
    cases hrow

/-- A flush that returns changes no count. -/
theorem conserved_finish {i : ℕ} (h : Conserved cfg s)
    (hstep : step cfg s (.finish i) = some s') : Conserved cfg s' := by
  simp only [step] at hstep
  split at hstep
  · cases hstep
  next f hf =>
  split at hstep
  case isFalse => cases hstep
  case isTrue hready =>
    obtain rfl := Option.some.inj hstep
    have hmem := List.mem_of_getElem? hf
    refine ⟨?_, ?_, ?_, forall_mem_set h.done fun _ => hready.2, h.pending,
      forall_mem_set h.taken (h.taken f hmem)⟩
    · intro k
      have hsum := sum_map_set hf (fun f => Table.sumAt f.arrived k) { f with status := .done }
      have hold := h.shared k
      simp only [Flight.arrived] at hsum hold ⊢
      omega
    · intro k
      have hsum := sum_map_set hf (fun f => f.returned k) { f with status := .done }
      have hold := h.counts k
      simp only [Flight.returned, hready.1, reduceCtorEq, if_false] at hsum hold ⊢
      omega
    · intro k
      have hsum := sum_map_set hf (fun f => f.taken.value k) { f with status := .done }
      have hold := h.observed k
      dsimp only at hsum ⊢
      omega

/-- A flush that raises leaves to its process what it took. -/
theorem conserved_fail {i : ℕ} (h : Conserved cfg s)
    (hstep : step cfg s (.fail i) = some s') : Conserved cfg s' := by
  simp only [step] at hstep
  split at hstep
  · cases hstep
  next f hf =>
  split at hstep
  case isFalse => cases hstep
  case isTrue hsending =>
    obtain rfl := Option.some.inj hstep
    have hmem := List.mem_of_getElem? hf
    refine ⟨?_, ?_, ?_, forall_mem_set h.done (fun hdone => by cases hdone),
      forall_pending_set h.pending (h.pending _), forall_mem_set h.taken (h.taken f hmem)⟩
    · intro k
      have hsum := sum_map_set hf (fun f => Table.sumAt f.arrived k) { f with status := .failed }
      have hold := h.shared k
      simp only [Flight.arrived] at hsum hold
      simp only [State.set, Flight.arrived]
      omega
    · intro k
      have hsum := sum_map_set hf (fun f => f.returned k) { f with status := .failed }
      have hcounts := sum_update s.process f.process (fun q => q.counts.value k)
        { s.process f.process with
          counts := (s.process f.process).counts.bumpAll f.taken.rows }
      have hold := h.counts k
      dsimp only at hcounts
      rw [Table.value_bumpAll, Table.sumAt_rows] at hcounts
      simp only [Flight.returned, hsending, reduceCtorEq, if_false, if_true] at hsum hold
      simp only [State.set, Flight.returned]
      omega
    · intro k
      have hsum := sum_map_set hf (fun f => f.taken.value k) { f with status := .failed }
      have hpending := sum_update s.process f.process (fun q => q.pending.value k)
        { s.process f.process with
          counts := (s.process f.process).counts.bumpAll f.taken.rows }
      have hold := h.observed k
      dsimp only at hsum hpending
      simp only [State.set]
      omega

/-- **A step conserves the observations.** -/
theorem Conserved.step {a : Action τ processes} (h : Conserved cfg s)
    (hstep : step cfg s a = some s') : Conserved cfg s' := by
  cases a with
  | observe p o => exact conserved_observe h hstep
  | take p => exact conserved_take h hstep
  | arrive i => exact conserved_arrive h hstep
  | finish i => exact conserved_finish h hstep
  | fail i => exact conserved_fail h hstep

/-- Of each flush, the commands that did not arrive. -/
def Flight.missing (f : Flight τ processes) (k : Field τ) : ℕ :=
  f.taken.value k - Table.sumAt f.arrived k

theorem arrived_le (f : Flight τ processes) (k : Field τ) :
    Table.sumAt f.arrived k ≤ f.taken.value k := by
  rw [← Table.sumAt_rows]
  exact Table.sumAt_take_le_sumAt _ _ _

/-- The commands of a flush that is done arrived. -/
theorem Conserved.arrived_eq (h : Conserved cfg s) {f : Flight τ processes} (hf : f ∈ s.flights)
    (hdone : f.status = .done) (k : Field τ) : Table.sumAt f.arrived k = f.taken.value k := by
  rw [Flight.arrived, h.done f hf hdone, List.take_length, Table.sumAt_rows]

/-- Sums over the flushes, term by term. -/
theorem sum_map_le {α : Type} {l : List α} {φ ψ : α → ℕ} (h : ∀ x ∈ l, φ x ≤ ψ x) :
    (l.map φ).sum ≤ (l.map ψ).sum := by
  induction l with
  | nil => exact le_rfl
  | cons x l ih =>
    have hx := h x List.mem_cons_self
    have hrest := ih fun y hy => h y (List.mem_cons_of_mem _ hy)
    simp only [List.map_cons, List.sum_cons]
    omega

/-- What flushes took has arrived, was given back, or is on its way. -/
theorem Conserved.taken_le (h : Conserved cfg s) {l : List (Flight τ processes)}
    (hl : ∀ f ∈ l, f ∈ s.flights) (k : Field τ) :
    (l.map fun f => f.taken.value k).sum ≤ (l.map fun f => Table.sumAt f.arrived k).sum +
      ((l.filter fun f => decide (f.status = .sending)).map fun f => f.missing k).sum +
      (l.map fun f => f.returned k).sum := by
  induction l with
  | nil => exact le_rfl
  | cons f l ih =>
    have hrest := ih fun f' hf' => hl f' (List.mem_cons_of_mem _ hf')
    have hle := arrived_le f k
    simp only [List.map_cons, List.sum_cons, List.filter_cons]
    cases hstatus : f.status with
    | sending =>
      have hmissing : f.missing k = f.taken.value k - Table.sumAt f.arrived k := rfl
      rw [if_pos (by simp)]
      simp only [List.map_cons, List.sum_cons]
      omega
    | done =>
      have hall := h.arrived_eq (hl f List.mem_cons_self) hstatus k
      rw [if_neg (by simp)]
      omega
    | failed =>
      have hback : f.returned k = f.taken.value k := by rw [Flight.returned, if_pos hstatus]
      rw [if_neg (by simp)]
      omega

/-- **What a scrape shows.**  Of every field the hash counts no more than there was, and what it
lacks is pending, on its way or in the process's own counts; once nothing is pending and every flush
is done it is complete.  At any time it counts of a route no more requests in a bucket than in all,
and once every flush is done no more in a bucket than in a wider one. -/
theorem scrape_sound (hs : Reachable (system cfg processes) anyStep s) :
    (∀ k, s.shared.value k ≤ s.observed.value k) ∧
    (∀ k, s.observed.value k ≤ s.shared.value k + ∑ p, (s.process p).pending.value k +
      ((s.flights.filter fun f => decide (f.status = .sending)).map fun f => f.missing k).sum +
      ∑ p, (s.process p).counts.value k) ∧
    ((∀ f ∈ s.flights, f.status = .done) → ∀ k,
      s.observed.value k = s.shared.value k + ∑ p, (s.process p).pending.value k) ∧
    (∀ route bound, s.shared.value (.bucket route bound) ≤ s.shared.value (.count route)) ∧
    ((∀ f ∈ s.flights, f.status = .done) → ∀ route bound bound', bound ≤ bound' →
      bound' ∈ cfg.buckets →
        s.shared.value (.bucket route bound) ≤ s.shared.value (.bucket route bound')) := by
  have h : Conserved cfg s := hs.invariant (P := Conserved cfg) (conserved_init cfg processes)
    fun s a s' h _ hstep => h.step hstep
  refine ⟨fun k => ?_, fun k => ?_, fun hdone k => ?_, fun route bound => ?_,
    fun hdone route bound bound' hbound hmem => ?_⟩
  · have harrived := sum_map_le (l := s.flights) fun f _ => arrived_le f k
    have hshared := h.shared k
    have hobserved := h.observed k
    omega
  · have hobserved := h.observed k
    have hshared := h.shared k
    have hcounts := h.counts k
    have hall := h.taken_le (fun _ hf => hf) k
    omega
  · have hobserved := h.observed k
    have hshared := h.shared k
    have harrived : (s.flights.map fun f => Table.sumAt f.arrived k) =
        s.flights.map fun f => f.taken.value k :=
      List.map_congr_left fun f hf => h.arrived_eq hf (hdone f hf) k
    rw [harrived] at hshared
    omega
  · rw [h.shared, h.shared]
    refine sum_map_le fun f hf => ?_
    have horderly := h.taken f hf
    exact Table.sumAt_take_le (horderly.order route bound) (horderly.within route bound) f.sent
  · rw [h.shared, h.shared]
    refine sum_map_le fun f hf => ?_
    rw [h.arrived_eq hf (hdone f hf), h.arrived_eq hf (hdone f hf)]
    exact (h.taken f hf).wider route bound bound' hbound hmem

end Steps

/-! ## A run -/

theorem twoBuckets_distinct : [100, 500].Nodup := by decide

/-- Durations in milliseconds. -/
def twoBuckets : Config ℕ := ⟨[100, 500], twoBuckets_distinct, fun seconds => seconds * 1000⟩

/-- Two processes; the flush of the second one fails after three of its five commands, and one more
arrives later. -/
def brokenFlush {n : ℕ} (p q : Fin n) : List (Action ℕ n) :=
  [.observe p ⟨"GET", "/v1/products", 200, 300⟩, .observe q ⟨"TRACE", "/v1/products", 405, 20⟩,
    .take p, .take q] ++ List.replicate 4 (.arrive p) ++ [.finish p] ++
    List.replicate 3 (.arrive q) ++ [.fail q, .arrive q]

/-- In the middle of it a scrape shows two requests, and one of them in each bucket. -/
theorem scrape_sound_brokenFlush : ∃ s, Reachable (system twoBuckets 2) anyStep s ∧
    s.shared.value (.count "/v1/products") = 2 ∧
    s.shared.value (.bucket "/v1/products" 500) ≤ s.shared.value (.count "/v1/products") := by
  have hdone : (exec (system twoBuckets 2) (system twoBuckets 2).init (brokenFlush 0 1)).map
      (fun s => s.shared.value (.count "/v1/products")) = some 2 := by
    decide +kernel
  obtain ⟨s, hexec, hcount⟩ := Option.map_eq_some_iff.mp hdone
  have hs : Reachable (system twoBuckets 2) anyStep s := ⟨_, run_of_exec hexec⟩
  exact ⟨s, hs, hcount, (scrape_sound hs).2.2.2.1 _ _⟩

end Metrics
