import GraphRec.Lib.RowSecurity

/-!
# Isolation by row-level security

When the policies admit to a transaction the rows of its tenant, and to read shared ones, the other
tenants cannot be seen in what a tenant reads or is answered.

* `Scoped` — such policies;
* `perform_own`, `perform_other` — a statement reads and writes the rows of its tenant only;
* `same_of_runs` — a tenant sees the same in any two runs in which its transactions do the same.

Whether a statement violates a constraint is part of what it does: a unique key may span tenants.
-/

namespace RowSecurity

open Transition

/-! ## The transactions that versions come from -/

/-- The transaction has made the version, or taken it away. -/
def Version.touchedBy {τ ρ : Type} (v : Version τ ρ) (y : ℕ) : Prop :=
  y = v.created ∨ v.deleted = some y

section Touched

variable {κ τ ρ β : Type} [DecidableEq κ] {p : Policies κ τ ρ}
  {phase phase' : ℕ → Option (Phase κ)} {x : ℕ} {who : Option κ} {violates : Bool}
  {v : Version τ ρ} {vs vs' : List (Version τ ρ)}

/-- What is seen of a version depends on these transactions only. -/
theorem visible_congr (h : ∀ y, v.touchedBy y → phase y = phase' y) :
    v.visible phase x = v.visible phase' x ∧ v.locked phase x = v.locked phase' x := by
  unfold Version.visible Version.locked sees
  rw [h v.created (Or.inl rfl)]
  cases hdeleted : v.deleted with
  | none => exact ⟨rfl, rfl⟩
  | some y =>
    rw [Option.any_some, Option.any_some, Option.any_some, Option.any_some,
      h y (Or.inr hdeleted)]
    exact ⟨rfl, rfl⟩

omit [DecidableEq κ] in
/-- A version is an old one, or one that the transaction has taken away, or a new one of it. -/
theorem Performed.touched (h : Performed p x who vs vs') (hv : v ∈ vs') {y : ℕ}
    (hy : v.touchedBy y) : y = x ∨ ∃ old ∈ vs, old.touchedBy y := by
  cases h with
  | nothing => exact Or.inr ⟨v, hv, hy⟩
  | changed =>
    rcases List.mem_append.mp hv with hmarked | hfresh
    · obtain ⟨old, hold, rfl⟩ := List.mem_map.mp hmarked
      unfold mark at hy
      split at hy
      · rcases hy with hcreated | hdeleted
        · exact Or.inr ⟨old, hold, Or.inl hcreated⟩
        · exact Or.inl (Option.some.inj hdeleted).symm
      · exact Or.inr ⟨old, hold, hy⟩
    · obtain ⟨row, -, rfl⟩ := List.mem_map.mp hfresh
      rcases hy with hcreated | hdeleted
      · exact Or.inl hcreated
      · cases hdeleted

variable [DecidableEq τ]

theorem view_congr (h : ∀ v ∈ vs, ∀ y, v.touchedBy y → phase y = phase' y) :
    view p phase x who vs = view p phase' x who vs := by
  funext t
  refine congrArg (List.map Version.row) (List.filter_congr ?_)
  intro v hv
  rw [(visible_congr (h v hv)).1]

theorem rewrite_congr (h : ∀ v ∈ vs, ∀ y, v.touchedBy y → phase y = phase' y) {t : τ}
    {clause : Clause} {set : ρ → Option (List ρ)} :
    rewrite (β := β) p phase x who violates t clause set vs =
      rewrite p phase' x who violates t clause set vs := by
  have hhits : ∀ v ∈ vs, hit p phase x who t clause (fun r => (set r).isSome) v =
      hit p phase' x who t clause (fun r => (set r).isSome) v := by
    intro v hv
    unfold hit
    rw [(visible_congr (h v hv)).1]
  have hmarked : vs.map (mark x (hit p phase x who t clause fun r => (set r).isSome)) =
      vs.map (mark x (hit p phase' x who t clause fun r => (set r).isSome)) := by
    refine List.map_congr_left ?_
    intro v hv
    unfold mark
    rw [hhits v hv]
  have hlocked : (vs.any fun v => hit p phase x who t clause (fun r => (set r).isSome) v &&
        v.locked phase x) =
      vs.any fun v => hit p phase' x who t clause (fun r => (set r).isSome) v &&
        v.locked phase' x := by
    rw [Bool.eq_iff_iff, List.any_eq_true, List.any_eq_true]
    refine exists_congr fun v => and_congr_right fun hv => ?_
    rw [hhits v hv, (visible_congr (h v hv)).2]
  unfold rewrite
  dsimp only
  rw [List.filter_congr hhits, hmarked, hlocked]

/-- A statement depends on these transactions only. -/
theorem perform_congr (h : ∀ v ∈ vs, ∀ y, v.touchedBy y → phase y = phase' y)
    (statement : Statement τ ρ β) : perform p phase x who violates vs statement =
      perform p phase' x who violates vs statement := by
  cases statement with
  | select | insert => simp only [perform, view_congr h]
  | update | delete => simp only [perform, view_congr h, rewrite_congr h]

end Touched

/-! ## The policies keep to the tenant -/

/-- What is admitted belongs to the tenant of the transaction, or is shared and only read. -/
structure Scoped {κ τ ρ : Type} (owner : τ → ρ → Option κ) (p : Policies κ τ ρ) : Prop where
  reads : ∀ {t who r}, p.allows .select t who r = true → owner t r = none ∨ owner t r = who
  writes : ∀ {clause t who r}, clause ≠ .select → p.allows clause t who r = true →
    owner t r = who ∧ who ≠ none

section Scoped

variable {κ τ ρ β : Type} [DecidableEq κ] {owner : τ → ρ → Option κ} {p : Policies κ τ ρ}
  {phase : ℕ → Option (Phase κ)} {x : ℕ} {who : Option κ} {k : κ}
  {vs vs' : List (Version τ ρ)}

/-- Does the row concern the tenant: is it one of its own, or shared? -/
def concerns (owner : τ → ρ → Option κ) (k : κ) (v : Version τ ρ) : Bool :=
  decide (owner v.table v.row = none) || decide (owner v.table v.row = some k)

theorem concerns_iff {v : Version τ ρ} :
    concerns owner k v = true ↔ owner v.table v.row = none ∨ owner v.table v.row = some k := by
  simp only [concerns, Bool.or_eq_true, decide_eq_true_eq]

theorem concerns_mark {hits : Version τ ρ → Bool} (v : Version τ ρ) :
    concerns owner k (mark x hits v) = concerns owner k v := by
  unfold mark
  split <;> rfl

/-- Rows of another tenant do not concern this one. -/
theorem filter_fresh_other {t : τ} {rows : List ρ} (hwho : who ≠ some k)
    (howner : ∀ r ∈ rows, owner t r = who ∧ who ≠ none) :
    (fresh x t rows).filter (concerns owner k) = [] := by
  refine List.filter_eq_nil_iff.mpr ?_
  intro v hv
  obtain ⟨r, hr, rfl⟩ := List.mem_map.mp hv
  obtain ⟨hown, hsome⟩ := howner r hr
  rw [concerns_iff, hown]
  exact not_or.mpr ⟨hsome, hwho⟩

/-- Those of its own do. -/
theorem filter_fresh_own {t : τ} {rows : List ρ} (howner : ∀ r ∈ rows, owner t r = some k) :
    (fresh x t rows).filter (concerns owner k) = fresh x t rows := by
  refine List.filter_eq_self.mpr ?_
  intro v hv
  obtain ⟨r, hr, rfl⟩ := List.mem_map.mp hv
  exact concerns_iff.mpr (Or.inr (howner r hr))

/-- Taking away versions of another tenant leaves those of this one. -/
theorem filter_mark_other {hits : Version τ ρ → Bool}
    (hhits : ∀ v, hits v = true → concerns owner k v = false) :
    (vs.map (mark x hits)).filter (concerns owner k) = vs.filter (concerns owner k) := by
  induction vs with
  | nil => rfl
  | cons v vs ih =>
    rw [List.map_cons, List.filter_cons, List.filter_cons, concerns_mark, ih]
    cases hv : concerns owner k v with
    | false => rfl
    | true =>
      have hmiss : hits v = false := by
        cases hhit : hits v with
        | false => rfl
        | true => exact absurd hv (by rw [hhits v hhit]; decide)
      rw [mark, hmiss]
      rfl

theorem filter_mark_own {hits : Version τ ρ → Bool} :
    (vs.map (mark x hits)).filter (concerns owner k) =
      (vs.filter (concerns owner k)).map (mark x hits) := by
  rw [List.filter_map]
  refine congrArg (List.map (mark x hits)) (List.filter_congr ?_)
  intro v _
  exact concerns_mark v

/-- Versions that are hit are among those that concern the tenant. -/
theorem filter_hits {hits : Version τ ρ → Bool}
    (hhits : ∀ v, hits v = true → concerns owner k v = true) :
    (vs.filter (concerns owner k)).filter hits = vs.filter hits := by
  rw [List.filter_filter]
  refine List.filter_congr ?_
  intro v _
  cases hhit : hits v with
  | false => rw [Bool.false_and]
  | true => rw [Bool.true_and, hhits v hhit]

theorem any_hits {hits locked : Version τ ρ → Bool}
    (hhits : ∀ v, hits v = true → concerns owner k v = true) :
    ((vs.filter (concerns owner k)).any fun v => hits v && locked v) =
      vs.any fun v => hits v && locked v := by
  rw [List.any_filter]
  congr 1
  funext v
  cases hhit : hits v with
  | false => simp
  | true => simp [hhits v hhit]

variable [DecidableEq τ]

/-- The rows of a tenant are all it sees. -/
theorem view_filter (h : Scoped owner p) :
    view p phase x (some k) (vs.filter (concerns owner k)) = view p phase x (some k) vs := by
  funext t
  rw [view, view, List.filter_filter]
  refine congrArg (List.map Version.row) (List.filter_congr ?_)
  intro v _
  cases hseen : decide (v.table = t) && v.visible phase x && p.allows .select t (some k) v.row with
  | false => rw [Bool.false_and]
  | true =>
    simp only [Bool.and_eq_true, decide_eq_true_eq] at hseen
    obtain ⟨⟨rfl, -⟩, hallowed⟩ := hseen
    rw [Bool.true_and]
    exact concerns_iff.mpr (h.reads hallowed)

/-- What a change is about belongs to the tenant of its transaction. -/
theorem owner_of_hit (h : Scoped owner p) {t : τ} {clause : Clause} (hclause : clause ≠ .select)
    {target : ρ → Bool} {v : Version τ ρ} (hhit : hit p phase x who t clause target v = true) :
    v.table = t ∧ owner v.table v.row = who ∧ who ≠ none := by
  simp only [hit, Bool.and_eq_true, decide_eq_true_eq] at hhit
  obtain ⟨⟨⟨⟨rfl, -⟩, -⟩, hallowed⟩, -⟩ := hhit
  exact ⟨rfl, h.writes hclause hallowed⟩

/-! ### A change -/

/-- A change by the tenant is one of its own rows. -/
theorem rewrite_own (h : Scoped owner p) {violates : Bool} {t : τ} {clause : Clause}
    (hclause : clause ≠ .select) {set : ρ → Option (List ρ)} :
    rewrite (β := β) p phase x (some k) violates t clause set (vs.filter (concerns owner k)) =
      (rewrite p phase x (some k) violates t clause set vs).map fun done =>
        (done.1.filter (concerns owner k), done.2) := by
  have hhits : ∀ v, hit p phase x (some k) t clause (fun r => (set r).isSome) v = true →
      concerns owner k v = true := by
    intro v hv
    obtain ⟨-, hown, -⟩ := owner_of_hit h hclause hv
    exact concerns_iff.mpr (Or.inr hown)
  unfold rewrite
  simp only [any_hits hhits, filter_hits hhits]
  split
  · rfl
  · split
    · rfl
    · split
      · next hchecked =>
        rw [Option.map_some, List.filter_append, filter_mark_own, filter_fresh_own]
        intro r hr
        exact (h.writes (by decide) (List.all_eq_true.mp hchecked r hr)).1
      · rfl

/-! ### A statement -/

/-- **A statement of another tenant** leaves the rows that concern this one. -/
theorem perform_other (h : Scoped owner p) (hwho : who ≠ some k) {violates : Bool}
    {statement : Statement τ ρ β} {a : Answer β}
    (hperform : perform p phase x who violates vs statement = some (vs', a)) :
    vs'.filter (concerns owner k) = vs.filter (concerns owner k) := by
  cases perform_performed hperform with
  | nothing => rfl
  | changed hhits hrows =>
    rw [List.filter_append, filter_mark_other ?_, filter_fresh_other hwho ?_, List.append_nil]
    · intro r hr
      obtain ⟨clause, hclause, hallowed⟩ := hrows r hr
      exact h.writes hclause hallowed
    · intro v hv
      obtain ⟨clause, hclause, -, hallowed⟩ := hhits v hv
      obtain ⟨hown, hsome⟩ := h.writes (by rcases hclause with rfl | rfl <;> decide) hallowed
      rw [← Bool.not_eq_true, concerns_iff, hown]
      exact not_or.mpr ⟨hsome, hwho⟩

/-- **A statement of the tenant** does to its rows what it would do without any others. -/
theorem perform_own (h : Scoped owner p) {violates : Bool} (statement : Statement τ ρ β) :
    perform p phase x (some k) violates (vs.filter (concerns owner k)) statement =
      (perform p phase x (some k) violates vs statement).map fun done =>
        (done.1.filter (concerns owner k), done.2) := by
  cases statement with
  | select query => simp only [perform, view_filter h, Option.map_some]
  | insert t rows =>
    simp only [perform, view_filter h]
    split
    · rfl
    · split
      · rfl
      · split
        · next hchecked =>
          rw [Option.map_some, List.filter_append, filter_fresh_own]
          intro r hr
          exact (h.writes (by decide) (List.all_eq_true.mp hchecked r hr)).1
        · rfl
  | update t set =>
    simp only [perform, view_filter h]
    split
    · rfl
    · exact rewrite_own h (by decide)
  | delete t matching =>
    simp only [perform, view_filter h]
    split
    · rfl
    · exact rewrite_own h (by decide)

end Scoped

/-! ## What a tenant sees of two runs -/

section System

variable {κ τ ρ β : Type} [DecidableEq κ] [DecidableEq τ]
  {p : Authority → Policies κ τ ρ} {owner : τ → ρ → Option κ}
  {first s s' s₁ s₁' t t' : Database κ τ ρ β} {k : κ} {mine : ℕ → Bool}
  {a : Action κ τ ρ β} {as bs : List (Action κ τ ρ β)}

/-- The transaction has committed, or been rolled back. -/
def Ended (phase : Option (Phase κ)) : Prop := phase = some .committed ∨ phase = some .aborted

omit [DecidableEq κ] in
theorem not_ended_none : ¬ Ended (none : Option (Phase κ)) := by
  rintro (h | h) <;> cases h

omit [DecidableEq κ] in
theorem not_ended_running {who : Option κ} : ¬ Ended (some (.running who)) := by
  rintro (h | h) <;> cases h

/-- No transaction is at work, and those that the versions come from have ended. -/
structure Database.Quiet (s : Database κ τ ρ β) : Prop where
  idle : ∀ x who, s.phase x ≠ some (.running who)
  ended : ∀ v ∈ s.versions, ∀ y, v.touchedBy y → Ended (s.phase y)

/-- No other transaction than these works for the tenant, and no function is called. -/
def within (mine : ℕ → Bool) (k : κ) : Action κ τ ρ β → Prop
  | .setTenant x k' => k' = k → mine x = true
  | .run _ authority _ _ => authority = .role
  | .start _ | .finish _ _ => True

/-- The steps of these transactions. -/
def own (mine : ℕ → Bool) (as : List (Action κ τ ρ β)) : List (Action κ τ ρ β) :=
  as.filter fun a => mine a.actor

/-- Two databases are the same to a tenant whose transactions these are: they have the versions
that concern it, from transactions that are as far in both, and have given it the same answers. -/
structure SameTo (owner : τ → ρ → Option κ) (mine : ℕ → Bool) (k : κ) (s s' : Database κ τ ρ β) :
    Prop where
  versions : s.versions.filter (concerns owner k) = s'.versions.filter (concerns owner k)
  phase : ∀ x, mine x = true → s.phase x = s'.phase x
  touched : ∀ v ∈ s.versions.filter (concerns owner k), ∀ y, v.touchedBy y →
    mine y = true ∨ (Ended (s.phase y) ∧ s.phase y = s'.phase y)
  others : ∀ x, mine x = false →
    s.phase x ≠ some (.running (some k)) ∧ s'.phase x ≠ some (.running (some k))
  answers : s.answers.filter (fun e => decide (e.1 = some k)) =
    s'.answers.filter fun e => decide (e.1 = some k)

omit [DecidableEq τ] in
theorem SameTo.of_quiet (h : s.Quiet) : SameTo owner mine k s s where
  versions := rfl
  phase := fun _ _ => rfl
  touched := fun v hv y hy => Or.inr ⟨h.ended v (List.mem_of_mem_filter hv) y hy, rfl⟩
  others := fun x _ => ⟨h.idle x _, h.idle x _⟩
  answers := rfl

omit [DecidableEq τ] in
theorem SameTo.symm (h : SameTo owner mine k s s') : SameTo owner mine k s' s where
  versions := h.versions.symm
  phase := fun x hx => (h.phase x hx).symm
  touched := by
    intro v hv y hy
    rw [← h.versions] at hv
    refine (h.touched v hv y hy).imp_right ?_
    rintro ⟨hended, hsame⟩
    exact ⟨hsame ▸ hended, hsame.symm⟩
  others := fun x hx => (h.others x hx).symm
  answers := h.answers.symm

omit [DecidableEq τ] in
/-- The transactions that the versions come from are as far in both. -/
theorem SameTo.agree (h : SameTo owner mine k s s') :
    ∀ v ∈ s.versions.filter (concerns owner k), ∀ y, v.touchedBy y → s.phase y = s'.phase y :=
  fun v hv y hy => (h.touched v hv y hy).elim (h.phase y) And.right

/-- Its transactions see the same rows in both. -/
theorem SameTo.view_eq (h : SameTo owner mine k s s') (hp : Scoped owner (p .role)) (x : ℕ) :
    view (p .role) s.phase x (some k) s.versions =
      view (p .role) s'.phase x (some k) s'.versions := by
  rw [← view_filter hp, view_congr h.agree, h.versions, view_filter hp]

omit [DecidableEq τ] in
/-- Another transaction goes on. -/
theorem SameTo.phase_left (h : SameTo owner mine k s s') {x : ℕ} {new : Phase κ}
    (hx : mine x = false) (hbusy : ¬ Ended (s.phase x)) (hnew : new ≠ .running (some k)) :
    SameTo owner mine k { s with phase := Function.update s.phase x (some new) } s' where
  versions := h.versions
  phase := by
    intro y hy
    have hne : y ≠ x := ne_of_apply_ne mine (by rw [hy, hx]; decide)
    exact (Function.update_of_ne hne _ _).trans (h.phase y hy)
  touched := by
    intro v hv y hy
    refine (h.touched v hv y hy).imp_right ?_
    rintro ⟨hended, hsame⟩
    have hne : y ≠ x := by
      rintro rfl
      exact hbusy hended
    dsimp only
    rw [Function.update_of_ne hne]
    exact ⟨hended, hsame⟩
  others := by
    intro y hy
    refine ⟨?_, (h.others y hy).2⟩
    dsimp only
    by_cases hne : y = x
    · subst hne
      rw [Function.update_self]
      exact fun heq => hnew (Option.some.inj heq)
    · rw [Function.update_of_ne hne]
      exact (h.others y hy).1
  answers := h.answers

omit [DecidableEq τ] in
/-- A transaction of the tenant goes on in both. -/
theorem SameTo.phase_both (h : SameTo owner mine k s s') {x : ℕ} (new : Option (Phase κ))
    (hx : mine x = true) :
    SameTo owner mine k { s with phase := Function.update s.phase x new }
      { s' with phase := Function.update s'.phase x new } where
  versions := h.versions
  phase := by
    intro y hy
    by_cases hne : y = x
    · subst hne
      simp only [Function.update_self]
    · simp only [Function.update_of_ne hne]
      exact h.phase y hy
  touched := by
    intro v hv y hy
    by_cases hne : y = x
    · exact Or.inl (hne ▸ hx)
    · simp only [Function.update_of_ne hne]
      exact h.touched v hv y hy
  others := by
    intro y hy
    have hne : y ≠ x := ne_of_apply_ne mine (by rw [hy, hx]; decide)
    simp only [Function.update_of_ne hne]
    exact h.others y hy
  answers := h.answers

/-- **Step.**  What another transaction does is not seen. -/
theorem SameTo.left (hp : Scoped owner (p .role)) (h : SameTo owner mine k s s')
    (ha : mine a.actor = false) (hok : within mine k a) (hstep : step p s a = some s₁) :
    SameTo owner mine k s₁ s' := by
  cases a with
  | run x authority statement violates =>
    obtain rfl : authority = .role := hok
    obtain ⟨who, vs, answer, hphase, hperform, rfl⟩ := step_run hstep
    have hwho : who ≠ some k := by
      rintro rfl
      exact (h.others x ha).1 hphase
    have hversions := perform_other hp hwho hperform
    refine ⟨hversions.trans h.versions, h.phase, ?_, h.others, ?_⟩
    · dsimp only
      rw [hversions]
      exact h.touched
    · have hother : decide (who = some k) = false := decide_eq_false hwho
      simp only [List.filter_append, List.filter_singleton, hother, h.answers]
      exact List.append_nil _
  | start x =>
    simp only [step] at hstep
    split at hstep
    · next hphase =>
      obtain rfl := Option.some.inj hstep
      refine h.phase_left ha (fun hended => not_ended_none (hphase ▸ hended)) ?_
      intro hnew
      cases hnew
    · cases hstep
  | setTenant x k' =>
    simp only [step] at hstep
    split at hstep
    · next hphase =>
      obtain rfl := Option.some.inj hstep
      refine h.phase_left ha (fun hended => not_ended_running (hphase ▸ hended)) ?_
      intro hnew
      injection hnew with hnew
      cases ha.symm.trans (hok (Option.some.inj hnew))
    · cases hstep
  | finish x commits =>
    simp only [step] at hstep
    split at hstep
    · next hphase =>
      obtain rfl := Option.some.inj hstep
      refine h.phase_left ha (fun hended => not_ended_running (hphase ▸ hended)) ?_
      intro hnew
      cases commits <;> cases hnew
    · cases hstep

/-- **Step.**  What a transaction of the tenant does, it does in both. -/
theorem SameTo.both (hp : Scoped owner (p .role)) (h : SameTo owner mine k s s')
    (ha : mine a.actor = true) (hok : within mine k a) (hstep : step p s a = some s₁)
    (hstep' : step p s' a = some s₁') : SameTo owner mine k s₁ s₁' := by
  cases a with
  | run x authority statement violates =>
    obtain rfl : authority = .role := hok
    obtain ⟨who, vs, answer, hphase, hperform, rfl⟩ := step_run hstep
    obtain ⟨who', vs', answer', hphase', hperform', rfl⟩ := step_run hstep'
    rw [← h.phase x ha, hphase] at hphase'
    obtain rfl : who = who' := by
      injection hphase' with hphase'
      injection hphase'
    by_cases hwho : who = some k
    · subst hwho
      have hown : perform (p .role) s.phase x (some k) violates
          (s.versions.filter (concerns owner k)) statement =
            some (vs.filter (concerns owner k), answer) := by
        rw [perform_own hp, hperform, Option.map_some]
      have hown' : perform (p .role) s.phase x (some k) violates
          (s.versions.filter (concerns owner k)) statement =
            some (vs'.filter (concerns owner k), answer') := by
        rw [perform_congr h.agree, h.versions, perform_own hp, hperform', Option.map_some]
      obtain ⟨hversions, rfl⟩ := Prod.mk.inj (Option.some.inj (hown.symm.trans hown'))
      refine ⟨hversions, h.phase, ?_, h.others, ?_⟩
      · intro v hv y hy
        rcases (perform_performed hown).touched hv hy with rfl | ⟨old, hold, hy'⟩
        · exact Or.inl ha
        · exact h.touched old hold y hy'
      · simp only [List.filter_append, h.answers]
    · have hversions := perform_other hp hwho hperform
      refine ⟨hversions.trans (h.versions.trans (perform_other hp hwho hperform').symm), h.phase,
        ?_, h.others, ?_⟩
      · dsimp only
        rw [hversions]
        exact h.touched
      · have hother : decide (who = some k) = false := decide_eq_false hwho
        simp only [List.filter_append, List.filter_singleton, hother, h.answers]
        rfl
  | start x | setTenant x k' | finish x commits =>
    simp only [step] at hstep hstep'
    split at hstep
    · split at hstep'
      · obtain rfl := Option.some.inj hstep
        obtain rfl := Option.some.inj hstep'
        exact h.phase_both _ ha
      · cases hstep'
    · cases hstep

/-- A run of the others, up to the next step of a transaction of the tenant. -/
theorem SameTo.skip {rest : List (Action κ τ ρ β)} (hp : Scoped owner (p .role))
    (hrun : Run (database p first) (fun _ => within mine k) s' bs t') (h : SameTo owner mine k s s')
    (hown : own mine bs = a :: rest) :
    ∃ mid mid' bs', SameTo owner mine k s mid ∧ step p mid a = some mid' ∧ within mine k a ∧
      Run (database p first) (fun _ => within mine k) mid' bs' t' ∧ own mine bs' = rest := by
  induction hrun with
  | nil => cases hown
  | @cons s' mid t' b bs hok hstep hrest ih =>
    unfold own at hown
    rw [List.filter_cons] at hown
    split at hown
    · injection hown with hhead htail
      subst hhead
      exact ⟨s', mid, bs, h, hstep, hok, hrest, htail⟩
    · next hb =>
      rw [Bool.not_eq_true] at hb
      exact ih (h.symm.left hp hb hok hstep).symm hown

/-- A run of the others. -/
theorem SameTo.skip_all (hp : Scoped owner (p .role))
    (hrun : Run (database p first) (fun _ => within mine k) s' bs t') (h : SameTo owner mine k s s')
    (hown : own mine bs = []) : SameTo owner mine k s t' := by
  induction hrun with
  | nil => exact h
  | @cons s' mid t' b bs hok hstep hrest ih =>
    unfold own at hown
    rw [List.filter_cons] at hown
    split at hown
    · cases hown
    · next hb =>
      rw [Bool.not_eq_true] at hb
      exact ih (h.symm.left hp hb hok hstep).symm hown

/-- **Non-interference.**  In two runs in which the transactions of a tenant do the same, the
tenant is answered the same and finds the same rows, whatever the others do. -/
theorem same_of_runs (hp : Scoped owner (p .role)) (h : SameTo owner mine k s s')
    (hrun : Run (database p first) (fun _ => within mine k) s as t)
    (hrun' : Run (database p first) (fun _ => within mine k) s' bs t')
    (hown : own mine as = own mine bs) :
    SameTo owner mine k t t' := by
  induction hrun generalizing s' bs with
  | nil s => exact h.skip_all hp hrun' hown.symm
  | @cons s mid t a as hok hstep _ ih =>
    cases ha : mine a.actor with
    | true =>
      have hhead : own mine bs = a :: own mine as := by
        rw [← hown, own, List.filter_cons, if_pos ha, own]
      obtain ⟨mid₂, mid', bs', hsame, hstep', -, hrest, htail⟩ := h.skip hp hrun' hhead
      exact ih (hsame.both hp ha hok hstep hstep') hrest htail.symm
    | false =>
      have hskip : own mine as = own mine bs := by
        rw [← hown, own, own, List.filter_cons, if_neg (by rw [ha]; decide)]
      exact ih (h.left hp ha hok hstep) hrun' hskip

end System

end RowSecurity
