import GraphRec.Lib.Transactions

/-!
# Requests recorded under an id

A request may name an id and a text.  The first that succeeds leaves a record under its id;
a later one under the same id finds the record and is answered from it, or with a conflict
when the record is not of its text.  `Recording` is what each transaction guarantees about
this, `replays` and `once` what follows for a serial history: of two requests under one id
the later has the answer of the earlier and changes nothing, and one of them has left the
record.

* `ι` — the ids, `τ` — the texts, `β` — the records.
-/

namespace Transactions

/-- How the transactions record their requests. -/
structure Recording {σ ν ε ρ ω : Type} (good : ω → List ν → σ → ℕ → Except ε ρ → σ → Prop)
    (ι τ β : Type) where
  /-- The id and the text of a request. -/
  asks : ω → Option (ι × τ)
  find : σ → ι → Option β
  /-- The record is of the text. -/
  isOf : β → τ → Prop
  answer : β → ρ
  conflict : ρ
  answer_ne : ∀ b, answer b ≠ conflict
  /-- A request that finds a record writes nothing and is answered from it. -/
  found : ∀ {op notes s t result s' id text b}, good op notes s t result s' →
    asks op = some (id, text) → find s id = some b → s' = s ∧
      ((isOf b text ∧ result = .ok (answer b)) ∨ (¬ isOf b text ∧ result = .ok conflict))
  /-- A request that finds none is refused and writes nothing, or leaves one of its text. -/
  fresh : ∀ {op notes s t result s' id text}, good op notes s t result s' →
    asks op = some (id, text) → find s id = none →
      (s' = s ∧ (∀ b, result ≠ .ok (answer b)) ∧ result ≠ .ok conflict) ∨
        ∃ b, find s' id = some b ∧ isOf b text ∧ result = .ok (answer b)
  /-- A record stays. -/
  kept : ∀ {op notes s t result s' id b}, good op notes s t result s' → find s id = some b →
    find s' id = some b
  /-- A record is left by a request for it. -/
  left : ∀ {op notes s t result s' id b}, good op notes s t result s' → find s id = none →
    find s' id = some b → ∃ text, asks op = some (id, text)

namespace Recording

variable {σ ν ε ρ ω ι τ β : Type} {good : ω → List ν → σ → ℕ → Except ε ρ → σ → Prop}
  (r : Recording good ι τ β)

/-- The request was answered from a record. -/
def Answered (e : Entry σ ν ε ρ ω) (id : ι) (text : τ) (b : β) : Prop :=
  r.asks e.op = some (id, text) ∧ e.result = .ok (r.answer b)

/-- The later of two requests under one id, when the earlier was answered from a record: the
same answer for the same text, a conflict for another, and nothing changed. -/
def Replays (e e' : Entry σ ν ε ρ ω) : Prop :=
  ∀ id text text' b, r.Answered e id text b → r.asks e'.op = some (id, text') →
    e'.after = e'.before ∧ (text = text' → e'.result = .ok (r.answer b)) ∧
      (text ≠ text' → e'.result = .ok r.conflict)

/-- What an answered request leaves: a record of its text with its answer. -/
def Leaves (e : Entry σ ν ε ρ ω) (s : σ) : Prop :=
  ∀ id text b, r.Answered e id text b →
    ∃ b', r.find s id = some b' ∧ r.isOf b' text ∧ r.answer b' = r.answer b

theorem leaves {e : Entry σ ν ε ρ ω} (h : good e.op e.notes e.before e.time e.result e.after) :
    r.Leaves e e.after := by
  rintro id text b ⟨hasks, hanswer⟩
  cases hfind : r.find e.before id with
  | none =>
      rcases r.fresh h hasks hfind with ⟨-, hnone, -⟩ | ⟨b', hb', hof, hresult⟩
      · exact absurd hanswer (hnone b)
      · exact ⟨b', hb', hof, Except.ok.inj (hresult.symm.trans hanswer)⟩
  | some b' =>
      obtain ⟨hsame, hcase⟩ := r.found h hasks hfind
      rcases hcase with ⟨hof, hresult⟩ | ⟨-, hresult⟩
      · exact ⟨b', hsame ▸ hfind, hof, Except.ok.inj (hresult.symm.trans hanswer)⟩
      · exact absurd (Except.ok.inj (hanswer.symm.trans hresult)) (r.answer_ne b)

/-- What is left stays. -/
theorem Leaves.kept {e : Entry σ ν ε ρ ω} {op : ω} {notes : List ν} {s s' : σ} {t : ℕ}
    {result : Except ε ρ} (hleft : r.Leaves e s) (hgood : good op notes s t result s') :
    r.Leaves e s' := by
  intro id text b hanswered
  obtain ⟨b', hb', hof, hsame⟩ := hleft id text b hanswered
  exact ⟨b', r.kept hgood hb', hof, hsame⟩

variable {inv : σ → ℕ → Prop} {s₀ s : σ} {t₀ t : ℕ} {log : List (Entry σ ν ε ρ ω)}

/-- **Replays.**  When a record is of one text only, any two requests of a history that
name one id are a request and its replay. -/
theorem replays (hone : ∀ b text text', r.isOf b text → r.isOf b text' → text = text')
    (h : Serial inv good s₀ t₀ log s t) : log.Pairwise r.Replays := by
  refine (h.pairwise (K := r.Leaves) (fun e _ hgood => r.leaves hgood)
    (fun e _ _ _ _ _ _ _ hleft hgood => Leaves.kept r hleft hgood) ?_).1
  intro e e' _ hleft hgood id text text' b hanswered hasks
  obtain ⟨b', hb', hof, hsame⟩ := hleft id text b hanswered
  obtain ⟨hsame', hcase⟩ := r.found hgood hasks hb'
  refine ⟨hsame', ?_, ?_⟩
  · rintro rfl
    rcases hcase with ⟨-, hresult⟩ | ⟨hnot, -⟩
    · rw [hresult, hsame]
    · exact absurd hof hnot
  · intro hne
    rcases hcase with ⟨hof', -⟩ | ⟨-, hresult⟩
    · exact absurd (hone b' text text' hof hof') hne
    · exact hresult

/-- The request left the record under its id. -/
def Records (e : Entry σ ν ε ρ ω) (id : ι) (b : β) : Prop :=
  (∃ text, r.Answered e id text b) ∧ r.find e.before id = none ∧ r.find e.after id = some b

/-- A record that was not there at first was left by a request of the history. -/
theorem recorded (h : Serial inv good s₀ t₀ log s t) {id : ι} {b : β}
    (hb : r.find s id = some b) : r.find s₀ id = some b ∨ ∃ e ∈ log, r.Records e id b := by
  induction h with
  | nil => exact Or.inl hb
  | snoc entry _ hbefore _ _ hgood ih =>
      cases hfind : r.find entry.before id with
      | some b' =>
          rw [r.kept hgood hfind] at hb
          obtain rfl := Option.some.inj hb
          rw [hbefore] at hfind
          exact (ih hfind).imp_right fun ⟨e, he, hrecords⟩ =>
            ⟨e, List.mem_append_left _ he, hrecords⟩
      | none =>
          obtain ⟨text, hasks⟩ := r.left hgood hfind hb
          refine Or.inr ⟨entry, List.mem_append_right _ (List.mem_singleton_self _), ?_⟩
          rcases r.fresh hgood hasks hfind with ⟨hsame, -, -⟩ | ⟨b', hb', -, hresult⟩
          · rw [hsame, hfind] at hb
            cases hb
          · rw [hb] at hb'
            obtain rfl := Option.some.inj hb'
            exact ⟨⟨text, hasks, hresult⟩, hfind, hb⟩

/-- **Once.**  When a request of a history was answered, under an id that had no record at
first, a request of the history left the record with that answer. -/
theorem once (h : Serial inv good s₀ t₀ log s t) {e : Entry σ ν ε ρ ω} (he : e ∈ log) {id : ι}
    {text : τ} {b : β} (hanswered : r.Answered e id text b) (hnone : r.find s₀ id = none) :
    ∃ e' ∈ log, ∃ b', r.Records e' id b' ∧ r.answer b' = r.answer b := by
  have hleft := (h.pairwise (K := r.Leaves) (R := fun _ _ => True)
    (fun e _ hgood => r.leaves hgood)
    (fun e _ _ _ _ _ _ _ hleft hgood => Leaves.kept r hleft hgood)
    (fun _ _ _ _ _ => trivial)).2 e he
  obtain ⟨b', hb', -, hsame⟩ := hleft id text b hanswered
  rcases r.recorded h hb' with hfirst | ⟨e', he', hrecords⟩
  · rw [hnone] at hfirst
    cases hfirst
  · exact ⟨e', he', b', hrecords, hsame⟩

end Recording

end Transactions
