import GraphRec.Lib.Transition
import Mathlib.Data.List.Infix
import Mathlib.Logic.Function.Basic
import Mathlib.Order.Lattice

/-!
# What the pages of the console show

A page shows what `useResource` returns: the result of its last load, which belongs to an identity
(the session and the parameters).  Loads read through `client.ts`, which lets equal reads share a
promise, and which tells the resources that a write has succeeded.

What a load reads is the version of the data on the server.  Renders, effects, loads, reads, answers
and writes interleave in any way.

* `Inv.step` — what every step keeps;
* `shows_own_writes` — a page shows results of its own identity only, those of the last load, with
  every write that it was told of, and it does not wait for nothing.
-/

namespace Web.Resource

open Transition

abbrev HookId := ℕ

abbrev PromiseId := ℕ

/-- Each change of the session or of a parameter makes a new one. -/
abbrev Identity := ℕ

/-- How many writes the server had done. -/
abbrev Version := ℕ

/-! ## One resource -/

/-- The data of a resource. -/
inductive Data
  /-- Of a load, with the versions it read. -/
  | loaded (mine : ℕ) (identity : Identity) (versions : List Version)
  /-- `setData`. -/
  | set (identity : Identity)
  deriving DecidableEq

/-- What the hook keeps between renders; an error is that of a load. -/
structure Shown where
  identity : Identity
  data : Option Data
  error : Option ℕ
  loading : Bool
  deriving DecidableEq

/-- A load that runs: the reads it waits for and what it has read.  `floor` is the version that the
page knew of when it began. -/
structure Load where
  identity : Identity
  floor : Version
  reads : List PromiseId
  got : List Version

/-- The effect that is installed: of which render, and the fragments of paths that it watches. -/
structure Effect where
  identity : Identity
  watches : List Char
  deriving DecidableEq

/-- `useResource` between two renders.  `heard` is the version that it was told of. -/
structure Hook where
  identity : Identity
  effect : Option Effect
  generation : ℕ
  shown : Shown
  loads : ℕ → Option Load
  heard : Version

/-- Does the effect watch the path? -/
def Effect.concerns (e : Effect) (path : List Char) : Bool :=
  !e.watches.isEmpty && (e.watches.splitOn '|').any fun fragment => decide (fragment <:+: path)

namespace Hook

/-- Before the first effect. -/
def init : Hook := ⟨0, none, 0, ⟨0, none, none, true⟩, fun _ => none, 0⟩

/-- `run` of the render with the identity. -/
def run (noticed : Version) (identity : Identity) (h : Hook) : Hook :=
  if h.effect.isSome = true ∧ h.identity = identity then
    { h with
      generation := h.generation + 1
      shown := if h.shown.identity = identity then { h.shown with loading := true }
        else ⟨identity, none, none, true⟩
      loads := Function.update h.loads (h.generation + 1) (some ⟨identity, noticed, [], []⟩) }
  else h

/-- The load is not superseded. -/
def wanted (h : Hook) (mine : ℕ) (l : Load) : Bool :=
  h.effect.isSome && decide (mine = h.generation) && decide (h.identity = l.identity)

/-- The loader of a load returns. -/
def loaded (h : Hook) (mine : ℕ) (l : Load) : Hook :=
  { h with
    shown := if h.wanted mine l = true then
        ⟨l.identity, some (.loaded mine l.identity l.got), none, false⟩
      else h.shown
    loads := Function.update h.loads mine none }

/-- The loader of a load throws. -/
def failed (h : Hook) (mine : ℕ) (l : Load) : Hook :=
  { h with
    shown := if h.wanted mine l = true then { h.shown with error := some mine, loading := false }
      else h.shown
    loads := Function.update h.loads mine none }

/-- `setData` of the render with the identity. -/
def setData (identity : Identity) (h : Hook) : Hook :=
  if h.effect.isSome = true ∧ h.identity = identity then
    { h with
      generation := h.generation + 1
      shown := ⟨identity, some (.set identity), none, false⟩ }
  else h

/-- The session or a parameter changes. -/
def render (h : Hook) : Hook := { h with identity := h.identity + 1 }

/-- The effect is set up. -/
def mount (noticed : Version) (watches : List Char) (h : Hook) : Hook :=
  { h with effect := some ⟨h.identity, watches⟩, heard := noticed }.run noticed h.identity

/-- The effect is cleaned up. -/
def cleanup (h : Hook) : Hook := { h with effect := none, generation := h.generation + 1 }

/-- The listener of the effect, if there is one. -/
def changed (noticed : Version) (path : List Char) (h : Hook) : Hook :=
  match h.effect with
  | some e =>
    if e.concerns path = true then { h with heard := noticed }.run noticed e.identity else h
  | none => h

/-- What the hook returns. -/
def returned (h : Hook) : Shown :=
  if h.shown.identity = h.identity then h.shown else ⟨h.identity, none, none, true⟩

/-- The effects of the last render have run. -/
def isCurrent (h : Hook) : Prop := ∃ e, h.effect = some e ∧ e.identity = h.identity

end Hook

/-! ## The page and the server -/

/-- A read that was sent: the version of the server at that time, and the one it was served. -/
structure Promise where
  key : ℕ
  base : Version
  served : Option Version

/-- A write of this page that the server has done. -/
structure Write where
  path : List Char
  version : Version

/-- The server, the reads and writes of the page and its resources.  `noticed` is the last version
that a write of the page is known to have made. -/
structure State where
  version : Version
  noticed : Version
  promises : List Promise
  pendingReads : ℕ → Option PromiseId
  writes : List Write
  hooks : HookId → Hook

/-- The steps. -/
inductive Action
  | render (h : HookId)
  | mount (h : HookId) (watches : List Char)
  | cleanup (h : HookId)
  /-- `reload` of a render, or its timer. -/
  | run (h : HookId) (identity : Identity)
  | setData (h : HookId) (identity : Identity)
  /-- The loader of a load asks for a read. -/
  | read (h : HookId) (mine : ℕ) (key : ℕ)
  /-- The server serves a read. -/
  | serve (p : PromiseId)
  /-- A load gets what a read has brought. -/
  | get (h : HookId) (mine : ℕ) (p : PromiseId)
  /-- A read is over, successful or not. -/
  | settle (p : PromiseId)
  | load (h : HookId) (mine : ℕ)
  | fail (h : HookId) (mine : ℕ)
  /-- The server does a write, of this page or of somebody else. -/
  | write (path : List Char)
  /-- The page learns that a write of its has succeeded. -/
  | succeed (n : ℕ)

/-- One hook changes. -/
def State.onHook (s : State) (h : HookId) (f : Hook → Hook) : State :=
  { s with hooks := Function.update s.hooks h (f (s.hooks h)) }

/-- The load waits for the read. -/
def Hook.join (mine : ℕ) (l : Load) (p : PromiseId) (h : Hook) : Hook :=
  { h with loads := Function.update h.loads mine (some { l with reads := p :: l.reads }) }

/-- The load has got a version. -/
def Hook.take (mine : ℕ) (l : Load) (v : Version) (h : Hook) : Hook :=
  { h with loads := Function.update h.loads mine (some { l with got := v :: l.got }) }

/-- One step. -/
def step (s : State) : Action → Option State
  | .render h => some (s.onHook h .render)
  | .mount h watches =>
    if (s.hooks h).effect = none then some (s.onHook h (.mount s.noticed watches)) else none
  | .cleanup h => some (s.onHook h .cleanup)
  | .run h identity => some (s.onHook h (.run s.noticed identity))
  | .setData h identity => some (s.onHook h (.setData identity))
  | .read h mine key =>
    match (s.hooks h).loads mine, s.pendingReads key with
    | some l, some p => some (s.onHook h (.join mine l p))
    | some l, none =>
      some { s.onHook h (.join mine l s.promises.length) with
        promises := s.promises ++ [⟨key, s.version, none⟩]
        pendingReads := Function.update s.pendingReads key (some s.promises.length) }
    | none, _ => none
  | .serve p =>
    match s.promises[p]? with
    | some ⟨key, base, none⟩ =>
      some { s with promises := s.promises.set p ⟨key, base, some s.version⟩ }
    | _ => none
  | .get h mine p =>
    match (s.hooks h).loads mine, s.promises[p]? with
    | some l, some ⟨_, _, some v⟩ =>
      if p ∈ l.reads then some (s.onHook h (.take mine l v)) else none
    | _, _ => none
  | .settle p =>
    match s.promises[p]? with
    | some promise =>
      some { s with
        pendingReads := if s.pendingReads promise.key = some p
          then Function.update s.pendingReads promise.key none else s.pendingReads }
    | none => none
  | .load h mine =>
    match (s.hooks h).loads mine with
    | some l => some (s.onHook h fun hook => hook.loaded mine l)
    | none => none
  | .fail h mine =>
    match (s.hooks h).loads mine with
    | some l => some (s.onHook h fun hook => hook.failed mine l)
    | none => none
  | .write path =>
    some { s with version := s.version + 1, writes := s.writes ++ [⟨path, s.version + 1⟩] }
  | .succeed n =>
    match s.writes[n]? with
    | some w =>
      some { s with
        noticed := max s.noticed w.version
        pendingReads := fun _ => none
        hooks := fun h => (s.hooks h).changed (max s.noticed w.version) w.path }
    | none => none

/-- A page that was just opened. -/
def system : System State Action :=
  ⟨⟨0, 0, [], fun _ => none, [], fun _ => .init⟩, step⟩

/-! ## What a resource keeps -/

/-- The identity that data belong to. -/
def Data.identity : Data → Identity
  | .loaded _ identity _ => identity
  | .set identity => identity

namespace Hook

/-- What holds of every hook; `base` is the version of the server when a read was sent. -/
structure Kept (noticed : Version) (base : PromiseId → Version) (h : Hook) : Prop where
  heard : h.heard ≤ noticed
  effect : ∀ e, h.effect = some e → e.identity ≤ h.identity
  loads : ∀ mine l, h.loads mine = some l → mine ≤ h.generation ∧ l.floor ≤ noticed ∧
    (∀ p ∈ l.reads, l.floor ≤ base p) ∧ ∀ v ∈ l.got, l.floor ≤ v
  owned : ∀ data, h.shown.data = some data → data.identity = h.shown.identity

/-- What holds once the effects of the last render have run. -/
structure Current (h : Hook) : Prop where
  identity : h.shown.identity = h.identity
  busy : h.shown.loading = true → ∃ l, h.loads h.generation = some l ∧ l.identity = h.identity
  floor : ∀ l, h.loads h.generation = some l → h.heard ≤ l.floor
  quiet : h.shown.loading = false → h.shown.error = none →
    ∀ mine i versions, h.shown.data = some (.loaded mine i versions) →
      mine = h.generation ∧ ∀ v ∈ versions, h.heard ≤ v

/-- Both. -/
structure Sound (noticed : Version) (base : PromiseId → Version) (h : Hook) : Prop
    extends h.Kept noticed base where
  current : h.isCurrent → h.Current

variable {noticed noticed' : Version} {base base' : PromiseId → Version} {h : Hook}

theorem Kept.mono (hh : h.Kept noticed base) (hnoticed : noticed ≤ noticed')
    (hbase : ∀ p, base p ≤ base' p) : h.Kept noticed' base' := by
  refine ⟨hh.heard.trans hnoticed, hh.effect, ?_, hh.owned⟩
  intro mine l hl
  obtain ⟨hmine, hfloor, hreads, hgot⟩ := hh.loads mine l hl
  exact ⟨hmine, hfloor.trans hnoticed, fun p hp => (hreads p hp).trans (hbase p), hgot⟩

theorem Sound.mono (hh : h.Sound noticed base) (hnoticed : noticed ≤ noticed')
    (hbase : ∀ p, base p ≤ base' p) : h.Sound noticed' base' :=
  ⟨hh.toKept.mono hnoticed hbase, hh.current⟩

/-- A run of another render, or of a hook that is not mounted. -/
theorem run_of_not {i : Identity} (hnot : ¬ (h.effect.isSome = true ∧ h.identity = i)) :
    h.run noticed i = h := if_neg hnot

theorem Kept.run (hh : h.Kept noticed base) (i : Identity) :
    (h.run noticed i).Kept noticed base := by
  by_cases hcond : h.effect.isSome = true ∧ h.identity = i
  · rw [Hook.run, if_pos hcond]
    refine ⟨hh.heard, hh.effect, ?_, ?_⟩
    · intro mine l hl
      change Function.update h.loads _ _ mine = some l at hl
      by_cases hmine : mine = h.generation + 1
      · subst hmine
        rw [Function.update_self] at hl
        obtain rfl := Option.some.inj hl
        exact ⟨le_rfl, le_rfl, by simp, by simp⟩
      · rw [Function.update_of_ne hmine] at hl
        obtain ⟨hle, hrest⟩ := hh.loads mine l hl
        exact ⟨hle.trans (Nat.le_succ _), hrest⟩
    · intro data hdata
      dsimp only at hdata ⊢
      split at hdata
      · next hidentity =>
        rw [if_pos hidentity]
        exact hh.owned data hdata
      · cases hdata
  · rw [run_of_not hcond]
    exact hh

/-- A run of the last render. -/
theorem Kept.current_run (hh : h.Kept noticed base) (heffect : h.effect.isSome = true) :
    (h.run noticed h.identity).Current := by
  rw [Hook.run, if_pos ⟨heffect, rfl⟩]
  refine ⟨?_, ?_, ?_, ?_⟩
  · dsimp only
    split
    · assumption
    · rfl
  · intro _
    exact ⟨_, Function.update_self .., rfl⟩
  · intro l hl
    change Function.update h.loads _ _ _ = some l at hl
    rw [Function.update_self] at hl
    obtain rfl := Option.some.inj hl
    exact hh.heard
  · intro hloading
    dsimp only at hloading
    split at hloading <;> cases hloading

theorem Sound.run (hh : h.Sound noticed base) (i : Identity) :
    (h.run noticed i).Sound noticed base := by
  refine ⟨hh.toKept.run i, fun hcurrent => ?_⟩
  by_cases hcond : h.effect.isSome = true ∧ h.identity = i
  · rw [← hcond.2]
    exact hh.toKept.current_run hcond.1
  · rw [run_of_not hcond] at hcurrent ⊢
    exact hh.current hcurrent

theorem Sound.setData (hh : h.Sound noticed base) (i : Identity) :
    (h.setData i).Sound noticed base := by
  rw [Hook.setData]
  split
  · next hcond =>
    refine ⟨⟨hh.heard, hh.effect, ?_, ?_⟩, fun _ => ⟨hcond.2.symm, ?_, ?_, ?_⟩⟩
    · intro mine l hl
      obtain ⟨hle, hrest⟩ := hh.loads mine l hl
      exact ⟨hle.trans (Nat.le_succ _), hrest⟩
    · intro data hdata
      obtain rfl := Option.some.inj hdata
      rfl
    · intro hloading
      cases hloading
    · intro l hl
      exact absurd (hh.loads _ l hl).1 (by simp)
    · intro _ _ mine i' versions hdata
      cases hdata
  · exact hh

theorem Sound.render (hh : h.Sound noticed base) : h.render.Sound noticed base := by
  refine ⟨⟨hh.heard, fun e he => (hh.effect e he).trans (Nat.le_succ _), hh.loads, hh.owned⟩, ?_⟩
  intro ⟨e, he, hidentity⟩
  have hle := hh.effect e he
  exact absurd (hidentity ▸ hle) (Nat.not_succ_le_self _)

theorem Sound.cleanup (hh : h.Sound noticed base) : h.cleanup.Sound noticed base := by
  refine ⟨⟨hh.heard, ?_, ?_, hh.owned⟩, ?_⟩
  · intro e he
    cases he
  · intro mine l hl
    obtain ⟨hle, hrest⟩ := hh.loads mine l hl
    exact ⟨hle.trans (Nat.le_succ _), hrest⟩
  · intro ⟨e, he, _⟩
    cases he

theorem Sound.mount (hh : h.Sound noticed base) (watches : List Char) :
    (h.mount noticed watches).Sound noticed base := by
  have hkept : ({ h with effect := some ⟨h.identity, watches⟩, heard := noticed } : Hook).Kept
      noticed base := by
    refine ⟨le_rfl, ?_, hh.loads, hh.owned⟩
    intro e he
    obtain rfl := Option.some.inj he
    exact le_rfl
  exact ⟨hkept.run _, fun _ => hkept.current_run rfl⟩

theorem Sound.changed (hh : h.Sound noticed base) (path : List Char) :
    (h.changed noticed path).Sound noticed base := by
  rw [Hook.changed]
  split
  · next e he =>
    split
    · have hkept : ({ h with heard := noticed } : Hook).Kept noticed base :=
        ⟨le_rfl, hh.effect, hh.loads, hh.owned⟩
      refine ⟨hkept.run _, fun hcurrent => ?_⟩
      by_cases hidentity : e.identity = h.identity
      · rw [hidentity]
        exact hkept.current_run (by rw [he]; rfl)
      · -- the listener of an old render does nothing
        rw [run_of_not (h := { h with heard := noticed }) fun hcond => hidentity hcond.2.symm]
          at hcurrent
        obtain ⟨e', he', hidentity'⟩ := hcurrent
        obtain rfl := Option.some.inj (he.symm.trans he')
        exact absurd hidentity' hidentity
    · exact hh
  · exact hh

/-- A load that is over changes nothing, unless it is wanted. -/
theorem Sound.ended (hh : h.Sound noticed base) {mine : ℕ} {l : Load}
    (hl : h.loads mine = some l) {shown : Shown}
    (howned : ∀ data, shown.data = some data → data.identity = shown.identity)
    (hwanted : h.wanted mine l = true → h.shown.identity = h.identity →
      shown.identity = h.identity ∧ shown.loading = false ∧
        (shown.error = none → ∀ mine' i versions, shown.data = some (.loaded mine' i versions) →
          mine' = mine ∧ versions = l.got))
    (hnot : ¬ h.wanted mine l = true → shown = h.shown) :
    Hook.Sound noticed base
      { h with shown := shown, loads := Function.update h.loads mine none } := by
  have hrest : ∀ mine' l', Function.update h.loads mine none mine' = some l' →
      h.loads mine' = some l' := by
    intro mine' l' hl'
    by_cases hmine : mine' = mine
    · rw [hmine, Function.update_self] at hl'
      cases hl'
    · rwa [Function.update_of_ne hmine] at hl'
  refine ⟨⟨hh.heard, hh.effect, fun mine' l' hl' => hh.loads mine' l' (hrest mine' l' hl'),
    howned⟩, ?_⟩
  intro hcurrent
  have hnow := hh.current hcurrent
  by_cases hw : h.wanted mine l = true
  · obtain ⟨hidentity, hloading, hdata⟩ := hwanted hw hnow.identity
    have hgeneration : mine = h.generation := by
      simp only [wanted, Bool.and_eq_true, decide_eq_true_eq] at hw
      exact hw.1.2
    refine ⟨hidentity, ?_, fun l' hl' => hnow.floor l' (hrest _ l' hl'), ?_⟩
    · intro hbusy
      exact absurd (hloading.symm.trans hbusy) Bool.false_ne_true
    · intro _ herror mine' i versions hloaded
      obtain ⟨rfl, rfl⟩ := hdata herror mine' i versions hloaded
      refine ⟨hgeneration, fun v hv => ?_⟩
      exact (hnow.floor l (hgeneration ▸ hl)).trans ((hh.loads _ l hl).2.2.2 v hv)
  · obtain rfl := hnot hw
    refine ⟨hnow.identity, ?_, fun l' hl' => hnow.floor l' (hrest _ l' hl'), hnow.quiet⟩
    intro hbusy
    obtain ⟨l', hl', hidentity⟩ := hnow.busy hbusy
    refine ⟨l', ?_, hidentity⟩
    change Function.update h.loads mine none h.generation = some l'
    rw [Function.update_of_ne, hl']
    -- the load that the hook waits for is wanted
    intro hgeneration
    rw [hgeneration, hl] at hl'
    obtain rfl := Option.some.inj hl'
    obtain ⟨e, he, -⟩ := hcurrent
    have he' : h.effect = some e := he
    exact hw (by simp [wanted, he', hidentity, hgeneration])

theorem Sound.loaded (hh : h.Sound noticed base) {mine : ℕ} {l : Load}
    (hl : h.loads mine = some l) : (h.loaded mine l).Sound noticed base := by
  refine hh.ended hl ?_ ?_ fun hnot => if_neg hnot
  · intro data hdata
    split at hdata
    · next hwanted =>
      rw [if_pos hwanted]
      obtain rfl := Option.some.inj hdata
      rfl
    · next hnot =>
      rw [if_neg hnot]
      exact hh.owned data hdata
  · intro hwanted _
    rw [if_pos hwanted]
    simp only [wanted, Bool.and_eq_true, decide_eq_true_eq] at hwanted
    refine ⟨hwanted.2.symm, rfl, ?_⟩
    intro _ mine' i versions hdata
    cases hdata
    exact ⟨rfl, rfl⟩

theorem Sound.failed (hh : h.Sound noticed base) {mine : ℕ} {l : Load}
    (hl : h.loads mine = some l) : (h.failed mine l).Sound noticed base := by
  refine hh.ended hl ?_ ?_ fun hnot => if_neg hnot
  · intro data hdata
    split at hdata
    · next hwanted =>
      rw [if_pos hwanted]
      exact hh.owned data hdata
    · next hnot =>
      rw [if_neg hnot]
      exact hh.owned data hdata
  · intro hwanted hidentity
    rw [if_pos hwanted]
    refine ⟨hidentity, rfl, ?_⟩
    intro herror
    cases herror

/-- A load goes on. -/
theorem Sound.goes_on (hh : h.Sound noticed base) {mine : ℕ} {l l' : Load}
    (hl : h.loads mine = some l) (hidentity : l'.identity = l.identity)
    (hfloor : l'.floor = l.floor) (hreads : ∀ p ∈ l'.reads, l.floor ≤ base p)
    (hgot : ∀ v ∈ l'.got, l.floor ≤ v) :
    Hook.Sound noticed base { h with loads := Function.update h.loads mine (some l') } := by
  have hrest : ∀ mine' l₁, Function.update h.loads mine (some l') mine' = some l₁ →
      ∃ l₂, h.loads mine' = some l₂ ∧ l₁.identity = l₂.identity ∧ l₁.floor = l₂.floor ∧
        (∀ p ∈ l₁.reads, l₁.floor ≤ base p) ∧ ∀ v ∈ l₁.got, l₁.floor ≤ v := by
    intro mine' l₁ hl₁
    by_cases hmine : mine' = mine
    · rw [hmine, Function.update_self] at hl₁
      obtain rfl := Option.some.inj hl₁
      rw [hfloor]
      exact ⟨l, hmine ▸ hl, hidentity, rfl, hreads, hgot⟩
    · rw [Function.update_of_ne hmine] at hl₁
      exact ⟨l₁, hl₁, rfl, rfl, (hh.loads _ l₁ hl₁).2.2⟩
  refine ⟨⟨hh.heard, hh.effect, ?_, hh.owned⟩, ?_⟩
  · intro mine' l₁ hl₁
    obtain ⟨l₂, hl₂, -, hsame, hbounds⟩ := hrest mine' l₁ hl₁
    obtain ⟨hle, hfloor₂, -⟩ := hh.loads mine' l₂ hl₂
    exact ⟨hle, hsame ▸ hfloor₂, hbounds⟩
  · intro hcurrent
    have hnow := hh.current hcurrent
    refine ⟨hnow.identity, ?_, ?_, hnow.quiet⟩
    · intro hbusy
      obtain ⟨l₁, hl₁, hidentity₁⟩ := hnow.busy hbusy
      by_cases hgeneration : h.generation = mine
      · rw [hgeneration, hl] at hl₁
        obtain rfl := Option.some.inj hl₁
        refine ⟨l', ?_, hidentity.trans hidentity₁⟩
        change Function.update h.loads mine (some l') h.generation = some l'
        rw [hgeneration, Function.update_self]
      · refine ⟨l₁, ?_, hidentity₁⟩
        change Function.update h.loads mine (some l') h.generation = some l₁
        rw [Function.update_of_ne hgeneration, hl₁]
    · intro l₁ hl₁
      obtain ⟨l₂, hl₂, -, hsame, -⟩ := hrest _ l₁ hl₁
      exact hsame ▸ hnow.floor l₂ hl₂

theorem Sound.join (hh : h.Sound noticed base) {mine : ℕ} {l : Load} {p : PromiseId}
    (hl : h.loads mine = some l) (hp : l.floor ≤ base p) :
    (h.join mine l p).Sound noticed base := by
  obtain ⟨-, -, hreads, hgot⟩ := hh.loads mine l hl
  exact hh.goes_on hl rfl rfl (List.forall_mem_cons.mpr ⟨hp, hreads⟩) hgot

theorem Sound.take (hh : h.Sound noticed base) {mine : ℕ} {l : Load} {v : Version}
    (hl : h.loads mine = some l) (hv : l.floor ≤ v) :
    (h.take mine l v).Sound noticed base := by
  obtain ⟨-, -, hreads, hgot⟩ := hh.loads mine l hl
  exact hh.goes_on hl rfl rfl hreads (List.forall_mem_cons.mpr ⟨hv, hgot⟩)

theorem Sound.init : Hook.init.Sound noticed base := by
  refine ⟨⟨Nat.zero_le _, ?_, ?_, ?_⟩, fun ⟨e, he, _⟩ => ?_⟩
  · intro e he
    cases he
  · intro mine l hl
    cases hl
  · intro data hdata
    cases hdata
  · cases he

end Hook

/-! ## The page and the server -/

/-- The version of the server when a read was sent. -/
def State.base (s : State) (p : PromiseId) : Version := (s.promises[p]?.map Promise.base).getD 0

/-- What is kept. -/
structure Inv (s : State) : Prop where
  noticed : s.noticed ≤ s.version
  writes : ∀ w ∈ s.writes, w.version ≤ s.version
  served : ∀ promise ∈ s.promises, promise.base ≤ s.version ∧
    ∀ v, promise.served = some v → promise.base ≤ v
  -- a read that others may share is no older than the last write that is known of
  pending : ∀ key p, s.pendingReads key = some p → s.noticed ≤ s.base p
  hooks : ∀ h, (s.hooks h).Sound s.noticed s.base

section Steps

variable {s s' : State} {a : Action}

/-- One hook changes. -/
theorem Inv.onHook (hs : Inv s) (h : HookId) {f : Hook → Hook}
    (hf : (f (s.hooks h)).Sound s.noticed s.base) : Inv (s.onHook h f) := by
  refine ⟨hs.noticed, hs.writes, hs.served, hs.pending, fun h' => ?_⟩
  change (Function.update s.hooks h (f (s.hooks h)) h').Sound s.noticed s.base
  by_cases hsame : h' = h
  · rw [hsame, Function.update_self]
    exact hf
  · rw [Function.update_of_ne hsame]
    exact hs.hooks h'

/-- The base of a promise. -/
theorem base_eq {p : PromiseId} {promise : Promise} (hp : s.promises[p]? = some promise) :
    s.base p = promise.base := by
  rw [State.base, hp]
  rfl

/-- A new read is one of the present. -/
theorem base_append (ps : List Promise) (promise : Promise) (p : PromiseId) :
    (ps[p]?.map Promise.base).getD 0 ≤ ((ps ++ [promise])[p]?.map Promise.base).getD 0 := by
  by_cases hp : p < ps.length
  · rw [List.getElem?_append_left hp]
  · rw [List.getElem?_eq_none (Nat.le_of_not_lt hp)]
    exact Nat.zero_le _

/-- A read is served. -/
theorem base_serve {ps : List Promise} {p : PromiseId} {key : ℕ} {base v : Version}
    (hp : ps[p]? = some ⟨key, base, none⟩) (p' : PromiseId) :
    ((ps.set p ⟨key, base, some v⟩)[p']?.map Promise.base).getD 0 =
      (ps[p']?.map Promise.base).getD 0 := by
  by_cases hsame : p = p'
  · subst hsame
    obtain ⟨hlt, -⟩ := List.getElem?_eq_some_iff.mp hp
    rw [List.getElem?_set_self hlt, hp]
    rfl
  · rw [List.getElem?_set_ne hsame]

/-- A load joins a read that is pending, or sends one. -/
theorem inv_read {h : HookId} {mine key : ℕ} (hs : Inv s)
    (hstep : step s (.read h mine key) = some s') : Inv s' := by
  simp only [step] at hstep
  split at hstep
  · next l p hl hp =>
    obtain rfl := Option.some.inj hstep
    have hfloor := ((hs.hooks h).loads mine l hl).2.1
    exact hs.onHook h ((hs.hooks h).join hl (hfloor.trans (hs.pending key p hp)))
  · next l hl hnone =>
    obtain rfl := Option.some.inj hstep
    have hmono := base_append s.promises ⟨key, s.version, none⟩
    have hfloor := ((hs.hooks h).loads mine l hl).2.1
    have hnew : (((s.promises ++ [⟨key, s.version, none⟩])[s.promises.length]?).map
        Promise.base).getD 0 = s.version := by simp
    refine ⟨hs.noticed, hs.writes, ?_, ?_, fun h' => ?_⟩
    · intro promise hpromise
      rcases List.mem_append.mp hpromise with hold | hnow
      · exact hs.served promise hold
      · obtain rfl := List.mem_singleton.mp hnow
        exact ⟨le_rfl, fun v hv => by cases hv⟩
    · intro key' p hp
      change Function.update s.pendingReads key (some s.promises.length) key' = some p at hp
      by_cases hkey : key' = key
      · rw [hkey, Function.update_self] at hp
        obtain rfl := Option.some.inj hp
        exact hs.noticed.trans_eq hnew.symm
      · rw [Function.update_of_ne hkey] at hp
        exact (hs.pending key' p hp).trans (hmono p)
    · have hlater := (hs.hooks h').mono le_rfl hmono
      change (Function.update s.hooks h _ h').Sound s.noticed _
      by_cases hsame : h' = h
      · subst hsame
        rw [Function.update_self]
        exact hlater.join hl ((hfloor.trans hs.noticed).trans_eq hnew.symm)
      · rw [Function.update_of_ne hsame]
        exact hlater
  · cases hstep

/-- A read is served from the present. -/
theorem inv_serve {p : PromiseId} (hs : Inv s) (hstep : step s (.serve p) = some s') : Inv s' := by
  simp only [step] at hstep
  split at hstep
  · next key base hp =>
    obtain rfl := Option.some.inj hstep
    have hsame := fun v => base_serve (v := v) hp
    have hbase := (hs.served _ (List.mem_of_getElem? hp)).1
    refine ⟨hs.noticed, hs.writes, ?_, ?_, fun h => ?_⟩
    · intro promise hpromise
      rcases List.mem_or_eq_of_mem_set hpromise with hold | rfl
      · exact hs.served promise hold
      · refine ⟨hbase, fun v hv => ?_⟩
        obtain rfl := Option.some.inj hv
        exact hbase
    · intro key' p' hp'
      exact (hs.pending key' p' hp').trans_eq (hsame _ p').symm
    · exact (hs.hooks h).mono le_rfl fun p' => (hsame _ p').ge
  · cases hstep

/-- A load gets what a read of it was served. -/
theorem inv_get {h : HookId} {mine : ℕ} {p : PromiseId} (hs : Inv s)
    (hstep : step s (.get h mine p) = some s') : Inv s' := by
  simp only [step] at hstep
  split at hstep
  · next l key base v hl hp =>
    split at hstep
    · next hmem =>
      obtain rfl := Option.some.inj hstep
      have hread := ((hs.hooks h).loads mine l hl).2.2.1 p hmem
      have hserved := (hs.served _ (List.mem_of_getElem? hp)).2 v rfl
      exact hs.onHook h ((hs.hooks h).take hl ((hread.trans_eq (base_eq hp)).trans hserved))
    · cases hstep
  · cases hstep

/-- A read is not shared any more. -/
theorem inv_settle {p : PromiseId} (hs : Inv s) (hstep : step s (.settle p) = some s') :
    Inv s' := by
  simp only [step] at hstep
  split at hstep
  · next promise hp =>
    obtain rfl := Option.some.inj hstep
    refine ⟨hs.noticed, hs.writes, hs.served, ?_, hs.hooks⟩
    intro key p' hp'
    dsimp only at hp'
    split at hp'
    · by_cases hkey : key = promise.key
      · rw [hkey, Function.update_self] at hp'
        cases hp'
      · rw [Function.update_of_ne hkey] at hp'
        exact hs.pending key p' hp'
    · exact hs.pending key p' hp'
  · cases hstep

/-- The server is written to. -/
theorem inv_write {path : List Char} (hs : Inv s) (hstep : step s (.write path) = some s') :
    Inv s' := by
  obtain rfl := Option.some.inj hstep
  refine ⟨hs.noticed.trans (Nat.le_succ _), ?_, ?_, hs.pending, hs.hooks⟩
  · intro w hw
    rcases List.mem_append.mp hw with hold | hnew
    · exact (hs.writes w hold).trans (Nat.le_succ _)
    · obtain rfl := List.mem_singleton.mp hnew
      exact le_rfl
  · intro promise hpromise
    obtain ⟨hbase, hserved⟩ := hs.served promise hpromise
    exact ⟨hbase.trans (Nat.le_succ _), hserved⟩

/-- A write is known of: the hooks are told, and no read is shared any more. -/
theorem inv_succeed {n : ℕ} (hs : Inv s) (hstep : step s (.succeed n) = some s') : Inv s' := by
  simp only [step] at hstep
  split at hstep
  · next w hw =>
    obtain rfl := Option.some.inj hstep
    refine ⟨?_, hs.writes, hs.served, ?_, fun h => ?_⟩
    · exact max_le hs.noticed (hs.writes w (List.mem_of_getElem? hw))
    · intro key p hp
      cases hp
    · exact ((hs.hooks h).mono (le_max_left _ _) fun _ => le_rfl).changed w.path
  · cases hstep

/-- **Steps.** -/
theorem Inv.step (hs : Inv s) (hstep : step s a = some s') : Inv s' := by
  cases a with
  | render h =>
    obtain rfl := Option.some.inj hstep
    exact hs.onHook h (hs.hooks h).render
  | mount h watches =>
    simp only [Resource.step] at hstep
    split at hstep
    · obtain rfl := Option.some.inj hstep
      exact hs.onHook h ((hs.hooks h).mount watches)
    · cases hstep
  | cleanup h =>
    obtain rfl := Option.some.inj hstep
    exact hs.onHook h (hs.hooks h).cleanup
  | run h identity =>
    obtain rfl := Option.some.inj hstep
    exact hs.onHook h ((hs.hooks h).run identity)
  | setData h identity =>
    obtain rfl := Option.some.inj hstep
    exact hs.onHook h ((hs.hooks h).setData identity)
  | read h mine key => exact inv_read hs hstep
  | serve p => exact inv_serve hs hstep
  | get h mine p => exact inv_get hs hstep
  | settle p => exact inv_settle hs hstep
  | load h mine =>
    simp only [Resource.step] at hstep
    split at hstep
    · next l hl =>
      obtain rfl := Option.some.inj hstep
      exact hs.onHook h ((hs.hooks h).loaded hl)
    · cases hstep
  | fail h mine =>
    simp only [Resource.step] at hstep
    split at hstep
    · next l hl =>
      obtain rfl := Option.some.inj hstep
      exact hs.onHook h ((hs.hooks h).failed hl)
    · cases hstep
  | write path => exact inv_write hs hstep
  | succeed n => exact inv_succeed hs hstep

end Steps

/-! ## Runs -/

/-- The hook shows the result of a load, without an error, and does not load. -/
def Hook.Shows (h : Hook) (mine : ℕ) (versions : List Version) : Prop :=
  h.isCurrent ∧ h.returned = ⟨h.identity, some (.loaded mine h.identity versions), none, false⟩

section Runs

variable {s s' t : State} {a : Action} {as : List Action}

@[simp]
theorem Hook.heard_run (noticed : Version) (i : Identity) (h : Hook) :
    (h.run noticed i).heard = h.heard := by
  rw [Hook.run]
  split <;> rfl

/-- What a hook was told stays. -/
theorem heard_step (hs : Inv s) (hstep : step s a = some s') (h : HookId) :
    (s.hooks h).heard ≤ (s'.hooks h).heard := by
  have honHook : ∀ (h' : HookId) (f : Hook → Hook),
      (s.hooks h').heard ≤ (f (s.hooks h')).heard →
        (s.hooks h).heard ≤ (Function.update s.hooks h' (f (s.hooks h')) h).heard := by
    intro h' f hf
    by_cases hsame : h = h'
    · rw [hsame, Function.update_self]
      exact hf
    · rw [Function.update_of_ne hsame]
  cases a with
  | render h' | cleanup h' =>
    obtain rfl := Option.some.inj hstep
    exact honHook h' _ le_rfl
  | run h' i =>
    obtain rfl := Option.some.inj hstep
    exact honHook h' _ (Hook.heard_run ..).ge
  | setData h' i =>
    obtain rfl := Option.some.inj hstep
    refine honHook h' _ ?_
    rw [Hook.setData]
    split <;> exact le_rfl
  | mount h' watches =>
    simp only [step] at hstep
    split at hstep
    · obtain rfl := Option.some.inj hstep
      refine honHook h' _ ?_
      rw [Hook.mount, Hook.heard_run]
      exact (hs.hooks h').heard
    · cases hstep
  | read h' mine key =>
    simp only [step] at hstep
    split at hstep
    · obtain rfl := Option.some.inj hstep
      exact honHook h' _ le_rfl
    · obtain rfl := Option.some.inj hstep
      exact honHook h' _ le_rfl
    · cases hstep
  | get h' mine p =>
    simp only [step] at hstep
    split at hstep
    · split at hstep
      · obtain rfl := Option.some.inj hstep
        exact honHook h' _ le_rfl
      · cases hstep
    · cases hstep
  | load h' mine =>
    simp only [step] at hstep
    split at hstep
    · next l hl =>
      obtain rfl := Option.some.inj hstep
      exact honHook h' (fun hook => hook.loaded mine l) le_rfl
    · cases hstep
  | fail h' mine =>
    simp only [step] at hstep
    split at hstep
    · next l hl =>
      obtain rfl := Option.some.inj hstep
      exact honHook h' (fun hook => hook.failed mine l) le_rfl
    · cases hstep
  | serve p | settle p =>
    simp only [step] at hstep
    split at hstep
    · obtain rfl := Option.some.inj hstep
      exact le_rfl
    · cases hstep
  | write path =>
    obtain rfl := Option.some.inj hstep
    exact le_rfl
  | succeed n =>
    simp only [step] at hstep
    split at hstep
    · next w hw =>
      obtain rfl := Option.some.inj hstep
      change (s.hooks h).heard ≤ ((s.hooks h).changed _ w.path).heard
      rw [Hook.changed]
      split
      · split
        · rw [Hook.heard_run]
          exact (hs.hooks h).heard.trans (le_max_left _ _)
        · exact le_rfl
      · exact le_rfl
    · cases hstep

/-- So does what the page knows. -/
theorem noticed_step (hstep : step s a = some s') : s.noticed ≤ s'.noticed := by
  cases a <;> simp only [step] at hstep
  case succeed n =>
    split at hstep
    · obtain rfl := Option.some.inj hstep
      exact le_max_left _ _
    · cases hstep
  case render | cleanup | run | setData | write =>
    obtain rfl := Option.some.inj hstep
    exact le_rfl
  all_goals
    repeat' split at hstep
    all_goals first | cases hstep; exact le_rfl | cases hstep

/-- A hook that is mounted knows what the page knows. -/
theorem heard_mount {h : HookId} {watches : List Char}
    (hstep : step s (.mount h watches) = some s') : (s'.hooks h).heard = s.noticed := by
  simp only [step] at hstep
  split at hstep
  · obtain rfl := Option.some.inj hstep
    change (Function.update s.hooks h _ h).heard = s.noticed
    rw [Function.update_self, Hook.mount, Hook.heard_run]
  · cases hstep

/-- **Runs.** -/
theorem heard_of_run (hrun : Run system anyStep s as t) (hs : Inv s) (h : HookId) :
    (s.hooks h).heard ≤ (t.hooks h).heard ∧
      ((∃ watches, .mount h watches ∈ as) → s.noticed ≤ (t.hooks h).heard) := by
  induction hrun with
  | nil s => exact ⟨le_rfl, fun ⟨_, hmem⟩ => absurd hmem List.not_mem_nil⟩
  | cons _ hstep _ ih =>
    obtain ⟨hheard, hmount⟩ := ih (hs.step hstep)
    refine ⟨(heard_step hs hstep h).trans hheard, fun ⟨watches, hmem⟩ => ?_⟩
    rcases List.mem_cons.mp hmem with rfl | hlater
    · exact (heard_mount hstep).ge.trans hheard
    · exact (noticed_step hstep).trans (hmount ⟨watches, hlater⟩)

/-- What holds in every run. -/
theorem inv_of_reachable (hs : Reachable system anyStep s) : Inv s := by
  refine hs.invariant (P := Inv) ?_ fun s a s' h _ hstep => h.step hstep
  refine ⟨le_rfl, ?_, ?_, ?_, fun h => .init⟩
  · intro w hw
    cases hw
  · intro promise hpromise
    cases hpromise
  · intro key p hp
    cases hp

/-- A hook that was told of a write. -/
theorem heard_succeed {n : ℕ} {w : Write} (hw : s.writes[n]? = some w)
    (hstep : step s (.succeed n) = some s') :
    w.version ≤ s'.noticed ∧ ∀ h e, (s.hooks h).effect = some e → e.concerns w.path = true →
      w.version ≤ (s'.hooks h).heard := by
  simp only [step, hw] at hstep
  obtain rfl := Option.some.inj hstep
  refine ⟨le_max_right _ _, fun h e he hconcerns => ?_⟩
  change w.version ≤ ((s.hooks h).changed _ w.path).heard
  rw [Hook.changed, he]
  dsimp only
  rw [if_pos hconcerns, Hook.heard_run]
  exact le_max_right _ _

/-- **The console shows its own writes.**  A page only shows data of the session and the parameters
it was rendered with.  Once its effects have run it waits only for a load that runs, and what it
shows without waiting or an error is the result of its last load, which has read every write that
succeeded on this page while the resource watched its path, or before the resource was mounted. -/
theorem shows_own_writes (ht : Reachable system anyStep t) (h : HookId) :
    (∀ data, (t.hooks h).returned.data = some data → data.identity = (t.hooks h).identity) ∧
    ((t.hooks h).isCurrent → (t.hooks h).returned.loading = true →
      ∃ l, (t.hooks h).loads (t.hooks h).generation = some l ∧
        l.identity = (t.hooks h).identity) ∧
    ∀ mine versions, (t.hooks h).Shows mine versions →
      mine = (t.hooks h).generation ∧
      ∀ s n w s' as, Reachable system anyStep s → s.writes[n]? = some w →
        step s (.succeed n) = some s' → Run system anyStep s' as t →
        ((∃ e, (s.hooks h).effect = some e ∧ e.concerns w.path = true) ∨
          ∃ watches, .mount h watches ∈ as) →
        ∀ v ∈ versions, w.version ≤ v := by
  have hsound := (inv_of_reachable ht).hooks h
  refine ⟨fun data hdata => ?_, fun hcurrent hloading => ?_, fun mine versions hshows => ?_⟩
  · rw [Hook.returned] at hdata
    split at hdata
    · next hidentity => exact (hsound.owned data hdata).trans hidentity
    · cases hdata
  · have hnow := hsound.current hcurrent
    rw [Hook.returned, if_pos hnow.identity] at hloading
    exact hnow.busy hloading
  · obtain ⟨hcurrent, hreturned⟩ := hshows
    have hnow := hsound.current hcurrent
    rw [Hook.returned, if_pos hnow.identity] at hreturned
    have hquiet := hnow.quiet (by rw [hreturned]) (by rw [hreturned]) mine (t.hooks h).identity
      versions (by rw [hreturned])
    refine ⟨hquiet.1, fun s n w s' as hs hw hstep hrun htold v hv => ?_⟩
    obtain ⟨hnoticed, hheard⟩ := heard_succeed hw hstep
    obtain ⟨hkept, hmounted⟩ := heard_of_run hrun ((inv_of_reachable hs).step hstep) h
    have hversion : w.version ≤ (t.hooks h).heard := by
      rcases htold with ⟨e, he, hconcerns⟩ | hmount
      · exact (hheard h e he hconcerns).trans hkept
      · exact hnoticed.trans (hmounted hmount)
    exact hversion.trans (hquiet.2 v hv)

/-- Two resources share a read that the server serves before a write.  The write succeeds before
the answer is there: the first resource, which watches its path, loads again, with a new read. -/
def sharedRead : List Action :=
  [.mount 0 "/v1/products|/v1/events".toList, .mount 1 [], .read 0 1 7, .read 1 1 7, .serve 0,
    .write "/v1/products:bulk-upsert".toList, .succeed 0, .read 0 2 7, .get 0 1 0, .load 0 1,
    .get 1 1 0, .load 1 1, .settle 0, .serve 1, .get 0 2 1, .load 0 2]

/-- The first resource shows the version after the write, the second one the version before. -/
theorem shows_own_writes_sharedRead : ∃ t,
    Reachable system anyStep t ∧ (t.hooks 0).Shows 2 [1] ∧ (t.hooks 1).Shows 1 [0] ∧
      2 = (t.hooks 0).generation ∧ 1 = (t.hooks 1).generation := by
  have hdone : (exec system system.init sharedRead).map (fun t =>
      (((t.hooks 0).effect.map Effect.identity, (t.hooks 0).identity, (t.hooks 0).returned),
        (t.hooks 1).effect.map Effect.identity, (t.hooks 1).identity, (t.hooks 1).returned)) =
      some ((some 0, 0, ⟨0, some (.loaded 2 0 [1]), none, false⟩),
        some 0, 0, ⟨0, some (.loaded 1 0 [0]), none, false⟩) := by
    decide +kernel
  obtain ⟨t, hexec, heq⟩ := Option.map_eq_some_iff.mp hdone
  simp only [Prod.mk.injEq, Option.map_eq_some_iff] at heq
  obtain ⟨⟨⟨e, he, hidentity⟩, hzero, hreturned⟩, ⟨e', he', hidentity'⟩, hzero', hreturned'⟩ := heq
  have ht : Reachable system anyStep t := ⟨_, run_of_exec hexec⟩
  have hshows : (t.hooks 0).Shows 2 [1] := by
    refine ⟨⟨e, he, hidentity.trans hzero.symm⟩, ?_⟩
    rw [hreturned, hzero]
  have hshows' : (t.hooks 1).Shows 1 [0] := by
    refine ⟨⟨e', he', hidentity'.trans hzero'.symm⟩, ?_⟩
    rw [hreturned', hzero']
  exact ⟨t, ht, hshows, hshows', ((shows_own_writes ht 0).2.2 2 [1] hshows).1,
    ((shows_own_writes ht 1).2.2 1 [0] hshows').1⟩

end Runs

end Web.Resource
