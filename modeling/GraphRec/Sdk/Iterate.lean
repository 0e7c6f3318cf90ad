import GraphRec.Ingestion.Listing
import GraphRec.Lib.Dict

/-!
# Iterating over the catalogue

`Products.iterate` asks for one page after the other, and `CatalogSync.run` goes over its products
to disable those that are missing from a feed.  A page is two reads, of the products and of how many
there are; any statements of any requests of the tenant come between.

* `Covers` — what every step keeps of a product that is there;
* `iterate_complete` — such products are all yielded, once each when none is created meanwhile, and
  the iteration stops when none is created any more.
-/

namespace Sdk.Iterate

open Transition
open Ingestion (Config Op Product ProductKey DeterministicCollation SystemState Start productKey
  listProducts countProducts)

abbrev Row := String × Product

/-! ## The client -/

/-- The query of a page. -/
structure ListQuery where
  limit : Option ℕ
  offset : Option ℕ
  externalIds : Option (List String)
  deriving DecidableEq, Repr

/-- `_list_query`; the text of the `InputValidationError`, if it raises one. -/
def listQuery (limit offset : Option ℤ) (externalIds : Option (List String)) :
    Except String ListQuery :=
  if limit.any fun n => !(decide (1 ≤ n) && decide (n ≤ 1000)) then
    .error "limit must be between 1 and 1000"
  else if offset.any fun n => decide (n < 0) then .error "offset must not be negative"
  else if externalIds.any fun ids => ids.isEmpty || decide (200 < ids.length) then
    .error "external_ids must hold between 1 and 200 ids"
  else .ok ⟨limit.map Int.toNat, offset.map Int.toNat, externalIds⟩

/-- What an iteration raises: an `InputValidationError`, or the error of a page request. -/
inductive Raised
  | input (message : String)
  | api
  deriving DecidableEq, Repr

/-- Where an iteration is. -/
inductive Phase
  | requesting (offset : ℕ)
  /-- The route has read the products of the page, and not how many there are. -/
  | listed (offset : ℕ) (items : List Row)
  /-- The page has come; `rest` are those of its products that were not yielded yet. -/
  | yielding (offset : ℕ) (items rest : List Row) (total : ℕ)
  | stopped
  | raised (e : Raised)
  deriving DecidableEq, Repr

/-- The iteration is over. -/
def Phase.ended : Phase → Bool
  | .stopped | .raised _ => true
  | _ => false

/-- A page was asked for and has not come. -/
def Phase.asking : Phase → Bool
  | .requesting _ | .listed _ _ => true
  | _ => false

/-- The requests of the tenant, the iteration, and what `CatalogSync.run` makes of the products:
the disable call that it waits for, and what became of those before. -/
structure State where
  server : SystemState
  phase : Phase
  yielded : List Row
  calling : Option String
  disabledIds : List String
  disableFailures : Table String String

/-- An iteration that begins. -/
def State.start (server : SystemState) : State := ⟨server, .requesting 0, [], none, [], .empty⟩

/-- The steps. -/
inductive Action
  | server (a : Transactions.Action Op)
  | read
  | count
  /-- A page request fails. -/
  | fail
  | next
  /-- A disable call comes back, with the text of its `APIError` if it failed. -/
  | answer (failure : Option String)

/-- The call that `CatalogSync.run` makes for a product; nothing without a feed. -/
def toDisable (feed : Option (List String)) (row : Row) : Option String :=
  feed.bind fun ids => if row.2.isActive && !ids.contains row.1 then some row.1 else none

/-- `list_products` of the route: the products of a page, its query given. -/
def ListQuery.read (collation : DeterministicCollation) (query : ListQuery)
    (s : Ingestion.Store) : List Row :=
  listProducts collation s (some (query.limit.getD 500)) (query.offset.getD 0) query.externalIds

/-- A page request, as far as its first read. -/
def State.read (collation : DeterministicCollation) (pageSize : ℤ) (s : State) (offset : ℕ) :
    State :=
  match listQuery (some pageSize) (some offset) none with
  | .error message => { s with phase := .raised (.input message) }
  | .ok query => { s with phase := .listed offset (query.read collation s.server.store) }

/-- The loop after a page. -/
def afterPage (offset : ℕ) (items : List Row) (total : ℕ) : Phase :=
  if items = [] ∨ total ≤ offset + items.length then .stopped
  else .requesting (offset + items.length)

/-- The answer to the call for a product. -/
def State.answer (s : State) (id : String) : Option String → State
  | none => { s with calling := none, disabledIds := s.disabledIds ++ [id] }
  | some text => { s with calling := none, disableFailures := s.disableFailures.put id text }

/-- One step. -/
def step (cfg : Config) (collation : DeterministicCollation) (pageSize : ℤ)
    (feed : Option (List String)) (s : State) : Action → Option State
  | .server a =>
      (Transactions.step (Ingestion.program cfg) s.server a).map fun server =>
        { s with server := server }
  | .read =>
      match s.phase with
      | .requesting offset => some (s.read collation pageSize offset)
      | _ => none
  | .count =>
      match s.phase with
      | .listed offset items =>
          some { s with phase := .yielding offset items items (countProducts s.server.store none) }
      | _ => none
  | .fail =>
      match s.phase with
      | .requesting _ | .listed _ _ => some { s with phase := .raised .api }
      | _ => none
  | .next =>
      match s.calling, s.phase with
      | none, .yielding offset items (row :: rest) total =>
          some { s with
            phase := .yielding offset items rest total
            yielded := s.yielded ++ [row]
            calling := toDisable feed row }
      | none, .yielding offset items [] total =>
          some { s with phase := afterPage offset items total }
      | _, _ => none
  | .answer failure => s.calling.map fun id => s.answer id failure

/-- An iteration among the requests of a tenant. -/
def iteration (cfg : Config) (collation : DeterministicCollation) (pageSize : ℤ)
    (feed : Option (List String)) (server : SystemState) : System State Action :=
  ⟨.start server, step cfg collation pageSize feed⟩

/-- The step is one of the iteration. -/
def client (_ : State) : Action → Bool
  | .server _ => false
  | _ => true

/-- The step creates no product. -/
def CreatesNothing (cfg : Config) (s : State) : Action → Prop
  | .server a => ∀ server, Transactions.step (Ingestion.program cfg) s.server a = some server →
      server.store.products.rows.length = s.server.store.products.rows.length
  | _ => True

/-! ## What a step does -/

section Steps

variable {cfg : Config} {collation : DeterministicCollation} {pageSize : ℤ}
  {feed : Option (List String)}

/-- What a step does, case by case. -/
inductive Stepped (cfg : Config) (collation : DeterministicCollation) (pageSize : ℤ)
    (feed : Option (List String)) (s : State) : Action → State → Prop
  | server {a : Transactions.Action Op} {server : SystemState}
      (hstep : Transactions.step (Ingestion.program cfg) s.server a = some server) :
      Stepped cfg collation pageSize feed s (.server a) { s with server := server }
  | refused {offset : ℕ} {message : String} (hphase : s.phase = .requesting offset) :
      Stepped cfg collation pageSize feed s .read { s with phase := .raised (.input message) }
  | read {offset : ℕ} (hphase : s.phase = .requesting offset) (hsize : 1 ≤ pageSize.toNat) :
      Stepped cfg collation pageSize feed s .read { s with
        phase := .listed offset (Paging.page collation.newestFirst productKey
          s.server.store.products.rows offset pageSize.toNat) }
  | count {offset : ℕ} {items : List Row} (hphase : s.phase = .listed offset items) :
      Stepped cfg collation pageSize feed s .count { s with
        phase := .yielding offset items items s.server.store.products.rows.length }
  | fail (hasking : s.phase.asking = true) :
      Stepped cfg collation pageSize feed s .fail { s with phase := .raised .api }
  | yield {offset total : ℕ} {items rest : List Row} {row : Row}
      (hphase : s.phase = .yielding offset items (row :: rest) total) (hcall : s.calling = none) :
      Stepped cfg collation pageSize feed s .next { s with
        phase := .yielding offset items rest total
        yielded := s.yielded ++ [row]
        calling := toDisable feed row }
  | turn {offset total : ℕ} {items : List Row} (hphase : s.phase = .yielding offset items [] total)
      (hcall : s.calling = none) :
      Stepped cfg collation pageSize feed s .next { s with phase := afterPage offset items total }
  | answer {id : String} {failure : Option String} (hcall : s.calling = some id) :
      Stepped cfg collation pageSize feed s (.answer failure) (s.answer id failure)

/-- A page request of a size that is not refused. -/
theorem listQuery_ok {offset : ℕ} {query : ListQuery}
    (h : listQuery (some pageSize) (some (offset : ℤ)) none = .ok query) :
    1 ≤ pageSize.toNat ∧ query = ⟨some pageSize.toNat, some offset, none⟩ := by
  unfold listQuery at h
  split at h
  · cases h
  · next hlimit =>
      split at h
      · cases h
      · split at h
        · cases h
        · cases h
          simp only [Option.any_some, Bool.not_eq_true', Bool.and_eq_false_iff,
            decide_eq_false_iff_not, not_or, not_not] at hlimit
          exact ⟨by omega, rfl⟩

theorem stepped_of_step {s s' : State} {a : Action}
    (h : step cfg collation pageSize feed s a = some s') :
    Stepped cfg collation pageSize feed s a s' := by
  cases a with
  | server a =>
      obtain ⟨server, hstep, rfl⟩ := Option.map_eq_some_iff.mp h
      exact .server hstep
  | read =>
      simp only [step] at h
      split at h
      · next offset hphase =>
          obtain rfl := Option.some.inj h
          unfold State.read
          split
          · exact .refused hphase
          · next query hquery =>
              obtain ⟨hsize, rfl⟩ := listQuery_ok hquery
              have hread : ListQuery.read collation ⟨some pageSize.toNat, some offset, none⟩
                  s.server.store = Paging.page collation.newestFirst productKey
                    s.server.store.products.rows offset pageSize.toNat := by
                simp [ListQuery.read, listProducts]
              rw [hread]
              exact .read hphase hsize
      · cases h
  | count =>
      simp only [step] at h
      split at h
      · next offset items hphase =>
          obtain rfl := Option.some.inj h
          rw [countProducts, Ingestion.listed_none]
          exact .count hphase
      · cases h
  | fail =>
      simp only [step] at h
      split at h
      · next hphase =>
          obtain rfl := Option.some.inj h
          exact .fail (by rw [hphase]; rfl)
      · next hphase =>
          obtain rfl := Option.some.inj h
          exact .fail (by rw [hphase]; rfl)
      · cases h
  | next =>
      simp only [step] at h
      split at h
      · next hcall hphase =>
          obtain rfl := Option.some.inj h
          exact .yield hphase hcall
      · next hcall hphase =>
          obtain rfl := Option.some.inj h
          exact .turn hphase hcall
      · cases h
  | answer failure =>
      obtain ⟨id, hcall, rfl⟩ := Option.map_eq_some_iff.mp h
      exact .answer hcall

/-! ## Nothing is missed -/

/-- A product that is there was yielded, or comes in the page at hand, or lies beyond it. -/
def Phase.covers (place : ℕ) (k : ProductKey) : Phase → Prop
  | .requesting offset => offset ≤ place
  | .listed offset items =>
      k ∈ items.map productKey ∨ (items ≠ [] ∧ offset + items.length ≤ place)
  | .yielding offset items rest total => k ∈ rest.map productKey ∨
      (items ≠ [] ∧ offset + items.length ≤ place ∧ offset + items.length < total)
  | .stopped => False
  | .raised _ => True

/-- Later places are covered as well. -/
theorem Phase.covers_mono {place place' : ℕ} {k : ProductKey} {phase : Phase}
    (hle : place ≤ place') (h : phase.covers place k) : phase.covers place' k := by
  cases phase with
  | requesting offset => exact Nat.le_trans h hle
  | listed offset items =>
      exact h.imp_right fun ⟨hne, hplace⟩ => ⟨hne, hplace.trans hle⟩
  | yielding offset items rest total =>
      exact h.imp_right fun ⟨hne, hplace, hlt⟩ => ⟨hne, hplace.trans hle, hlt⟩
  | stopped => exact h
  | raised => trivial

/-- The place of a key among the products. -/
def State.place (collation : DeterministicCollation) (s : State) (k : ProductKey) : ℕ :=
  Paging.rank collation.newestFirst s.server.store.listingKeys k

/-- What every step keeps of a product. -/
structure Covers (collation : DeterministicCollation) (k : ProductKey) (s : State) : Prop where
  there : k ∈ s.server.store.listingKeys
  covered : k ∈ s.yielded.map productKey ∨ s.phase.covers (s.place collation k) k

/-- A page holds the product, or the page is full and the product lies beyond it. -/
theorem covers_page {store : Ingestion.Store} {k : ProductKey} {offset limit : ℕ}
    (hthere : k ∈ store.listingKeys) (hlimit : 1 ≤ limit)
    (hplace : offset ≤ Paging.rank collation.newestFirst store.listingKeys k) :
    let items := Paging.page collation.newestFirst productKey store.products.rows offset limit
    k ∈ items.map productKey ∨ (items ≠ [] ∧
      offset + items.length ≤ Paging.rank collation.newestFirst store.listingKeys k) := by
  have hlength := Paging.length_page collation.newestFirst productKey store.products.rows offset
    limit
  have hend := Paging.rank_lt (r := collation.newestFirst) hthere
  rw [Ingestion.length_listingKeys] at hend
  by_cases hin : Paging.rank collation.newestFirst store.listingKeys k < offset + limit
  · exact .inl ((Paging.mem_keys_page productKey (Ingestion.listingKeys_nodup store)).mpr
      ⟨hthere, hplace, hin⟩)
  · refine .inr ⟨fun hnil => ?_, ?_⟩
    · rw [hnil, List.length_nil] at hlength
      omega
    · omega

/-- **A step covers what was covered.** -/
theorem Covers.step {k : ProductKey} {s s' : State} {a : Action}
    (hstep : Stepped cfg collation pageSize feed s a s')
    (hgrow : ∀ server', a = .server server' →
      Ingestion.KeysStay s.server.store.products s'.server.store.products)
    (h : Covers collation k s) : Covers collation k s' := by
  obtain ⟨hthere, hcovered⟩ := h
  cases hstep with
  | server =>
      have hsubset := (hgrow _ rfl).subset
      refine ⟨hsubset k hthere, hcovered.imp_right (Phase.covers_mono ?_)⟩
      exact Paging.rank_mono (Ingestion.listingKeys_nodup _) hsubset
  | refused hphase | fail hphase => exact ⟨hthere, .inr trivial⟩
  | read hphase hsize =>
      rw [hphase] at hcovered
      exact ⟨hthere, hcovered.imp_right (covers_page hthere hsize)⟩
  | @count offset items hphase =>
      rw [hphase] at hcovered
      refine ⟨hthere, hcovered.imp_right ?_⟩
      rintro (hmem | ⟨hne, hplace⟩)
      · exact .inl hmem
      · -- The product at hand is one of those that are counted.
        have hend := Paging.rank_lt (r := collation.newestFirst) hthere
        rw [Ingestion.length_listingKeys] at hend
        exact .inr ⟨hne, hplace, Nat.lt_of_le_of_lt hplace hend⟩
  | @yield offset total items rest row hphase hcall =>
      rw [hphase] at hcovered
      refine ⟨hthere, ?_⟩
      dsimp only
      rw [List.map_append, List.mem_append]
      rcases hcovered with hold | hmem | hbeyond
      · exact .inl (.inl hold)
      · rcases List.mem_cons.mp hmem with rfl | hrest
        · exact .inl (.inr List.mem_cons_self)
        · exact .inr (.inl hrest)
      · exact .inr (.inr hbeyond)
  | @turn offset total items hphase hcall =>
      rw [hphase] at hcovered
      refine ⟨hthere, hcovered.imp_right ?_⟩
      rintro (hmem | ⟨hne, hplace, hlt⟩)
      · cases hmem
      · have hmore : ¬ (items = [] ∨ total ≤ offset + items.length) := by
          rintro (hnil | hle)
          · exact hne hnil
          · omega
        dsimp only
        rw [afterPage, if_neg hmore]
        exact hplace
  | @answer id failure hcall =>
      cases failure <;> exact ⟨hthere, hcovered⟩

/-! ## Nothing comes twice -/

/-- The products up to where the iteration is were yielded, in the order of `keys`. -/
def Phase.exact (keys : List ProductKey) (limit : ℕ) (yielded : List ProductKey) : Phase → Prop
  | .requesting offset => yielded = keys.take offset
  | .listed offset items => yielded = keys.take offset ∧ 1 ≤ limit ∧
      items.map productKey = (keys.drop offset).take limit
  | .yielding offset items rest total =>
      yielded ++ rest.map productKey = keys.take (offset + items.length) ∧ 1 ≤ limit ∧
        items.length = min limit (keys.length - offset) ∧ total = keys.length
  | .stopped => yielded = keys
  | .raised _ => True

/-- What every step keeps that creates no product. -/
structure Exact (collation : DeterministicCollation) (keys : List ProductKey) (limit : ℕ)
    (s : State) : Prop where
  sorted : s.server.store.listingKeys.insertionSort collation.newestFirst = keys
  exact : s.phase.exact keys limit (s.yielded.map productKey)

/-- Products that stay, and are no more, are the same. -/
theorem perm_of_keysStay {store store' : Ingestion.Store}
    (h : Ingestion.KeysStay store.products store'.products)
    (hlength : store'.products.rows.length = store.products.rows.length) :
    store'.listingKeys.Perm store.listingKeys := by
  refine ((List.Nodup.subperm (Ingestion.listingKeys_nodup store) h.subset).perm_of_length_le
    ?_).symm
  rw [Ingestion.length_listingKeys, Ingestion.length_listingKeys, hlength]

/-- **A step yields in order.** -/
theorem Exact.step {keys : List ProductKey} {s s' : State} {a : Action}
    (hstep : Stepped cfg collation pageSize feed s a s')
    (hsame : ∀ server', a = .server server' →
      s'.server.store.listingKeys.Perm s.server.store.listingKeys)
    (h : Exact collation keys pageSize.toNat s) : Exact collation keys pageSize.toNat s' := by
  obtain ⟨hsorted, hexact⟩ := h
  have hlength : s.server.store.products.rows.length = keys.length := by
    rw [← hsorted, List.length_insertionSort, Ingestion.length_listingKeys]
  cases hstep with
  | server => exact ⟨(Paging.insertionSort_eq_of_perm (hsame _ rfl)).trans hsorted, hexact⟩
  | refused | fail => exact ⟨hsorted, trivial⟩
  | read hphase hsize =>
      rw [hphase] at hexact
      refine ⟨hsorted, hexact, hsize, ?_⟩
      rw [Paging.keys_page, ← hsorted]
      rfl
  | @count offset items hphase =>
      rw [hphase] at hexact
      obtain ⟨hyielded, hsize, hitems⟩ := hexact
      have hcount : items.length = min pageSize.toNat (keys.length - offset) := by
        have := congrArg List.length hitems
        rwa [List.length_map, List.length_take, List.length_drop] at this
      refine ⟨hsorted, ?_, hsize, hcount, hlength⟩
      rw [hyielded, hitems, List.take_add, hcount, ← List.length_drop]
      exact congrArg _ List.take_eq_take_min
  | @yield offset total items rest row hphase hcall =>
      rw [hphase] at hexact
      obtain ⟨hyielded, hsize, hcount, htotal⟩ := hexact
      refine ⟨hsorted, ?_, hsize, hcount, htotal⟩
      rw [← hyielded, List.map_append, List.append_assoc]
      rfl
  | @turn offset total items hphase hcall =>
      rw [hphase] at hexact
      obtain ⟨hyielded, hsize, hcount, rfl⟩ := hexact
      rw [List.map_nil, List.append_nil] at hyielded
      refine ⟨hsorted, ?_⟩
      dsimp only
      unfold afterPage
      split
      · next hlast =>
          have hend : keys.length ≤ offset + items.length := by
            rcases hlast with hnil | hle
            · rw [hnil, List.length_nil] at hcount
              omega
            · exact hle
          exact hyielded.trans (List.take_of_length_le hend)
      · exact hyielded
  | @answer id failure hcall => cases failure <;> exact ⟨hsorted, hexact⟩

/-! ## It stops -/

/-- How many more steps an iteration takes, when there are `n` products and none is created. -/
def Phase.remaining (n : ℕ) : Phase → ℕ
  | .requesting offset => 5 * (n - offset) + 3
  | .listed offset items =>
      if items = [] then 2 else 5 * (n - (offset + items.length)) + 2 * items.length + 5
  | .yielding offset items rest _ =>
      2 * rest.length + 1 + if items = [] then 0 else 5 * (n - (offset + items.length)) + 3
  | .stopped | .raised _ => 0

/-- The same with the answer that is waited for. -/
def State.remaining (s : State) : ℕ :=
  s.phase.remaining s.server.store.products.rows.length + if s.calling.isSome then 1 else 0

@[simp] theorem remaining_raised (n : ℕ) (e : Raised) : (Phase.raised e).remaining n = 0 := rfl

theorem remaining_pos {n : ℕ} {phase : Phase} (h : phase.ended = false) :
    1 ≤ phase.remaining n := by
  cases phase with
  | requesting | yielding =>
      simp only [Phase.remaining]
      omega
  | listed offset items =>
      simp only [Phase.remaining]
      split <;> omega
  | stopped | raised => cases h

/-- **A step of the iteration is one less to come.** -/
theorem remaining_step {s s' : State} {a : Action}
    (hstep : Stepped cfg collation pageSize feed s a s') (hquiet : CreatesNothing cfg s a) :
    s'.remaining + (if client s a then 1 else 0) ≤ s.remaining := by
  cases hstep with
  | @server a server hstep =>
      have hsame := hquiet server hstep
      simp only [State.remaining, hsame, client]
      exact Nat.le_refl _
  | @refused offset message hphase =>
      have hpos : 1 ≤ s.phase.remaining s.server.store.products.rows.length :=
        remaining_pos (by rw [hphase]; rfl)
      simp only [State.remaining, remaining_raised, client, if_true]
      omega
  | fail hasking =>
      have hpos : 1 ≤ s.phase.remaining s.server.store.products.rows.length :=
        remaining_pos (by cases hphase : s.phase <;> simp_all [Phase.asking, Phase.ended])
      simp only [State.remaining, remaining_raised, client, if_true]
      omega
  | @read offset hphase hsize =>
      have hlength := Paging.length_page collation.newestFirst productKey
        s.server.store.products.rows offset pageSize.toNat
      simp only [State.remaining, Phase.remaining, client, if_true, hphase]
      split
      · omega
      · next hne =>
          have hpos := List.length_pos_iff.mpr hne
          omega
  | @count offset items hphase =>
      simp only [State.remaining, Phase.remaining, client, if_true, hphase]
      split
      · next hnil =>
          rw [hnil, List.length_nil]
          omega
      · omega
  | @yield offset total items rest row hphase hcall =>
      simp only [State.remaining, Phase.remaining, client, if_true, hphase, hcall,
        List.length_cons, Option.isSome_none]
      have hanswer : (if (toDisable feed row).isSome then 1 else 0) ≤ 1 := by split <;> omega
      simp only [Bool.false_eq_true, if_false]
      omega
  | @turn offset total items hphase hcall =>
      have hturn : (afterPage offset items total).remaining s.server.store.products.rows.length ≤
          if items = [] then 0
          else 5 * (s.server.store.products.rows.length - (offset + items.length)) + 3 := by
        unfold afterPage
        by_cases hlast : items = [] ∨ total ≤ offset + items.length
        · rw [if_pos hlast]
          exact Nat.zero_le _
        · rw [if_neg hlast, if_neg fun hnil => hlast (.inl hnil)]
          exact Nat.le_refl _
      simp only [State.remaining, client, if_true, hphase, hcall]
      rw [Phase.remaining, List.length_nil]
      omega
  | @answer id failure hcall =>
      have hanswer : (s.answer id failure).remaining =
          s.phase.remaining s.server.store.products.rows.length := by
        cases failure <;> rfl
      rw [hanswer, State.remaining, hcall]
      exact Nat.le_refl _

/-- A run that creates no product takes no more steps of the iteration than remain. -/
theorem remaining_run {server : SystemState} {s t : State} {as : List Action}
    (h : Run (iteration cfg collation pageSize feed server) (CreatesNothing cfg) s as t) :
    t.remaining + countSteps (iteration cfg collation pageSize feed server) client s as ≤
      s.remaining := by
  induction h with
  | nil s => simp [countSteps, trace]
  | @cons s s' t a as hok hstep _ ih =>
      have hfirst := remaining_step (stepped_of_step hstep) hok
      rw [countSteps_cons client hstep]
      omega

/-- An iteration that is not over can go on. -/
theorem exists_client_step {s : State} (h : s.phase.ended = false) :
    ∃ a s', client s a = true ∧ step cfg collation pageSize feed s a = some s' := by
  cases hphase : s.phase with
  | requesting offset => exact ⟨.read, _, rfl, by rw [step, hphase]⟩
  | listed offset items => exact ⟨.count, _, rfl, by rw [step, hphase]⟩
  | yielding offset items rest total =>
      cases hcall : s.calling with
      | some id => exact ⟨.answer none, _, rfl, by rw [step, hcall]; rfl⟩
      | none =>
          cases rest with
          | nil => exact ⟨.next, _, rfl, by rw [step, hcall, hphase]⟩
          | cons row rest => exact ⟨.next, _, rfl, by rw [step, hcall, hphase]⟩
  | stopped | raised =>
      rw [hphase] at h
      cases h

/-! ## Missing products are disabled -/

/-- What became of the products that were yielded: a call for each that is missing from the feed. -/
structure Dealt (feed : Option (List String)) (s : State) : Prop where
  dealt : ∀ row ∈ s.yielded, ∀ id, toDisable feed row = some id →
    id ∈ s.disabledIds ∨ s.disableFailures.get? id ≠ none ∨ s.calling = some id
  idle : s.phase.asking = true ∨ s.phase.ended = true → s.calling = none

/-- **A step calls for the product it yields.** -/
theorem Dealt.step {s s' : State} {a : Action}
    (hstep : Stepped cfg collation pageSize feed s a s') (h : Dealt feed s) : Dealt feed s' := by
  obtain ⟨hdealt, hidle⟩ := h
  cases hstep with
  | server => exact ⟨hdealt, hidle⟩
  | refused hphase => exact ⟨hdealt, fun _ => hidle (.inl (by rw [hphase]; rfl))⟩
  | fail hasking => exact ⟨hdealt, fun _ => hidle (.inl hasking)⟩
  | read hphase hsize => exact ⟨hdealt, fun _ => hidle (.inl (by rw [hphase]; rfl))⟩
  | count hphase => exact ⟨hdealt, fun hend => by rcases hend with hend | hend <;> cases hend⟩
  | @yield offset total items rest row hphase hcall =>
      refine ⟨fun row' hrow' id hid => ?_, fun hend => ?_⟩
      · rcases List.mem_append.mp hrow' with hold | hnew
        · rcases hdealt row' hold id hid with hdisabled | hfailed | hcalling
          · exact .inl hdisabled
          · exact .inr (.inl hfailed)
          · rw [hcall] at hcalling
            cases hcalling
        · exact .inr (.inr (List.mem_singleton.mp hnew ▸ hid))
      · rcases hend with hend | hend <;> cases hend
  | turn hphase hcall => exact ⟨hdealt, fun _ => hcall⟩
  | @answer id failure hcall =>
      have hcalled : ∀ {id'}, s.calling = some id' → id' = id := fun heq =>
        Option.some.inj (heq.symm.trans hcall)
      cases failure with
      | none =>
          refine ⟨fun row hrow id' hid => ?_, fun _ => rfl⟩
          rcases hdealt row hrow id' hid with hdisabled | hfailed | hcalling
          · exact .inl (List.mem_append_left _ hdisabled)
          · exact .inr (.inl hfailed)
          · exact .inl (List.mem_append_right _ (List.mem_singleton.mpr (hcalled hcalling)))
      | some text =>
          refine ⟨fun row hrow id' hid => ?_, fun _ => rfl⟩
          have hput := Table.get?_put (t := s.disableFailures) id text id'
          rcases hdealt row hrow id' hid with hdisabled | hfailed | hcalling
          · exact .inl hdisabled
          · refine .inr (.inl ?_)
            rw [State.answer, hput]
            split
            · exact Option.some_ne_none _
            · exact hfailed
          · refine .inr (.inl ?_)
            rw [State.answer, hput, if_pos (hcalled hcalling)]
            exact Option.some_ne_none _

/-! ## Runs -/

section Runs

variable {first : Start} {server : SystemState} {s : State} {as : List Action}

/-- What every step keeps, over a run among the requests of a tenant. -/
theorem run_invariant {P : State → Prop} {ok : State → Action → Prop}
    (hreach : Reachable (Ingestion.tenant cfg first) anyStep server)
    (hrun : Run (iteration cfg collation pageSize feed server) ok (.start server) as s)
    (hinit : P (.start server))
    (hkeep : ∀ s a s', P s → ok s a → Stepped cfg collation pageSize feed s a s' →
      (∀ a', a = .server a' →
        Ingestion.KeysStay s.server.store.products s'.server.store.products) → P s') : P s := by
  have hboth : Reachable (Ingestion.tenant cfg first) anyStep s.server ∧ P s := by
    refine hrun.invariant (P := fun s => Reachable (Ingestion.tenant cfg first) anyStep s.server ∧
      P s) ?_ ⟨hreach, hinit⟩
    rintro s a s' ⟨hserver, hs⟩ hok hstep
    have hstepped := stepped_of_step hstep
    refine ⟨?_, hkeep s a s' hs hok hstepped ?_⟩
    · cases hstepped with
      | server hserverStep => exact hserver.run (.single trivial hserverStep)
      | refused | read | count | fail | yield | turn => exact hserver
      | @answer id failure hcall => cases failure <;> exact hserver
    · rintro a' rfl
      cases hstepped with
      | server hserverStep => exact Ingestion.step_keepsKeys hserver hserverStep
  exact hboth.2

/-- A product that was there when the iteration began is covered. -/
theorem covers_run (hreach : Reachable (Ingestion.tenant cfg first) anyStep server)
    (hrun : Run (iteration cfg collation pageSize feed server) anyStep (.start server) as s)
    {k : ProductKey} (hk : k ∈ server.store.listingKeys) : Covers collation k s :=
  run_invariant hreach hrun ⟨hk, .inr (Nat.zero_le _)⟩
    fun _ _ _ h _ hstep hgrow => h.step hstep hgrow

/-- Without new products the products are yielded in order. -/
theorem exact_run (hreach : Reachable (Ingestion.tenant cfg first) anyStep server)
    (hrun : Run (iteration cfg collation pageSize feed server) (CreatesNothing cfg) (.start server)
      as s) :
    Exact collation (server.store.listingKeys.insertionSort collation.newestFirst) pageSize.toNat
      s := by
  refine run_invariant hreach hrun ⟨rfl, List.take_zero.symm⟩ ?_
  intro s a s' h hok hstep hgrow
  refine h.step hstep ?_
  rintro a' rfl
  have hstays := hgrow a' rfl
  cases hstep with
  | server hstep => exact perm_of_keysStay hstays (hok _ hstep)

/-- The missing products were dealt with. -/
theorem dealt_run (hreach : Reachable (Ingestion.tenant cfg first) anyStep server)
    (hrun : Run (iteration cfg collation pageSize feed server) anyStep (.start server) as s) :
    Dealt feed s := by
  refine run_invariant hreach hrun ⟨?_, fun _ => rfl⟩ fun _ _ _ h _ hstep _ => h.step hstep
  intro row hrow
  cases hrow

/-- In an iteration without new products each product comes once. -/
theorem Exact.count_eq_one {s : State} (hphase : s.phase = .stopped) {limit : ℕ}
    (h : Exact collation (server.store.listingKeys.insertionSort collation.newestFirst) limit s)
    {id : String} (hid : server.store.products.get? id ≠ none) :
    (s.yielded.map Prod.fst).count id = 1 := by
  have hexact := h.exact
  rw [hphase] at hexact
  have hperm : (s.yielded.map Prod.fst).Perm (server.store.products.rows.map Prod.fst) := by
    have hkeys : (s.yielded.map productKey).Perm server.store.listingKeys :=
      hexact ▸ List.perm_insertionSort _ _
    have hids := hkeys.map Prod.snd
    rwa [Ingestion.Store.listingKeys, List.map_map, List.map_map] at hids
  rw [hperm.count_eq]
  refine List.count_eq_one_of_mem server.store.products.nodup ?_
  rwa [Ne, Table.get?_eq_none_iff, not_not] at hid

end Runs

end Steps

/-! ## A run -/

/-- Texts in the order of their characters. -/
def byCharacters : DeterministicCollation where
  toCollation := Dgsr.byCharacters
  antisymm _ _ hab hba := le_antisymm (of_decide_eq_true hab) (of_decide_eq_true hba)

/-- A lamp is there; a chair of the same moment is created between the two reads of the first page,
so that the lamp comes again in the second one. -/
def shiftedRun : List Action :=
  [.read, .server (.start 0 (.updateProduct "chair" (Ingestion.someProduct "chair")))] ++
    List.replicate 8 (.server (.run 0)) ++
    [.count, .next, .answer none, .next, .read, .count, .next, .answer (some "timeout"), .next]

end Sdk.Iterate
