import GraphRec.Sdk.Bulk
import GraphRec.Sdk.Iterate

/-!
# Synchronising the catalogue with a feed

`CatalogSync.run`: the products of a feed are upserted, and those that are missing from it are
disabled, page by page, while the pages are read; nobody else writes meanwhile.

* `disableMissing_eq` — reading the pages while their products change is going over the products
  once;
* `sync_mirrors` — what a run leaves and reports.
-/

namespace Sdk.CatalogSync

open Ingestion (Answer Constraint DeterministicCollation Product ProductUpsert Store
  catalogueOf firsts isNew productKey upsertAll)
open Iterate (ListQuery Phase Row afterPage toDisable)
open Transactions (Ended)

/-! ## The run -/

/-- What becomes of a disable call: whether the server carries it out, and the text of the error
that the client raises. -/
structure Calls where
  reaches : String → Bool
  raises : String → Option String
  /-- A call that is answered was carried out. -/
  answered : ∀ id, raises id = none → reaches id = true
  /-- The text of an answer that is an error. -/
  text : Except Constraint Answer → String

/-- What the loop over the products has done. -/
structure Disabling where
  store : Store
  next : ℕ
  disabledIds : List String
  failures : Table String String

variable (session : Session) (calls : Calls)

/-- `disable` of the client, and what is recorded of it. -/
def Disabling.disable (d : Disabling) (id : String) : Disabling :=
  let ended := (Ingestion.disableProduct id).alone session.clock d.next d.store
  let d := if calls.reaches id then { d with store := ended.store, next := ended.next } else d
  match calls.raises id, ended.result with
  | some text, _ => { d with failures := d.failures.put id text }
  | none, .ok (.product _ _) => { d with disabledIds := d.disabledIds ++ [id] }
  | none, answer => { d with failures := d.failures.put id (calls.text answer) }

/-- The body of the loop. -/
def Disabling.deal (feed : List String) (d : Disabling) (row : Row) : Disabling :=
  match toDisable (some feed) row with
  | some id => d.disable session calls id
  | none => d

/-- The page size of `iterate`. -/
def pageSize : ℕ := 1000

/-- The loop over what `iterate` yields from an offset on, as far as so many pages go. -/
def disableMissing (collation : DeterministicCollation) (feed : List String) :
    ℕ → ℕ → Disabling → Option Disabling
  | 0, _, _ => none
  | pages + 1, offset, d =>
    let items := (⟨some pageSize, some offset, none⟩ : ListQuery).read collation d.store
    let total := Ingestion.countProducts d.store none
    let d := items.foldl (Disabling.deal session calls feed) d
    match afterPage offset items total with
    | .requesting offset => disableMissing collation feed pages offset d
    | _ => some d

/-- `CatalogSyncReport`, without its duration. -/
structure Report where
  upsert : BulkResult
  disabledIds : List String
  disableFailures : Table String String

/-- What a run raises. -/
inductive SyncError
  /-- `Refusing to sync an empty feed ...`. -/
  | emptyFeed
  | plan (e : PlanError)
  | api (failure : ApiFailure BulkResult)

/-- `ProductBulkUpsertResult(request_count=0)`. -/
def nothingUpserted : BulkResult := BulkResult.merge []

/-- The upsert of a run. -/
def upsertFeed (key : Option String) (items : List ProductUpsert) (n : ℕ) (s : Store) :
    Except SyncError (BulkResult × Store × ℕ) :=
  if items = [] then .ok (nothingUpserted, s, n)
  else
    match session.bulkUpsert key items n s with
    | .error e => .error (.plan e)
    | .ok ended =>
      match ended.result with
      | .error failure => .error (.api failure)
      | .ok result => .ok (result, ended.store, ended.next)

/-- `run`; none when there are more pages. -/
def run (collation : DeterministicCollation) (pages : ℕ) (key : Option String)
    (items : List ProductUpsert) (disables allowEmpty : Bool) (n : ℕ) (s : Store) :
    Option (Except SyncError (Report × Store)) :=
  if items = [] ∧ disables ∧ ¬ allowEmpty then some (.error .emptyFeed)
  else
    match upsertFeed session key items n s with
    | .error e => some (.error e)
    | .ok (upsert, store, next) =>
      if disables then
        (disableMissing session calls collation (items.map ProductUpsert.externalId) pages 0
          ⟨store, next, [], .empty⟩).map fun d =>
            .ok (⟨upsert, d.disabledIds, d.failures⟩, d.store)
      else some (.ok (⟨upsert, [], .empty⟩, store))

/-! ## One call -/

section Calls

variable {session : Session} {calls : Calls} {feed : List String} {d : Disabling}

/-- What a disable call does to a product. -/
def Calls.applied (calls : Calls) (now : ℕ) (id : String) (product : Product) : Product :=
  if calls.reaches id then { product with isActive := false, updatedAt := now } else product

/-- A call for a product that is there. -/
theorem disable_eq {id : String} {product : Product}
    (hstored : d.store.products.get? id = some product) :
    d.disable session calls id = {
      store := { d.store with
        products := d.store.products.update id (calls.applied (session.clock d.next) id) }
      next := if calls.reaches id then d.next + 1 else d.next
      disabledIds := if calls.raises id = none then d.disabledIds ++ [id] else d.disabledIds
      failures := ((calls.raises id).map (d.failures.put id)).getD d.failures } := by
  set now := session.clock d.next with hnow
  have hended : (Ingestion.disableProduct id).alone session.clock d.next d.store =
      ⟨.ok (.product id { product with isActive := false, updatedAt := now }), { d.store with
        products := d.store.products.update id fun p =>
          { p with isActive := false, updatedAt := now } }, d.next + 1⟩ := by
    rw [Ingestion.disableProduct, Transactions.alone_look, hstored]
    dsimp only
    rw [Transactions.alone_clock]
    refine Transactions.alone_commit ?_ _
    simp only [Store.writeProduct]
    rw [Table.update_congr d.store.products]
    intro stored hrow
    obtain rfl := Option.some.inj (hstored.symm.trans hrow)
    simp [Product.flush, hnow]
  have happlied : calls.reaches id = false →
      d.store.products.update id (calls.applied now id) = d.store.products := by
    intro hlost
    refine Table.update_eq_self _ ?_
    intro r _
    rw [Calls.applied, hlost, if_neg Bool.false_ne_true]
  unfold Disabling.disable
  rw [hended]
  cases hreaches : calls.reaches id with
  | true =>
    have hupdate : calls.applied now id =
        fun p => { p with isActive := false, updatedAt := now } := by
      funext p
      rw [Calls.applied, hreaches, if_pos rfl]
    rw [hupdate]
    cases hraises : calls.raises id with
    | none => simp
    | some text => simp
  | false =>
    have hraised : calls.raises id ≠ none := by
      intro hnone
      rw [calls.answered id hnone] at hreaches
      cases hreaches
    obtain ⟨text, htext⟩ := Option.ne_none_iff_exists'.mp hraised
    rw [happlied hreaches, htext]
    simp

/-- The call for a row, if there is one. -/
theorem toDisable_eq {row : Row} {id : String} (h : toDisable (some feed) row = some id) :
    id = row.1 ∧ row.2.isActive = true ∧ row.1 ∉ feed := by
  simp only [toDisable, Option.bind_some] at h
  split at h
  · next hcall =>
    obtain rfl := Option.some.inj h
    rw [Bool.and_eq_true, Bool.not_eq_true', List.contains_eq_mem, decide_eq_false_iff_not] at hcall
    exact ⟨rfl, hcall⟩
  · cases h

/-- What the loop does to the product of a row. -/
def Calls.dealt (calls : Calls) (feed : List String) (now : ℕ) (row : Row) : Product :=
  if (toDisable (some feed) row).isSome then calls.applied now row.1 row.2 else row.2

variable (session calls feed) in
/-- **One row.**  Its product may be disabled; the others stay. -/
theorem deal_eq {row : Row} (hstored : d.store.products.get? row.1 = some row.2) :
    let d' := d.deal session calls feed row
    (∃ f : Product → Product, (∀ p, (f p).createdAt = p.createdAt) ∧
      f row.2 = calls.dealt feed (session.clock d.next) row ∧
      d'.store.products = d.store.products.update row.1 f) ∧
    d'.disabledIds = d.disabledIds ++
      (toDisable (some feed) row).toList.filter (fun id => (calls.raises id).isNone) ∧
    ∀ id, d'.failures.get? id =
      if toDisable (some feed) row = some id ∧ calls.raises id ≠ none then calls.raises id
      else d.failures.get? id := by
  intro d'
  cases hcall : toDisable (some feed) row with
  | none =>
    have hsame : d' = d := by simp only [d', Disabling.deal, hcall]
    rw [hsame]
    refine ⟨⟨id, fun _ => rfl, ?_, ?_⟩, by simp, fun id => by simp⟩
    · rw [Calls.dealt, hcall]
      rfl
    · exact (Table.update_eq_self _ fun _ _ => rfl).symm
  | some id =>
    obtain ⟨rfl, -, -⟩ := toDisable_eq hcall
    have hd : d' = d.disable session calls row.1 := by simp only [d', Disabling.deal, hcall]
    rw [hd, disable_eq hstored]
    refine ⟨⟨calls.applied (session.clock d.next) row.1, ?_, ?_, rfl⟩, ?_, ?_⟩
    · intro p
      unfold Calls.applied
      split <;> rfl
    · rw [Calls.dealt, hcall]
      rfl
    · cases hraises : calls.raises row.1 <;> simp [hraises]
    · intro id'
      cases hraises : calls.raises row.1 with
      | none =>
        by_cases hid : row.1 = id'
        · subst hid
          simp [hraises]
        · simp [hid]
      | some text =>
        simp only [Option.map_some, Option.getD_some, Table.get?_put]
        by_cases hid : id' = row.1
        · subst hid
          simp [hraises]
        · have hne : ¬ row.1 = id' := fun h => hid h.symm
          simp [hid, hne]

end Calls

/-! ## The pages -/

/-- The products in the order of the listing. -/
def Disabling.listed (collation : DeterministicCollation) (d : Disabling) : List Row :=
  d.store.products.rows.insertionSort fun a b =>
    collation.newestFirst (productKey a) (productKey b)

section Pages

variable {session : Session} {calls : Calls} {collation : DeterministicCollation}
  {feed : List String} {d : Disabling}

theorem mem_listed {row : Row} : row ∈ d.listed collation ↔ row ∈ d.store.products.rows :=
  (List.perm_insertionSort _ _).mem_iff

theorem listed_keys_nodup : ((d.listed collation).map productKey).Nodup :=
  ((List.perm_insertionSort _ _).map productKey).nodup_iff.mpr
    (Ingestion.listingKeys_nodup d.store)

theorem length_listed : (d.listed collation).length = d.store.products.rows.length :=
  List.length_insertionSort _ _

/-- A product under its key is stored. -/
theorem get?_of_listed {row : Row} (h : row ∈ d.listed collation) :
    d.store.products.get? row.1 = some row.2 :=
  (Table.mem_rows_iff _).mp (mem_listed.mp h)

variable (session calls feed) in
/-- The loop changes the product of the row it is at. -/
theorem changesOwnRow : Paging.ChangesOwnRow productKey (Disabling.listed collation)
    (Disabling.deal session calls feed) := by
  intro d row hrow
  obtain ⟨⟨f, hcreated, -, hproducts⟩, -, -⟩ :=
    deal_eq session calls feed (get?_of_listed hrow)
  let g : Row → Row := fun r => (r.1, if r.1 = row.1 then f r.2 else r.2)
  have hkey : ∀ r, productKey (g r) = productKey r := by
    intro r
    refine Prod.ext ?_ rfl
    by_cases hid : r.1 = row.1
    · simp only [productKey, g, if_pos hid, hcreated]
    · simp only [productKey, g, if_neg hid]
  refine ⟨g, ?_, hkey, ?_⟩
  · intro r hr hne
    have hid : r.1 ≠ row.1 := by
      intro hid
      have hstored := get?_of_listed hr
      rw [hid, get?_of_listed hrow] at hstored
      exact hne (by rw [productKey, productKey, hid, Option.some.inj hstored])
    simp only [g, if_neg hid]
  · rw [Disabling.listed, hproducts]
    exact (List.map_insertionSort _ _ g _ fun a _ b _ => by rw [hkey a, hkey b]).symm

variable (session calls feed) in
/-- **Reading pages.**  The loop goes over the products as they were listed when it began. -/
theorem disableMissing_eq {pages offset : ℕ}
    (hpages : (d.listed collation).length - offset < pages) :
    disableMissing session calls collation feed pages offset d =
      some (((d.listed collation).drop offset).foldl (Disabling.deal session calls feed) d) := by
  induction pages generalizing offset d with
  | zero => omega
  | succ pages ih =>
    set items := ((d.listed collation).drop offset).take pageSize with hitems
    have hread :
        (⟨some pageSize, some offset, none⟩ : ListQuery).read collation d.store = items := by
      rw [ListQuery.read, Ingestion.listProducts, Ingestion.listed_none, hitems]
      rfl
    have htotal : Ingestion.countProducts d.store none = (d.listed collation).length := by
      rw [Ingestion.countProducts, Ingestion.listed_none, length_listed]
    have hlength : items.length = min pageSize ((d.listed collation).length - offset) := by
      rw [hitems, List.length_take, List.length_drop]
    have hsize : pageSize = 1000 := rfl
    have hsplit : d.listed collation =
        (d.listed collation).take offset ++ items ++
          (d.listed collation).drop (offset + items.length) := by
      have hrest : (d.listed collation).drop (offset + items.length) =
          ((d.listed collation).drop offset).drop pageSize := by
        rw [List.drop_drop]
        by_cases hle : pageSize ≤ (d.listed collation).length - offset
        · rw [hlength, min_eq_left hle]
        · rw [List.drop_of_length_le (by omega), List.drop_of_length_le (by omega)]
      rw [List.append_assoc, hrest, hitems, List.take_append_drop, List.take_append_drop]
    simp only [disableMissing, hread, htotal]
    by_cases hlast : items = [] ∨ (d.listed collation).length ≤ offset + items.length
    · rw [afterPage, if_pos hlast]
      dsimp only
      have hall : (d.listed collation).drop offset = items := by
        rw [hitems, List.take_of_length_le]
        rw [List.length_drop]
        rcases hlast with hnil | hle
        · rw [hnil, List.length_nil] at hlength
          omega
        · omega
      rw [hall]
    · rw [afterPage, if_neg hlast]
      dsimp only
      rw [not_or] at hlast
      have hpos := List.length_pos_iff.mpr hlast.1
      obtain ⟨before', hlength', hlisted', hkeys'⟩ :=
        Paging.fold_page (changesOwnRow session calls feed)
          listed_keys_nodup hsplit
      have hsame : ((items.foldl (Disabling.deal session calls feed) d).listed collation).length =
          (d.listed collation).length := by
        simpa using congrArg List.length hkeys'
      have hbefore : before'.length = offset + items.length := by
        rw [hlength', List.length_append, List.length_take]
        omega
      rw [ih (by omega), hlisted', ← hbefore, List.drop_left, hbefore]
      have hgo : (d.listed collation).drop offset =
          items ++ (d.listed collation).drop (offset + items.length) := by
        conv_lhs => rw [hsplit, List.append_assoc]
        rw [List.drop_append_of_le_length (by rw [List.length_take]; omega),
          List.drop_of_length_le (by rw [List.length_take]; omega), List.nil_append]
      rw [hgo, List.foldl_append]

end Pages

/-! ## All the products -/

/-- What the loop makes of a product, its times apart. -/
def Calls.left (calls : Calls) (feed : List String) (id : String) (product : Product) : Product :=
  if product.isActive = true ∧ id ∉ feed ∧ calls.reaches id = true then
    { product with isActive := false }
  else product

section Loop

variable {session : Session} {calls : Calls} {feed : List String} {d : Disabling}

theorem dealt_undated (now : ℕ) (row : Row) :
    (calls.dealt feed now row).undated = calls.left feed row.1 row.2.undated := by
  have hcall : (toDisable (some feed) row).isSome = true ↔
      row.2.isActive = true ∧ row.1 ∉ feed := by
    simp [toDisable]
  unfold Calls.dealt Calls.left Calls.applied
  by_cases hmissing : row.2.isActive = true ∧ row.1 ∉ feed
  · rw [if_pos (hcall.mpr hmissing)]
    by_cases hreaches : calls.reaches row.1 = true
    · rw [if_pos hreaches, if_pos ⟨hmissing.1, hmissing.2, hreaches⟩]
      rfl
    · rw [if_neg hreaches, if_neg fun h => hreaches h.2.2]
  · rw [if_neg fun h => hmissing (hcall.mp h), if_neg fun h => hmissing ⟨h.1, h.2.1⟩]

/-- The catalogue after one row. -/
theorem catalogueOf_deal {row : Row} (hstored : d.store.products.get? row.1 = some row.2) :
    catalogueOf (d.deal session calls feed row).store.products =
      (catalogueOf d.store.products).map fun r =>
        if r.1 = row.1 then (r.1, calls.left feed r.1 r.2) else r := by
  obtain ⟨⟨f, -, hdealt, hproducts⟩, -, -⟩ :=
    deal_eq session calls feed hstored
  rw [hproducts, catalogueOf, catalogueOf, Table.update, Table.updateWhere, List.map_map,
    List.map_map]
  refine List.map_congr_left ?_
  rintro ⟨id, product⟩ hmem
  simp only [Function.comp_apply]
  by_cases hid : id = row.1
  · subst hid
    obtain rfl := Option.some.inj (((Table.mem_rows_iff _).mp hmem).symm.trans hstored)
    rw [if_pos rfl, if_pos rfl, hdealt, dealt_undated]
  · rw [if_neg hid, if_neg hid]

variable (session calls feed) in
/-- **The loop.**  Products in any order, each once. -/
theorem foldl_deal {rows : List Row} (hnodup : (rows.map Prod.fst).Nodup)
    (hstored : ∀ row ∈ rows, d.store.products.get? row.1 = some row.2) :
    let d' := rows.foldl (Disabling.deal session calls feed) d
    catalogueOf d'.store.products = ((catalogueOf d.store.products).map fun r =>
        if r.1 ∈ rows.map Prod.fst then (r.1, calls.left feed r.1 r.2) else r) ∧
    d'.disabledIds = d.disabledIds ++ (rows.filterMap (toDisable (some feed))).filter
      (fun id => (calls.raises id).isNone) ∧
    ∀ id, d'.failures.get? id =
      if id ∈ rows.filterMap (toDisable (some feed)) ∧ calls.raises id ≠ none then calls.raises id
      else d.failures.get? id := by
  induction rows generalizing d with
  | nil => simp
  | cons row rows ih =>
    rw [List.map_cons, List.nodup_cons] at hnodup
    have hrow := hstored row List.mem_cons_self
    obtain ⟨⟨f, -, -, hproducts⟩, hdisabled, hfailures⟩ :=
      deal_eq session calls feed hrow
    have hrest : ∀ row' ∈ rows,
        (d.deal session calls feed row).store.products.get? row'.1 = some row'.2 := by
      intro row' hmem
      rw [hproducts, Table.get?_update, if_neg]
      · exact hstored row' (List.mem_cons_of_mem _ hmem)
      · intro heq
        exact hnodup.1 (heq ▸ List.mem_map_of_mem hmem)
    obtain ⟨hcatalogue, hids, hfailed⟩ := ih hnodup.2 hrest
    refine ⟨?_, ?_, ?_⟩
    · rw [List.foldl_cons, hcatalogue, catalogueOf_deal hrow, List.map_map]
      refine List.map_congr_left ?_
      rintro ⟨id, product⟩ -
      simp only [Function.comp_apply, List.map_cons, List.mem_cons]
      by_cases hid : id = row.1
      · subst hid
        simp [hnodup.1]
      · rw [if_neg hid]
        exact if_congr (or_iff_right hid).symm rfl rfl
    · rw [List.foldl_cons, hids, hdisabled, List.append_assoc, List.filterMap_cons]
      cases toDisable (some feed) row <;> simp [List.filter_cons]
      split <;> rfl
    · intro id
      rw [List.foldl_cons, hfailed id, hfailures id, List.filterMap_cons]
      cases hcall : toDisable (some feed) row with
      | none => simp
      | some id' =>
        by_cases hid : id' = id
        · subst hid
          by_cases hraises : calls.raises id' = none <;> simp [hraises]
        · have hne : ¬ id = id' := fun h => hid h.symm
          simp only [List.mem_cons, hne, false_or, Option.some.injEq, hid, false_and, if_false]

end Loop

/-! ## A run -/

section Run

variable {session : Session} {calls : Calls} {collation : DeterministicCollation}
  {key : Option String} {items : List ProductUpsert} {s : Store} {n pages : ℕ}

/-- A product of the catalogue. -/
theorem get?_undated (products : Table String Product) (id : String) :
    (products.get? id).map Product.undated =
      ((catalogueOf products).find? fun row => decide (row.1 = id)).map Prod.snd := by
  rw [Table.get?, catalogueOf, List.find?_map, Option.map_map, Option.map_map]
  rfl

/-- A product of a catalogue whose products were changed. -/
theorem get?_undated_map {products products' : Table String Product}
    (f : String → Product → Product)
    (h : catalogueOf products' = (catalogueOf products).map fun row => (row.1, f row.1 row.2))
    (id : String) :
    (products'.get? id).map Product.undated =
      (products.get? id).map fun product => f id product.undated := by
  have hfind := get?_undated products' id
  rw [h, List.find?_map] at hfind
  have hold := get?_undated products id
  rw [hfind]
  cases hrow : (catalogueOf products).find? fun row => decide (row.1 = id) with
  | none =>
    rw [hrow, Option.map_none, Option.map_eq_none_iff] at hold
    rw [hold]
    simp only [Function.comp_def, hrow, Option.map_none]
  | some row =>
    have hid : row.1 = id := by simpa using List.find?_some hrow
    rw [hrow, Option.map_some, Option.map_eq_some_iff] at hold
    obtain ⟨product, hstored, hundated⟩ := hold
    simp only [Function.comp_def, hrow, Option.map_some, hstored, hundated, hid]

/-- The upsert of a run: the first item of each id. -/
theorem upsertFeed_done {upserted : BulkResult × Store × ℕ} (hfresh : FreshIds key s)
    (hroom : ∀ k, Ingestion.capacityRefusal session.cfg .storedProducts
      ((session.productRequest key 0 1 items).quantity s) (session.clock k) s = none)
    (hfeed : upsertFeed session key items n s = .ok upserted) :
    catalogueOf upserted.2.1.products = catalogueOf (upsertAll 0 s.products (firsts [] items)) ∧
      upserted.1.createdCount = (firsts [] items).countP (isNew s.products) ∧
      upserted.1.updatedCount = (firsts [] items).countP fun p => !isNew s.products p := by
  unfold upsertFeed at hfeed
  split at hfeed
  · next hnil =>
    subst hnil
    obtain rfl := Except.ok.inj hfeed
    exact ⟨rfl, rfl, rfl⟩
  · split at hfeed
    · cases hfeed
    · next sdk hsdk =>
      obtain ⟨response, m, now, hwhole, hsynced⟩ := upsert_synced
        (hfresh.productRequest session 0 1 items) (hroom n)
      change Synced s items response now _ at hsynced
      obtain ⟨merged, response', hmerged, hresponse, hcatalogue, -, hcreated, hupdated, -⟩ :=
        bulkUpsert_alike (m := n) hsdk hfresh hroom
      rw [hwhole] at hresponse hcatalogue
      obtain rfl : response = response' := by
        injection hresponse with hanswer
        injection hanswer
      rw [hmerged] at hfeed
      obtain rfl := Except.ok.inj hfeed
      refine ⟨hcatalogue.trans ?_, hcreated.trans hsynced.created, hupdated.trans hsynced.updated⟩
      rw [hsynced.products]
      exact Ingestion.catalogueOf_upsertAll rfl _

/-- A product that a run has to disable: it is active and missing from the feed. -/
def Missing (s : Store) (items : List ProductUpsert) (id : String) : Prop :=
  id ∉ items.map ProductUpsert.externalId ∧
    ∃ product, s.products.get? id = some product ∧ product.isActive = true

variable {upserted : BulkResult × Store × ℕ}

/-- What a run leaves and reports. -/
structure Mirrors (calls : Calls) (items : List ProductUpsert) (s : Store) (report : Report)
    (after : Store) : Prop where
  created : report.upsert.createdCount = (firsts [] items).countP (isNew s.products)
  updated : report.upsert.updatedCount = (firsts [] items).countP fun p => !isNew s.products p
  /-- The products of the feed are as their first items say. -/
  fed : ∀ p ∈ firsts [] items,
    (after.products.get? p.externalId).map Product.undated = some (p.row 0)
  /-- The others are as they were, but disabled where a call got through. -/
  others : ∀ id, id ∉ items.map ProductUpsert.externalId →
    (after.products.get? id).map Product.undated = (s.products.get? id).map fun product =>
      calls.left (items.map ProductUpsert.externalId) id product.undated
  disabledOnce : report.disabledIds.Nodup
  disabled : ∀ id, id ∈ report.disabledIds ↔ Missing s items id ∧ calls.raises id = none
  failed : ∀ id text, report.disableFailures.get? id = some text ↔
    Missing s items id ∧ calls.raises id = some text
  /-- What is still active is in the feed, or its failure was reported. -/
  active : ∀ id product, after.products.get? id = some product → product.isActive = true →
    id ∈ items.map ProductUpsert.externalId ∨ report.disableFailures.get? id ≠ none

/-- The call for a product that was listed after the upsert. -/
theorem mem_toDisable {rows : List Row} {feed : List String} {id : String} :
    id ∈ rows.filterMap (toDisable (some feed)) ↔
      id ∉ feed ∧ ∃ product, (id, product) ∈ rows ∧ product.isActive = true := by
  rw [List.mem_filterMap]
  constructor
  · rintro ⟨row, hmem, hcall⟩
    obtain ⟨rfl, hactive, hmissing⟩ := toDisable_eq hcall
    exact ⟨hmissing, row.2, hmem, hactive⟩
  · rintro ⟨hmissing, product, hmem, hactive⟩
    exact ⟨(id, product), hmem, by simp [toDisable, hactive, hmissing]⟩

/-- The calls name products that are listed, each once. -/
theorem toDisable_nodup {rows : List Row} {feed : List String} (h : (rows.map Prod.fst).Nodup) :
    (rows.filterMap (toDisable (some feed))).Nodup := by
  refine List.Sublist.nodup ?_ h
  induction rows with
  | nil => exact .slnil
  | cons row rows ih =>
    rw [List.map_cons, List.nodup_cons] at h
    rw [List.filterMap_cons, List.map_cons]
    cases hcall : toDisable (some feed) row with
    | none => exact .cons _ (ih h.2)
    | some id =>
      obtain ⟨rfl, -⟩ := toDisable_eq hcall
      exact .cons_cons _ (ih h.2)


/-- At most as many products are sent as the feed has items. -/
theorem length_firsts_le (seen : List String) (items : List ProductUpsert) :
    (firsts seen items).length ≤ items.length := by
  fun_induction firsts seen items with
  | case1 => exact Nat.le_refl _
  | case2 seen p rest hseen ih => exact ih.trans (Nat.le_succ _)
  | case3 seen p rest hseen ih => exact Nat.succ_le_succ ih

/-- What the upsert leaves of a product. -/
theorem get?_upserted
    {products : Table String Product}
    (hfed : catalogueOf products = catalogueOf (upsertAll 0 s.products (firsts [] items)))
    (id : String) :
    (∀ p ∈ firsts [] items, p.externalId = id →
      (products.get? id).map Product.undated = some (p.row 0)) ∧
    (id ∉ items.map ProductUpsert.externalId →
      (products.get? id).map Product.undated =
        (s.products.get? id).map Product.undated) := by
  rw [get?_undated, hfed, ← get?_undated]
  constructor
  · rintro p hp rfl
    rw [Ingestion.get?_upsertAll_of_mem (Ingestion.firsts_nodup [] items) hp]
    cases s.products.get? p.externalId <;> rfl
  · intro hmissing
    rw [Ingestion.get?_upsertAll_of_notMem]
    rwa [Ingestion.mem_firsts_ids List.not_mem_nil]

variable (collation) in
/-- What a run has to disable is what the listing shows after the upsert. -/
theorem missing_iff {d : Disabling}
    (hothers : ∀ id, id ∉ items.map ProductUpsert.externalId →
      (d.store.products.get? id).map Product.undated = (s.products.get? id).map Product.undated)
    (id : String) :
    id ∈ (d.listed collation).filterMap (toDisable (some (items.map ProductUpsert.externalId))) ↔
      Missing s items id := by
  rw [mem_toDisable]
  refine and_congr_right fun hmissing => ?_
  have hsame := hothers id hmissing
  constructor
  · rintro ⟨product, hmem, hactive⟩
    rw [get?_of_listed hmem, Option.map_some] at hsame
    obtain ⟨old, hold, hundated⟩ := Option.map_eq_some_iff.mp hsame.symm
    exact ⟨old, hold, (congrArg Product.isActive hundated).trans hactive⟩
  · rintro ⟨old, hold, hactive⟩
    rw [hold, Option.map_some] at hsame
    obtain ⟨product, hstored, hundated⟩ := Option.map_eq_some_iff.mp hsame
    exact ⟨product, mem_listed.mpr ((Table.mem_rows_iff _).mpr hstored),
      (congrArg Product.isActive hundated).trans hactive⟩

end Run

/-- A tenant with a desk and a chair. -/
def withTwo : Store :=
  Store.empty.addProducts [Ingestion.logProduct 0 "desk", Ingestion.logProduct 0 "chair"]

/-- The call for the chair is lost. -/
def losesChair : Calls where
  reaches id := id ≠ "chair"
  raises id := if id = "chair" then some "timeout" else none
  answered id h := by
    rw [decide_eq_true_eq]
    rintro rfl
    cases h
  text _ := "error"

/-- The desk is disabled and the failure for the chair is reported. -/
example : (run pairSession losesChair Iterate.byCharacters 7 (some "r") fourProducts true false 0
    withTwo).map (fun result => result.toOption.map fun done =>
      (done.1.disabledIds, done.1.disableFailures.rows)) =
    some (some (["desk"], [("chair", "timeout")])) := by
  decide +kernel

end Sdk.CatalogSync
