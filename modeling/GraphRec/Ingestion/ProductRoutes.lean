import GraphRec.Ingestion.Alone
import GraphRec.Lib.Decimal
import Mathlib.Algebra.Order.Floor.Defs
import Mathlib.Data.Rat.Floor

/-!
# The routes of a single product

`get_product`, `put_product` and `patch_product` with the body that they validate, and a bulk
upsert of that one product; each alone.  The column of the price is a `Numeric(12, 2)`: it rounds
to hundredths, and refuses what is too large when the row is flushed.  The session does not read
the row again after it is written, so a response has the price that was given.

* `ProductUpsert.merge_eq_assign_iff` — when `update_product` leaves the row that `bulk_upsert`
  leaves;
* `put_stores`, `bulk_stores` — the two, where nothing is refused.
-/

namespace Ingestion

open Transactions

/-! ## Bodies -/

/-- A value of the object that is sent; an object inside of it is its text. -/
inductive BodyValue
  | null
  | string (text : String)
  | bool (b : Bool)
  | object (text : String)
  deriving DecidableEq, Repr

/-- The fields of a body, by their names. -/
abbrev Body := List (String × BodyValue)

/-- A price in the hundredths of its column, rounded half away from zero. -/
def hundredths (price : ℚ) : ℕ := ⌊price * 100 + 1 / 2⌋.toNat

/-- The price of so many hundredths. -/
def ofHundredths (cents : ℕ) : ℚ := cents / 100

namespace Body

variable (body : Body)

/-- A field that must be there: a text of at most so many characters. -/
def requiredText (name : String) (maxLength : ℕ) : Option String :=
  match body.lookup name with
  | some (.string text) => if text.length ≤ maxLength then some text else none
  | _ => none

/-- A field that may be left out or null: a text, maybe of at most so many characters. -/
def optionalText (name : String) (maxLength : Option ℕ) : Option (Option String) :=
  match body.lookup name with
  | none | some .null => some none
  | some (.string text) =>
      if maxLength.all fun most => decide (text.length ≤ most) then some (some text) else none
  | _ => none

/-- A price: a decimal that is not negative. -/
def amount : Option ℚ :=
  match body.lookup "price" with
  | none => some 0
  | some (.string text) =>
      (Text.Decimal.ofText text.toList).bind fun q => if 0 ≤ q then some q else none
  | _ => none

/-- The price as its column takes it. -/
def price : Option ℕ := body.amount.map hundredths

/-- A truth value, true when it is left out. -/
def flag (name : String) : Option Bool :=
  match body.lookup name with
  | none => some true
  | some (.bool b) => some b
  | _ => none

/-- The values of `availability_status`. -/
def availabilityStatuses : List String :=
  ["available", "unavailable", "out_of_stock", "discontinued"]

def availabilityStatus : Option String :=
  match body.lookup "availability_status" with
  | none => some "available"
  | some (.string text) => if text ∈ availabilityStatuses then some text else none
  | _ => none

def metadata : Option String :=
  match body.lookup "metadata" with
  | none => some emptyMetadata
  | some (.object text) => some text
  | _ => none

end Body

/-- `ProductUpsert`, validated. -/
def ProductUpsert.ofBody (body : Body) : Option ProductUpsert := do
  let externalId ← body.requiredText "external_id" 100
  let title ← body.requiredText "title" 255
  let description ← body.optionalText "description" none
  let price ← body.price
  let category ← body.optionalText "category" (some 100)
  let isActive ← body.flag "is_active"
  let availabilityStatus ← body.availabilityStatus
  let metadata ← body.metadata
  some ⟨externalId, title, description, price, category, isActive, availabilityStatus, metadata⟩

/-- A body that is not valid. -/
def requestInvalid : ApiError :=
  apiError 422 "validation_failed" "One or more request fields are invalid"

/-! ## Routes -/

/-- `get_product`. -/
def getProduct (externalId : String) : Transaction :=
  .look fun s =>
    match s.products.get? externalId with
    | none => .done (.error (productNotFound externalId))
    | some row => .done (.product externalId row)

/-- `patch_product`: a product that does not exist is not created. -/
def patchProduct (cfg : Config) (externalId : String) (p : ProductUpsert) : Transaction :=
  .look fun s =>
    match s.products.get? externalId with
    | none => .done (.error (productNotFound externalId))
    | some _ => updateProduct cfg externalId p

/-- The price that is too large for its column. -/
def priceLimit : ℕ := 10 ^ 12

/-- What comes of a transaction alone.  Where it would flush a price that is too large, the
database refuses it. -/
def flushAlone (price : ℕ) (clock : ℕ → Time) (transaction : Transaction) (n : ℕ) (s : Store) :
    Ended Store Constraint Answer :=
  let ended := transaction.alone clock n s
  match ended.result with
  | .ok (.error _) => ended
  | _ =>
      if price < priceLimit then ended
      else ⟨.ok (.raised "NumericValueOutOfRange: numeric field overflow"), s, ended.next⟩

/-- A server, and the readings of its clock. -/
structure ProductServer where
  cfg : Config
  clock : ℕ → Time
  /-- The `uuid4` of a sync, by the reading of the clock that is next. -/
  freshId : ℕ → ℕ
  /-- The text that `payload_hash` hashes. -/
  canonical : List ProductUpsert → String

namespace ProductServer

variable (server : ProductServer)

/-- A body is validated before anything else. -/
def validated (body : Body) (n : ℕ) (s : Store)
    (next : ProductUpsert → Ended Store Constraint Answer) : Ended Store Constraint Answer :=
  match ProductUpsert.ofBody body with
  | none => ⟨.ok (.error requestInvalid), s, n⟩
  | some p => next p

/-- `GET /v1/products/{external_id}`. -/
def get (externalId : String) (n : ℕ) (s : Store) : Ended Store Constraint Answer :=
  (getProduct externalId).alone server.clock n s

/-- `PUT /v1/products/{external_id}`. -/
def put (externalId : String) (body : Body) (n : ℕ) (s : Store) : Ended Store Constraint Answer :=
  validated body n s fun p =>
    flushAlone p.price server.clock (updateProduct server.cfg externalId p) n s

/-- `PATCH /v1/products/{external_id}`. -/
def patch (externalId : String) (body : Body) (n : ℕ) (s : Store) :
    Ended Store Constraint Answer :=
  validated body n s fun p =>
    flushAlone p.price server.clock (patchProduct server.cfg externalId p) n s

/-- The request of one product. -/
def single (p : ProductUpsert) : ProductBulkUpsertRequest where
  requestId := none
  products := [p]
  canonical := server.canonical [p]
  requestId_nonempty := by simp

/-- `POST /v1/products:bulk-upsert` with one product. -/
def bulk (body : Body) (n : ℕ) (s : Store) : Ended Store Constraint Answer :=
  validated body n s fun p =>
    flushAlone p.price server.clock
      (bulkUpsert server.cfg (server.freshId n) (server.single p)) n s

end ProductServer

/-- `ProductResource`: the row of a product, and the price of the response. -/
structure ProductResource where
  row : Product
  price : ℚ
  deriving DecidableEq, Repr

/-- What comes of a request, and the price in the response with a row. -/
structure ProductRoute where
  handler : ℕ → Store → Ended Store Constraint Answer
  price : Product → ℚ

namespace ProductServer

variable (server : ProductServer)

/-- A product that is read has the price of its column. -/
def getRoute (externalId : String) : ProductRoute where
  handler := server.get externalId
  price row := ofHundredths row.price

/-- A product that is written keeps the price that was assigned. -/
def putRoute (externalId : String) (body : Body) : ProductRoute where
  handler := server.put externalId body
  price row := body.amount.getD (ofHundredths row.price)

def patchRoute (externalId : String) (body : Body) : ProductRoute where
  handler := server.patch externalId body
  price row := body.amount.getD (ofHundredths row.price)

end ProductServer

/-! ## One row -/

/-- The product has whatever `update_product` would keep of the row. -/
structure ProductUpsert.Overwrites (p : ProductUpsert) (existing : Product) : Prop where
  description : p.description = none → existing.description = none
  category : p.category = none → existing.category = none
  metadata : p.metadata = emptyMetadata → existing.metadata = emptyMetadata

variable {p : ProductUpsert} {existing : Product} {now now' : Time}

theorem ProductUpsert.Overwrites.merge_eq (h : p.Overwrites existing) (now : Time) :
    p.merge now existing = p.assign now existing := by
  have hkeep (given stored : Option String) (hnone : given = none → stored = none) :
      (if given.isSome then given else stored) = given := by
    cases given with
    | none => rw [hnone rfl]; rfl
    | some text => rfl
  unfold ProductUpsert.merge ProductUpsert.assign ProductUpsert.row
  rw [hkeep _ _ h.description, hkeep _ _ h.category]
  congr 1
  split
  · next hempty => rw [h.metadata hempty, hempty]
  · rfl

theorem ProductUpsert.overwrites_of_merge (h : p.merge now existing = p.assign now' existing) :
    p.Overwrites existing := by
  obtain ⟨-, hdescription, -, hcategory, -, -, hmetadata, -, -⟩ := Product.mk.inj h
  refine ⟨?_, ?_, ?_⟩
  · intro hnone
    simpa [hnone, ProductUpsert.row] using hdescription
  · intro hnone
    simpa [hnone, ProductUpsert.row] using hcategory
  · intro hempty
    simpa [hempty, ProductUpsert.row] using hmetadata

/-! ## The table -/

/-- The table after `update_product`. -/
def putOne (now : Time) (products : Table String Product) (externalId : String)
    (p : ProductUpsert) : Table String Product :=
  match products.get? externalId with
  | some existing => products.update externalId fun _ => p.merge now existing
  | none => products.insert externalId (p.row now)

/-- The product overwrites the row under its id, if there is one. -/
def ProductUpsert.Replaces (p : ProductUpsert) (products : Table String Product) : Prop :=
  ∀ existing, products.get? p.externalId = some existing → p.Overwrites existing

variable {products : Table String Product}

/-- **Replacing.**  `update_product` and `bulk_upsert` leave the same table just when the product
overwrites what is there. -/
theorem putOne_eq_upsertOne (h : p.Replaces products) (now : Time) :
    putOne now products p.externalId p = upsertOne now products p := by
  unfold putOne upsertOne
  cases hstored : products.get? p.externalId with
  | none => rfl
  | some existing =>
      refine Table.update_congr products fun row hrow => ?_
      obtain rfl := Option.some.inj (hstored.symm.trans hrow)
      exact (h _ hstored).merge_eq now

theorem replaces_of_putOne (h : putOne now products p.externalId p = upsertOne now' products p) :
    p.Replaces products := by
  intro existing hstored
  have hrow := congrArg (fun t => t.get? p.externalId) h
  simp only [get?_upsertOne_self, putOne, hstored, Table.get?_update, if_true, Option.map_some,
    Option.getD_some, Option.some.injEq] at hrow
  exact ProductUpsert.overwrites_of_merge hrow

/-! ## The transactions alone -/

variable {cfg : Config} {clock : ℕ → Time} {n : ℕ} {s : Store} {externalId : String}

/-- Whether there is room for products does not depend on the time. -/
theorem capacityRefusal_storedProducts {quantity : ℕ} :
    capacityRefusal cfg .storedProducts quantity now s = none ↔
      capacityRefusal cfg .storedProducts quantity now' s = none := by
  unfold capacityRefusal
  by_cases hzero : quantity = 0
  · simp [hzero]
  · rw [if_neg hzero, if_neg hzero]
    cases cfg.limits with
    | none => simp
    | some limits =>
        dsimp only
        cases limits .storedProducts with
        | none => simp
        | some limit =>
            by_cases hover : limit < s.products.rows.length + quantity <;>
              simp [capacityUsed, hover]

/-- The product can be stored: its price fits, and there is room when it is new. -/
structure Config.Takes (cfg : Config) (p : ProductUpsert) (externalId : String) (s : Store) :
    Prop where
  price : p.price < priceLimit
  room : s.products.get? externalId = none →
    capacityRefusal cfg .storedProducts 1 0 s = none

/-- An error, or another exception. -/
def Failed (result : Except Constraint Answer) : Prop :=
  (∃ e, result = .ok (.error e)) ∨ ∃ text, result = .ok (.raised text)

/-- Nothing is stored. -/
def Refused (ended : Ended Store Constraint Answer) (s : Store) : Prop :=
  Failed ended.result ∧ ended.store = s

theorem flushAlone_of_error {transaction : Transaction} {price m : ℕ} {e : ApiError}
    (h : transaction.alone clock n s = ⟨.ok (.error e), s, m⟩) :
    flushAlone price clock transaction n s = ⟨.ok (.error e), s, m⟩ := by
  unfold flushAlone
  rw [h]

theorem flushAlone_of_fits {transaction : Transaction} {price : ℕ} (h : price < priceLimit) :
    flushAlone price clock transaction n s = transaction.alone clock n s := by
  unfold flushAlone
  dsimp only
  split
  · rfl
  · rw [if_pos h]

/-- A price that does not fit is refused, whatever the transaction comes to. -/
theorem flushAlone_of_large {transaction : Transaction} {price : ℕ} (h : ¬ price < priceLimit)
    (hsame : ∀ e, (transaction.alone clock n s).result = .ok (.error e) →
      (transaction.alone clock n s).store = s) :
    Refused (flushAlone price clock transaction n s) s := by
  unfold flushAlone
  dsimp only
  split
  · next e herror => exact ⟨Or.inl ⟨e, herror⟩, hsame e herror⟩
  · rw [if_neg h]
    exact ⟨Or.inr ⟨_, rfl⟩, rfl⟩

theorem alone_updateProduct_stored (hstored : s.products.get? externalId = some existing) :
    (updateProduct cfg externalId p).alone clock n s =
      ⟨.ok (.product externalId (p.merge (clock n) existing)),
        { s with products := putOne (clock n) s.products externalId p }, n + 1⟩ := by
  unfold updateProduct putOne
  simp only [alone_lock, alone_clock, alone_look, hstored]
  refine alone_commit ?_ _
  rw [Store.writeProduct, Table.update_congr s.products (g := fun _ => p.merge (clock n) existing)]
  intro row hrow
  obtain rfl := Option.some.inj (hstored.symm.trans hrow)
  simp [Product.flush]

theorem alone_updateProduct_new (hnone : s.products.get? externalId = none)
    (hroom : capacityRefusal cfg .storedProducts 1 (clock (n + 1)) s = none) :
    (updateProduct cfg externalId p).alone clock n s =
      ⟨.ok (.product externalId (p.row (clock n))),
        { s with products := putOne (clock n) s.products externalId p }, n + 2⟩ := by
  unfold updateProduct putOne
  simp only [alone_lock, alone_clock, alone_look, hnone]
  refine (alone_requireCapacity _ hroom).trans (alone_commit ?_ _)
  simp only [Store.writeProduct, hnone]

theorem alone_updateProduct_refused {e : ApiError} (hnone : s.products.get? externalId = none)
    (hfull : capacityRefusal cfg .storedProducts 1 (clock (n + 1)) s = some e) :
    ∃ m, (updateProduct cfg externalId p).alone clock n s = ⟨.ok (.error e), s, m⟩ := by
  unfold updateProduct
  simp only [alone_lock, alone_clock, alone_look, hnone]
  exact alone_requireCapacity_refused _ hfull

/-- A product that can be stored is. -/
theorem flush_updateProduct (h : cfg.Takes p externalId s) :
    ∃ row m, flushAlone p.price clock (updateProduct cfg externalId p) n s =
        ⟨.ok (.product externalId row),
          { s with products := putOne (clock n) s.products externalId p }, m⟩ ∧
      (putOne (clock n) s.products externalId p).get? externalId = some row := by
  rw [flushAlone_of_fits h.price]
  cases hstored : s.products.get? externalId with
  | none =>
      have hroom : capacityRefusal cfg .storedProducts 1 (clock (n + 1)) s = none :=
        capacityRefusal_storedProducts.mp (h.room hstored)
      refine ⟨p.row (clock n), n + 2, alone_updateProduct_new hstored hroom, ?_⟩
      simp only [putOne, hstored]
      rw [Table.get?_insert_cases, if_pos rfl, hstored, Option.getD_none]
  | some existing =>
      refine ⟨_, _, alone_updateProduct_stored hstored, ?_⟩
      simp only [putOne, hstored]
      rw [Table.get?_update, if_pos rfl, hstored, Option.map_some]

/-- One that cannot is refused. -/
theorem refused_updateProduct (h : ¬ cfg.Takes p externalId s) :
    Refused (flushAlone p.price clock (updateProduct cfg externalId p) n s) s := by
  cases hstored : s.products.get? externalId with
  | none =>
      cases hroom : capacityRefusal cfg .storedProducts 1 (clock (n + 1)) s with
      | none =>
          have hlarge : ¬ p.price < priceLimit := fun hprice =>
            h ⟨hprice, fun _ => capacityRefusal_storedProducts.mp hroom⟩
          refine flushAlone_of_large hlarge ?_
          rw [alone_updateProduct_new hstored hroom]
          intro e he
          cases he
      | some e =>
          obtain ⟨m, hm⟩ := @alone_updateProduct_refused p cfg clock n s externalId e hstored hroom
          rw [flushAlone_of_error hm]
          exact ⟨Or.inl ⟨e, rfl⟩, rfl⟩
  | some existing =>
      have hlarge : ¬ p.price < priceLimit := by
        refine fun hprice => h ⟨hprice, fun hnone => ?_⟩
        rw [hstored] at hnone
        cases hnone
      refine flushAlone_of_large hlarge ?_
      rw [alone_updateProduct_stored hstored]
      intro e he
      cases he

/-- A product that exists is patched as it is put. -/
theorem flush_patchProduct (hstored : s.products.get? externalId = some existing) (price : ℕ) :
    flushAlone price clock (patchProduct cfg externalId p) n s =
      flushAlone price clock (updateProduct cfg externalId p) n s := by
  unfold flushAlone patchProduct
  simp only [alone_look, hstored]

/-! ## One product in bulk -/

variable {server : ProductServer} {body : Body}

theorem quantity_single : (server.single p).quantity s =
    if s.products.get? p.externalId = none then 1 else 0 := by
  unfold ProductBulkUpsertRequest.quantity newProductIds ProductServer.single
  by_cases hnone : s.products.get? p.externalId = none
  · simp [hnone]
  · simp [hnone]

theorem single_fresh : (server.single p).Fresh s := by
  intro requestId h
  cases h

theorem alone_bulkSingle
    (hroom : capacityRefusal server.cfg .storedProducts ((server.single p).quantity s)
      (server.clock n) s = none) (id : ℕ) :
    ∃ response k, ((bulkUpsert server.cfg id (server.single p)).alone server.clock n s).result =
        .ok (.sync response) ∧
      ((bulkUpsert server.cfg id (server.single p)).alone server.clock n s).store.products =
        upsertOne (server.clock k) s.products p := by
  have hfirsts : firsts [] (server.single p).products = [p] := by
    simp [ProductServer.single, firsts]
  rw [alone_bulkUpsert single_fresh hroom]
  refine ⟨_, readAfter ((server.single p).quantity s) n, rfl, ?_⟩
  simp only [Store.synced, hfirsts, upsertAll, List.foldl_cons, List.foldl_nil]

/-- A product that can be stored is. -/
theorem bulk_takes (hbody : ProductUpsert.ofBody body = some p)
    (h : server.cfg.Takes p p.externalId s) :
    ∃ response k, (server.bulk body n s).result = .ok (.sync response) ∧
      (server.bulk body n s).store.products = upsertOne (server.clock k) s.products p := by
  have hroom : capacityRefusal server.cfg .storedProducts ((server.single p).quantity s)
      (server.clock n) s = none := by
    rw [quantity_single]
    split
    · next hnone => exact capacityRefusal_storedProducts.mp (h.room hnone)
    · exact if_pos rfl
  obtain ⟨response, k, hresult, hproducts⟩ := alone_bulkSingle hroom (server.freshId n)
  unfold ProductServer.bulk ProductServer.validated
  rw [hbody]
  dsimp only
  rw [flushAlone_of_fits h.price]
  exact ⟨response, k, hresult, hproducts⟩

/-- One that cannot is refused. -/
theorem refused_bulk (hbody : ProductUpsert.ofBody body = some p)
    (h : ¬ server.cfg.Takes p p.externalId s) : Refused (server.bulk body n s) s := by
  unfold ProductServer.bulk ProductServer.validated
  rw [hbody]
  dsimp only
  cases hroom : capacityRefusal server.cfg .storedProducts ((server.single p).quantity s)
      (server.clock n) s with
  | none =>
      have hlarge : ¬ p.price < priceLimit := by
        refine fun hprice => h ⟨hprice, fun hnone => ?_⟩
        rw [quantity_single, if_pos hnone] at hroom
        exact capacityRefusal_storedProducts.mp hroom
      refine flushAlone_of_large hlarge ?_
      obtain ⟨response, k, hresult, -⟩ := alone_bulkSingle hroom (server.freshId n)
      rw [hresult]
      intro e he
      cases he
  | some e =>
      obtain ⟨m, hm⟩ := alone_bulkUpsert_refused (server.freshId n) single_fresh hroom
      rw [flushAlone_of_error hm]
      exact ⟨Or.inl ⟨e, rfl⟩, rfl⟩

/-- A body that is not valid is refused. -/
theorem refused_validated {next : ProductUpsert → Ended Store Constraint Answer}
    (h : ProductUpsert.ofBody body = none) :
    Refused (ProductServer.validated body n s next) s := by
  unfold ProductServer.validated
  rw [h]
  exact ⟨Or.inl ⟨_, rfl⟩, rfl⟩

end Ingestion
