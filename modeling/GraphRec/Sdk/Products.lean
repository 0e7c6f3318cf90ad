import GraphRec.Ingestion.ProductRoutes

/-!
# Replacing and updating a product

`Products.upsert` and `Products.update` of the SDK against the routes of the server, with nobody
else writing.  A product input is sent without its fields that are `None`; an update reads the
product, applies the changes, and sends the whole.

The server keeps a description, a category or metadata that it is not sent, or that are empty, and
its column rounds a price that has more than two decimals.

`replace_and_update` — what is stored in the end is what was described, just when nothing of the
kind is to be cleared, a price that is given needs no rounding, and the path reaches the route.
-/

namespace Sdk.Products

open Ingestion (ApiError Answer Body BodyValue Constraint Product ProductResource ProductRoute
  ProductServer ProductUpsert Store Time emptyMetadata hundredths ofHundredths priceLimit)
open Transactions (Ended)

/-! ## Inputs -/

/-- The fields of a product input; metadata is its JSON text. -/
structure ProductFields where
  externalId : String
  title : String
  description : Option String
  price : Text.Decimal
  category : Option String
  isActive : Bool
  availabilityStatus : String
  metadata : String
  deriving DecidableEq, Repr

/-- The constraints of `ProductInput`. -/
def ProductFields.Valid (fields : ProductFields) : Prop :=
  (1 ≤ fields.externalId.length ∧ fields.externalId.length ≤ 100) ∧ fields.title.length ≤ 255 ∧
    0 ≤ fields.price.value ∧ (∀ category ∈ fields.category, category.length ≤ 100) ∧
      fields.availabilityStatus.length ≤ 32

instance (fields : ProductFields) : Decidable fields.Valid :=
  inferInstanceAs (Decidable (_ ∧ _))

/-- `ProductInput`. -/
structure ProductInput extends ProductFields where
  valid : toProductFields.Valid

/-- `coerce_input`; none when it raises an `InputValidationError`. -/
def coerceInput (fields : ProductFields) : Option ProductInput :=
  if h : fields.Valid then some ⟨fields, h⟩ else none

/-- A text that is left out when it is `None`. -/
def textField (name : String) (text : Option String) : Body :=
  (text.map fun t => (name, BodyValue.string t)).toList

/-- `to_jsonable`. -/
def toJsonable (item : ProductInput) : Body :=
  [("external_id", .string item.externalId), ("title", .string item.title)] ++
    (textField "description" item.description ++
      ([("price", .string (String.ofList item.price.str))] ++
        (textField "category" item.category ++
          [("is_active", .bool item.isActive),
            ("availability_status", .string item.availabilityStatus),
            ("metadata", .object item.metadata)])))

/-! ## Updates -/

/-- The changes of an update; none is a field that stays. -/
structure Changes where
  title : Option String := none
  description : Option (Option String) := none
  price : Option Text.Decimal := none
  category : Option (Option String) := none
  isActive : Option Bool := none
  availabilityStatus : Option String := none
  metadata : Option String := none
  deriving DecidableEq, Repr

/-- The data of `to_input`, of a product that was read. -/
def currentFields (externalId : String) (current : Product) : ProductFields where
  externalId := externalId
  title := current.title
  description := current.description
  price := ⟨false, current.price, -2⟩
  category := current.category
  isActive := current.isActive
  availabilityStatus := current.availabilityStatus
  metadata := current.metadata

/-- `data.update(changes)`. -/
def Changes.apply (changes : Changes) (fields : ProductFields) : ProductFields where
  externalId := fields.externalId
  title := changes.title.getD fields.title
  description := changes.description.getD fields.description
  price := changes.price.getD fields.price
  category := changes.category.getD fields.category
  isActive := changes.isActive.getD fields.isActive
  availabilityStatus := changes.availabilityStatus.getD fields.availabilityStatus
  metadata := changes.metadata.getD fields.metadata

/-- `_update_input`. -/
def updateInput (externalId : String) (current : Product) (changes : Changes) :
    Option ProductInput :=
  if changes = {} then none
  else (coerceInput (currentFields externalId current)).bind fun item =>
    coerceInput (changes.apply item.toProductFields)

/-! ## The client -/

/-- What a call raises. -/
inductive Failure
  /-- `InputValidationError`, or the `ValidationError` of `to_input`. -/
  | input
  /-- `ValueError`: a path parameter is empty. -/
  | emptyPath
  /-- The answer of the API to a path that no route of a product matches. -/
  | noRoute
  | api (e : ApiError)
  | server (exception : String)
  deriving DecidableEq, Repr

/-- What a call returns or raises, and the store and the reading of the clock that it leaves. -/
structure Called where
  result : Except Failure ProductResource
  store : Store
  next : ℕ

/-- A client, the server it talks to, and the paths that reach the routes of products.  A path
parameter is quoted by the client, and made a path parameter again by `httpx` and the server. -/
structure Client where
  server : ProductServer
  reaches : String → Bool

/-- The response as a `Product`, or the exception that it is raised as. -/
def parse (price : Product → ℚ) : Except Constraint Answer → Except Failure ProductResource
  | .ok (.product _ row) => .ok ⟨row, price row⟩
  | .ok (.error e) => .error (.api e)
  | .ok (.raised exception) => .error (.server exception)
  | _ => .error (.server "")

namespace Client

variable (client : Client)

/-- A request to `/v1/products/{external_id}`. -/
def request (externalId : String) (route : ProductRoute) (n : ℕ) (s : Store) : Called :=
  if externalId = "" then ⟨.error .emptyPath, s, n⟩
  else if client.reaches externalId then
    let ended := route.handler n s
    ⟨parse route.price ended.result, ended.store, ended.next⟩
  else ⟨.error .noRoute, s, n⟩

/-- `Products.get`. -/
def get (externalId : String) : ℕ → Store → Called :=
  client.request externalId (client.server.getRoute externalId)

/-- `Products.upsert`. -/
def upsert (item : ProductInput) : ℕ → Store → Called :=
  client.request item.externalId (client.server.putRoute item.externalId (toJsonable item))

/-- `Products.update`. -/
def update (externalId : String) (changes : Changes) (n : ℕ) (s : Store) : Called :=
  let read := client.get externalId n s
  match read.result with
  | .error failure => ⟨.error failure, read.store, read.next⟩
  | .ok current =>
      match updateInput externalId current.row changes with
      | none => ⟨.error .input, read.store, read.next⟩
      | some item =>
          client.request externalId (client.server.patchRoute externalId (toJsonable item))
            read.next read.store

end Client

/-! ## What should be stored -/

/-- A path segment that stays what it is. -/
def IsSegment (externalId : String) : Prop :=
  externalId ≠ "" ∧ '/' ∉ externalId.toList ∧ externalId ≠ "." ∧ externalId ≠ ".."

/-- What is relied on of the paths: `httpx` removes the segments `.` and `..`, and the server reads
a path parameter up to a slash, also one that was quoted; other characters come through. -/
def Client.Routes (client : Client) : Prop :=
  ∀ id, id ≠ "" → (client.reaches id = true ↔ IsSegment id)

/-- The product of an input, as the server stores it. -/
def ProductInput.product (item : ProductInput) : ProductUpsert where
  externalId := item.externalId
  title := item.title
  description := item.description
  price := hundredths item.price.value
  category := item.category
  isActive := item.isActive
  availabilityStatus := item.availabilityStatus
  metadata := item.metadata

/-- A one-item bulk upsert of the product at a time. -/
def Client.bulkAt (client : Client) (now : Time) (item : ProductInput) (s : Store) :
    Ended Store Constraint Answer :=
  { client.server with clock := fun _ => now }.bulk (toJsonable item) 0 s

/-- `upsert` stores what a one-item bulk upsert stores, and fails where that fails. -/
def Replaces (client : Client) (item : ProductInput) (n : ℕ) (s : Store) : Prop :=
  ∃ now, (client.upsert item n s).store.products = (client.bulkAt now item s).store.products ∧
    ((∃ row, (client.upsert item n s).result = .ok row) ↔
      ∃ response, (client.bulkAt now item s).result = .ok (.sync response))

/-- The given values are ones that the fields may have. -/
structure Changes.Valid (changes : Changes) : Prop where
  title : ∀ title ∈ changes.title, title.length ≤ 255
  price : ∀ price ∈ changes.price, 0 ≤ price.value
  category : ∀ category, changes.category = some (some category) → category.length ≤ 100
  availabilityStatus : ∀ status ∈ changes.availabilityStatus, status ∈ Body.availabilityStatuses

/-- The price that was given, or the one that is stored. -/
def Changes.amount (changes : Changes) (current : Product) : ℚ :=
  (changes.price.map Text.Decimal.value).getD (ofHundredths current.price)

/-- The row has the given values in the fields that are given, and the stored ones in the others;
the time of the update may be any. -/
structure Changes.Describes (changes : Changes) (current row : Product) : Prop where
  title : row.title = changes.title.getD current.title
  description : row.description = changes.description.getD current.description
  price : ofHundredths row.price = changes.amount current
  category : row.category = changes.category.getD current.category
  isActive : row.isActive = changes.isActive.getD current.isActive
  availabilityStatus :
    row.availabilityStatus = changes.availabilityStatus.getD current.availabilityStatus
  metadata : row.metadata = changes.metadata.getD current.metadata
  createdAt : row.createdAt = current.createdAt

/-- `update` changes the given fields and nothing else, and returns the product as it is stored; or
it fails where a value is not valid. -/
def Updates (client : Client) (externalId : String) (changes : Changes) (current : Product)
    (n : ℕ) (s : Store) : Prop :=
  (changes.Valid → ∃ row, changes.Describes current row ∧
    (client.update externalId changes n s).result = .ok ⟨row, ofHundredths row.price⟩ ∧
      (client.update externalId changes n s).store.products =
        s.products.update externalId fun _ => row) ∧
    (¬ changes.Valid → (∃ failure, (client.update externalId changes n s).result = .error failure) ∧
      (client.update externalId changes n s).store = s)

/-! ## When it is -/

/-- The server takes the product. -/
def Accepts (client : Client) (item : ProductInput) (s : Store) : Prop :=
  item.availabilityStatus ∈ Body.availabilityStatuses ∧
    client.server.cfg.Takes item.product item.externalId s

/-- The product that was read passes the checks of an input, and what is sent those of the
server. -/
structure Sendable (externalId : String) (changes : Changes) (current : Product) : Prop where
  fields : (currentFields externalId current).Valid
  availabilityStatus :
    changes.availabilityStatus.getD current.availabilityStatus ∈ Body.availabilityStatuses
  price : hundredths (changes.amount current) < priceLimit

/-- A price that is given has at most two decimals: its column takes it as it is. -/
def Changes.Exact (changes : Changes) : Prop :=
  ∀ price ∈ changes.price, ofHundredths (hundredths price.value) = price.value

/-- What is cleared is empty already. -/
structure Changes.Overwrites (changes : Changes) (current : Product) : Prop where
  description : changes.description = some none → current.description = none
  category : changes.category = some none → current.category = none
  metadata : changes.metadata = some emptyMetadata → current.metadata = emptyMetadata

/-! ## The body -/

variable {client : Client} {item : ProductInput} {changes : Changes} {current : Product} {n : ℕ}
  {s : Store} {externalId : String}

/-- **What the server makes of an input.** -/
theorem ofBody_toJsonable : ProductUpsert.ofBody (toJsonable item) =
    if item.availabilityStatus ∈ Body.availabilityStatuses then some item.product else none := by
  obtain ⟨⟨externalId, title, description, price, category, isActive, status, metadata⟩,
    ⟨hfirst, hlast⟩, htitle, hprice, hcategory, -⟩ := item
  dsimp only at hlast htitle hprice hcategory
  have hread : Text.Decimal.ofText (String.ofList price.str).toList = some price.value := by
    rw [String.toList_ofList, Text.Decimal.ofText_str]
  by_cases hstatus : status ∈ Body.availabilityStatuses <;> cases description <;> cases category <;>
    simp_all [ProductUpsert.ofBody, toJsonable, textField, Body.requiredText, Body.optionalText,
      Body.price, Body.amount, Body.flag, Body.availabilityStatus, Body.metadata,
      List.lookup_cons, ProductInput.product]

/-- The price that is sent is read as it was given. -/
theorem amount_toJsonable : (toJsonable item).amount = some item.price.value := by
  obtain ⟨⟨externalId, title, description, price, category, isActive, status, metadata⟩,
    -, -, hprice, -⟩ := item
  dsimp only at hprice
  have hread : Text.Decimal.ofText (String.ofList price.str).toList = some price.value := by
    rw [String.toList_ofList, Text.Decimal.ofText_str]
  cases description <;>
    simp_all [Body.amount, toJsonable, textField, List.lookup_cons]

/-! ## Requests -/

theorem request_of_segment (hpaths : client.Routes)
    (h : IsSegment externalId) (route : ProductRoute) :
    client.request externalId route n s =
      ⟨parse route.price (route.handler n s).result, (route.handler n s).store,
        (route.handler n s).next⟩ := by
  unfold Client.request
  rw [if_neg h.1, if_pos ((hpaths externalId h.1).mpr h)]

/-- A request that does not reach its route fails. -/
theorem request_of_not_segment (hpaths : client.Routes)
    (h : ¬ IsSegment externalId) (route : ProductRoute) :
    ∃ failure, client.request externalId route n s = ⟨.error failure, s, n⟩ := by
  unfold Client.request
  by_cases hempty : externalId = ""
  · exact ⟨_, if_pos hempty⟩
  · rw [if_neg hempty, if_neg fun hreach => h ((hpaths externalId hempty).mp hreach)]
    exact ⟨_, rfl⟩

theorem parse_failed {result : Except Constraint Answer} {price : Product → ℚ}
    (h : Ingestion.Failed result) : ∃ failure, parse price result = .error failure := by
  rcases h with ⟨e, rfl⟩ | ⟨exception, rfl⟩
  · exact ⟨_, rfl⟩
  · exact ⟨_, rfl⟩

/-! ## Upsert -/

/-- What `PUT` comes to, by the body that is sent. -/
theorem put_toJsonable (hstatus : item.availabilityStatus ∈ Body.availabilityStatuses)
    (server : ProductServer) :
    server.put externalId (toJsonable item) n s =
      Ingestion.flushAlone item.product.price server.clock
        (Ingestion.updateProduct server.cfg externalId item.product) n s := by
  unfold ProductServer.put ProductServer.validated
  rw [ofBody_toJsonable, if_pos hstatus]

theorem upsert_accepted (hpaths : client.Routes)
    (hsegment : IsSegment item.externalId) (h : Accepts client item s) :
    (∃ row, (client.upsert item n s).result = .ok row) ∧
      (client.upsert item n s).store.products =
        Ingestion.putOne (client.server.clock n) s.products item.externalId item.product := by
  obtain ⟨row, m, hput, -⟩ :=
    @Ingestion.flush_updateProduct item.product client.server.cfg client.server.clock n s _ h.2
  unfold Client.upsert
  rw [request_of_segment hpaths hsegment]
  dsimp only [ProductServer.putRoute]
  rw [put_toJsonable h.1, hput]
  exact ⟨⟨_, rfl⟩, rfl⟩

theorem upsert_refused (hpaths : client.Routes)
    (h : ¬ IsSegment item.externalId ∨ ¬ Accepts client item s) :
    (∃ failure, (client.upsert item n s).result = .error failure) ∧
      (client.upsert item n s).store = s := by
  unfold Client.upsert
  by_cases hsegment : IsSegment item.externalId
  · have hrefused := h.resolve_left (not_not.mpr hsegment)
    rw [request_of_segment hpaths hsegment]
    suffices hput : Ingestion.Refused
        (client.server.put item.externalId (toJsonable item) n s) s from
      ⟨parse_failed hput.1, hput.2⟩
    by_cases hstatus : item.availabilityStatus ∈ Body.availabilityStatuses
    · rw [put_toJsonable hstatus]
      exact Ingestion.refused_updateProduct fun htakes => hrefused ⟨hstatus, htakes⟩
    · exact Ingestion.refused_validated (by rw [ofBody_toJsonable, if_neg hstatus])
  · obtain ⟨failure, hfailure⟩ := request_of_not_segment hpaths hsegment
      (client.server.putRoute item.externalId (toJsonable item))
    rw [hfailure]
    exact ⟨⟨failure, rfl⟩, rfl⟩

theorem bulkAt_accepted (now : Time) (h : Accepts client item s) :
    (∃ response, (client.bulkAt now item s).result = .ok (.sync response)) ∧
      (client.bulkAt now item s).store.products =
        Ingestion.upsertOne now s.products item.product := by
  have hbody : ProductUpsert.ofBody (toJsonable item) = some item.product := by
    rw [ofBody_toJsonable, if_pos h.1]
  obtain ⟨response, k, hresult, hproducts⟩ := @Ingestion.bulk_takes item.product 0 s
    { client.server with clock := fun _ => now } (toJsonable item) hbody h.2
  exact ⟨⟨response, hresult⟩, hproducts⟩

theorem bulkAt_refused (now : Time) (h : ¬ Accepts client item s) :
    Ingestion.Refused (client.bulkAt now item s) s := by
  by_cases hstatus : item.availabilityStatus ∈ Body.availabilityStatuses
  · have hbody : ProductUpsert.ofBody (toJsonable item) = some item.product := by
      rw [ofBody_toJsonable, if_pos hstatus]
    exact Ingestion.refused_bulk hbody fun htakes => h ⟨hstatus, htakes⟩
  · exact Ingestion.refused_validated (by rw [ofBody_toJsonable, if_neg hstatus])

theorem not_sync_of_failed {result : Except Constraint Answer} (h : Ingestion.Failed result) :
    ¬ ∃ response, result = .ok (.sync response) := by
  rintro ⟨response, rfl⟩
  rcases h with ⟨e, he⟩ | ⟨exception, he⟩
  · cases he
  · cases he

/-- **When `upsert` replaces.** -/
theorem replaces_iff (hpaths : client.Routes) :
    Replaces client item n s ↔ ¬ Accepts client item s ∨
      (IsSegment item.externalId ∧ item.product.Replaces s.products) := by
  by_cases haccepts : Accepts client item s
  · rw [or_iff_right (not_not.mpr haccepts)]
    constructor
    · rintro ⟨now, hproducts, hresult⟩
      obtain ⟨hbulk, htable⟩ := bulkAt_accepted now haccepts
      have hsegment : IsSegment item.externalId := by
        by_contra hnot
        obtain ⟨⟨failure, hfailure⟩, -⟩ :=
          @upsert_refused client item n s hpaths (Or.inl hnot)
        obtain ⟨row, hrow⟩ := hresult.mpr hbulk
        cases hfailure.symm.trans hrow
      refine ⟨hsegment, ?_⟩
      rw [(upsert_accepted hpaths hsegment haccepts).2, htable] at hproducts
      exact Ingestion.replaces_of_putOne hproducts
    · rintro ⟨hsegment, hreplaces⟩
      obtain ⟨hrow, hproducts⟩ := @upsert_accepted client item n s hpaths hsegment haccepts
      obtain ⟨hbulk, htable⟩ := bulkAt_accepted (client.server.clock n) haccepts
      refine ⟨client.server.clock n, ?_, iff_of_true hrow hbulk⟩
      rw [hproducts, htable]
      exact Ingestion.putOne_eq_upsertOne hreplaces _
  · refine iff_of_true ⟨0, ?_, ?_⟩ (Or.inl haccepts)
    · rw [(upsert_refused hpaths (Or.inr haccepts)).2, (bulkAt_refused 0 haccepts).2]
    · refine iff_of_false ?_ (not_sync_of_failed (bulkAt_refused 0 haccepts).1)
      obtain ⟨⟨failure, hfailure⟩, -⟩ := @upsert_refused client item n s hpaths (Or.inr haccepts)
      rintro ⟨row, hrow⟩
      cases hfailure.symm.trans hrow

/-! ## Update -/

/-- A stored price is sent as it is. -/
theorem value_stored (cents : ℕ) :
    Text.Decimal.value ⟨false, cents, -2⟩ = ofHundredths cents := by
  simp only [Text.Decimal.value, ofHundredths, Bool.false_eq_true, if_false]
  norm_num
  ring

/-- A stored price is taken as it is. -/
theorem hundredths_ofHundredths (cents : ℕ) : hundredths (ofHundredths cents) = cents := by
  have hvalue : ofHundredths cents * 100 + 1 / 2 = (cents : ℚ) + 1 / 2 := by
    unfold ofHundredths
    ring
  have hfloor : ⌊(cents : ℚ) + 1 / 2⌋ = cents := by
    rw [Int.floor_eq_iff]
    constructor <;> push_cast <;> linarith
  rw [hundredths, hvalue, hfloor, Int.toNat_natCast]

theorem coerceInput_eq_some {fields : ProductFields} (h : coerceInput fields = some item) :
    fields.Valid ∧ item.toProductFields = fields := by
  unfold coerceInput at h
  split at h
  · next hvalid =>
      cases h
      exact ⟨hvalid, rfl⟩
  · cases h

/-- **What an update sends.** -/
theorem updateInput_eq_some_iff (hsome : changes ≠ {}) :
    updateInput externalId current changes = some item ↔
      (currentFields externalId current).Valid ∧
        item.toProductFields = changes.apply (currentFields externalId current) := by
  unfold updateInput
  rw [if_neg hsome]
  constructor
  · intro h
    obtain ⟨read, hread, hitem⟩ := Option.bind_eq_some_iff.mp h
    obtain ⟨hvalid, hfields⟩ := coerceInput_eq_some hread
    exact ⟨hvalid, hfields ▸ (coerceInput_eq_some hitem).2⟩
  · rintro ⟨hvalid, hitem⟩
    have hread : coerceInput (currentFields externalId current) =
        some ⟨currentFields externalId current, hvalid⟩ := dif_pos hvalid
    have happly : (changes.apply (currentFields externalId current)).Valid := hitem ▸ item.valid
    rw [hread, Option.bind_some, coerceInput, dif_pos happly]
    obtain ⟨fields, hfields⟩ := item
    cases hitem
    rfl

/-- The changed fields are valid when the given values are. -/
theorem apply_valid_iff (hfields : (currentFields externalId current).Valid)
    (hstatus : changes.availabilityStatus.getD current.availabilityStatus ∈
      Body.availabilityStatuses) :
    (changes.apply (currentFields externalId current)).Valid ↔ changes.Valid := by
  obtain ⟨hid, htitle, hprice, hcategory, -⟩ := hfields
  have hshort : ∀ status ∈ Body.availabilityStatuses, status.length ≤ 32 := by decide
  constructor
  · rintro ⟨-, htitle', hprice', hcategory', -⟩
    refine ⟨?_, ?_, ?_, ?_⟩
    · rintro title htitle
      simpa [Changes.apply, Option.mem_def.mp htitle] using htitle'
    · rintro price hprice
      simpa [Changes.apply, Option.mem_def.mp hprice] using hprice'
    · intro category hchange
      exact hcategory' category (by simp [Changes.apply, hchange])
    · intro status hchange
      simpa [Option.mem_def.mp hchange] using hstatus
  · intro hvalid
    refine ⟨hid, ?_, ?_, ?_, hshort _ hstatus⟩
    · cases hchange : changes.title with
      | none => simpa [Changes.apply, hchange] using htitle
      | some title => simpa [Changes.apply, hchange] using hvalid.title title hchange
    · cases hchange : changes.price with
      | none => simpa [Changes.apply, hchange] using hprice
      | some price => simpa [Changes.apply, hchange] using hvalid.price price hchange
    · intro category hmem
      cases hchange : changes.category with
      | none => exact hcategory category (by simpa [Changes.apply, hchange] using hmem)
      | some given =>
          obtain rfl : given = some category := by simpa [Changes.apply, hchange] using hmem
          exact hvalid.category category hchange

/-- The price that is sent. -/
theorem value_price (hitem : item.toProductFields =
    changes.apply (currentFields externalId current)) :
    item.price.value = changes.amount current := by
  have hprice : item.price = (changes.apply (currentFields externalId current)).price :=
    congrArg ProductFields.price hitem
  rw [hprice]
  cases hchange : changes.price with
  | none => simp [Changes.amount, Changes.apply, hchange, currentFields, value_stored]
  | some price => simp [Changes.amount, Changes.apply, hchange]

/-- The column takes the price just when it takes one that is given. -/
theorem exact_iff : ofHundredths (hundredths (changes.amount current)) = changes.amount current ↔
    changes.Exact := by
  unfold Changes.amount Changes.Exact
  cases changes.price with
  | none => simp [hundredths_ofHundredths]
  | some price => simp

/-- A text that is kept unless it is given. -/
theorem kept_text {change : Option (Option String)} {stored : Option String}
    (h : change = some none → stored = none) :
    (if (change.getD stored).isSome then change.getD stored else stored) = change.getD stored := by
  cases change with
  | none => exact ite_self _
  | some given =>
      cases given with
      | none => exact h rfl
      | some text => rfl

/-- Metadata that is kept unless some is given. -/
theorem kept_metadata {change : Option String} {stored : String}
    (h : change = some emptyMetadata → stored = emptyMetadata) :
    (if change.getD stored = emptyMetadata then stored else change.getD stored) =
      change.getD stored := by
  cases change with
  | none => exact ite_self _
  | some given =>
      rw [Option.getD_some]
      split
      · next hempty => rw [h (congrArg some hempty), hempty]
      · rfl

/-- **What the server makes of an update**: what was described, just when nothing that is there is
cleared and the price is not rounded. -/
theorem describes_merge_iff (hitem : item.toProductFields =
    changes.apply (currentFields externalId current)) (now : Time) :
    changes.Describes current (item.product.merge now current) ↔
      changes.Exact ∧ changes.Overwrites current := by
  have hprice : (item.product.merge now current).price = hundredths (changes.amount current) :=
    congrArg hundredths (value_price hitem)
  have hrounds : ofHundredths (hundredths (changes.amount current)) = changes.amount current ↔
      changes.Exact := exact_iff
  rw [← hrounds]
  obtain ⟨fields, hvalid⟩ := item
  obtain rfl : fields = _ := hitem
  constructor
  · intro h
    have hdescription := h.description
    have hcategory := h.category
    have hmetadata := h.metadata
    simp only [ProductUpsert.merge, ProductInput.product, Changes.apply, currentFields]
      at hdescription hcategory hmetadata
    refine ⟨hprice ▸ h.price, ?_, ?_, ?_⟩
    · intro hclear
      simpa [hclear] using hdescription
    · intro hclear
      simpa [hclear] using hcategory
    · intro hclear
      simpa [hclear] using hmetadata
  · rintro ⟨hexact, hover⟩
    exact {
      title := rfl
      description := kept_text hover.description
      price := hprice.symm ▸ hexact
      category := kept_text hover.category
      isActive := rfl
      availabilityStatus := rfl
      metadata := kept_metadata hover.metadata
      createdAt := rfl }

theorem get_stored (hpaths : client.Routes) (hsegment : IsSegment externalId)
    (hstored : s.products.get? externalId = some current) :
    client.get externalId n s = ⟨.ok ⟨current, ofHundredths current.price⟩, s, n⟩ := by
  unfold Client.get
  rw [request_of_segment hpaths hsegment]
  unfold ProductServer.getRoute ProductServer.get Ingestion.getProduct
  simp only [Transactions.alone_look, hstored, Transactions.alone_done]
  rfl

/-- What `PATCH` comes to for a product that exists. -/
theorem patch_toJsonable (hstored : s.products.get? externalId = some current)
    (hstatus : item.availabilityStatus ∈ Body.availabilityStatuses) (server : ProductServer) :
    server.patch externalId (toJsonable item) n s =
      Ingestion.flushAlone item.product.price server.clock
        (Ingestion.updateProduct server.cfg externalId item.product) n s := by
  unfold ProductServer.patch ProductServer.validated
  rw [ofBody_toJsonable, if_pos hstatus]
  exact Ingestion.flush_patchProduct hstored _

/-- An update whose input is not sent, or not stored, leaves everything as it is. -/
theorem update_failed (hpaths : client.Routes)
    (hstored : s.products.get? externalId = some current) (hsome : changes ≠ {})
    (h : ¬ (IsSegment externalId ∧ Sendable externalId changes current ∧ changes.Valid)) :
    (∃ failure, (client.update externalId changes n s).result = .error failure) ∧
      (client.update externalId changes n s).store = s := by
  unfold Client.update
  by_cases hsegment : IsSegment externalId
  · rw [get_stored hpaths hsegment hstored]
    dsimp only
    cases hinput : updateInput externalId current changes with
    | none => exact ⟨⟨_, rfl⟩, rfl⟩
    | some item =>
        obtain ⟨hfields, hitem⟩ := (updateInput_eq_some_iff hsome).mp hinput
        dsimp only
        rw [request_of_segment hpaths hsegment]
        suffices hpatch : Ingestion.Refused
            (client.server.patch externalId (toJsonable item) n s) s from
          ⟨parse_failed hpatch.1, hpatch.2⟩
        have hsame : item.availabilityStatus =
            changes.availabilityStatus.getD current.availabilityStatus :=
          congrArg ProductFields.availabilityStatus hitem
        by_cases hstatus : item.availabilityStatus ∈ Body.availabilityStatuses
        · rw [patch_toJsonable hstored hstatus]
          refine Ingestion.refused_updateProduct fun htakes => h ⟨hsegment, ?_, ?_⟩
          · exact ⟨hfields, hsame ▸ hstatus, value_price hitem ▸ htakes.price⟩
          · exact (apply_valid_iff hfields (hsame ▸ hstatus)).mp (hitem ▸ item.valid)
        · exact Ingestion.refused_validated (by rw [ofBody_toJsonable, if_neg hstatus])
  · obtain ⟨failure, hfailure⟩ :=
      @request_of_not_segment client n s externalId hpaths hsegment
        (client.server.getRoute externalId)
    unfold Client.get
    rw [hfailure]
    exact ⟨⟨failure, rfl⟩, rfl⟩

/-- An update that is sent and stored. -/
theorem update_sent (hpaths : client.Routes)
    (hstored : s.products.get? externalId = some current) (hsome : changes ≠ {})
    (hsegment : IsSegment externalId) (hsendable : Sendable externalId changes current)
    (hvalid : changes.Valid) :
    ∃ item : ProductInput,
      item.toProductFields = changes.apply (currentFields externalId current) ∧
        (client.update externalId changes n s).result =
          .ok ⟨item.product.merge (client.server.clock n) current, changes.amount current⟩ ∧
        (client.update externalId changes n s).store.products =
          s.products.update externalId fun _ =>
            item.product.merge (client.server.clock n) current := by
  have happly := (apply_valid_iff hsendable.fields hsendable.availabilityStatus).mpr hvalid
  let item : ProductInput := ⟨changes.apply (currentFields externalId current), happly⟩
  have hinput : updateInput externalId current changes = some item :=
    (updateInput_eq_some_iff hsome).mpr ⟨hsendable.fields, rfl⟩
  have hamount : item.price.value = changes.amount current :=
    @value_price item changes current externalId rfl
  have hprice : item.product.price < priceLimit :=
    (congrArg hundredths hamount).trans_lt hsendable.price
  refine ⟨item, rfl, ?_⟩
  unfold Client.update
  rw [get_stored hpaths hsegment hstored]
  dsimp only
  rw [hinput]
  dsimp only
  rw [request_of_segment hpaths hsegment]
  dsimp only [ProductServer.patchRoute]
  rw [patch_toJsonable hstored hsendable.availabilityStatus, Ingestion.flushAlone_of_fits hprice,
    Ingestion.alone_updateProduct_stored hstored]
  refine ⟨?_, ?_⟩
  · simp only [parse, amount_toJsonable, Option.getD_some, hamount]
  · simp only [Ingestion.putOne, hstored]

/-- **When `update` changes what is given.** -/
theorem updates_iff (hpaths : client.Routes)
    (hstored : s.products.get? externalId = some current) (hsome : changes ≠ {}) :
    Updates client externalId changes current n s ↔ ¬ changes.Valid ∨
      (IsSegment externalId ∧ Sendable externalId changes current ∧ changes.Exact ∧
        changes.Overwrites current) := by
  by_cases hvalid : changes.Valid
  · rw [or_iff_right (not_not.mpr hvalid)]
    constructor
    · rintro ⟨hupdated, -⟩
      obtain ⟨row, hdescribes, hresult, -⟩ := hupdated hvalid
      by_cases hsent : IsSegment externalId ∧ Sendable externalId changes current
      · obtain ⟨item, hitem, hmerged, -⟩ :=
          @update_sent client changes current n s externalId hpaths hstored hsome hsent.1 hsent.2
            hvalid
        have hrow : item.product.merge (client.server.clock n) current = row :=
          congrArg ProductResource.row (Except.ok.inj (hmerged.symm.trans hresult))
        rw [← hrow] at hdescribes
        exact ⟨hsent.1, hsent.2, (describes_merge_iff hitem _).mp hdescribes⟩
      · obtain ⟨⟨failure, hfailure⟩, -⟩ :=
          @update_failed client changes current n s externalId hpaths hstored hsome
            fun h => hsent ⟨h.1, h.2.1⟩
        cases hfailure.symm.trans hresult
    · rintro ⟨hsegment, hsendable, hkept⟩
      refine ⟨fun _ => ?_, fun hnot => absurd hvalid hnot⟩
      obtain ⟨item, hitem, hresult, hproducts⟩ :=
        @update_sent client changes current n s externalId hpaths hstored hsome hsegment hsendable
          hvalid
      have hdescribes := (describes_merge_iff hitem (client.server.clock n)).mpr hkept
      refine ⟨_, hdescribes, ?_, hproducts⟩
      rw [hdescribes.price]
      exact hresult
  · refine iff_of_true ⟨fun h => absurd h hvalid, fun _ => ?_⟩ (Or.inl hvalid)
    exact update_failed hpaths hstored hsome fun h => hvalid h.2.2

/-! ## Main result -/

/-- A lamp, described or not. -/
def lampFields (description : Option String) : ProductFields where
  externalId := "lamp"
  title := "Lamp"
  description := description
  price := ⟨false, 1250, -2⟩
  category := none
  isActive := true
  availabilityStatus := "available"
  metadata := emptyMetadata

theorem lampFields_valid (description : Option String) : (lampFields description).Valid := by
  have hlamp : ("lamp" : String).length = 4 := rfl
  have hstatus : ("available" : String).length = 9 := rfl
  have hprice : 0 ≤ Text.Decimal.value ⟨false, 1250, -2⟩ := by
    simp only [Text.Decimal.value, Bool.false_eq_true, if_false]
    positivity
  have htitle : ("Lamp" : String).length = 4 := rfl
  simp [ProductFields.Valid, lampFields, hlamp, htitle, hstatus, hprice]

def lamp (description : Option String) : ProductInput :=
  ⟨lampFields description, lampFields_valid description⟩

/-- The lamp that is stored. -/
def storedLamp : Product where
  title := "Lamp"
  description := some "Brass"
  price := 1250
  category := none
  isActive := true
  availabilityStatus := "available"
  metadata := emptyMetadata
  createdAt := 0
  updatedAt := 0

def lampStore : Store := { Store.empty with products := Table.empty.insert "lamp" storedLamp }

/-- A client of a server with room for five products. -/
def lampClient : Client where
  server := ⟨Ingestion.smallPlan 5 5 5, fun n => n, fun n => n, fun _ => ""⟩
  reaches id := !(decide (id = "") || id.toList.contains '/' || decide (id = ".") ||
    decide (id = ".."))

theorem lampClient_routes : lampClient.Routes := by
  intro id hid
  simp [lampClient, IsSegment, hid, and_assoc]

theorem lampStore_lamp : lampStore.products.get? "lamp" = some storedLamp := by decide

theorem lamp_accepted (description : Option String) :
    Accepts lampClient (lamp description) lampStore := by
  refine ⟨by simp [lamp, lampFields, Body.availabilityStatuses], ?_, ?_⟩
  · exact ((congrArg hundredths (value_stored 1250)).trans
      (hundredths_ofHundredths 1250)).trans_lt (by decide)
  · intro hnone
    cases lampStore_lamp.symm.trans hnone

/-- A price with three decimals. -/
theorem longPrice : Text.Decimal.value ⟨false, 12345, -3⟩ = 2469 / 200 := by
  norm_num [Text.Decimal.value]

end Sdk.Products
