/-
Three views of an order that was just created: what `createOrder` returns, what a second request
with the same idempotency key is answered, and what `findById` returns next.

The second request throws a `ConflictException` that carries the response of the first, but
`HttpExceptionFilter` builds the body from the status and the message only. So no field of the
body shows an order (`duplicate_shows_nothing`), and the three never agree (`views_never_agree`).
The other two agree exactly if the columns store the coordinates and the price as they were
computed (`created_eq_found_iff`).
-/
import LogisticsDispatch.AcceptPaths
import LogisticsDispatch.KeyIsolation
import LogisticsDispatch.Listing

set_option autoImplicit false

namespace LogisticsDispatch

open OrderStatus Resumable

/-! ## `HttpExceptionFilter` -/

/-- An `HttpException`: its status, and what `getResponse()` returns. -/
structure HttpException where
  status : ℕ
  response : Json

/-- An order response as `JSON.stringify` writes it, with the dates as `toISOString` has them. -/
def OrderResponse.json (toISOString : ℕ → String) (data : OrderResponse) : Json :=
  .obj [("id", .str data.id.text), ("customerId", .str data.customerId.text),
    ("orderType", .str data.orderType.text), ("vehincleType", .str data.vehincleType.text),
    ("pickupAddress", .str data.pickupAddress), ("pickupLatitude", .num data.pickupLatitude),
    ("pickupLongitude", .num data.pickupLongitude),
    ("deliveryAddress", .str data.deliveryAddress),
    ("deliveryLatitude", .num data.deliveryLatitude),
    ("deliveryLongitude", .num data.deliveryLongitude),
    ("notes", (data.notes.map Json.str).getD .null), ("status", .str data.status.text),
    ("assignedDriverId", (data.assignedDriverId.map fun d => Json.str d.text).getD .null),
    ("estimatedPrice", .num data.estimatedPrice), ("dispatchAttempts", .num data.dispatchAttempts),
    ("createdAt", .str (toISOString data.createdAt)),
    ("updatedAt", .str (toISOString data.updatedAt))]

/-- The exception that an error is, if it is one of HTTP. -/
def Error.toHttpException (toISOString : ℕ → String) : Error → Option HttpException
  | BadRequestException message => some ⟨400, .obj [("message", .str message)]⟩
  | ForbiddenException message => some ⟨403, .obj [("message", .str message)]⟩
  | NotFoundException message => some ⟨404, .obj [("message", .str message)]⟩
  | ConflictException message => some ⟨409, .obj [("message", .str message)]⟩
  | UnprocessableEntityException message => some ⟨422, .obj [("message", .str message)]⟩
  | DuplicateRequest message data => some ⟨409, .obj [("statusCode", .num 409),
      ("message", .str message), ("data", data.json toISOString)]⟩
  | QueryFailedError _ => none
  | JobLocked => none
  | Unavailable => none

/-- The request an answer is for, and what stands in it beside the exception: the time, and the
`Retry-After` header as `normalizeRetryAfterSeconds` reads it. -/
structure HttpContext where
  timestamp : String
  url : String
  method : String
  retryAfter : Option ℕ

namespace HttpExceptionFilter

def TOO_MANY_REQUESTS_STATUS_CODE : ℕ := 429

/-- The message of a response: the response itself where it is a string, or its `message`. -/
def messageOf : Option Json → Json
  | some (.str message) => .str message
  | some response => (response.get "message").getD (.str "Internal server error")
  | none => .str "Internal server error"

/-- `catch`: the body that is sent. -/
def catchException (ctx : HttpContext) (exception : Option HttpException) : Json :=
  let statusCode := (exception.map HttpException.status).getD 500
  let message := messageOf (exception.map HttpException.response)
  let limited := if statusCode = TOO_MANY_REQUESTS_STATUS_CODE then
      ("code", .str "RATE_LIMITED") ::
        (ctx.retryAfter.map fun seconds => ("retryAfter", Json.num seconds)).toList
    else []
  .obj ([("statusCode", .num statusCode), ("timestamp", .str ctx.timestamp),
    ("path", .str ctx.url), ("method", .str ctx.method), ("message", message)] ++ limited)

end HttpExceptionFilter

/-! ## The views -/

/-- A response with its dates as a `Date` holds them. -/
def OrderResponse.asSent (rt : Runtime) (data : OrderResponse) : OrderResponse :=
  { data with createdAt := rt.toDate data.createdAt, updatedAt := rt.toDate data.updatedAt }

/-- The three views of an order. -/
structure Views where
  created : Except Error OrderResponse
  duplicate : Json
  found : Except Error OrderResponse

/-- The body shows an order: it is the order, or one of its fields is. -/
def ShowsOrder (toISOString : ℕ → String) (body : Json) (data : OrderResponse) : Prop :=
  body = data.json toISOString ∨ ∃ name, body.get name = some (data.json toISOString)

/-- All three show one order. -/
def Views.Agree (toISOString : ℕ → String) (views : Views) : Prop :=
  ∃ data, views.created = .ok data ∧ ShowsOrder toISOString views.duplicate data ∧
    views.found = .ok data

section Runs

variable {Q : Type} [JobQueue Q JobId JobData] (cfg : DispatchConfig) (rt : Runtime)
  (toISOString : ℕ → String) (ctx : HttpContext)

/-- What is sent for the outcome of `createOrder`. -/
def bodyOf : Except Error OrderResponse → Json
  | .ok data => (data.asSent rt).json toISOString
  | .error err => HttpExceptionFilter.catchException ctx (err.toHttpException toISOString)

/-- The views of an order that is created, asked for again under its key, and looked up. -/
def viewsOf (dto : CreateOrderDto) (customerId : UserId) (key : String) (user : JwtUser)
    (sh : Shared Q) (choices : ℕ → Choice) : Views :=
  let createOrder := OrdersService.createOrder cfg dto customerId (some key)
  let first := createOrder.run (performAlone cfg) (sh, choices)
  let second := createOrder.run (performAlone cfg) first.2
  { created := first.1.map (OrderResponse.asSent rt)
    duplicate := bodyOf rt toISOString ctx second.1
    found := first.1.bind fun data => OrdersService.findById rt first.2.1.db data.id user }

end Runs

/-! ## What the body shows -/

section Body

variable {toISOString : ℕ → String} {ctx : HttpContext} {data : OrderResponse}

/-- **The body of a duplicate shows no order.** -/
theorem duplicate_shows_nothing (message : String) (cached : OrderResponse) :
    ¬ ShowsOrder toISOString (HttpExceptionFilter.catchException ctx
      ((Error.DuplicateRequest message cached).toHttpException toISOString)) data := by
  have hbody : HttpExceptionFilter.catchException ctx
      ((Error.DuplicateRequest message cached).toHttpException toISOString)
      = .obj [("statusCode", .num 409), ("timestamp", .str ctx.timestamp),
        ("path", .str ctx.url), ("method", .str ctx.method), ("message", .str message)] := rfl
  rw [hbody]
  rintro (hwhole | ⟨name, hfield⟩)
  · have hfields := Json.obj.inj hwhole
    have hname := (Prod.mk.inj (List.cons.inj hfields).1).1
    exact absurd hname (by decide)
  · obtain ⟨⟨field, value⟩, hfind, hvalue⟩ := Option.map_eq_some_iff.mp hfield
    have hmem := List.mem_of_find?_eq_some hfind
    -- the fields are numbers and strings
    simp only [List.mem_cons, Prod.mk.injEq, List.not_mem_nil, or_false] at hmem
    obtain rfl : value = data.json toISOString := hvalue
    rcases hmem with ⟨-, h⟩ | ⟨-, h⟩ | ⟨-, h⟩ | ⟨-, h⟩ | ⟨-, h⟩
    · cases h
    · cases h
    · cases h
    · cases h
    · cases h

end Body

/-! ## Creating an order -/

/-- A key that `createOrder` accepts. -/
structure ValidKey (key : String) : Prop where
  nonempty : key ≠ ""
  trimmed : JsString.length (JsString.trim key) ≠ 0
  short : JsString.length (JsString.trim key) ≤ 255

section Creating

variable {Q : Type} [JobQueue Q JobId JobData] {cfg : DispatchConfig} {rt : Runtime}
  {toISOString : ℕ → String} {ctx : HttpContext} {dto : CreateOrderDto} {customerId : UserId}
  {key : String} {user : JwtUser} {sh : Shared Q} {choices : ℕ → Choice}

/-- A key is taken if nothing is under it, and refused with the response that is. -/
theorem sanitizeKey_run (cfg : DispatchConfig) (sh : Shared Q) (hkey : ValidKey key)
    (choices : ℕ → Choice) :
    (OrdersService.sanitizeKey (some key)).run (performAlone cfg) (sh, choices)
      = (match sh.redis.lookup (.IDEMPOTENCY_REDIS_PREFIX (JsString.trim key)) with
        | some cached => .error (.DuplicateRequest duplicateMessage cached)
        | none => .ok (some (JsString.trim key)), (sh, fun n => choices (n + 1))) := by
  have hfilter : (some key).filter (fun key => key ≠ "") = some key := by
    simp [hkey.nonempty]
  have hlength : ¬ (JsString.length (JsString.trim key) = 0 ∨
      JsString.length (JsString.trim key) > 255) := by
    rintro (hzero | hlong)
    · exact hkey.trimmed hzero
    · exact absurd hkey.short (by omega)
  have hget : (ask (.redisGet (.IDEMPOTENCY_REDIS_PREFIX (JsString.trim key)))).run
      (performAlone cfg) (sh, choices)
      = (.ok (sh.redis.lookup (.IDEMPOTENCY_REDIS_PREFIX (JsString.trim key))),
        (sh, fun n => choices (n + 1))) := by
    rw [run_ask, perform]
  rw [OrdersService.sanitizeKey, hfilter]
  dsimp only
  rw [if_neg hlength, Program.run_bind_ok _ _ hget]
  cases sh.redis.lookup (.IDEMPOTENCY_REDIS_PREFIX (JsString.trim key)) with
  | none => rfl
  | some cached => rfl

/-- The entity that `createOrder` saves. -/
def bookedOrder (ch : Choice) (dto : CreateOrderDto) (customerId : UserId) (price : ℚ) : Order where
  id := ch.orderId
  customerId := customerId
  notes := dto.notes
  orderType := dto.orderType
  vehincleType := dto.vehincleType
  pickupAddress := dto.pickupAddress
  deliveryAddress := dto.deliveryAddress
  pickupLatitude := dto.pickupLatitude
  pickupLongitude := dto.pickupLongitude
  deliveryLatitude := dto.deliveryLatitude
  deliveryLongitude := dto.deliveryLongitude
  orderStatus := PENDING
  assignedDriverId := none
  estimatedPrice := price
  dispatchAttempts := 0
  attemptedDriverIds := []
  version := 1
  createdAt := ch.now
  updatedAt := ch.now
  deletedAt := none

/-- What a first request meets: a vehicle that suits the order, ids that are not taken, and
nothing under its key. -/
structure FirstRequest (dto : CreateOrderDto) (key : String) (sh : Shared Q) (ch : Choice) :
    Prop where
  suits : OrdersService.validateVehincle dto = .ok ()
  valid : ValidKey key
  unused : sh.redis.lookup (.IDEMPOTENCY_REDIS_PREFIX (JsString.trim key)) = none
  order : sh.db.orders.find ch.orderId = none
  outbox : sh.db.outbox.find ch.outboxId = none

omit [JobQueue Q JobId JobData] in
/-- The transaction returns the entity as it was saved, and leaves the row as the columns store
it. -/
theorem createOrderTx_first {ch : Choice} (h : FirstRequest dto key sh ch) (customerId : UserId)
    (price : ℚ) :
    ∃ db, OrdersService.createOrderTx ch dto customerId price sh.db
        = .ok (bookedOrder ch dto customerId price, db) ∧
      db.findOrder ch.orderId = some (bookedOrder ch dto customerId price).stored := by
  have htaken : ¬ ((sh.db.orders.find ch.orderId).isSome ∨
      (sh.db.outbox.find ch.outboxId).isSome) := by
    simp [h.order, h.outbox]
  refine ⟨_, (OrdersService.createOrderTx.eq_1 ch dto customerId price sh.db).trans
    (if_neg htaken), ?_⟩
  refine Db.findOrder_eq_some.mpr ⟨?_, rfl⟩
  exact Table.find_put_self _ (bookedOrder ch dto customerId price).stored

/-- The first request returns the entity as it was saved; the row, as the columns store it, is in
the table, and the response under the key. -/
theorem createOrder_first (cfg : DispatchConfig) (customerId : UserId)
    (h : FirstRequest dto key sh (choices 1)) :
    ∃ sh', (OrdersService.createOrder cfg dto customerId (some key)).run (performAlone cfg)
        (sh, choices) = (.ok (toOrderResponse (bookedOrder (choices 1) dto customerId
          (estimatedPrice cfg dto))), (sh', fun n => choices (n + 3))) ∧
      sh'.db.findOrder (choices 1).orderId
        = some (bookedOrder (choices 1) dto customerId (estimatedPrice cfg dto)).stored ∧
      sh'.redis.lookup (.IDEMPOTENCY_REDIS_PREFIX (JsString.trim key))
        = some (toOrderResponse (bookedOrder (choices 1) dto customerId
          (estimatedPrice cfg dto))) := by
  generalize hprice : estimatedPrice cfg dto = price
  obtain ⟨db, htx, hrow⟩ := createOrderTx_first h customerId price
  generalize hresponse : toOrderResponse (bookedOrder (choices 1) dto customerId price) = response
  have hsanitize := sanitizeKey_run cfg sh h.valid choices
  rw [h.unused] at hsanitize
  have hwrite : (transaction (.createOrder dto customerId price)).run (performAlone cfg)
      (sh, fun n => choices (n + 1)) = (.ok (bookedOrder (choices 1) dto customerId price),
        ({ sh with db }, fun n => choices (n + 1 + 1))) :=
    run_transaction_ok htx
  refine ⟨{ sh with
    db
    redis := sh.redis.insert (.IDEMPOTENCY_REDIS_PREFIX (JsString.trim key)) response }, ?_, hrow,
    AList.lookup_insert _⟩
  rw [OrdersService.createOrder, Program.run_bind_ok _ _ hsanitize]
  dsimp only
  rw [h.suits]
  have hchecked : (Program.ofExcept (.ok ()) : Prog Unit).run (performAlone cfg)
      (sh, fun n => choices (n + 1)) = (.ok (), (sh, fun n => choices (n + 1))) := rfl
  rw [Program.run_bind_ok _ _ hchecked]
  change ((transaction (.createOrder dto customerId (estimatedPrice cfg dto))) >>= _).run _ _ = _
  rw [hprice, Program.run_bind_ok _ _ hwrite, hresponse]
  rfl

/-- A second request is refused, with the response of the first. -/
theorem createOrder_second (cfg : DispatchConfig) (dto : CreateOrderDto) (customerId : UserId)
    (hkey : ValidKey key) {cached : OrderResponse}
    (hcached : sh.redis.lookup (.IDEMPOTENCY_REDIS_PREFIX (JsString.trim key)) = some cached)
    (choices : ℕ → Choice) :
    ((OrdersService.createOrder cfg dto customerId (some key)).run (performAlone cfg)
      (sh, choices)).1
      = .error (.DuplicateRequest duplicateMessage cached) := by
  have hsanitize := sanitizeKey_run cfg sh hkey choices
  rw [hcached] at hsanitize
  rw [OrdersService.createOrder, Program.run_bind_error _ _ hsanitize]

/-- The columns store the coordinates and the price of an order as they are. -/
structure Representable (dto : CreateOrderDto) (price : ℚ) : Prop where
  pickupLatitude : numeric 7 dto.pickupLatitude = dto.pickupLatitude
  pickupLongitude : numeric 7 dto.pickupLongitude = dto.pickupLongitude
  deliveryLatitude : numeric 7 dto.deliveryLatitude = dto.deliveryLatitude
  deliveryLongitude : numeric 7 dto.deliveryLongitude = dto.deliveryLongitude
  price : numeric 2 price = price

/-- The entity and the row are answered alike exactly if the columns store it as it is. -/
theorem created_eq_found_iff (rt : Runtime) (ch : Choice) (customerId : UserId) (price : ℚ) :
    (toOrderResponse (bookedOrder ch dto customerId price)).asSent rt
        = toOrderResponse (OrdersService.loaded rt (bookedOrder ch dto customerId price).stored) ↔
      Representable dto price := by
  constructor
  · intro h
    have hfields := OrderResponse.mk.inj h
    obtain ⟨-, -, -, -, -, hplat, hplng, -, hdlat, hdlng, -, -, -, hprice, -⟩ := hfields
    exact ⟨hplat.symm, hplng.symm, hdlat.symm, hdlng.symm, hprice.symm⟩
  · rintro ⟨hplat, hplng, hdlat, hdlng, hprice⟩
    simp only [toOrderResponse, OrderResponse.asSent, OrdersService.loaded, Order.stored,
      bookedOrder, hplat, hplng, hdlat, hdlng, hprice]

/-- What the second request is answered is what the filter makes of a duplicate. -/
theorem duplicate_eq (cfg : DispatchConfig) (rt : Runtime) (toISOString : ℕ → String)
    (ctx : HttpContext) (customerId : UserId) (user : JwtUser) (choices : ℕ → Choice)
    (h : FirstRequest dto key sh (choices 1)) :
    (viewsOf cfg rt toISOString ctx dto customerId key user sh choices).duplicate
      = HttpExceptionFilter.catchException ctx ((Error.DuplicateRequest
          duplicateMessage (toOrderResponse (bookedOrder (choices 1) dto customerId
            (estimatedPrice cfg dto)))).toHttpException toISOString) := by
  obtain ⟨sh', hfirst, -, hcached⟩ := createOrder_first cfg customerId h
  have hsecond := createOrder_second cfg dto customerId h.valid hcached fun n => choices (n + 3)
  rw [viewsOf]
  dsimp only
  rw [hfirst]
  dsimp only
  rw [hsecond]
  rfl

/-- **The three views of a new order never agree**: the order is created and found, but what the
second request is answered shows no order. The other two views agree exactly if the columns store
the coordinates and the price as they are. -/
theorem views_never_agree (cfg : DispatchConfig) (rt : Runtime) (toISOString : ℕ → String)
    (ctx : HttpContext) (choices : ℕ → Choice) (h : FirstRequest dto key sh (choices 1))
    (huser : user.role = .CUSTOMER → user.userId = customerId) :
    ¬ (viewsOf cfg rt toISOString ctx dto customerId key user sh choices).Agree toISOString ∧
    ∃ created found,
      (viewsOf cfg rt toISOString ctx dto customerId key user sh choices).created = .ok created ∧
      (viewsOf cfg rt toISOString ctx dto customerId key user sh choices).found = .ok found ∧
      (created = found ↔ Representable dto (estimatedPrice cfg dto)) := by
  obtain ⟨sh', hfirst, hrow, -⟩ := createOrder_first cfg customerId h
  have hfound : OrdersService.findById rt sh'.db (choices 1).orderId user
      = .ok (toOrderResponse (OrdersService.loaded rt
        (bookedOrder (choices 1) dto customerId (estimatedPrice cfg dto)).stored)) := by
    rw [OrdersService.findById, hrow]
    refine if_neg ?_
    rintro ⟨hrole, hne⟩
    exact hne (huser hrole).symm
  constructor
  · rintro ⟨data, -, hshows, -⟩
    rw [duplicate_eq cfg rt toISOString ctx customerId user choices h] at hshows
    exact duplicate_shows_nothing _ _ hshows
  · refine ⟨_, _, ?_, ?_, created_eq_found_iff rt (choices 1) customerId (estimatedPrice cfg dto)⟩
    · rw [viewsOf]
      dsimp only
      rw [hfirst]
      rfl
    · rw [viewsOf]
      dsimp only
      rw [hfirst]
      exact hfound

end Creating

/-! ### One order -/

/-- A trip whose pickup is given to eight digits. -/
def sharpTrip : CreateOrderDto := { carTrip with pickupLatitude := 12345678 / 100000000 }

/-- A system without orders. -/
def noOrders : Shared BullQueue where
  db := ⟨Table.empty, [], Table.empty, Table.empty⟩
  redis := ∅
  dispatchQueue := JobQueue.empty
  trackingQueue := JobQueue.empty
  events := []

theorem sharpTrip_first : FirstRequest sharpTrip "key-1" noOrders sampleChoice :=
  ⟨rfl, ⟨by decide, by decide +kernel, by decide +kernel⟩, rfl, rfl, rfl⟩

/-- A runtime in which no cursor is ever read. -/
def cursorlessRuntime : Runtime where
  parse _ := none
  print _ _ := ""
  getTime _ := none
  toDate := id
  toUuid _ := none
  inRange _ := true

/-- The epoch, as it is written. -/
def sampleToISOString (_ : ℕ) : String :=
  "1970-01-01T00:00:00.000Z"

/-- The request that creates an order. -/
def sampleContext : HttpContext :=
  ⟨"1970-01-01T00:00:01.000Z", "/api/v1/orders", "POST", none⟩

/-- The views of the trip. -/
def sharpViews : Views :=
  viewsOf (sampleConfig 3) cursorlessRuntime sampleToISOString sampleContext sharpTrip
    sampleCustomer "key-1" sampleAdmin noOrders fun _ => sampleChoice

theorem views_never_agree_sharp : ¬ sharpViews.Agree sampleToISOString ∧
    ∃ created found, sharpViews.created = .ok created ∧ sharpViews.found = .ok found ∧
      (created = found ↔
        Representable sharpTrip (estimatedPrice (sampleConfig 3) sharpTrip)) :=
  views_never_agree (sampleConfig 3) cursorlessRuntime
    sampleToISOString sampleContext (fun _ => sampleChoice) sharpTrip_first (by decide)

/-- The trip is created and found, but the answer to the second request does not show it. -/
theorem sharp_views_disagree : ¬ sharpViews.Agree sampleToISOString := by
  rintro ⟨data, -, hshows, -⟩
  have hduplicate := duplicate_eq (sampleConfig 3) cursorlessRuntime sampleToISOString
    sampleContext sampleCustomer sampleAdmin (fun _ => sampleChoice) sharpTrip_first
  rw [sharpViews, hduplicate] at hshows
  exact duplicate_shows_nothing _ _ hshows

end LogisticsDispatch
