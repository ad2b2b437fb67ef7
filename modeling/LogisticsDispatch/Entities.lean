/-
The rows and values the order side of the API works on: the entities of
`src/orders`, `src/drivers` and `src/outbox`, the enums their columns range over,
the user a request is made by, and the errors a call can end with.

Every id is a `uuid` column or an element of the `simple-array` column
`attempted_driver_ids`. A uuid is never the empty string, and `Uuid` carries that
as a field. `createdAt`, `updatedAt` and `deletedAt` are instants, counted in
microseconds. Money and coordinates are `decimal` columns, so exact rationals.

Left out are columns that no operation modelled here reads: the licence number and
rating of a driver, who created it, and the ids and dates of history rows (rows
are kept in the order they were committed in).
-/
import Mathlib.Data.Rat.Defs
import LogisticsDispatch.Lib.Table

set_option autoImplicit false

namespace LogisticsDispatch

/-- The value of a `uuid` column. -/
@[ext]
structure Uuid where
  text : String
  nonempty : text ≠ ""
deriving DecidableEq

abbrev OrderId := Uuid
abbrev DriverId := Uuid
abbrev UserId := Uuid

/-! ## Enums -/

/-- `OrderStatus`. -/
inductive OrderStatus
  | PENDING | DRIVER_ASSIGNED | DRIVER_ARRIVING | PICKED_UP | IN_TRANSIT
  | DELIVERED | CANCELLED | FAILED | EXPIRED
deriving DecidableEq, Repr

/-- The string an order status is stored and printed as. -/
def OrderStatus.text : OrderStatus → String
  | PENDING => "pending"
  | DRIVER_ASSIGNED => "driver_assigned"
  | DRIVER_ARRIVING => "driver_arriving"
  | PICKED_UP => "picked_up"
  | IN_TRANSIT => "in_transit"
  | DELIVERED => "delivered"
  | CANCELLED => "cancelled"
  | FAILED => "failed"
  | EXPIRED => "expired"

/-- `OrderType`. -/
inductive OrderType
  | PERSON | PACKAGE | GOODS_SMALL | GOODS_LARGE
deriving DecidableEq, Repr

/-- The string an order type is stored and printed as. -/
def OrderType.text : OrderType → String
  | PERSON => "person"
  | PACKAGE => "package"
  | GOODS_SMALL => "goods_small"
  | GOODS_LARGE => "goods_large"

/-- `VehincleType`. -/
inductive VehincleType
  | BIKE | CAR | VAN | TRUCK
deriving DecidableEq, Repr

/-- The string a vehicle type is stored and printed as. -/
def VehincleType.text : VehincleType → String
  | BIKE => "bike"
  | CAR => "car"
  | VAN => "van"
  | TRUCK => "truck"

/-- `UserRole`. -/
inductive UserRole
  | CUSTOMER | DRIVER | ADMIN
deriving DecidableEq, Repr

/-- `OutboxStatus`. -/
inductive OutboxStatus
  | PENDING | PROCESSED | FAILED
deriving DecidableEq, Repr

/-! ## Rows -/

/-- A row of `orders`. -/
structure Order where
  id : OrderId
  customerId : UserId
  notes : Option String
  orderType : OrderType
  vehincleType : VehincleType
  pickupAddress : String
  deliveryAddress : String
  pickupLatitude : ℚ
  pickupLongitude : ℚ
  deliveryLatitude : ℚ
  deliveryLongitude : ℚ
  orderStatus : OrderStatus
  assignedDriverId : Option DriverId
  estimatedPrice : ℚ
  dispatchAttempts : ℕ
  attemptedDriverIds : List DriverId
  -- incremented by hand in every write but soft deletion
  version : ℕ
  createdAt : ℕ
  updatedAt : ℕ
  deletedAt : Option ℕ
deriving DecidableEq

/-- A row of `order_status_history`. -/
structure OrderStatusHistory where
  orderId : OrderId
  previousStatus : Option OrderStatus
  newStatus : OrderStatus
  actorId : String
deriving DecidableEq

/-- A row of `drivers`. -/
structure Driver where
  id : DriverId
  userId : UserId
  vehincleType : VehincleType
  onlineStatus : Bool
  currentLatitude : Option ℚ
  currentLongitude : Option ℚ
  isSuspended : Bool
deriving DecidableEq

/-- A row of `outbox_events`. The payload is the order id where it has one, as
`isDispatchTriggerPayload` asks, and `none` where it has not. -/
structure OutboxEvent where
  id : Uuid
  eventType : String
  payload : Option OrderId
  status : OutboxStatus
  attempts : ℕ
  lastError : Option String
  createdAt : ℕ
  processedAt : Option ℕ
deriving DecidableEq

/-! ## Requests and answers -/

/-- The user of a request, from its access token. -/
structure JwtUser where
  userId : UserId
  role : UserRole
  driverProfileId : Option DriverId
deriving DecidableEq

/-- `CreateOrderDto`. -/
structure CreateOrderDto where
  pickupAddress : String
  pickupLatitude : ℚ
  pickupLongitude : ℚ
  deliveryAddress : String
  deliveryLatitude : ℚ
  deliveryLongitude : ℚ
  orderType : OrderType
  vehincleType : VehincleType
  notes : Option String
deriving DecidableEq

/-- `OrderResponse`. -/
structure OrderResponse where
  id : OrderId
  customerId : UserId
  orderType : OrderType
  vehincleType : VehincleType
  pickupAddress : String
  pickupLatitude : ℚ
  pickupLongitude : ℚ
  deliveryAddress : String
  deliveryLatitude : ℚ
  deliveryLongitude : ℚ
  notes : Option String
  status : OrderStatus
  assignedDriverId : Option DriverId
  estimatedPrice : ℚ
  dispatchAttempts : ℕ
  createdAt : ℕ
  updatedAt : ℕ
deriving DecidableEq

/-- `toOrderResponse`. -/
def toOrderResponse (order : Order) : OrderResponse where
  id := order.id
  customerId := order.customerId
  orderType := order.orderType
  vehincleType := order.vehincleType
  pickupAddress := order.pickupAddress
  pickupLatitude := order.pickupLatitude
  pickupLongitude := order.pickupLongitude
  deliveryAddress := order.deliveryAddress
  deliveryLatitude := order.deliveryLatitude
  deliveryLongitude := order.deliveryLongitude
  notes := order.notes
  status := order.orderStatus
  assignedDriverId := order.assignedDriverId
  estimatedPrice := order.estimatedPrice
  dispatchAttempts := order.dispatchAttempts
  createdAt := order.createdAt
  updatedAt := order.updatedAt

/-- What a call can throw: one of the HTTP exceptions with its message, the
structured conflict `createOrder` answers a duplicate request with, the refusal of
a query by PostgreSQL, the refusal of BullMQ to remove a job a worker holds, or the
failure of a Redis, queue or database call. -/
inductive Error
  | BadRequestException (message : String)
  | ForbiddenException (message : String)
  | NotFoundException (message : String)
  | ConflictException (message : String)
  | UnprocessableEntityException (message : String)
  | DuplicateRequest (message : String) (data : OrderResponse)
  | QueryFailedError (message : String)
  | JobLocked
  | Unavailable
deriving DecidableEq

/-- The text of an error, as `err.message` reads it. -/
def Error.message : Error → String
  | BadRequestException m => m
  | ForbiddenException m => m
  | NotFoundException m => m
  | ConflictException m => m
  | UnprocessableEntityException m => m
  | DuplicateRequest m _ => m
  | QueryFailedError m => m
  | JobLocked => "Job could not be removed because it is locked by another worker"
  | Unavailable => "Connection is closed."

/-! ## The tables -/

abbrev OrderTable := Table Order.id
abbrev DriverTable := Table Driver.id
abbrev OutboxTable := Table OutboxEvent.id

/-- The database: the tables of orders, drivers and outbox events, and the history
rows in the order they were committed in. -/
structure Db where
  orders : OrderTable
  history : List OrderStatusHistory
  drivers : DriverTable
  outbox : OutboxTable

namespace Db

/-- `findOneBy({ id })` on orders: soft-deleted rows are not found. -/
def findOrder (db : Db) (orderId : OrderId) : Option Order :=
  (db.orders.find orderId).filter fun order => order.deletedAt.isNone

/-- The history rows of one order, in commit order. -/
def historyOf (db : Db) (orderId : OrderId) : List OrderStatusHistory :=
  db.history.filter fun row => row.orderId = orderId

variable {db : Db} {orderId : OrderId} {order : Order}

theorem findOrder_eq_some :
    db.findOrder orderId = some order ↔
      db.orders.find orderId = some order ∧ order.deletedAt = none := by
  rw [findOrder, Option.filter_eq_some_iff, Option.isNone_iff_eq_none]

theorem id_of_findOrder (h : db.findOrder orderId = some order) : order.id = orderId :=
  Table.key_of_find (findOrder_eq_some.mp h).1

end Db

end LogisticsDispatch
