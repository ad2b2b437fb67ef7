/-
The transactions of the order services, each a function of the database.

A transaction that locks the order row first (`pessimistic_write`) sees the row as
it is when it commits, since nobody else can write it in between; one that updates
with `WHERE id = :orderId AND version = :version` re-evaluates that condition on the
row as it is when it gets its lock. Either way the transaction is one step on the
database, and these functions are that step. An `.error` is a thrown exception,
which rolls the transaction back: there is no database in it.

Two things about TypeORM decide what is found and written. Selects skip
soft-deleted rows (`Db.findOrder`); the update of the query builder does not
(`db.orders.find`), so both optimistic writers read the row once more and throw when
it is gone.

What a transaction leaves open is settled by a `Choice`: the clock, the uuids that
are drawn, and the driver rows other transactions hold.
-/
import Mathlib.Data.Rat.Floor
import LogisticsDispatch.OrderRules

set_option autoImplicit false

namespace LogisticsDispatch

open OrderStatus

/-- What the environment decides for one step: the clock, the uuids drawn for a new
order, outbox event or driver, the rows that a `skip_locked` query does not get, and
which row `findOne` picks among several. -/
structure Choice where
  now : ℕ
  orderId : Uuid
  outboxId : Uuid
  driverId : Uuid
  skipLocked : List Uuid
  pick : ℕ
deriving DecidableEq

/-- The configuration of the dispatch service: `MAX_DISPATCH_ATTEMPTS`,
`DISPATCH_TIMEOUT_SECONDS`, and the distance by which candidates are sorted. -/
structure DispatchConfig where
  maxDispatchAttempts : ℕ
  dispatchTimeoutSeconds : ℕ
  calculateDistance : ℚ → ℚ → ℚ → ℚ → ℚ

/-- A `numeric` column of a given scale rounds half away from zero. -/
def numeric (scale : ℕ) (x : ℚ) : ℚ :=
  if 0 ≤ x then (⌊x * 10 ^ scale + 1 / 2⌋ : ℚ) / 10 ^ scale
  else -((⌊-x * 10 ^ scale + 1 / 2⌋ : ℚ) / 10 ^ scale)

/-- What the `orders` table keeps of an entity that is inserted. -/
def Order.stored (order : Order) : Order :=
  { order with
    pickupLatitude := numeric 7 order.pickupLatitude
    pickupLongitude := numeric 7 order.pickupLongitude
    deliveryLatitude := numeric 7 order.deliveryLatitude
    deliveryLongitude := numeric 7 order.deliveryLongitude
    estimatedPrice := numeric 2 order.estimatedPrice }

namespace Db

/-- Write an order row, and the history row that goes with its status. -/
def saveWithHistory (db : Db) (order : Order) (previousStatus : Option OrderStatus)
    (actorId : String) (now : ℕ) : Db :=
  { db with
    orders := db.orders.put { order with updatedAt := now }
    history := db.history ++ [{
      orderId := order.id
      previousStatus := previousStatus
      newStatus := order.orderStatus
      actorId := actorId }] }

/-- Write a driver row. -/
def saveDriver (db : Db) (driver : Driver) : Db := { db with drivers := db.drivers.put driver }

/-- Write an outbox row. -/
def saveOutbox (db : Db) (row : OutboxEvent) : Db := { db with outbox := db.outbox.put row }

end Db

/-! ## `DispatchService` -/

namespace DispatchService

/-- `shouldSkipAssignment`. -/
def shouldSkipAssignment (order : Order) : Bool :=
  if order.orderStatus ∈ terminalStatuses then true
  else if order.orderStatus ≠ PENDING then true
  else false

/-- The query that locks a candidate: a driver row that another transaction holds,
or that is no longer eligible, is not found. -/
def lockDriver (db : Db) (skipLocked : List DriverId) (driverId : DriverId)
    (vehincleType : VehincleType) : Option Driver :=
  if driverId ∈ skipLocked then none
  else (db.drivers.find driverId).filter fun driver =>
    driver.onlineStatus && !driver.isSuspended && decide (driver.vehincleType = vehincleType)

/-- The loop over the candidates, up to the first driver it locks. -/
def lockFirst (db : Db) (skipLocked attemptedDriverIds : List DriverId)
    (vehincleType : VehincleType) : List Driver → Option Driver
  | [] => none
  | candidate :: rest =>
      if candidate.id ∈ attemptedDriverIds then
        lockFirst db skipLocked attemptedDriverIds vehincleType rest
      else
        match lockDriver db skipLocked candidate.id vehincleType with
        | none => lockFirst db skipLocked attemptedDriverIds vehincleType rest
        | some lockedDriver => some lockedDriver

/-- The `Set` of the attempted drivers of an order. -/
def attemptedSet (order : Order) : List DriverId :=
  (order.attemptedDriverIds.filter fun driverId => driverId.text.length > 0).eraseDups

/-- The transaction of `assignDriverWithLock`. -/
def assignDriverWithLockTx (ch : Choice) (orderId : OrderId) (candidateDrivers : List Driver)
    (db : Db) : Except Error (Option DriverId × Db) :=
  match db.findOrder orderId with
  | none => .ok (none, db)
  | some lockedOrder =>
      if shouldSkipAssignment lockedOrder then .ok (none, db)
      else
        let attemptedDriverIds := attemptedSet lockedOrder
        match lockFirst db ch.skipLocked attemptedDriverIds lockedOrder.vehincleType
            candidateDrivers with
        | none => .ok (none, db)
        | some lockedDriver =>
            let previousStatus := lockedOrder.orderStatus
            let assigned := { lockedOrder with
              assignedDriverId := some lockedDriver.id
              orderStatus := DRIVER_ASSIGNED
              dispatchAttempts := lockedOrder.dispatchAttempts + 1
              version := lockedOrder.version + 1
              attemptedDriverIds := attemptedDriverIds ++ [lockedDriver.id] }
            .ok (some lockedDriver.id,
              db.saveWithHistory assigned (some previousStatus) "system" ch.now)

/-- The transaction of `expireOrder`. -/
def expireOrderTx (ch : Choice) (orderId : OrderId) (db : Db) : Except Error (Unit × Db) :=
  match db.findOrder orderId with
  | none => .ok ((), db)
  | some lockedOrder =>
      if shouldSkipAssignment lockedOrder then .ok ((), db)
      else
        let previousStatus := lockedOrder.orderStatus
        let expired := { lockedOrder with
          orderStatus := EXPIRED
          assignedDriverId := none
          dispatchAttempts := lockedOrder.dispatchAttempts + 1
          version := lockedOrder.version + 1 }
        .ok ((), db.saveWithHistory expired (some previousStatus) "system" ch.now)

/-- `TimeoutResult`. -/
inductive TimeoutResult
  | skip
  | expired (orderId : OrderId)
  | redispatch (orderId : OrderId)
deriving DecidableEq

/-- The transaction of `handleDispatchTimeout`. -/
def handleDispatchTimeoutTx (cfg : DispatchConfig) (ch : Choice) (orderId : OrderId)
    (driverId : DriverId) (db : Db) : Except Error (TimeoutResult × Db) :=
  match db.findOrder orderId with
  | none => .ok (.skip, db)
  | some lockedOrder =>
      if lockedOrder.orderStatus ∈ terminalStatuses then .ok (.skip, db)
      -- a stale timeout after accept or a later status
      else if lockedOrder.orderStatus ≠ DRIVER_ASSIGNED then .ok (.skip, db)
      -- a stale timeout of a previous assignment
      else if lockedOrder.assignedDriverId ≠ some driverId then .ok (.skip, db)
      else
        let previousStatus := lockedOrder.orderStatus
        let refused := { lockedOrder with
          assignedDriverId := none
          dispatchAttempts := lockedOrder.dispatchAttempts + 1
          version := lockedOrder.version + 1 }
        -- the offer was counted by `assignDriverWithLock` already
        if refused.dispatchAttempts ≥ cfg.maxDispatchAttempts then
          .ok (.expired refused.id,
            db.saveWithHistory { refused with orderStatus := EXPIRED } (some previousStatus)
              "system" ch.now)
        else
          .ok (.redispatch refused.id,
            db.saveWithHistory { refused with orderStatus := PENDING } (some previousStatus)
              "system" ch.now)

/-- `AcceptResult`. -/
inductive AcceptResult
  | alreadyAccepted
  | accepted (orderId : OrderId)
deriving DecidableEq

/-- The transaction of `acceptDispatch`. -/
def acceptDispatchTx (ch : Choice) (orderId : OrderId) (driverId : DriverId) (db : Db) :
    Except Error (AcceptResult × Db) :=
  match db.findOrder orderId with
  | none => .error (.NotFoundException "Order not found")
  | some lockedOrder =>
      -- accepting twice is no error
      if lockedOrder.orderStatus = DRIVER_ARRIVING ∧
          lockedOrder.assignedDriverId = some driverId then .ok (.alreadyAccepted, db)
      else if lockedOrder.orderStatus ≠ DRIVER_ASSIGNED then
        .error (.ConflictException "Order is no longer awaiting driver response")
      else if lockedOrder.assignedDriverId ≠ some driverId then
        .error (.ForbiddenException "You are not assigned to this order")
      else
        let previousStatus := lockedOrder.orderStatus
        let accepted := { lockedOrder with
          orderStatus := DRIVER_ARRIVING
          version := lockedOrder.version + 1 }
        .ok (.accepted accepted.id,
          db.saveWithHistory accepted (some previousStatus) driverId.text ch.now)

/-- `RejectResult`. -/
inductive RejectResult
  | alreadyHandled
  | expired (orderId : OrderId)
  | redispatch (orderId : OrderId)
deriving DecidableEq

/-- The transaction of `rejectDispatch`. -/
def rejectDispatchTx (cfg : DispatchConfig) (ch : Choice) (orderId : OrderId)
    (driverId : DriverId) (db : Db) : Except Error (RejectResult × Db) :=
  match db.findOrder orderId with
  | none => .error (.NotFoundException "Order not found")
  | some lockedOrder =>
      -- a rejection that comes after the timeout is no error
      if lockedOrder.orderStatus = PENDING ∨ lockedOrder.orderStatus = EXPIRED then
        .ok (.alreadyHandled, db)
      else if lockedOrder.orderStatus ≠ DRIVER_ASSIGNED then
        .error (.ConflictException "Order is no longer awaiting driver response")
      else if lockedOrder.assignedDriverId ≠ some driverId then
        .error (.ForbiddenException "You are not assigned to this order")
      else
        let previousStatus := lockedOrder.orderStatus
        let refused := { lockedOrder with
          assignedDriverId := none
          dispatchAttempts := lockedOrder.dispatchAttempts + 1
          version := lockedOrder.version + 1
          attemptedDriverIds := lockedOrder.attemptedDriverIds ++ [driverId] }
        if refused.dispatchAttempts ≥ cfg.maxDispatchAttempts then
          .ok (.expired refused.id,
            db.saveWithHistory { refused with orderStatus := EXPIRED } (some previousStatus)
              driverId.text ch.now)
        else
          .ok (.redispatch refused.id,
            db.saveWithHistory { refused with orderStatus := PENDING } (some previousStatus)
              driverId.text ch.now)

end DispatchService

/-! ## `OrdersService` -/

namespace OrdersService

/-- The transaction of `createOrder`: the order, its first history row, and the
outbox event that triggers dispatch. Drawing a uuid that is taken violates a primary
key, which is a database error. -/
def createOrderTx (ch : Choice) (dto : CreateOrderDto) (customerId : UserId)
    (estimatedPrice : ℚ) (db : Db) : Except Error (Order × Db) :=
  if (db.orders.find ch.orderId).isSome ∨ (db.outbox.find ch.outboxId).isSome then
    .error .Unavailable
  else
    let savedOrder : Order := {
      id := ch.orderId
      customerId := customerId
      notes := dto.notes
      orderType := dto.orderType
      vehincleType := dto.vehincleType
      pickupAddress := dto.pickupAddress
      deliveryAddress := dto.deliveryAddress
      pickupLatitude := dto.pickupLatitude
      pickupLongitude := dto.pickupLongitude
      deliveryLatitude := dto.deliveryLatitude
      deliveryLongitude := dto.deliveryLongitude
      orderStatus := PENDING
      assignedDriverId := none
      estimatedPrice := estimatedPrice
      dispatchAttempts := 0
      attemptedDriverIds := []
      version := 1
      createdAt := ch.now
      updatedAt := ch.now
      deletedAt := none }
    let outbox : OutboxEvent := {
      id := ch.outboxId
      eventType := "dispatch.trigger"
      payload := some savedOrder.id
      status := .PENDING
      attempts := 0
      lastError := none
      createdAt := ch.now
      processedAt := none }
    let db := db.saveWithHistory savedOrder.stored none customerId.text ch.now
    -- the response shows the price as computed, the row as the column stores it
    .ok (savedOrder, db.saveOutbox outbox)

/-- The end of both optimistic transactions: the row that was written is read back,
and is not found when it is soft-deleted. -/
def readBack (db : Db) (orderId : OrderId) : Except Error (Order × Db) :=
  match db.findOrder orderId with
  | none => .error (.NotFoundException "Order not found")
  | some updated => .ok (updated, db)

/-- The transaction of `updateStatus`, from the copy `order` that was read before. -/
def updateStatusTx (ch : Choice) (orderId : OrderId) (order : Order) (newStatus : OrderStatus)
    (user : JwtUser) (db : Db) : Except Error (Order × Db) :=
  match (db.orders.find orderId).filter fun row => row.version = order.version with
  | none => .error (.ConflictException "Order was modified by another request, please retry")
  | some row =>
      -- the update sets two columns of the row, and matches deleted rows as well
      let updated := { row with orderStatus := newStatus, version := order.version + 1 }
      readBack (db.saveWithHistory updated (some order.orderStatus) user.userId.text ch.now)
        orderId

/-- The transaction of `reassignOrder`, from the copy `order` that was read before. -/
def reassignOrderTx (ch : Choice) (orderId : OrderId) (order : Order) (user : JwtUser)
    (db : Db) : Except Error (Order × Db) :=
  match (db.orders.find orderId).filter fun row => row.version = order.version with
  | none => .error (.ConflictException "Order was modified by another request, please retry")
  | some row =>
      let updated := { row with
        orderStatus := PENDING
        assignedDriverId := none
        dispatchAttempts := 0
        attemptedDriverIds := []
        version := order.version + 1 }
      readBack (db.saveWithHistory updated (some EXPIRED) user.userId.text ch.now) orderId

/-- The statement of `orderRepo.softDelete(orderId)`. -/
def softDeleteRow (ch : Choice) (orderId : OrderId) (db : Db) : Db :=
  match db.orders.find orderId with
  | none => db
  | some row =>
      { db with orders := db.orders.put { row with
          deletedAt := some ch.now, updatedAt := ch.now } }

end OrdersService

/-! ## `DriversService` and `UsersService` -/

namespace DriversService

/-- How PostgreSQL refuses a `FOR UPDATE` over a left join: it asks for a lock on the rows of
both sides, and one side may be missing. -/
def lockRefused : Error :=
  .QueryFailedError "FOR UPDATE cannot be applied to the nullable side of an outer join"

/-- The query of `toggleSuspension`: the driver with `leftJoinAndSelect` of the user, under
`setLock('pessimistic_write')`. It is refused before a row is looked at. -/
def lockDriverWithUser (_driverId : DriverId) (_db : Db) : Except Error (Option Driver) :=
  .error lockRefused

/-- The transaction of `toggleSuspension`. -/
def toggleSuspensionTx (driverId : DriverId) (db : Db) : Except Error (Driver × Db) := do
  match ← lockDriverWithUser driverId db with
  | none => throw (.NotFoundException "Driver not found")
  | some driver =>
      -- who is about to be suspended goes offline first
      let driver := if !driver.isSuspended && driver.onlineStatus
        then { driver with onlineStatus := false } else driver
      let driver := { driver with isSuspended := !driver.isSuspended }
      return (driver, db.saveDriver driver)

/-- The transaction ends with the query it begins with. -/
theorem toggleSuspensionTx_refused (driverId : DriverId) (db : Db) :
    toggleSuspensionTx driverId db = .error lockRefused := rfl

end DriversService

/-- The part of the transaction of `UsersService.promoteToDriver` that is about the
driver profile. -/
def UsersService.promoteToDriverTx (ch : Choice) (userId : UserId) (vehincleType : VehincleType)
    (db : Db) : Except Error (Unit × Db) :=
  if db.drivers.toList.any fun driver => driver.userId = userId then
    .error (.ConflictException "Driver profile already exists")
  else if (db.drivers.find ch.driverId).isSome then .error .Unavailable
  else
    let driver : Driver := {
      id := ch.driverId
      userId := userId
      vehincleType := vehincleType
      onlineStatus := false
      currentLatitude := none
      currentLongitude := none
      isSuspended := false }
    .ok ((), db.saveDriver driver)

end LogisticsDispatch
