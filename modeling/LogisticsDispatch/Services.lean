/-
The services, as programs over the effects: `EventPublisherService`,
`TrackingService`, `DispatchService` with its processor, `OrdersService`,
`OutboxWorkerService` and the order-related part of `DriversService`.

Each definition follows the method of its name statement by statement. What is in
one `dataSource.transaction` is one effect; everything else a method awaits is an
effect of its own, so anything may happen between two of them. A `try`/`catch` of the
source is one here. Log lines are left out.
-/
import LogisticsDispatch.Effects

set_option autoImplicit false

namespace LogisticsDispatch

open OrderStatus Resumable

/-- Ask for one effect. -/
def ask (e : Effect) : Prog e.Resp := Program.perform e

/-- Run a transaction. -/
def transaction (t : Transaction) : Prog t.Result := ask (.transaction t)

/-- What a call returns: nothing, a message, an order, an order id or none, or a
driver. -/
inductive Response
  | void
  | message (message : String)
  | order (data : OrderResponse)
  | activeOrder (orderId : Option OrderId)
  | driver (driver : Driver)
deriving DecidableEq

/-! ## `EventPublisherService` -/

namespace EventPublisherService

/-- Every method of the publisher: emit, and swallow what goes wrong. -/
def notify (event : Event) : Prog Unit :=
  try ask (.emit event) catch _ => pure ()

/-- `notifyDriverAssigned`. -/
def notifyDriverAssigned (orderId : OrderId) (driverId : DriverId) : Prog Unit :=
  notify (.driverAssigned orderId driverId)

/-- `notifyCustomerStatusChanged`. -/
def notifyCustomerStatusChanged (orderId : OrderId) (status : OrderStatus) : Prog Unit :=
  notify (.customerStatusChanged orderId status)

/-- `notifyDriverTimeout`. -/
def notifyDriverTimeout (orderId : OrderId) (driverId : DriverId) : Prog Unit :=
  notify (.driverTimeout orderId driverId)

/-- `notifyLocationBroadcast`. -/
def notifyLocationBroadcast (orderId : OrderId) (lat lng : ℚ) (eta : Option ℤ) : Prog Unit :=
  notify (.locationBroadcast orderId lat lng eta)

end EventPublisherService

open EventPublisherService

/-! ## `TrackingService` -/

namespace TrackingService

def ETA_RECALCULATE_DELAY_MS : ℕ := 30000
def ETA_AVERAGE_SPEED_KMH : ℚ := 30

/-- `ensureEtaJobScheduled`. -/
def ensureEtaJobScheduled (orderId : OrderId) (driverProfileId : DriverId) : Prog Unit := do
  let existing ← ask (.redisGet (.ETA_JOB_KEY orderId))
  if existing.isSome then return
  let jobId ← ask (.addJob .TRACKING_QUEUE (.recalculateEta orderId)
    (.recalculate_eta orderId driverProfileId) 0)
  ask (.redisSet (.ETA_JOB_KEY orderId) jobId (60 * 60 * 24))

/-- The `try` of `cancelEtaJob` and of `cancelDispatchTimeout`: remove a job if it is
there, and go on if that fails. -/
def removeIfPresent (queue : QueueName) (jobId : JobId) : Prog Unit := do
  let job ← ask (.getJob queue jobId)
  if job.isSome then ask (.removeJob queue jobId)

/-- `cancelEtaJob`. -/
def cancelEtaJob (orderId : OrderId) : Prog Unit := do
  match ← ask (.redisGet (.ETA_JOB_KEY orderId)) with
  | none => return
  | some jobId =>
      try removeIfPresent .TRACKING_QUEUE jobId catch _ => pure ()
      ask (.redisDel (.ETA_JOB_KEY orderId))

/-- The part of `handleLocationUpdate` that looks the active order of a driver up. -/
def activeOrderOf (driverProfileId : DriverId) : Prog (Option OrderId) := do
  match ← ask (.redisGet (.ACTIVE_ORDER_KEY driverProfileId)) with
  | some orderId => return some orderId
  | none =>
      match ← ask (.findActiveOrder driverProfileId) with
      | none => return none
      | some active => do
          ask (.redisSet (.ACTIVE_ORDER_KEY driverProfileId) active.id 60)
          return some active.id

/-- `handleLocationUpdate`. -/
def handleLocationUpdate (driverProfileId : DriverId) (lat lng : ℚ) :
    Prog (Option OrderId) := do
  ask (.updateDriverLocation driverProfileId lat lng)
  match ← activeOrderOf driverProfileId with
  | none => return none
  | some orderId =>
      notifyLocationBroadcast orderId lat lng none
      ensureEtaJobScheduled orderId driverProfileId
      return some orderId

/-- `handleEtaRecalculation`. -/
def handleEtaRecalculation (cfg : DispatchConfig) (orderId : OrderId)
    (driverProfileId : DriverId) : Prog Unit := do
  match ← ask (.findOrder orderId) with
  | none => cancelEtaJob orderId
  | some order =>
      -- the job's driver must be the driver of the current assignment
      if order.assignedDriverId ≠ some driverProfileId then cancelEtaJob orderId
      else
        match ← ask (.findDriver driverProfileId) with
        | none => cancelEtaJob orderId
        | some driver =>
            match driver.currentLatitude, driver.currentLongitude with
            | some lat, some lng => do
                let distanceKm := cfg.calculateDistance lat lng order.deliveryLatitude
                  order.deliveryLongitude
                -- `Math.round`
                let etaSeconds := ⌊distanceKm / ETA_AVERAGE_SPEED_KMH * 3600 + 1 / 2⌋
                notifyLocationBroadcast orderId lat lng (some etaSeconds)
                let jobId ← ask (.addJob .TRACKING_QUEUE (.recalculateEta orderId)
                  (.recalculate_eta orderId driverProfileId) ETA_RECALCULATE_DELAY_MS)
                ask (.redisSet (.ETA_JOB_KEY orderId) jobId (60 * 60 * 24))
            | _, _ => cancelEtaJob orderId

end TrackingService

open TrackingService

/-! ## `DispatchService` -/

namespace DispatchService

/-- `triggerDispatch`. -/
def triggerDispatch (orderId : OrderId) : Prog Unit := do
  let _ ← ask (.addJob .DISPATCH_QUEUE (.assignDriver orderId) (.ASSIGN_DRIVER orderId) 0)

/-- `findNearestEligibleDrivers`. -/
def findNearestEligibleDrivers (cfg : DispatchConfig) (order : Order) : Prog (List Driver) := do
  let attemptedDriverIds :=
    order.attemptedDriverIds.filter fun driverId => driverId.text.length > 0
  let candidates ← ask (.findDrivers order.vehincleType attemptedDriverIds)
  let distance (driver : Driver) : ℚ := cfg.calculateDistance order.pickupLatitude
    order.pickupLongitude (driver.currentLatitude.getD 0) (driver.currentLongitude.getD 0)
  -- the query has asked for a position already; the source filters again
  let located := candidates.filter fun driver =>
    driver.currentLatitude.isSome && driver.currentLongitude.isSome
  return located.insertionSort fun driverA driverB => distance driverA ≤ distance driverB

/-- `expireOrder`. -/
def expireOrder (orderId : OrderId) : Prog Unit := do
  transaction (.expireOrder orderId)
  try cancelEtaJob orderId catch _ => pure ()

/-- The three ways `handleAssignDriver` gives up on an order. -/
def expireAndNotify (orderId : OrderId) : Prog Unit := do
  expireOrder orderId
  notifyCustomerStatusChanged orderId EXPIRED

/-- `handleAssignDriver`. -/
def handleAssignDriver (cfg : DispatchConfig) (orderId : OrderId) : Prog Unit := do
  match ← ask (.findOrder orderId) with
  | none => return
  | some order =>
      if shouldSkipAssignment order then return
      else if order.dispatchAttempts ≥ cfg.maxDispatchAttempts then expireAndNotify order.id
      else do
        let candidateDrivers ← findNearestEligibleDrivers cfg order
        if candidateDrivers.length = 0 then expireAndNotify order.id
        else
          match ← transaction (.assignDriverWithLock order.id candidateDrivers) with
          | none => expireAndNotify order.id
          -- the row, the job and the key are written one after the other, in three stores
          | some driverId => do
              let jobId ← ask (.addJob .DISPATCH_QUEUE (.dispatchTimeout order.id driverId)
                (.DISPATCH_TIMEOUT order.id driverId) (cfg.dispatchTimeoutSeconds * 1000))
              ask (.redisSet (.DISPATCH_TIMEOUT_KEY order.id) jobId
                (cfg.dispatchTimeoutSeconds * 2))
              notifyDriverAssigned order.id driverId

/-- `handleDispatchTimeout`. -/
def handleDispatchTimeout (orderId : OrderId) (driverId : DriverId) : Prog Unit := do
  match ← transaction (.handleDispatchTimeout orderId driverId) with
  | .skip => return
  | .expired resultId => do
      ask (.redisDel (.DISPATCH_TIMEOUT_KEY orderId))
      try cancelEtaJob resultId catch _ => pure ()
      notifyCustomerStatusChanged resultId EXPIRED
      notifyDriverTimeout orderId driverId
  | .redispatch resultId => do
      ask (.redisDel (.DISPATCH_TIMEOUT_KEY orderId))
      notifyDriverTimeout orderId driverId
      triggerDispatch resultId

/-- `cancelDispatchTimeout`. -/
def cancelDispatchTimeout (orderId : OrderId) : Prog Unit := do
  match ← ask (.redisGet (.DISPATCH_TIMEOUT_KEY orderId)) with
  | none => return
  | some timeoutJobId => do
      -- the key may by now name the timeout of a later offer
      let timeoutJob ← ask (.getJob .DISPATCH_QUEUE timeoutJobId)
      if timeoutJob.isSome then
        try ask (.removeJob .DISPATCH_QUEUE timeoutJobId) catch _ => pure ()
      ask (.redisDel (.DISPATCH_TIMEOUT_KEY orderId))

/-- `acceptDispatch`. -/
def acceptDispatch (orderId : OrderId) (driverId : DriverId) : Prog Response := do
  match ← transaction (.acceptDispatch orderId driverId) with
  | .alreadyAccepted => return .message "Dispatch already accepted"
  | .accepted resultId => do
      cancelDispatchTimeout orderId
      notifyCustomerStatusChanged resultId DRIVER_ARRIVING
      ensureEtaJobScheduled resultId driverId
      return .message "Dispatch accepted successfully"

/-- `rejectDispatch`. -/
def rejectDispatch (orderId : OrderId) (driverId : DriverId) : Prog Response := do
  match ← transaction (.rejectDispatch orderId driverId) with
  | .alreadyHandled => return .message "Dispatch already handled"
  | .expired resultId => do
      cancelDispatchTimeout orderId
      try cancelEtaJob resultId catch _ => pure ()
      notifyCustomerStatusChanged resultId EXPIRED
      return .message "Dispatch rejected. Order expired."
  | .redispatch resultId => do
      cancelDispatchTimeout orderId
      triggerDispatch resultId
      return .message "Dispatch rejected. Reassigning another driver."

end DispatchService

open DispatchService

/-- `DispatchProcessor.process`, and `TrackingProcessor.process` for the job of the
other queue: the handler of a job by its name. -/
def process (cfg : DispatchConfig) : JobData → Prog Unit
  | .ASSIGN_DRIVER orderId => handleAssignDriver cfg orderId
  | .DISPATCH_TIMEOUT orderId driverId => handleDispatchTimeout orderId driverId
  | .recalculate_eta orderId driverProfileId => handleEtaRecalculation cfg orderId driverProfileId

/-- A BullMQ worker on a job it has taken: process it, and report how that ended. -/
def worker (cfg : DispatchConfig) (queue : QueueName) (jobId : JobId) (data : JobData) :
    Prog Unit := do
  let ok ← try (do process cfg data; pure true) catch _ => pure false
  ask (.finishJob queue jobId ok)

/-! ## `OrdersService` -/

/-- A character of JavaScript's white space or line terminators. -/
def JsString.isSpace (c : Char) : Bool :=
  c.toNat ∈ [0x9, 0xA, 0xB, 0xC, 0xD, 0x20, 0xA0, 0x1680, 0x2000, 0x2001, 0x2002, 0x2003, 0x2004,
    0x2005, 0x2006, 0x2007, 0x2008, 0x2009, 0x200A, 0x2028, 0x2029, 0x202F, 0x205F, 0x3000, 0xFEFF]

/-- `trim`. -/
@[irreducible] def JsString.trim (s : String) : String :=
  String.ofList ((s.toList.dropWhile isSpace).reverse.dropWhile isSpace).reverse

/-- `length`, which counts UTF-16 code units. -/
@[irreducible] def JsString.length (s : String) : ℕ :=
  (s.toList.map fun c => if c.toNat < 0x10000 then 1 else 2).sum

namespace OrdersService

def IDEMPOTENCY_KEY_TTL_SECONDS : ℕ := 86400

/-- The part of `createOrder` about the idempotency key: the key to keep the response
under, if there is one and no response is kept under it yet. -/
def sanitizeKey (idempotencyKey : Option String) : Prog (Option String) :=
  -- an empty header is no key
  match idempotencyKey.filter (fun key => key ≠ "") with
  | none => return none
  | some key =>
      let sanitizedKey := JsString.trim key
      if JsString.length sanitizedKey = 0 ∨ JsString.length sanitizedKey > 255 then
        throw (.UnprocessableEntityException "Invalid idempotency key")
      else do
        match ← ask (.redisGet (.IDEMPOTENCY_REDIS_PREFIX sanitizedKey)) with
        | some cached =>
            throw (.DuplicateRequest "Duplicate request — original order returned" cached)
        | none => return some sanitizedKey

/-- The part of `createOrder` that checks the vehicle against the order type. -/
def validateVehincle (dto : CreateOrderDto) : Except Error Unit :=
  if dto.vehincleType ∉ ORDER_VEHINCLE_MAP dto.orderType then
    .error (.UnprocessableEntityException s!"Vehincle type {dto.vehincleType.text} is not suitable for order type {dto.orderType.text}")
  else .ok ()

/-- `createOrder`. -/
def createOrder (cfg : DispatchConfig) (dto : CreateOrderDto) (customerId : UserId)
    (idempotencyKey : Option String) : Prog OrderResponse := do
  let sanitizedKey ← sanitizeKey idempotencyKey
  Program.ofExcept (validateVehincle dto)
  let distanceKm := cfg.calculateDistance dto.pickupLatitude dto.pickupLongitude
    dto.deliveryLatitude dto.deliveryLongitude
  let price := PRICING dto.vehincleType
  let estimatedPrice := price.baseFare + price.perKm * distanceKm
  let order ← transaction (.createOrder dto customerId estimatedPrice)
  let response := toOrderResponse order
  match sanitizedKey with
  | none => return response
  | some key => do
      ask (.redisSet (.IDEMPOTENCY_REDIS_PREFIX key) response IDEMPOTENCY_KEY_TTL_SECONDS)
      return response

/-- `updateStatus`. -/
def updateStatus (orderId : OrderId) (newStatus : OrderStatus) (user : JwtUser) :
    Prog OrderResponse := do
  match ← ask (.findOrder orderId) with
  | none => throw (.NotFoundException "Order not found")
  | some order => do
      Program.ofExcept (validateActor order newStatus user)
      Program.ofExcept (validateTransition order.orderStatus newStatus)
      -- checked on `order`, written later: the version has to make up for that
      let updatedOrder ← transaction (.updateStatus orderId order newStatus user)
      if newStatus ∈ terminalStatuses then
        try cancelEtaJob orderId catch _ => pure ()
      return toOrderResponse updatedOrder

/-- `cancelOrder`. -/
def cancelOrder (orderId : OrderId) (user : JwtUser) : Prog OrderResponse :=
  updateStatus orderId CANCELLED user

/-- The `activeStatuses` of `softDelete`. -/
def activeStatuses : List OrderStatus :=
  [DRIVER_ASSIGNED, DRIVER_ARRIVING, PICKED_UP, IN_TRANSIT]

/-- `softDelete`. -/
def softDelete (orderId : OrderId) : Prog Response := do
  match ← ask (.findOrder orderId) with
  | none => throw (.NotFoundException "Order not found")
  | some order =>
      if order.orderStatus ∈ activeStatuses then
        throw (.UnprocessableEntityException
          s!"Cannot delete an order that is currently {order.orderStatus.text}")
      else do
        ask (.softDelete orderId)
        return .message "Order deleted successfully"

/-- `reassignOrder`. -/
def reassignOrder (orderId : OrderId) (user : JwtUser) : Prog OrderResponse := do
  match ← ask (.findOrder orderId) with
  | none => throw (.NotFoundException "Order not found")
  | some order =>
      if order.orderStatus ∉ [PENDING, EXPIRED] then
        throw (.UnprocessableEntityException s!"Order must be in PENDING or EXPIRED to be reassigned; current status: {order.orderStatus.text}")
      else do
        -- an order that waits is only dispatched again
        let updatedOrder ← if order.orderStatus = EXPIRED
          then transaction (.reassignOrder orderId order user)
          else pure order
        triggerDispatch orderId
        return toOrderResponse updatedOrder

end OrdersService

/-! ## `OutboxWorkerService` -/

namespace OutboxWorkerService

def BATCH_SIZE : ℕ := 10
def MAX_ATTEMPTS : ℕ := 5

/-- The row the `catch` of `handleRow` saves. -/
def failed (row : OutboxEvent) (err : Error) : OutboxEvent :=
  let row := { row with attempts := row.attempts + 1, lastError := some err.message }
  if row.attempts ≥ MAX_ATTEMPTS then { row with status := .FAILED } else row

/-- The `catch` of `handleRow`. -/
def recordFailure (row : OutboxEvent) (err : Error) : Prog Unit :=
  ask (.saveOutbox (failed row err))

/-- The part of the `try` of `handleRow` before it changes the row. -/
def triggerRow (row : OutboxEvent) : Prog Unit :=
  if row.eventType = "dispatch.trigger" then
    match row.payload with
    | none => throw (.UnprocessableEntityException "Invalid dispatch.trigger payload")
    | some orderId => triggerDispatch orderId
  else pure ()

/-- `handleRow`. The row is an object that the `try` changes before its own save, so
what the `catch` goes on with depends on which of the calls threw. -/
def handleRow (row : OutboxEvent) : Prog Unit := do
  let triggered ← try (do triggerRow row; pure (Except.ok ())) catch err => pure (Except.error err)
  match triggered with
  | .error err => recordFailure row err
  | .ok () => do
      let processedAt ← ask .now
      let row := { row with status := .PROCESSED, processedAt := some processedAt }
      try ask (.saveOutbox row) catch err => recordFailure row err

/-- `processOutbox`. -/
def processOutbox : Prog Unit := do
  let rows ← ask (.claimOutbox BATCH_SIZE)
  rows.forM fun row => try handleRow row catch _ => pure ()

end OutboxWorkerService

/-! ## `DriversService` -/

namespace DriversService

/-- `toggleAvailability`. -/
def toggleAvailability (user : JwtUser) : Prog Response := do
  match ← ask (.findDriverOfUser user.userId) with
  | none => throw (.NotFoundException "Driver profile not found")
  | some driver =>
      if driver.isSuspended && !driver.onlineStatus then
        throw (.ForbiddenException "Your account is suspended, you cannot go online")
      else do
        let updated ← ask (.saveDriver { driver with onlineStatus := !driver.onlineStatus })
        return .driver updated

/-- `updateLocation`. -/
def updateLocation (user : JwtUser) (latitude longitude : ℚ) : Prog Response := do
  match ← ask (.findDriverOfUser user.userId) with
  | none => throw (.NotFoundException "Driver profile not found")
  | some driver => do
      ask (.updateDriverLocation driver.id latitude longitude)
      return .message "Location updated successfully"

/-- `toggleSuspension`. -/
def toggleSuspension (driverId : DriverId) : Prog Response := do
  let updatedDriver ← transaction (.toggleSuspension driverId)
  return .driver updatedDriver

end DriversService

/-- `UsersService.promoteToDriver`, as far as the driver profile goes. -/
def UsersService.promoteToDriver (userId : UserId) (vehincleType : VehincleType) :
    Prog Response := do
  transaction (.promoteToDriver userId vehincleType)
  return .void

end LogisticsDispatch
