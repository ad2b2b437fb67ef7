/-
What the services ask of the outside, and what that does to it.

An `Effect` is one call of a repository, of `dataSource.transaction`, of Redis, of a
BullMQ queue or of the event publisher. `Shared` is what those calls read and write:
the database, the Redis keys, the two queues and the events that were emitted. The
function `perform` performs one effect, as one step; a call that throws for reasons
outside (a lost connection) is not here but an `interrupt` of the pool.

The queue is any type with the laws of `JobQueue`. A job is known by its id and
carries its payload. Redis expiry is a step of the environment (`System.lean`), so
the time to live is handed over and not looked at here.
-/
import Mathlib.Data.List.Sort
import LogisticsDispatch.Database
import LogisticsDispatch.Lib.JobQueue
import LogisticsDispatch.Lib.Pool

set_option autoImplicit false

namespace LogisticsDispatch

open OrderStatus

/-! ## Queues, keys and events -/

/-- The ids jobs are added under: `assign-driver:{orderId}`,
`dispatch-timeout:{orderId}:{driverId}` and `recalculate-eta:{orderId}`. -/
inductive JobId
  | assignDriver (orderId : OrderId)
  | dispatchTimeout (orderId : OrderId) (driverId : DriverId)
  | recalculateEta (orderId : OrderId)
deriving DecidableEq

/-- A job's name with its payload: `AssignDriverJobDto`, `DispatchTimeoutJobDto` and
`RecalculateEtaJobDto`. -/
inductive JobData
  | ASSIGN_DRIVER (orderId : OrderId)
  | DISPATCH_TIMEOUT (orderId : OrderId) (driverId : DriverId)
  | recalculate_eta (orderId : OrderId) (driverProfileId : DriverId)
deriving DecidableEq

/-- The two queues. -/
inductive QueueName
  | DISPATCH_QUEUE | TRACKING_QUEUE
deriving DecidableEq

/-- The Redis keys. -/
inductive RedisKey
  | DISPATCH_TIMEOUT_KEY (orderId : OrderId)
  | ETA_JOB_KEY (orderId : OrderId)
  | ACTIVE_ORDER_KEY (driverProfileId : DriverId)
  | IDEMPOTENCY_REDIS_PREFIX (key : String)
deriving DecidableEq

/-- What is stored under a key: a job id, an order id, or an order response. -/
@[reducible] def RedisKey.Val : RedisKey → Type
  | DISPATCH_TIMEOUT_KEY _ => JobId
  | ETA_JOB_KEY _ => JobId
  | ACTIVE_ORDER_KEY _ => OrderId
  | IDEMPOTENCY_REDIS_PREFIX _ => OrderResponse

/-- The events of `EventPublisherService`. -/
inductive Event
  | driverAssigned (orderId : OrderId) (driverId : DriverId)
  | customerStatusChanged (orderId : OrderId) (status : OrderStatus)
  | driverTimeout (orderId : OrderId) (driverId : DriverId)
  | locationBroadcast (orderId : OrderId) (lat lng : ℚ) (eta : Option ℤ)
deriving DecidableEq

/-! ## Effects -/

/-- The transactions. The optimistic two carry the copy of the order that was read
before the transaction. -/
inductive Transaction
  | createOrder (dto : CreateOrderDto) (customerId : UserId) (estimatedPrice : ℚ)
  | assignDriverWithLock (orderId : OrderId) (candidateDrivers : List Driver)
  | expireOrder (orderId : OrderId)
  | handleDispatchTimeout (orderId : OrderId) (driverId : DriverId)
  | acceptDispatch (orderId : OrderId) (driverId : DriverId)
  | rejectDispatch (orderId : OrderId) (driverId : DriverId)
  | updateStatus (orderId : OrderId) (order : Order) (newStatus : OrderStatus) (user : JwtUser)
  | reassignOrder (orderId : OrderId) (order : Order) (user : JwtUser)
  | toggleSuspension (driverId : DriverId)
  | promoteToDriver (userId : UserId) (vehincleType : VehincleType)

/-- What a transaction returns. -/
@[reducible] def Transaction.Result : Transaction → Type
  | createOrder .. => Order
  | assignDriverWithLock .. => Option DriverId
  | expireOrder .. => Unit
  | handleDispatchTimeout .. => DispatchService.TimeoutResult
  | acceptDispatch .. => DispatchService.AcceptResult
  | rejectDispatch .. => DispatchService.RejectResult
  | updateStatus .. => Order
  | reassignOrder .. => Order
  | toggleSuspension .. => Driver
  | promoteToDriver .. => Unit

/-- Run a transaction on the database. -/
def Transaction.run (cfg : DispatchConfig) (ch : Choice) :
    (t : Transaction) → Db → Except Error (t.Result × Db)
  | createOrder dto customerId estimatedPrice =>
      OrdersService.createOrderTx ch dto customerId estimatedPrice
  | assignDriverWithLock orderId candidateDrivers =>
      DispatchService.assignDriverWithLockTx ch orderId candidateDrivers
  | expireOrder orderId => DispatchService.expireOrderTx ch orderId
  | handleDispatchTimeout orderId driverId =>
      DispatchService.handleDispatchTimeoutTx cfg ch orderId driverId
  | acceptDispatch orderId driverId => DispatchService.acceptDispatchTx ch orderId driverId
  | rejectDispatch orderId driverId => DispatchService.rejectDispatchTx cfg ch orderId driverId
  | updateStatus orderId order newStatus user =>
      OrdersService.updateStatusTx ch orderId order newStatus user
  | reassignOrder orderId order user => OrdersService.reassignOrderTx ch orderId order user
  | toggleSuspension driverId => DriversService.toggleSuspensionTx driverId
  | promoteToDriver userId vehincleType => UsersService.promoteToDriverTx ch userId vehincleType

/-- One call of a service to the outside. -/
inductive Effect
  -- `orderRepo`
  | findOrder (orderId : OrderId)
  | findActiveOrder (driverProfileId : DriverId)
  | softDelete (orderId : OrderId)
  -- `driverRepo`
  | findDrivers (vehincleType : VehincleType) (attemptedDriverIds : List DriverId)
  | findDriver (driverId : DriverId)
  | findDriverOfUser (userId : UserId)
  | saveDriver (driver : Driver)
  | updateDriverLocation (driverId : DriverId) (lat lng : ℚ)
  -- `dataSource.transaction`
  | transaction (t : Transaction)
  -- `outboxRepo`
  | claimOutbox (batchSize : ℕ)
  | saveOutbox (row : OutboxEvent)
  -- `redisService`
  | redisGet (key : RedisKey)
  | redisSet (key : RedisKey) (val : key.Val) (ttlInSeconds : ℕ)
  | redisDel (key : RedisKey)
  -- the queues; `finishJob` is a worker's report to BullMQ on the job it holds
  | addJob (queue : QueueName) (jobId : JobId) (data : JobData) (delay : ℕ)
  | getJob (queue : QueueName) (jobId : JobId)
  | removeJob (queue : QueueName) (jobId : JobId)
  | finishJob (queue : QueueName) (jobId : JobId) (ok : Bool)
  -- `eventPublisher`, and the clock
  | emit (event : Event)
  | now

/-- What an effect answers with. -/
@[reducible] def Effect.Resp : Effect → Type
  | findOrder _ => Option Order
  | findActiveOrder _ => Option Order
  | softDelete _ => Unit
  | findDrivers .. => List Driver
  | findDriver _ => Option Driver
  | findDriverOfUser _ => Option Driver
  | saveDriver _ => Driver
  | updateDriverLocation .. => Unit
  | transaction t => t.Result
  | claimOutbox _ => List OutboxEvent
  | saveOutbox _ => Unit
  | redisGet key => Option key.Val
  | redisSet .. => Unit
  | redisDel _ => Unit
  | addJob .. => JobId
  | getJob .. => Option JobData
  | removeJob .. => Unit
  | finishJob .. => Unit
  | emit _ => Unit
  | now => ℕ

/-- A program of this repository. -/
abbrev Prog (α : Type) := Resumable.Program Effect Effect.Resp Error α

/-! ## The shared state -/

/-- What all calls share: the database, Redis, the two queues, and the events
emitted so far. -/
structure Shared (Q : Type) where
  db : Db
  redis : AList RedisKey.Val
  dispatchQueue : Q
  trackingQueue : Q
  events : List Event

namespace Shared

variable {Q : Type}

/-- The queue of a name. -/
def queue (s : Shared Q) : QueueName → Q
  | .DISPATCH_QUEUE => s.dispatchQueue
  | .TRACKING_QUEUE => s.trackingQueue

/-- Put another queue in the place of the one of a name. -/
def setQueue (s : Shared Q) (q : Q) : QueueName → Shared Q
  | .DISPATCH_QUEUE => { s with dispatchQueue := q }
  | .TRACKING_QUEUE => { s with trackingQueue := q }

@[simp] theorem setQueue_db (s : Shared Q) (q : Q) (n : QueueName) :
    (s.setQueue q n).db = s.db := by
  cases n <;> rfl

@[simp] theorem setQueue_redis (s : Shared Q) (q : Q) (n : QueueName) :
    (s.setQueue q n).redis = s.redis := by
  cases n <;> rfl

end Shared

/-- The statuses `handleLocationUpdate` looks for. -/
def activeTrackingStatuses : List OrderStatus := [DRIVER_ARRIVING, PICKED_UP, IN_TRANSIT]

/-- Perform one effect: the answer, and what it leaves of the shared state. -/
def perform {Q : Type} [JobQueue Q JobId JobData] (cfg : DispatchConfig) (ch : Choice) :
    (e : Effect) → Shared Q → Except Error e.Resp × Shared Q
  | .findOrder orderId, s => (.ok (s.db.findOrder orderId), s)
  | .findActiveOrder driverProfileId, s =>
      let active := s.db.orders.toList.filter fun order =>
        order.deletedAt.isNone && decide (order.assignedDriverId = some driverProfileId) &&
          decide (order.orderStatus ∈ activeTrackingStatuses)
      (.ok (active.rotate ch.pick).head?, s)
  | .softDelete orderId, s => (.ok (), { s with db := OrdersService.softDeleteRow ch orderId s.db })
  | .findDrivers vehincleType attemptedDriverIds, s =>
      (.ok (s.db.drivers.toList.filter fun driver =>
        driver.onlineStatus && !driver.isSuspended &&
          decide (driver.vehincleType = vehincleType) && driver.currentLatitude.isSome &&
          driver.currentLongitude.isSome && decide (driver.id ∉ attemptedDriverIds)), s)
  | .findDriver driverId, s => (.ok (s.db.drivers.find driverId), s)
  | .findDriverOfUser userId, s =>
      (.ok (s.db.drivers.toList.find? fun driver => decide (driver.userId = userId)), s)
  | .saveDriver driver, s => (.ok driver, { s with db := s.db.saveDriver driver })
  | .updateDriverLocation driverId lat lng, s =>
      match s.db.drivers.find driverId with
      | none => (.ok (), s)
      | some driver =>
          let moved := { driver with currentLatitude := some lat, currentLongitude := some lng }
          (.ok (), { s with db := s.db.saveDriver moved })
  | .transaction t, s =>
      match t.run cfg ch s.db with
      | .error err => (.error err, s)
      | .ok (result, db) => (.ok result, { s with db := db })
  | .claimOutbox batchSize, s =>
      let pending := s.db.outbox.toList.filter fun row =>
        decide (row.status = .PENDING) && decide (row.id ∉ ch.skipLocked)
      (.ok ((pending.insertionSort fun a b => a.createdAt ≤ b.createdAt).take batchSize), s)
  | .saveOutbox row, s => (.ok (), { s with db := s.db.saveOutbox row })
  | .redisGet key, s => (.ok (s.redis.lookup key), s)
  | .redisSet key val _, s => (.ok (), { s with redis := s.redis.insert key val })
  | .redisDel key, s => (.ok (), { s with redis := s.redis.erase key })
  | .addJob queue jobId data delay, s =>
      (.ok jobId, s.setQueue (JobQueue.add (s.queue queue) jobId data delay) queue)
  | .getJob queue jobId, s => (.ok ((JobQueue.find (s.queue queue) jobId).map Prod.snd), s)
  | .removeJob queue jobId, s =>
      -- `job.remove()` throws when a worker holds the job
      if (JobQueue.find (s.queue queue) jobId).map Prod.fst = some .active then
        (.error .JobLocked, s)
      else (.ok (), s.setQueue (JobQueue.remove (s.queue queue) jobId) queue)
  | .finishJob queue jobId ok, s =>
      (.ok (), s.setQueue (JobQueue.finish (s.queue queue) jobId ok) queue)
  | .emit event, s => (.ok (), { s with events := s.events ++ [event] })
  | .now, s => (.ok ch.now, s)

/-- The machine the calls run on. -/
def machine {Q : Type} [JobQueue Q JobId JobData] (cfg : DispatchConfig) :
    Resumable.Machine Effect Effect.Resp Error (Shared Q) Choice where
  exec := perform cfg

/-- The transaction behind an answer. -/
theorem run_of_answer {Q : Type} [JobQueue Q JobId JobData] {cfg : DispatchConfig} {ch : Choice}
    {t : Transaction} {res : t.Result} {sh : Shared Q}
    (h : (perform cfg ch (.transaction t) sh).1 = .ok res) :
    ∃ db', t.run cfg ch sh.db = .ok (res, db') ∧
      (perform cfg ch (.transaction t) sh).2.db = db' := by
  simp only [perform] at h ⊢
  split at h
  · cases h
  · next res' db' hrun =>
      obtain rfl := Except.ok.inj h
      exact ⟨db', hrun, rfl⟩

/-- A transaction that throws is rolled back. -/
theorem rolled_back {Q : Type} [JobQueue Q JobId JobData] {cfg : DispatchConfig} {ch : Choice}
    {t : Transaction} {err : Error} {sh : Shared Q}
    (h : (perform cfg ch (.transaction t) sh).1 = .error err) :
    (perform cfg ch (.transaction t) sh).2 = sh := by
  simp only [perform] at h ⊢
  split at h
  · rfl
  · cases h

end LogisticsDispatch
