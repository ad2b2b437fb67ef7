/-
The whole system: calls that are made at any time and go on one effect at a time,
workers that take jobs, and what BullMQ, Redis and failing connections do on their
own.

Nothing is assumed of when calls are made. A handler is called for a job a worker has
taken (`deliver`), and may be called again for the same data at any time
(`Request.process`), since BullMQ delivers a job at least once. What a step leaves
open (the clock, drawn uuids, row locks held elsewhere) is in the action, so `step` is
a function and a run can be computed.
-/
import LogisticsDispatch.Lib.Transition
import LogisticsDispatch.Services

set_option autoImplicit false

namespace LogisticsDispatch

open OrderStatus Resumable

/-! ## Calls -/

/-- A call from outside: a request to one of the controllers, a run of the outbox
timer, or a delivery of a job. -/
inductive Request
  | createOrder (dto : CreateOrderDto) (customerId : UserId) (idempotencyKey : Option String)
  | updateStatus (orderId : OrderId) (newStatus : OrderStatus) (user : JwtUser)
  | cancelOrder (orderId : OrderId) (user : JwtUser)
  | softDelete (orderId : OrderId)
  | reassignOrder (orderId : OrderId) (user : JwtUser)
  | acceptDispatch (orderId : OrderId) (driverId : DriverId)
  | rejectDispatch (orderId : OrderId) (driverId : DriverId)
  | process (data : JobData)
  | processOutbox
  | handleLocationUpdate (driverProfileId : DriverId) (lat lng : ℚ)
  | toggleAvailability (user : JwtUser)
  | updateLocation (user : JwtUser) (latitude longitude : ℚ)
  | toggleSuspension (driverId : DriverId)
  | promoteToDriver (userId : UserId) (vehincleType : VehincleType)
deriving DecidableEq

/-- A call that was made: a request, or a worker's turn on the job it has taken. -/
inductive Call
  | request (req : Request)
  | worker (queue : QueueName) (jobId : JobId) (data : JobData)
deriving DecidableEq

/-- The program of a request. -/
def Request.program (cfg : DispatchConfig) : Request → Prog Response
  | createOrder dto customerId idempotencyKey => do
      return .order (← OrdersService.createOrder cfg dto customerId idempotencyKey)
  | updateStatus orderId newStatus user => do
      return .order (← OrdersService.updateStatus orderId newStatus user)
  | cancelOrder orderId user => do return .order (← OrdersService.cancelOrder orderId user)
  | softDelete orderId => OrdersService.softDelete orderId
  | reassignOrder orderId user => do return .order (← OrdersService.reassignOrder orderId user)
  | acceptDispatch orderId driverId => DispatchService.acceptDispatch orderId driverId
  | rejectDispatch orderId driverId => DispatchService.rejectDispatch orderId driverId
  -- a job that is delivered again, outside of any worker's turn
  | process data => do
      LogisticsDispatch.process cfg data
      return .void
  | processOutbox => do
      OutboxWorkerService.processOutbox
      return .void
  | handleLocationUpdate driverProfileId lat lng => do
      return .activeOrder (← TrackingService.handleLocationUpdate driverProfileId lat lng)
  | toggleAvailability user => DriversService.toggleAvailability user
  | updateLocation user latitude longitude =>
      DriversService.updateLocation user latitude longitude
  | toggleSuspension driverId => DriversService.toggleSuspension driverId
  | promoteToDriver userId vehincleType => UsersService.promoteToDriver userId vehincleType

/-- The program of a call. -/
def Call.program (cfg : DispatchConfig) : Call → Prog Response
  | request req => req.program cfg
  | worker queue jobId data => do
      LogisticsDispatch.worker cfg queue jobId data
      return .void

/-! ## Steps -/

/-- The state of the system: what the calls share, and the calls. -/
abbrev Sys (Q : Type) := Pool (Shared Q) Call Effect Effect.Resp Error Response

/-- One step of the system. -/
inductive Action
  /-- Call `i` is made. -/
  | invoke (i : ℕ) (req : Request)
  /-- Call `i` performs its next effect. -/
  | exec (i : ℕ) (ch : Choice)
  /-- The next effect of call `i`, a call of the database, of Redis or of a queue,
  fails. -/
  | fail (i : ℕ)
  /-- A worker takes a waiting job; its turn on it is call `i`. -/
  | deliver (i : ℕ) (queue : QueueName) (jobId : JobId)
  /-- The delay of a job is over. -/
  | promote (queue : QueueName) (jobId : JobId)
  /-- Retention drops a finished job. -/
  | evict (queue : QueueName) (jobId : JobId)
  /-- A Redis key expires. -/
  | expire (key : RedisKey)
deriving DecidableEq

/-- Nothing fails in the step: no call of the database, of Redis or of a queue. -/
def Action.succeeds : Action → Bool
  | .fail _ => false
  | _ => true

/-- Every effect but reading the clock is a call to the outside, which can fail. -/
def Effect.mayFail : Effect → Bool
  | .now => false
  | _ => true

namespace Sys

variable {Q : Type}

/-- The effect call `i` performs next. -/
def next (s : Sys Q) (i : ℕ) : Option Effect :=
  match s.threads.lookup i with
  | some ⟨_, .op e _⟩ => some e
  | _ => none

/-- The call number `i`. -/
def call (s : Sys Q) (i : ℕ) : Option Call := (s.threads.lookup i).map Thread.call

theorem call_of_lookup {s : Sys Q} {i : ℕ} {call : Call} {p : Prog Response}
    (hi : s.threads.lookup i = some ⟨call, p⟩) : s.call i = some call := by
  rw [Sys.call, hi]
  rfl

theorem next_of_lookup {s : Sys Q} {i : ℕ} {call : Call} {e : Effect}
    {k : Except Error e.Resp → Prog Response} (hi : s.threads.lookup i = some ⟨call, .op e k⟩) :
    s.next i = some e := by
  rw [Sys.next, hi]

theorem lookup_of_next {s : Sys Q} {i : ℕ} {e : Effect} (h : s.next i = some e) :
    ∃ call k, s.threads.lookup i = some ⟨call, .op e k⟩ := by
  unfold Sys.next at h
  split at h
  · next call e' k hi =>
      obtain rfl := Option.some.inj h
      exact ⟨call, k, hi⟩
  · cases h

/-- The row of an order, soft-deleted or not. -/
def order (s : Sys Q) (orderId : OrderId) : Option Order := s.shared.db.orders.find orderId

/-- The history rows of an order, in commit order. -/
def history (s : Sys Q) (orderId : OrderId) : List OrderStatusHistory :=
  s.shared.db.historyOf orderId

end Sys

section Step

variable {Q : Type} [JobQueue Q JobId JobData]

/-- The successor of a state under an action, if the action can be taken there. -/
def step (cfg : DispatchConfig) (s : Sys Q) : Action → Option (Sys Q)
  | .invoke i req => s.spawn i (.request req) (req.program cfg)
  | .exec i ch => s.advance (machine cfg) i ch
  | .fail i =>
      if (s.next i).any Effect.mayFail then s.interrupt .Unavailable i else none
  | .deliver i queue jobId =>
      match JobQueue.find (s.shared.queue queue) jobId with
      -- the worker takes the job off those that wait, and begins
      | some (.waiting, data) =>
          let call := Call.worker queue jobId data
          Pool.spawn i call (call.program cfg)
            { s with
              shared := s.shared.setQueue (JobQueue.take (s.shared.queue queue) jobId) queue }
      | _ => none
  | .promote queue jobId =>
      some { s with
        shared := s.shared.setQueue (JobQueue.promote (s.shared.queue queue) jobId) queue }
  | .evict queue jobId =>
      some { s with
        shared := s.shared.setQueue (JobQueue.evict (s.shared.queue queue) jobId) queue }
  | .expire key => some { s with shared := { s.shared with redis := s.shared.redis.erase key } }

/-- What a call does that goes on. -/
theorem exec_eq_some {cfg : DispatchConfig} {s s' : Sys Q} {i : ℕ} {ch : Choice} {call : Call}
    {e : Effect} {k : Except Error e.Resp → Prog Response}
    (hi : s.threads.lookup i = some ⟨call, .op e k⟩) (h : step cfg s (.exec i ch) = some s') :
    s'.shared = (perform cfg ch e s.shared).2 ∧
      s'.threads = s.threads.insert i ⟨call, k (perform cfg ch e s.shared).1⟩ := by
  obtain ⟨call', e', k', hi', hsh, hth⟩ := Pool.advance_eq_some h
  rw [hi] at hi'
  cases hi'
  exact ⟨hsh, hth⟩

/-- All that a step can do to the calls: it leaves them alone, one more is made, one goes
on, or what one is about to perform fails. -/
inductive CallStep (cfg : DispatchConfig) (s : Sys Q) (a : Action) (s' : Sys Q) : Prop
  | same (hth : s'.threads = s.threads)
  | made {i : ℕ} {call : Call} (hfree : s.threads.lookup i = none)
      (hth : s'.threads = s.threads.insert i ⟨call, call.program cfg⟩)
  | went {i : ℕ} {ch : Choice} {call : Call} {e : Effect}
      {k : Except Error e.Resp → Prog Response} (ha : a = .exec i ch)
      (hi : s.threads.lookup i = some ⟨call, .op e k⟩)
      (hsh : s'.shared = (perform cfg ch e s.shared).2)
      (hth : s'.threads = s.threads.insert i ⟨call, k (perform cfg ch e s.shared).1⟩)
  | failed {i : ℕ} {call : Call} {e : Effect} {k : Except Error e.Resp → Prog Response}
      (ha : a = .fail i) (hi : s.threads.lookup i = some ⟨call, .op e k⟩)
      (hsh : s'.shared = s.shared)
      (hth : s'.threads = s.threads.insert i ⟨call, k (.error .Unavailable)⟩)

/-- **All that a step does to the calls.** -/
theorem call_step {cfg : DispatchConfig} {s s' : Sys Q} {a : Action} (h : step cfg s a = some s') :
    CallStep cfg s a s' := by
  cases a with
  | invoke i req =>
      obtain ⟨hfree, -, hth⟩ := Pool.spawn_eq_some h
      have hth : s'.threads = s.threads.insert i
          ⟨.request req, (Call.request req).program cfg⟩ := hth
      exact .made hfree hth
  | exec i ch =>
      obtain ⟨call, e, k, hi, hsh, hth⟩ := Pool.advance_eq_some h
      exact .went rfl hi hsh hth
  | fail i =>
      -- the call goes on with the error
      simp only [step, Option.ite_none_right_eq_some] at h
      obtain ⟨call, e, k, hi, hsh, hth⟩ := Pool.interrupt_eq_some h.2
      exact .failed rfl hi hsh hth
  | deliver i queue jobId =>
      simp only [step] at h
      split at h
      · obtain ⟨hfree, -, hth⟩ := Pool.spawn_eq_some h
        exact .made hfree hth
      · cases h
  | promote queue jobId =>
      obtain rfl := Option.some.inj h
      exact .same rfl
  | evict queue jobId =>
      obtain rfl := Option.some.inj h
      exact .same rfl
  | expire key =>
      obtain rfl := Option.some.inj h
      exact .same rfl

/-- Nothing has happened yet: no orders, no outbox events, nothing in Redis and in the
queues, no calls. There may be drivers. -/
structure Initial (s : Sys Q) : Prop where
  orders : s.shared.db.orders = Table.empty
  history : s.shared.db.history = []
  outbox : s.shared.db.outbox = Table.empty
  redis : s.shared.redis = ∅
  queue : ∀ n jobId, JobQueue.find (s.shared.queue n) jobId = none
  threads : s.threads = ∅

variable (Q) in
/-- **The system.** -/
def logistics (cfg : DispatchConfig) : Transition.System (Sys Q) Action where
  Init := Initial
  step := step cfg

end Step

/-! ## Running it

The queue of the application keeps the last 100 completed and the last 1000 failed jobs.
A list of actions is run from a system in which nothing but some drivers is there. -/

/-- The queues as `dispatch.module.ts` and `tracking.module.ts` configure them. -/
abbrev BullQueue : Type := BoundedQueue JobId JobData 100 1000

/-- A system with these drivers in which no call was made. -/
def start (drivers : List Driver) : Sys BullQueue where
  shared := {
    db := {
      orders := Table.empty
      history := []
      drivers := drivers.foldl Table.put Table.empty
      outbox := Table.empty }
    redis := ∅
    -- both queues keep their finished jobs alike
    dispatchQueue := JobQueue.empty
    trackingQueue := JobQueue.empty
    events := [] }
  threads := ∅

theorem start_initial (drivers : List Driver) : Initial (start drivers) where
  orders := rfl
  history := rfl
  outbox := rfl
  redis := rfl
  queue n jobId := by
    cases n with
    | DISPATCH_QUEUE => exact JobQueue.find_empty jobId
    | TRACKING_QUEUE => exact JobQueue.find_empty jobId
  threads := rfl

/-- The state a list of actions leads to, which must all be possible. -/
def after (cfg : DispatchConfig) (drivers : List Driver) (actions : List Action)
    (h : ((logistics BullQueue cfg).exec (start drivers) actions).isSome) : Sys BullQueue :=
  ((logistics BullQueue cfg).exec (start drivers) actions).get h

theorem after_reachable {cfg : DispatchConfig} {drivers : List Driver} {actions : List Action}
    (h : ((logistics BullQueue cfg).exec (start drivers) actions).isSome) :
    Transition.Reachable (logistics BullQueue cfg) (after cfg drivers actions h) :=
  (Transition.Reachable.init (start_initial drivers)).exec (Option.some_get h).symm

/-- The moves those actions make. -/
theorem after_run {cfg : DispatchConfig} {drivers : List Driver} {actions : List Action}
    (h : ((logistics BullQueue cfg).exec (start drivers) actions).isSome) :
    Transition.Run (logistics BullQueue cfg)
      ((logistics BullQueue cfg).moves [] (start drivers) actions) (after cfg drivers actions h) :=
  (Transition.Run.init (start_initial drivers)).exec (Option.some_get h).symm

/-- Call `i` goes on for `n` effects. -/
def proceed (i n : ℕ) (ch : Choice) : List Action := List.replicate n (.exec i ch)

/-! ### A small system -/

/-- A configuration in which all places are equally far apart. -/
def sampleConfig (maxDispatchAttempts : ℕ) : DispatchConfig where
  maxDispatchAttempts := maxDispatchAttempts
  dispatchTimeoutSeconds := 30
  calculateDistance _ _ _ _ := 0

def sampleCustomer : UserId := ⟨"customer", by decide⟩
def sampleOrder : OrderId := ⟨"order", by decide⟩
def sampleDriver : DriverId := ⟨"driver", by decide⟩

/-- No row is locked elsewhere, and the uuids of the sample are drawn. -/
def sampleChoice : Choice where
  now := 0
  orderId := sampleOrder
  outboxId := ⟨"outbox", by decide⟩
  driverId := sampleDriver
  skipLocked := []
  pick := 0

/-- A driver with a car who is online. -/
def carDriver : Driver where
  id := sampleDriver
  userId := ⟨"driver-user", by decide⟩
  vehincleType := .CAR
  onlineStatus := true
  currentLatitude := some 0
  currentLongitude := some 0
  isSuspended := false

/-- The driver as a user. -/
def carDriverUser : JwtUser := ⟨carDriver.userId, .DRIVER, some sampleDriver⟩

/-- An admin. -/
def sampleAdmin : JwtUser := ⟨⟨"admin", by decide⟩, .ADMIN, none⟩

/-- A trip by car. -/
def carTrip : CreateOrderDto where
  pickupAddress := "here"
  pickupLatitude := 0
  pickupLongitude := 0
  deliveryAddress := "there"
  deliveryLatitude := 0
  deliveryLongitude := 0
  orderType := .PERSON
  vehincleType := .CAR
  notes := none

/-- The trip is ordered, and the outbox timer has dispatch triggered for it: calls `0`
and `1`. -/
def orderTrip : List Action :=
  .invoke 0 (.createOrder carTrip sampleCustomer none) :: proceed 0 1 sampleChoice ++
    .invoke 1 .processOutbox :: proceed 1 4 sampleChoice

/-- A worker takes the job that was added, and offers the trip to the driver: call
`2`. -/
def offerTrip : List Action :=
  .deliver 2 .DISPATCH_QUEUE (.assignDriver sampleOrder) :: proceed 2 7 sampleChoice

/-- The trip of the small system once it was offered. -/
theorem trip_offered : ((logistics BullQueue (sampleConfig 3)).exec (start [carDriver])
    (orderTrip ++ offerTrip)).isSome := by
  decide +kernel

end LogisticsDispatch
