/-
Two ways to accept an offer: `acceptDispatch` of the driver's route, and `updateStatus` of the
orders' to `DRIVER_ARRIVING`.

Both write the same row of the order (`accepted_rows`). But only the first one cancels the
timeout of the offer, publishes the status and schedules the ETA job, and the actor it writes to
the history is the driver profile, where the second writes the user. So they never have the same
effect, whatever the rest of the system looks like (`same_effect_iff`).
-/
import LogisticsDispatch.Duties
import LogisticsDispatch.Lib.Alone
import LogisticsDispatch.OrderRules

set_option autoImplicit false

namespace LogisticsDispatch

open OrderStatus Resumable

variable {Q : Type} [JobQueue Q JobId JobData] {cfg : DispatchConfig}

/-- Perform effects of a call that runs alone, each with choices of its own. -/
def performAlone (cfg : DispatchConfig) :
    (e : Effect) → Shared Q × (ℕ → Choice) → Except Error e.Resp × (Shared Q × (ℕ → Choice)) :=
  withChoices (perform cfg)

/-- What a call that runs alone leaves. -/
def leaves {α : Type} (cfg : DispatchConfig) (p : Prog α) (sh : Shared Q)
    (choices : ℕ → Choice) : Shared Q :=
  (p.run (performAlone cfg) (sh, choices)).2.1

/-! ## One effect of a call -/

/-- An effect is performed with the next choice. -/
theorem run_ask (cfg : DispatchConfig) (e : Effect) (sh : Shared Q) (choices : ℕ → Choice) :
    (ask e).run (performAlone cfg) (sh, choices)
      = ((perform cfg (choices 0) e sh).1,
        ((perform cfg (choices 0) e sh).2, fun n => choices (n + 1))) := by
  rw [ask, Program.run_perform, performAlone, withChoices]

/-- A transaction that commits. -/
theorem run_transaction_ok {t : Transaction} {a : t.Result} {db : Db} {sh : Shared Q}
    {choices : ℕ → Choice} (h : t.run cfg (choices 0) sh.db = .ok (a, db)) :
    (transaction t).run (performAlone cfg) (sh, choices)
      = (.ok a, ({ sh with db }, fun n => choices (n + 1))) := by
  rw [transaction, run_ask, perform, h]

/-- A transaction that is rolled back. -/
theorem run_transaction_error {t : Transaction} {err : Error} {sh : Shared Q}
    {choices : ℕ → Choice} (h : t.run cfg (choices 0) sh.db = .error err) :
    (transaction t).run (performAlone cfg) (sh, choices)
      = (.error err, (sh, fun n => choices (n + 1))) := by
  rw [transaction, run_ask, perform, h]

/-! ## Effects that publish nothing -/

/-- The effect publishes nothing. -/
def Quiet (e : Effect) : Prop := ∀ event, e ≠ .emit event

theorem perform_events {ch : Choice} {e : Effect} {sh : Shared Q} (h : Quiet e) :
    (perform cfg ch e sh).2.events = sh.events := by
  cases e with
  | emit event => exact absurd rfl (h event)
  | updateDriverLocation driverId lat lng =>
      simp only [perform]
      split
      · rfl
      · rfl
  | transaction t =>
      simp only [perform]
      split
      · rfl
      · rfl
  | removeJob queue jobId =>
      simp only [perform]
      split
      · rfl
      · cases queue <;> rfl
  | addJob queue jobId data delay => cases queue <;> rfl
  | finishJob queue jobId ok => cases queue <;> rfl
  | findOrder _ | findActiveOrder _ | softDelete _ | findDrivers _ _ | findDriver _
  | findDriverOfUser _ | saveDriver _ | claimOutbox _ | saveOutbox _ | redisGet _
  | redisSet _ _ _ | redisDel _ | getJob _ _ | now => rfl

/-- A program of quiet effects publishes nothing. -/
theorem events_of_quiet (cfg : DispatchConfig) {α : Type} {p : Prog α} (hp : p.All Quiet)
    (s : Shared Q × (ℕ → Choice)) :
    (p.run (performAlone cfg) s).2.1.events = s.1.events :=
  Program.run_keeps (performAlone cfg) (I := fun s' => s'.1.events = s.1.events)
    (fun _ _ hquiet hs => (perform_events hquiet).trans hs) hp rfl

theorem cancelDispatchTimeout_quiet (o : OrderId) :
    (DispatchService.cancelDispatchTimeout o).All Quiet :=
  cancelDispatchTimeout_all (by intro; simp) (by intro _ _; simp) (by intro _ _; simp)
    (by intro; simp)

theorem ensureEtaJobScheduled_quiet (o : OrderId) (d : DriverId) :
    (TrackingService.ensureEtaJobScheduled o d).All Quiet :=
  ensureEtaJobScheduled_all (by intro; simp) (by intro _ _ _ _; simp) (by intro _ _ _; simp)

theorem updateStatus_quiet (o : OrderId) (newStatus : OrderStatus) (user : JwtUser) :
    (OrdersService.updateStatus o newStatus user).All Quiet := by
  refine updateStatus_all (by intro; simp) (by intro _ _; simp) ?_
  exact cancelEtaJob_all (by intro; simp) (by intro _ _; simp) (by intro _ _; simp)
    (by intro; simp)

/-! ## The two calls -/

/-- The row of an order that is accepted. -/
def Order.underWay (order : Order) : Order :=
  { order with orderStatus := DRIVER_ARRIVING, version := order.version + 1 }

/-- What the transaction of either call leaves, with the actor it writes. -/
def Shared.accepted (sh : Shared Q) (order : Order) (actorId : String) (now : ℕ) : Shared Q :=
  { sh with db := sh.db.saveWithHistory order.underWay (some DRIVER_ASSIGNED) actorId now }

section Calls

variable {o : OrderId} {d : DriverId} {user : JwtUser} {order : Order} {sh : Shared Q}
  {choices : ℕ → Choice}

/-- Cancelling the timeout fails for no reason of its own. -/
theorem cancelDispatchTimeout_succeeds (cfg : DispatchConfig) (o : OrderId) :
    (DispatchService.cancelDispatchTimeout o).Succeeds (performAlone (Q := Q) cfg) := by
  refine .bind (Program.succeeds_perform fun s => ⟨_, _, rfl⟩) fun found => ?_
  cases found with
  | none => exact Program.succeeds_ret ()
  | some timeoutJobId =>
      refine .bind (Program.succeeds_perform fun s => ⟨_, _, rfl⟩) fun job => ?_
      have hdel : (ask (.redisDel (.DISPATCH_TIMEOUT_KEY o))).Succeeds
          (performAlone (Q := Q) cfg) := Program.succeeds_perform fun s => ⟨_, _, rfl⟩
      split
      · exact .bind (Program.succeeds_tryCatch fun _ => Program.succeeds_ret ()) fun _ => hdel
      · exact hdel

variable (hrow : sh.db.orders.find o = some order)
  (hassigned : order.orderStatus = DRIVER_ASSIGNED) (hdriver : order.assignedDriverId = some d)
include hrow hassigned hdriver

omit [JobQueue Q JobId JobData] in
/-- The transaction of `acceptDispatch`, on an order that is offered to the driver. -/
theorem acceptDispatchTx_eq (ch : Choice) (hlive : order.deletedAt = none) :
    DispatchService.acceptDispatchTx ch o d sh.db = .ok (.accepted o,
      sh.db.saveWithHistory order.underWay (some DRIVER_ASSIGNED) d.text ch.now) := by
  have hfound : sh.db.findOrder o = some order := Db.findOrder_eq_some.mpr ⟨hrow, hlive⟩
  have hid : order.id = o := Table.key_of_find hrow
  rw [DispatchService.acceptDispatchTx, hfound]
  simp [hassigned, hdriver, hid, Order.underWay]

theorem run_acceptDispatchTx (choices : ℕ → Choice) (hlive : order.deletedAt = none) :
    (transaction (.acceptDispatch o d)).run (performAlone cfg) (sh, choices)
      = (.ok (.accepted o), (sh.accepted order d.text (choices 0).now,
          fun n => choices (n + 1))) :=
  run_transaction_ok (acceptDispatchTx_eq hrow hassigned hdriver _ hlive)

/-- `acceptDispatch` publishes the status. -/
theorem acceptDispatch_events (choices : ℕ → Choice) (hlive : order.deletedAt = none) :
    (leaves cfg (DispatchService.acceptDispatch o d) sh choices).events
      = sh.events ++ [.customerStatusChanged o DRIVER_ARRIVING] := by
  rw [leaves, DispatchService.acceptDispatch,
    Program.run_bind_ok _ _ (run_acceptDispatchTx hrow hassigned hdriver choices hlive)]
  generalize hs : ((sh.accepted order d.text (choices 0).now, fun n => choices (n + 1)) :
    Shared Q × (ℕ → Choice)) = s
  have hevents : s.1.events = sh.events := by
    rw [← hs]
    rfl
  obtain ⟨_, s₁, hcancel⟩ := cancelDispatchTimeout_succeeds cfg o s
  have hquiet := events_of_quiet cfg (cancelDispatchTimeout_quiet o) s
  rw [hcancel] at hquiet
  dsimp only
  rw [Program.run_bind_ok _ _ hcancel]
  have hnotify : (EventPublisherService.notifyCustomerStatusChanged o DRIVER_ARRIVING).run
      (performAlone cfg) s₁ = (.ok (), ({ s₁.1 with
        events := s₁.1.events ++ [.customerStatusChanged o DRIVER_ARRIVING] },
        fun n => s₁.2 (n + 1))) := rfl
  rw [Program.run_bind_ok _ _ hnotify]
  -- what is left is to schedule the ETA job
  refine (events_of_quiet cfg ?_ _).trans ?_
  · exact .bind (ensureEtaJobScheduled_quiet o d) fun _ => trivial
  · have hbefore : s₁.1.events = sh.events := hquiet.trans hevents
    simp only [hbefore]

end Calls

/-- A soft-deleted order is not found by either call. -/
theorem leaves_of_deleted (cfg : DispatchConfig) {o : OrderId} (d : DriverId) {order : Order}
    {sh : Shared Q} (hrow : sh.db.orders.find o = some order) (choices : ℕ → Choice)
    (user : JwtUser) (hdeleted : order.deletedAt.isSome) :
    leaves cfg (DispatchService.acceptDispatch o d) sh choices = sh ∧
      leaves cfg (OrdersService.updateStatus o DRIVER_ARRIVING user) sh choices = sh := by
  have hnone : sh.db.findOrder o = none := by
    rw [Db.findOrder, hrow, Option.filter_some, if_neg]
    rw [Option.isNone_iff_eq_none]
    intro hnone
    rw [hnone] at hdeleted
    cases hdeleted
  have htx : (transaction (.acceptDispatch o d)).run (performAlone cfg) (sh, choices)
      = (.error (.NotFoundException "Order not found"), (sh, fun n => choices (n + 1))) := by
    refine run_transaction_error ?_
    rw [Transaction.run, DispatchService.acceptDispatchTx, hnone]
  have hfind : (ask (.findOrder o)).run (performAlone cfg) (sh, choices)
      = (.ok none, (sh, fun n => choices (n + 1))) := by
    rw [run_ask, perform, hnone]
  constructor
  · rw [leaves, DispatchService.acceptDispatch, Program.run_bind_error _ _ htx]
  · rw [leaves, OrdersService.updateStatus, Program.run_bind_ok _ _ hfind]
    rfl

/-! ## What the two have in common -/

/-- The effect leaves the database alone. -/
def Aside : Effect → Prop
  | .redisGet _ | .redisSet _ _ _ | .redisDel _ | .addJob _ _ _ _ | .getJob _ _ | .removeJob _ _
  | .emit _ => True
  | _ => False

theorem perform_db {ch : Choice} {e : Effect} {sh : Shared Q} (h : Aside e) :
    (perform cfg ch e sh).2.db = sh.db := by
  cases e with
  | redisGet _ | redisSet _ _ _ | redisDel _ | getJob _ _ | emit _ => rfl
  | addJob queue jobId data delay => cases queue <;> rfl
  | removeJob queue jobId =>
      simp only [perform]
      split
      · rfl
      · cases queue <;> rfl
  | _ => exact h.elim

section Rows

variable {o : OrderId} {d : DriverId} {user : JwtUser} {order : Order} {sh : Shared Q}
  (hrow : sh.db.orders.find o = some order) (hassigned : order.orderStatus = DRIVER_ASSIGNED)
  (hdriver : order.assignedDriverId = some d) (hlive : order.deletedAt = none)
include hrow hassigned hdriver hlive

/-- What `acceptDispatch` leaves of the database is what its transaction wrote. -/
theorem acceptDispatch_db (choices : ℕ → Choice) :
    (leaves cfg (DispatchService.acceptDispatch o d) sh choices).db
      = (sh.accepted order d.text (choices 0).now).db := by
  rw [leaves, DispatchService.acceptDispatch,
    Program.run_bind_ok _ _ (run_acceptDispatchTx hrow hassigned hdriver choices hlive)]
  refine Program.run_keeps (performAlone cfg) (P := Aside)
    (I := fun s => s.1.db = (sh.accepted order d.text (choices 0).now).db)
    (fun _ _ haside hs => (perform_db haside).trans hs) ?_ rfl
  refine .bind (cancelDispatchTimeout_all trivial (fun _ => trivial) (fun _ => trivial) trivial)
    fun _ => .bind (notify_all trivial) fun _ => ?_
  exact .bind (ensureEtaJobScheduled_all trivial (fun _ _ _ => trivial) fun _ _ => trivial)
    fun _ => trivial

omit hrow hassigned hdriver hlive in
/-- A row that is found is read back. -/
theorem readBack_eq {db : Db} (h : db.findOrder o = some order) :
    OrdersService.readBack db o = .ok (order, db) := by
  rw [OrdersService.readBack, h]

/-- `updateStatus` by the driver leaves what its transaction wrote, and nothing else. -/
theorem updateStatus_leaves (choices : ℕ → Choice) (hrole : user.role = .DRIVER)
    (huser : user.driverProfileId = some d) :
    leaves cfg (OrdersService.updateStatus o DRIVER_ARRIVING user) sh choices
      = sh.accepted order user.userId.text (choices 1).now := by
  have hfound : sh.db.findOrder o = some order := Db.findOrder_eq_some.mpr ⟨hrow, hlive⟩
  have hid : order.id = o := Table.key_of_find hrow
  have hactor : validateActor order DRIVER_ARRIVING user = .ok () := by
    refine validateActor_ok_iff.mpr ⟨by decide, ?_, .inr (.inr ⟨hrole, ⟨d, hdriver, huser⟩, ?_⟩)⟩
    · rw [hassigned]
      decide
    · rw [hassigned]
      decide
  have htransition : validateTransition order.orderStatus DRIVER_ARRIVING = .ok () := by
    rw [validateTransition_ok_iff, hassigned]
    decide
  have hback : (sh.accepted order user.userId.text (choices 1).now).db.findOrder o
      = some { order.underWay with updatedAt := (choices 1).now } := by
    refine Db.findOrder_eq_some.mpr ⟨?_, hlive⟩
    exact Table.find_put_of_eq hid
  have htx : OrdersService.updateStatusTx (choices 1) o order DRIVER_ARRIVING user sh.db
      = .ok ({ order.underWay with updatedAt := (choices 1).now },
          (sh.accepted order user.userId.text (choices 1).now).db) := by
    rw [OrdersService.updateStatusTx, hrow, Option.filter_some, if_pos (by simp)]
    dsimp only
    rw [hassigned]
    exact readBack_eq hback
  rw [leaves, OrdersService.updateStatus]
  have hfind : (ask (.findOrder o)).run (performAlone cfg) (sh, choices)
      = (.ok (some order), (sh, fun n => choices (n + 1))) := by
    rw [run_ask, perform, hfound]
  rw [Program.run_bind_ok _ _ hfind]
  dsimp only
  rw [hactor, htransition]
  have hwrite : (transaction (.updateStatus o order DRIVER_ARRIVING user)).run (performAlone cfg)
      (sh, fun n => choices (n + 1)) = (.ok { order.underWay with updatedAt := (choices 1).now },
        (sh.accepted order user.userId.text (choices 1).now, fun n => choices (n + 1 + 1))) :=
    run_transaction_ok htx
  have hchecked : (Program.ofExcept (.ok ()) : Prog Unit).run (performAlone cfg)
      (sh, fun n => choices (n + 1)) = (.ok (), (sh, fun n => choices (n + 1))) := rfl
  have hactive : DRIVER_ARRIVING ∉ terminalStatuses := by decide
  rw [Program.run_bind_ok _ _ hchecked, Program.run_bind_ok _ _ hchecked,
    Program.run_bind_ok _ _ hwrite, if_neg hactive]
  rfl

/-- **The two calls agree on the rows**, but for the actor and the time: the second call changes
nothing but the database. -/
theorem accepted_rows (choices choices' : ℕ → Choice) (hrole : user.role = .DRIVER)
    (huser : user.driverProfileId = some d) :
    (leaves cfg (DispatchService.acceptDispatch o d) sh choices).db
        = (sh.accepted order d.text (choices 0).now).db ∧
      leaves cfg (OrdersService.updateStatus o DRIVER_ARRIVING user) sh choices'
        = sh.accepted order user.userId.text (choices' 1).now :=
  ⟨acceptDispatch_db hrow hassigned hdriver hlive choices,
    updateStatus_leaves hrow hassigned hdriver hlive choices' hrole huser⟩

end Rows

/-! ## One effect -/

/-- Two states agree on an order and on all that belongs to its offer to a driver. -/
structure SameEffect (o : OrderId) (d : DriverId) (s s' : Shared Q) : Prop where
  order : s.db.orders.find o = s'.db.orders.find o
  history : s.db.history = s'.db.history
  timeoutJob : JobQueue.find s.dispatchQueue (.dispatchTimeout o d)
    = JobQueue.find s'.dispatchQueue (.dispatchTimeout o d)
  timeoutKey : s.redis.lookup (.DISPATCH_TIMEOUT_KEY o) = s'.redis.lookup (.DISPATCH_TIMEOUT_KEY o)
  etaJob : JobQueue.find s.trackingQueue (.recalculateEta o)
    = JobQueue.find s'.trackingQueue (.recalculateEta o)
  etaKey : s.redis.lookup (.ETA_JOB_KEY o) = s'.redis.lookup (.ETA_JOB_KEY o)
  events : s.events = s'.events

/-- **The two calls never have the same effect** on an order that is offered to the driver, unless
it is soft-deleted and neither of them finds it. -/
theorem same_effect_iff (cfg : DispatchConfig) {o : OrderId} {d : DriverId} {user : JwtUser}
    {order : Order} {sh : Shared Q} (choices choices' : ℕ → Choice)
    (hrow : sh.db.orders.find o = some order) (hassigned : order.orderStatus = DRIVER_ASSIGNED)
    (hdriver : order.assignedDriverId = some d) :
    SameEffect o d (leaves cfg (DispatchService.acceptDispatch o d) sh choices)
        (leaves cfg (OrdersService.updateStatus o DRIVER_ARRIVING user) sh choices') ↔
      order.deletedAt.isSome := by
  constructor
  · intro hsame
    by_contra hlive
    rw [Bool.not_eq_true, Option.isSome_eq_false_iff, Option.isNone_iff_eq_none] at hlive
    have hevents := hsame.events
    have hquiet : (leaves cfg (OrdersService.updateStatus o DRIVER_ARRIVING user) sh
        choices').events = sh.events := events_of_quiet cfg (updateStatus_quiet o _ user) _
    rw [acceptDispatch_events hrow hassigned hdriver choices hlive, hquiet] at hevents
    have hlength := congrArg List.length hevents
    simp at hlength
  · intro hdeleted
    obtain ⟨haccept, -⟩ := leaves_of_deleted cfg d hrow choices user hdeleted
    obtain ⟨-, hupdate⟩ := leaves_of_deleted cfg d hrow choices' user hdeleted
    rw [haccept, hupdate]
    exact ⟨rfl, rfl, rfl, rfl, rfl, rfl, rfl⟩

/-! ### One offer -/

/-- The trip of the small system, offered to the driver. -/
def offeredTrip : Order where
  id := sampleOrder
  customerId := sampleCustomer
  notes := none
  orderType := .PERSON
  vehincleType := .CAR
  pickupAddress := "here"
  deliveryAddress := "there"
  pickupLatitude := 0
  pickupLongitude := 0
  deliveryLatitude := 0
  deliveryLongitude := 0
  orderStatus := DRIVER_ASSIGNED
  assignedDriverId := some sampleDriver
  estimatedPrice := 0
  dispatchAttempts := 1
  attemptedDriverIds := [sampleDriver]
  version := 2
  createdAt := 0
  updatedAt := 0
  deletedAt := none

/-- The offer waits for the driver: its timeout is in the queue and under its key. -/
def offering (order : Order) : Shared BullQueue where
  db := ⟨Table.empty.put order, [], Table.empty.put carDriver, Table.empty⟩
  redis := (∅ : AList RedisKey.Val).insert (.DISPATCH_TIMEOUT_KEY sampleOrder)
    (.dispatchTimeout sampleOrder sampleDriver)
  dispatchQueue := JobQueue.add JobQueue.empty (.dispatchTimeout sampleOrder sampleDriver)
    (.DISPATCH_TIMEOUT sampleOrder sampleDriver) 30000
  trackingQueue := JobQueue.empty
  events := []

/-- The offer, accepted. -/
def acceptedOffer : Shared BullQueue :=
  leaves (sampleConfig 3) (DispatchService.acceptDispatch sampleOrder sampleDriver)
    (offering offeredTrip) fun _ => sampleChoice

/-- The offer, updated by its driver. -/
def updatedOffer : Shared BullQueue :=
  leaves (sampleConfig 3) (OrdersService.updateStatus sampleOrder DRIVER_ARRIVING carDriverUser)
    (offering offeredTrip) fun _ => sampleChoice

/-- The two calls have different effects on the offer, which is not deleted. -/
theorem same_effect_iff_offer :
    ¬ SameEffect sampleOrder sampleDriver acceptedOffer updatedOffer := by
  have hiff : SameEffect sampleOrder sampleDriver acceptedOffer updatedOffer ↔
      offeredTrip.deletedAt.isSome :=
    same_effect_iff (sampleConfig 3) (fun _ => sampleChoice) (fun _ => sampleChoice) rfl rfl rfl
  rw [hiff]
  decide

/-- After `updateStatus` the timeout of the offer is still under its key, no ETA job is scheduled
and nothing is published. -/
theorem timeout_left : ¬ SameEffect sampleOrder sampleDriver acceptedOffer updatedOffer ∧
    acceptedOffer.redis.lookup (.DISPATCH_TIMEOUT_KEY sampleOrder) = none ∧
    (updatedOffer.redis.lookup (.DISPATCH_TIMEOUT_KEY sampleOrder)).isSome ∧
    updatedOffer.redis.lookup (.ETA_JOB_KEY sampleOrder) = none ∧ updatedOffer.events = [] := by
  refine ⟨fun hsame => ?_, rfl, rfl, rfl, rfl⟩
  have hkey := hsame.timeoutKey
  cases hkey

end LogisticsDispatch
