/-
What every call may rely on and has to guarantee.

A call that waits for an answer knows of the shared state only what no other call
undoes. `Rely` is that: rows stay, an order row changes its content only together with
its version, drivers keep their vehicle and their user, outbox rows keep what they
are about, and the queue and the Redis keys keep their form (`WellFormed`). `Guar` is
what a call may do in a state: run the transactions that are its own, and write back
only what follows from a copy that was a row.

`ProgramSafety.lean` shows that the program of every call keeps to it, whatever the
others do between its steps. From it comes `guar_of_next`, which is all that the results
about the optimistic writers need: when `updateStatus` or `reassignOrder` gets to its
transaction, its copy is what the row was at some time, and what was checked of the
copy holds of the row as long as the version is the same.
-/
import LogisticsDispatch.Lib.Stamped
import LogisticsDispatch.Transactions
import LogisticsDispatch.System

set_option autoImplicit false

namespace LogisticsDispatch

open OrderStatus Lifecycle Resumable

/-! ## What becomes of a row -/

/-- A row without the two columns that soft deletion writes. -/
def Order.core (order : Order) : Order := { order with updatedAt := 0, deletedAt := none }

@[simp] theorem Order.ticket_core (order : Order) : order.core.ticket = order.ticket := rfl

/-- How an order row is stamped: by its version, which stands for all of its core. -/
def Order.stamp : Stamp Order Order where
  version := Order.version
  content := Order.core

/-- What an order row can become. -/
structure Order.Becomes (row row' : Order) : Prop where
  older : Order.stamp.Older row row'
  customerId : row'.customerId = row.customerId
  vehincleType : row'.vehincleType = row.vehincleType

namespace Order.Becomes

variable {row row' row'' : Order}

theorem refl (row : Order) : row.Becomes row := ⟨.refl row, rfl, rfl⟩

theorem trans (h : row.Becomes row') (h' : row'.Becomes row'') : row.Becomes row'' :=
  ⟨h.older.trans h'.older, h'.customerId.trans h.customerId,
    h'.vehincleType.trans h.vehincleType⟩

/-- Two copies of an order with the same version differ at most in what soft deletion
writes. -/
theorem core_eq (h : row.Becomes row') (hv : row'.version = row.version) :
    row'.core = row.core :=
  (h.older.content_eq hv.symm).symm

theorem ticket_eq (h : row.Becomes row') (hv : row'.version = row.version) :
    row'.ticket = row.ticket := by
  have hticket := congrArg Order.ticket (h.core_eq hv)
  rwa [ticket_core, ticket_core] at hticket

theorem status_eq (h : row.Becomes row') (hv : row'.version = row.version) :
    row'.orderStatus = row.orderStatus :=
  congrArg Ticket.status (h.ticket_eq hv)

/-- What `validateActor` answers depends on the core of the order only. -/
theorem validateActor_eq (h : row.Becomes row') (hv : row'.version = row.version)
    (newStatus : OrderStatus) (user : JwtUser) :
    validateActor row' newStatus user = validateActor row newStatus user := by
  -- `validateActor` reads neither `updatedAt` nor `deletedAt`
  have hcore : ∀ order : Order,
      validateActor order newStatus user = validateActor order.core newStatus user := fun _ => rfl
  rw [hcore row', hcore row, h.core_eq hv]

end Order.Becomes

/-- What a driver row can become. -/
structure Driver.Becomes (row row' : Driver) : Prop where
  userId : row'.userId = row.userId
  vehincleType : row'.vehincleType = row.vehincleType

theorem Driver.Becomes.refl (row : Driver) : row.Becomes row := ⟨rfl, rfl⟩

theorem Driver.Becomes.trans {row row' row'' : Driver} (h : row.Becomes row')
    (h' : row'.Becomes row'') : row.Becomes row'' :=
  ⟨h'.userId.trans h.userId, h'.vehincleType.trans h.vehincleType⟩

/-- What an outbox row can become. -/
structure OutboxEvent.Becomes (row row' : OutboxEvent) : Prop where
  eventType : row'.eventType = row.eventType
  payload : row'.payload = row.payload

theorem OutboxEvent.Becomes.refl (row : OutboxEvent) : row.Becomes row := ⟨rfl, rfl⟩

theorem OutboxEvent.Becomes.trans {row row' row'' : OutboxEvent} (h : row.Becomes row')
    (h' : row'.Becomes row'') : row.Becomes row'' :=
  ⟨h'.eventType.trans h.eventType, h'.payload.trans h.payload⟩

/-- What the database can become. -/
structure Db.Becomes (db db' : Db) : Prop where
  orders : Table.Evolves Order.Becomes db.orders db'.orders
  drivers : Table.Evolves Driver.Becomes db.drivers db'.drivers
  outbox : Table.Evolves OutboxEvent.Becomes db.outbox db'.outbox

namespace Db.Becomes

variable {db db' db'' : Db}

theorem refl (db : Db) : db.Becomes db :=
  ⟨.refl Order.Becomes.refl _, .refl Driver.Becomes.refl _, .refl OutboxEvent.Becomes.refl _⟩

theorem trans (h : db.Becomes db') (h' : db'.Becomes db'') : db.Becomes db'' :=
  ⟨h.orders.trans Order.Becomes.trans h'.orders, h.drivers.trans Driver.Becomes.trans h'.drivers,
    h.outbox.trans OutboxEvent.Becomes.trans h'.outbox⟩

/-- A move takes a new version. -/
theorem of_move {cfg : DispatchConfig} {o : OrderId} {m : Move DriverId} {actor : String} {now : ℕ}
    (h : db.move cfg o m actor now = some db') : db.Becomes db' := by
  obtain ⟨row, t, hrow, -, ht, hrow', -, hother, hdrivers, houtbox⟩ := Db.move_spec h
  refine ⟨?_, ?_, ?_⟩
  · intro o' r hr
    -- the order that moves takes the next version; the others stay
    by_cases ho : o' = o
    · subst ho
      rw [hrow] at hr
      obtain rfl := Option.some.inj hr
      have hversion : row.version < t.version := by
        have hv : t.version = row.version + 1 := apply_version ht
        omega
      exact ⟨_, hrow', .of_lt hversion, rfl, rfl⟩
    · exact ⟨r, (hother o' ho).1.trans hr, .refl r⟩
  · rw [hdrivers]
    exact .refl Driver.Becomes.refl _
  · rw [houtbox]
    exact .refl OutboxEvent.Becomes.refl _

/-- Soft deletion writes no column a version stands for. -/
theorem of_softDelete (ch : Choice) (o : OrderId) (db : Db) :
    db.Becomes (OrdersService.softDeleteRow ch o db) := by
  unfold OrdersService.softDeleteRow
  split
  · exact refl db
  · next row hrow =>
      refine ⟨.put Order.Becomes.refl ?_, .refl Driver.Becomes.refl _,
        .refl OutboxEvent.Becomes.refl _⟩
      intro w hw
      have hid : row.id = o := Table.key_of_find hrow
      have hw : db.orders.find row.id = some w := hw
      rw [hid, hrow] at hw
      obtain rfl := Option.some.inj hw
      -- the same version, and the same core
      exact ⟨.of_eq rfl rfl, rfl, rfl⟩

/-- Writing back a driver with the user and the vehicle of the row, or a new one. -/
theorem of_saveDriver {driver : Driver}
    (h : ∀ row, db.drivers.find driver.id = some row → row.Becomes driver) :
    db.Becomes (db.saveDriver driver) :=
  ⟨.refl Order.Becomes.refl _, .put Driver.Becomes.refl h, .refl OutboxEvent.Becomes.refl _⟩

/-- Writing back an outbox row that is about the same, or a new one. -/
theorem of_saveOutbox {row : OutboxEvent}
    (h : ∀ row', db.outbox.find row.id = some row' → row'.Becomes row) :
    db.Becomes (db.saveOutbox row) :=
  ⟨.refl Order.Becomes.refl _, .refl Driver.Becomes.refl _, .put OutboxEvent.Becomes.refl h⟩

end Db.Becomes

/-! ## What the shared state keeps -/

/-- The data a job in the dispatch queue is about. -/
def JobId.Carries : JobId → JobData → Prop
  | .assignDriver o, data => data = .ASSIGN_DRIVER o
  | .dispatchTimeout o d, data => data = .DISPATCH_TIMEOUT o d
  | .recalculateEta _, _ => False

section

variable {Q : Type} [JobQueue Q JobId JobData]

/-- The form the dispatch queue and the Redis keys keep: a job is about what its id
says, and the key of a dispatch timeout names a timeout job of that order. -/
structure WellFormed (s : Shared Q) : Prop where
  jobs : ∀ j st data, JobQueue.find s.dispatchQueue j = some (st, data) → j.Carries data
  timeoutKey : ∀ o j, s.redis.lookup (.DISPATCH_TIMEOUT_KEY o) = some j →
    ∃ d, j = .dispatchTimeout o d

/-- What a call relies on: how the shared state may have changed since. -/
structure Rely (s s' : Shared Q) : Prop where
  db : s.db.Becomes s'.db
  wellFormed : WellFormed s → WellFormed s'

/-- The call has the handler of a job's data to run. -/
def Call.Handles (call : Call) (data : JobData) : Prop :=
  call = .request (.process data) ∨ ∃ queue jobId, call = .worker queue jobId data

/-- The calls a transaction belongs to. -/
def Transaction.BelongsTo (call : Call) : Transaction → Prop
  | .createOrder dto customerId _ => ∃ key, call = .request (.createOrder dto customerId key)
  | .assignDriverWithLock o _ => call.Handles (.ASSIGN_DRIVER o)
  | .expireOrder o => call.Handles (.ASSIGN_DRIVER o)
  | .handleDispatchTimeout o d => call.Handles (.DISPATCH_TIMEOUT o d)
  | .acceptDispatch o d => call = .request (.acceptDispatch o d)
  | .rejectDispatch o d => call = .request (.rejectDispatch o d)
  | .updateStatus o _ newStatus user => call = .request (.updateStatus o newStatus user) ∨
      newStatus = CANCELLED ∧ call = .request (.cancelOrder o user)
  | .reassignOrder o _ user => call = .request (.reassignOrder o user)
  | .toggleSuspension d => call = .request (.toggleSuspension d)
  | .promoteToDriver u v => call = .request (.promoteToDriver u v)

/-- What was checked of the copy of an order that an optimistic transaction brings. -/
def Transaction.Checked (db : Db) : Transaction → Prop
  | .updateStatus o order newStatus user =>
      (∃ row, db.orders.find o = some row ∧ order.Becomes row) ∧
        validateActor order newStatus user = .ok () ∧
        validateTransition order.orderStatus newStatus = .ok ()
  | .reassignOrder o order _ =>
      (∃ row, db.orders.find o = some row ∧ order.Becomes row) ∧ order.orderStatus = EXPIRED
  | _ => True

/-- The order is stored, or an outbox row is about it. -/
def Known (db : Db) (o : OrderId) : Prop :=
  (∃ row, db.orders.find o = some row) ∨
    ∃ id row, db.outbox.find id = some row ∧ row.payload = some o

omit [JobQueue Q JobId JobData] in
theorem Known.mono {db db' : Db} {o : OrderId} (h : Known db o) (hbecomes : db.Becomes db') :
    Known db' o := by
  rcases h with ⟨row, hrow⟩ | ⟨id, row, hrow, hpayload⟩
  · obtain ⟨row', hrow', -⟩ := hbecomes.orders o row hrow
    exact .inl ⟨row', hrow'⟩
  · obtain ⟨row', hrow', hsame⟩ := hbecomes.outbox id row hrow
    exact .inr ⟨id, row', hrow', hsame.payload.trans hpayload⟩

/-- What a call may perform in a state. -/
def Guar (call : Call) (s : Shared Q) : Effect → Prop
  | .transaction t => t.BelongsTo call ∧ t.Checked s.db
  | .saveDriver driver => ∃ row, s.db.drivers.find driver.id = some row ∧ row.Becomes driver
  | .saveOutbox row => call = .request .processOutbox ∧
      ∃ row', s.db.outbox.find row.id = some row' ∧ row'.Becomes row
  | .softDelete o => call = .request (.softDelete o)
  | .redisSet (.DISPATCH_TIMEOUT_KEY o) j _ => ∃ d, j = .dispatchTimeout o d
  | .addJob .DISPATCH_QUEUE j data _ =>
      j.Carries data ∧ ∀ o, j = .assignDriver o → Known s.db o
  | .removeJob .DISPATCH_QUEUE j => ∃ o d, j = .dispatchTimeout o d
  | .finishJob queue j _ => ∃ data, call = .worker queue j data
  | _ => True

end

/-! ## All that a transaction does -/

section Transactions

variable {cfg : DispatchConfig} {ch : Choice} {t : Transaction} {db db' : Db} {res : t.Result}

/-- The move a transaction makes when it makes one: of which order, and in whose
name. -/
inductive Transaction.Makes : Transaction → OrderId → Move DriverId → String → Prop
  | offer (o : OrderId) (cands : List Driver) (d : DriverId) :
      Makes (.assignDriverWithLock o cands) o (.offer d) "system"
  | expire (o : OrderId) : Makes (.expireOrder o) o .expire "system"
  | timeout (o : OrderId) (d : DriverId) :
      Makes (.handleDispatchTimeout o d) o (.timeout d) "system"
  | reject (o : OrderId) (d : DriverId) : Makes (.rejectDispatch o d) o (.reject d) d.text
  | accept (o : OrderId) (d : DriverId) : Makes (.acceptDispatch o d) o (.accept d) d.text
  | advance (o : OrderId) (order : Order) (newStatus : OrderStatus) (user : JwtUser) :
      Makes (.updateStatus o order newStatus user) o (.advance newStatus) user.userId.text
  | reassign (o : OrderId) (order : Order) (user : JwtUser) :
      Makes (.reassignOrder o order user) o .reassign user.userId.text

/-- The driver an assignment offers an order to: the first of the candidates that it
gets a lock on. -/
def OfferedTo (ch : Choice) (db : Db) (order : Order) (t : Transaction) (d : DriverId) : Prop :=
  ∃ cands driver, t = .assignDriverWithLock order.id cands ∧
    DispatchService.lockFirst db ch.skipLocked (DispatchService.attemptedSet order)
      order.vehincleType cands = some driver ∧ driver.id = d

/-- The copy of the order that an optimistic transaction brings. -/
def Transaction.copy : Transaction → Option Order
  | .updateStatus _ order _ _ => some order
  | .reassignOrder _ order _ => some order
  | _ => none

/-- What a transaction that does not throw has done. -/
inductive Transaction.Does (cfg : DispatchConfig) (ch : Choice) (t : Transaction) (db db' : Db) :
    Prop
  | nothing (h : db' = db)
  | driver (driver : Driver) (h : db' = db.saveDriver driver)
      (hsame : ∀ row, db.drivers.find driver.id = some row → row.Becomes driver)
  | created (dto : CreateOrderDto) (customerId : UserId) (estimatedPrice : ℚ) (order : Order)
      (ht : t = .createOrder dto customerId estimatedPrice)
      (h : OrdersService.createOrderTx ch dto customerId estimatedPrice db = .ok (order, db'))
  | moved (o : OrderId) (m : Move DriverId) (actor : String) (ht : t.Makes o m actor)
      (hoffer : ∀ d row, m = .offer d → db.orders.find o = some row → OfferedTo ch db row t d)
      (hcopy : ∀ order row, t.copy = some order → db.orders.find o = some row →
        row.version = order.version)
      (h : db.move cfg o m actor ch.now = some db')

/-- A move of a transaction that locks the order, and is no offer. -/
theorem Transaction.Does.locked {o : OrderId} {m : Move DriverId} {actor : String}
    (ht : t.Makes o m actor) (hm : ∀ d, m ≠ .offer d) (hcopy : t.copy = none)
    (h : db.move cfg o m actor ch.now = some db') : t.Does cfg ch db db' := by
  refine .moved o m actor ht (fun d _ heq => absurd heq (hm d)) (fun order _ heq => ?_) h
  rw [hcopy] at heq
  cases heq

/-- A move of a transaction that found the version of its copy. -/
theorem Transaction.Does.optimistic {o : OrderId} {m : Move DriverId} {actor : String}
    {order row : Order} (ht : t.Makes o m actor) (hm : ∀ d, m ≠ .offer d)
    (hcopy : t.copy = some order) (hrow : db.orders.find o = some row)
    (hversion : row.version = order.version) (h : db.move cfg o m actor ch.now = some db') :
    t.Does cfg ch db db' := by
  refine .moved o m actor ht (fun d _ heq => absurd heq (hm d)) (fun order' row' heq hrow' => ?_) h
  rw [hcopy] at heq
  obtain rfl := Option.some.inj heq
  rw [hrow] at hrow'
  obtain rfl := Option.some.inj hrow'
  exact hversion

/-- What the copies of an optimistic transaction were checked for is what makes it a
move. -/
theorem copy_status {order : Order} {o : OrderId}
    (h : ∃ row, db.orders.find o = some row ∧ order.Becomes row) :
    ∀ row, db.orders.find o = some row → row.version = order.version →
      row.orderStatus = order.orderStatus := by
  intro row hrow hv
  obtain ⟨row', hrow', hbecomes⟩ := h
  rw [hrow] at hrow'
  obtain rfl := Option.some.inj hrow'
  exact hbecomes.status_eq hv

/-- An accepted status is one the move `advance` may lead to. -/
theorem may_advance {order : Order} {newStatus : OrderStatus} {user : JwtUser}
    (hactor : validateActor order newStatus user = .ok ())
    (htransition : validateTransition order.orderStatus newStatus = .ok ()) :
    newStatus ∈ ORDER_TRANSITIONS order.orderStatus ∧ newStatus ≠ DRIVER_ASSIGNED ∧
      newStatus ≠ EXPIRED :=
  ⟨validateTransition_ok_iff.mp htransition, (validateActor_ok_iff.mp hactor).1⟩

/-- An assignment offers the order to the driver it gets a lock on. -/
theorem does_of_assign {o : OrderId} {cands : List Driver} {res : Option DriverId}
    (h : DispatchService.assignDriverWithLockTx ch o cands db = .ok (res, db')) :
    (Transaction.assignDriverWithLock o cands).Does cfg ch db db' := by
  rcases DispatchService.assignDriverWithLockTx_ok h with
    ⟨-, hdb⟩ | ⟨order, driver, horder, -, hlock, -, hmove⟩
  · exact .nothing hdb
  · refine .moved o _ _ (.offer o cands driver.id) ?_ (fun _ _ hcopy => by cases hcopy) hmove
    -- the order found under the lock is the stored row
    intro d row hm hrow
    rw [(Db.findOrder_eq_some.mp horder).1] at hrow
    obtain rfl := Option.some.inj hrow
    obtain rfl := Move.offer.inj hm
    exact ⟨cands, driver, by rw [Db.id_of_findOrder horder], hlock, rfl⟩

/-- An expiry ends the wait of an order, if it waits. -/
theorem does_of_expire {o : OrderId} (h : DispatchService.expireOrderTx ch o db = .ok ((), db')) :
    (Transaction.expireOrder o).Does cfg ch db db' := by
  have heq : DispatchService.expireOrderTx ch o db = _ := DispatchService.expireOrderTx_eq cfg
  have hdb : db' = (db.move cfg o .expire "system" ch.now).getD db :=
    (Prod.mk.inj (Except.ok.inj (h.symm.trans heq))).2
  cases hmove : db.move cfg o .expire "system" ch.now with
  | none =>
      rw [hmove] at hdb
      exact .nothing hdb
  | some db'' =>
      rw [hmove] at hdb
      obtain rfl : db' = db'' := hdb
      exact .locked (.expire o) (fun _ hm => by cases hm) rfl hmove

/-- A promotion inserts a new driver. -/
theorem does_of_promote {u : UserId} {v : VehincleType}
    (h : UsersService.promoteToDriverTx ch u v db = .ok ((), db')) :
    (Transaction.promoteToDriver u v).Does cfg ch db db' := by
  unfold UsersService.promoteToDriverTx at h
  split at h
  · cases h
  split at h
  · cases h
  next hnew =>
    obtain ⟨-, rfl⟩ := Prod.mk.inj (Except.ok.inj h)
    refine .driver _ rfl fun row hrow => ?_
    have hrow : db.drivers.find ch.driverId = some row := hrow
    rw [hrow] at hnew
    exact absurd rfl hnew

/-- **All that a transaction does**, if its copy was checked: nothing, a driver row, a
new order, or one move of an order. -/
theorem Transaction.run_ok (hchecked : t.Checked db) (h : t.run cfg ch db = .ok (res, db')) :
    t.Does cfg ch db db' := by
  cases t with
  | createOrder dto c p => exact .created dto c p res rfl h
  | assignDriverWithLock o cands => exact does_of_assign h
  | expireOrder o => exact does_of_expire h
  | handleDispatchTimeout o d =>
      rcases DispatchService.handleDispatchTimeoutTx_ok h with ⟨-, hdb⟩ | ⟨-, hmove⟩
      · exact .nothing hdb
      · exact .locked (.timeout o d) (fun _ hm => by cases hm) rfl hmove
  | acceptDispatch o d =>
      rcases DispatchService.acceptDispatchTx_ok h with ⟨-, hdb⟩ | ⟨-, hmove⟩
      · exact .nothing hdb
      · exact .locked (.accept o d) (fun _ hm => by cases hm) rfl hmove
  | rejectDispatch o d =>
      rcases DispatchService.rejectDispatchTx_ok h with ⟨-, hdb⟩ | ⟨-, hmove⟩
      · exact .nothing hdb
      · exact .locked (.reject o d) (fun _ hm => by cases hm) rfl hmove
  | updateStatus o order newStatus user =>
      obtain ⟨hcopy, hactor, htransition⟩ := hchecked
      obtain ⟨⟨row, hrow, hversion, -, hmove⟩, -⟩ := OrdersService.updateStatusTx_ok
        (copy_status hcopy) (may_advance hactor htransition) h
      exact .optimistic (.advance o order newStatus user) (fun _ hm => by cases hm) rfl hrow
        hversion hmove
  | reassignOrder o order user =>
      obtain ⟨hcopy, hexp⟩ := hchecked
      obtain ⟨⟨row, hrow, hversion, -, hmove⟩, -⟩ :=
        OrdersService.reassignOrderTx_ok (copy_status hcopy) hexp h
      exact .optimistic (.reassign o order user) (fun _ hm => by cases hm) rfl hrow hversion hmove
  | toggleSuspension d =>
      -- its query is refused
      cases (DriversService.toggleSuspensionTx_refused d db).symm.trans h
  | promoteToDriver u v => exact does_of_promote h

theorem Transaction.Does.becomes (h : t.Does cfg ch db db') : db.Becomes db' := by
  cases h with
  | nothing h =>
      rw [h]
      exact .refl db
  | driver driver h hsame =>
      rw [h]
      exact .of_saveDriver hsame
  | created dto c p order ht h =>
      obtain ⟨horder, houtbox, -, -, ⟨row, hrow, -⟩, -, hother, hdrivers, hput⟩ :=
        OrdersService.createOrderTx_ok h
      refine ⟨?_, ?_, ?_⟩
      -- the new id was free, so no row is overwritten
      · intro o r hr
        have hne : o ≠ ch.orderId := by
          rintro rfl
          rw [horder] at hr
          cases hr
        exact ⟨r, (hother o hne).1.trans hr, .refl r⟩
      · rw [hdrivers]
        exact .refl Driver.Becomes.refl _
      · rw [hput]
        refine .put OutboxEvent.Becomes.refl fun w hw => ?_
        have hw : db.outbox.find ch.outboxId = some w := hw
        rw [houtbox] at hw
        cases hw
  | moved o m actor ht _ _ h => exact .of_move h

end Transactions

/-! ## The rules -/

section Rules

variable {Q : Type} [JobQueue Q JobId JobData]

theorem Rely.refl (s : Shared Q) : Rely s s := ⟨.refl _, id⟩

theorem Rely.trans {s₁ s₂ s₃ : Shared Q} (h : Rely s₁ s₂) (h' : Rely s₂ s₃) : Rely s₁ s₃ :=
  ⟨h.db.trans h'.db, h'.wellFormed ∘ h.wellFormed⟩

variable {cfg : DispatchConfig} {ch : Choice} {call : Call} {s : Shared Q} {e : Effect}

/-- A step that leaves the database alone and keeps the form of queue and keys. -/
theorem Rely.of_db_eq {s' : Shared Q} (hdb : s'.db = s.db)
    (hwf : WellFormed s → WellFormed s') : Rely s s' :=
  ⟨by rw [hdb]; exact .refl _, hwf⟩

/-- A step on the database only. -/
theorem Rely.of_becomes {db : Db} (h : s.db.Becomes db) : Rely s { s with db := db } :=
  ⟨h, fun hwf => ⟨hwf.jobs, hwf.timeoutKey⟩⟩

/-- A queue whose jobs were there before, or are about what their id says, is well
formed. -/
theorem WellFormed.setQueue (hwf : WellFormed s) {q : Q} (queue : QueueName)
    (hq : queue = .DISPATCH_QUEUE → ∀ j st data, JobQueue.find q j = some (st, data) →
      (∃ st', JobQueue.find (s.queue queue) j = some (st', data)) ∨ j.Carries data) :
    WellFormed (s.setQueue q queue) := by
  cases queue with
  | TRACKING_QUEUE => exact ⟨hwf.jobs, hwf.timeoutKey⟩
  | DISPATCH_QUEUE =>
      refine ⟨fun j st data hfind => ?_, hwf.timeoutKey⟩
      rcases hq rfl j st data hfind with ⟨st', hold⟩ | hcarries
      · exact hwf.jobs j st' data hold
      · exact hcarries

/-- Taking, promoting and evicting jobs makes no new ones. -/
theorem WellFormed.take (hwf : WellFormed s) (queue : QueueName) (j : JobId) :
    WellFormed (s.setQueue (JobQueue.take (s.queue queue) j) queue) :=
  hwf.setQueue queue fun _ _ _ _ hfind => .inl (JobQueue.data_of_take hfind)

theorem WellFormed.promote (hwf : WellFormed s) (queue : QueueName) (j : JobId) :
    WellFormed (s.setQueue (JobQueue.promote (s.queue queue) j) queue) :=
  hwf.setQueue queue fun _ _ _ _ hfind => .inl (JobQueue.data_of_promote hfind)

theorem WellFormed.evict (hwf : WellFormed s) (queue : QueueName) (j : JobId) :
    WellFormed (s.setQueue (JobQueue.evict (s.queue queue) j) queue) :=
  hwf.setQueue queue fun _ _ _ _ hfind => .inl (JobQueue.data_of_evict hfind)

theorem WellFormed.remove (hwf : WellFormed s) (queue : QueueName) (j : JobId) :
    WellFormed (s.setQueue (JobQueue.remove (s.queue queue) j) queue) :=
  hwf.setQueue queue fun _ _ _ _ hfind => .inl (JobQueue.data_of_remove hfind)

theorem WellFormed.add (hwf : WellFormed s) (queue : QueueName) (j : JobId) (data : JobData)
    (delay : ℕ) (hdata : queue = .DISPATCH_QUEUE → j.Carries data) :
    WellFormed (s.setQueue (JobQueue.add (s.queue queue) j data delay) queue) := by
  refine hwf.setQueue queue fun hqueue j' st data' hfind => ?_
  refine (JobQueue.data_of_add hfind).imp_right ?_
  rintro ⟨rfl, rfl⟩
  exact hdata hqueue

theorem WellFormed.finish (hwf : WellFormed s) (queue : QueueName) (j : JobId) (ok : Bool) :
    WellFormed (s.setQueue (JobQueue.finish (s.queue queue) j ok) queue) :=
  hwf.setQueue queue fun _ _ _ _ hfind => .inl (JobQueue.data_of_finish hfind)

theorem WellFormed.expire (hwf : WellFormed s) (key : RedisKey) :
    WellFormed { s with redis := s.redis.erase key } := by
  refine ⟨hwf.jobs, fun o j hj => ?_⟩
  by_cases hkey : RedisKey.DISPATCH_TIMEOUT_KEY o = key
  · subst hkey
    have hnone : (s.redis.erase (.DISPATCH_TIMEOUT_KEY o)).lookup (.DISPATCH_TIMEOUT_KEY o)
        = none := AList.lookup_erase _ _
    have hj : (s.redis.erase (.DISPATCH_TIMEOUT_KEY o)).lookup (.DISPATCH_TIMEOUT_KEY o)
        = some j := hj
    rw [hnone] at hj
    cases hj
  · have hj : (s.redis.erase key).lookup (.DISPATCH_TIMEOUT_KEY o) = some j := hj
    rw [AList.lookup_erase_ne hkey] at hj
    exact hwf.timeoutKey o j hj

theorem WellFormed.redisSet (hwf : WellFormed s) (key : RedisKey) (val : key.Val) (ttl : ℕ)
    (hguar : Guar call s (.redisSet key val ttl)) :
    WellFormed { s with redis := s.redis.insert key val } := by
  refine ⟨hwf.jobs, fun o j hj => ?_⟩
  -- a timeout key gets a timeout job's id by `Guar`
  by_cases hkey : RedisKey.DISPATCH_TIMEOUT_KEY o = key
  · subst hkey
    have hj : (s.redis.insert (.DISPATCH_TIMEOUT_KEY o) val).lookup (.DISPATCH_TIMEOUT_KEY o)
        = some j := hj
    rw [AList.lookup_insert] at hj
    obtain rfl := Option.some.inj hj
    exact hguar
  · have hj : (s.redis.insert key val).lookup (.DISPATCH_TIMEOUT_KEY o) = some j := hj
    rw [AList.lookup_insert_ne hkey] at hj
    exact hwf.timeoutKey o j hj

/-- What a call may do stays within what the others rely on. -/
theorem Guar.rely (h : Guar call s e) : Rely s (perform cfg ch e s).2 := by
  cases e with
  | findOrder o => exact .refl s
  | findActiveOrder d => exact .refl s
  | softDelete o => exact .of_becomes (.of_softDelete ch o s.db)
  | findDrivers v att => exact .refl s
  | findDriver d => exact .refl s
  | findDriverOfUser u => exact .refl s
  | saveDriver driver =>
      obtain ⟨row, hrow, hsame⟩ := h
      refine .of_becomes (.of_saveDriver fun row' hrow' => ?_)
      rw [hrow] at hrow'
      obtain rfl := Option.some.inj hrow'
      exact hsame
  | updateDriverLocation d lat lng =>
      simp only [perform]
      split
      · exact .refl s
      · next driver hdriver =>
          refine .of_becomes (.of_saveDriver fun row hrow => ?_)
          have hid : driver.id = d := Table.key_of_find hdriver
          have hrow : s.db.drivers.find driver.id = some row := hrow
          rw [hid, hdriver] at hrow
          obtain rfl := Option.some.inj hrow
          exact ⟨rfl, rfl⟩
  -- a transaction that throws changes nothing
  | transaction t =>
      simp only [perform]
      split
      · exact .refl s
      · next res db hrun => exact .of_becomes (Transaction.run_ok h.2 hrun).becomes
  | claimOutbox n => exact .refl s
  | saveOutbox row =>
      obtain ⟨-, row', hrow, hsame⟩ := h
      refine .of_becomes (.of_saveOutbox fun row'' hrow' => ?_)
      rw [hrow] at hrow'
      obtain rfl := Option.some.inj hrow'
      exact hsame
  | redisGet key => exact .refl s
  | redisSet key val ttl => exact .of_db_eq rfl fun hwf => hwf.redisSet key val ttl h
  | redisDel key => exact .of_db_eq rfl fun hwf => hwf.expire key
  | addJob queue j data delay =>
      refine .of_db_eq (Shared.setQueue_db ..) fun hwf => hwf.add queue j data delay ?_
      rintro rfl
      exact h.1
  | getJob queue j => exact .refl s
  | removeJob queue j =>
      simp only [perform]
      split
      · exact .refl s
      · exact .of_db_eq (Shared.setQueue_db ..) fun hwf => hwf.remove queue j
  | finishJob queue j ok => exact .of_db_eq (Shared.setQueue_db ..) fun hwf => hwf.finish queue j ok
  | emit event => exact .of_db_eq rfl fun hwf => ⟨hwf.jobs, hwf.timeoutKey⟩
  | now => exact .refl s

/-- The rules the system is verified against. -/
def rules (Q : Type) [JobQueue Q JobId JobData] (cfg : DispatchConfig) :
    Rules (machine (Q := Q) cfg) Call where
  Rely := Rely
  Guar := Guar
  refl := Rely.refl
  trans := Rely.trans
  exec _ _ _ _ h := h.rely

end Rules

end LogisticsDispatch
