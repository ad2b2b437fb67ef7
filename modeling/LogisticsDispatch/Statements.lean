/-
The transactions of the services, statement by statement.

`Database.lean` has each transaction as one step on the database. Here it is what the callback of
`dataSource.transaction` does with its `manager`: a program of SQL statements, each of which may
lock a row of `orders` or `drivers` until the transaction ends. What it has written nobody else
sees before then, so an open transaction is the rows it holds and the writes it has made
(`OpenTx`).

A `FOR UPDATE` and an update lock the row they find. A history row that is inserted, and a driver
that is assigned, are rows of a foreign key, which locks the row it refers to. Nothing else locks
a row, and a `skip_locked` query takes what it gets.

`createOrder` and `promoteToDriver` write rows under ids that are drawn as they are written, which
nobody can wait for; they stay one step. `settle_body` says that a transaction whose statements run
with nothing between them is the step of `Database.lean`, the rows that others hold being those the
step skips.
-/
import LogisticsDispatch.Lib.Alone
import LogisticsDispatch.Lib.RowLocks
import LogisticsDispatch.Effects

set_option autoImplicit false

namespace LogisticsDispatch

open OrderStatus Resumable

/-! ## Statements -/

/-- A row that a transaction can hold. -/
inductive Row
  | order (orderId : OrderId)
  | driver (driverId : DriverId)
deriving DecidableEq

/-- The statements of the transactions. -/
inductive Statement
  -- `setLock('pessimistic_write')` on an order
  | lockOrder (orderId : OrderId)
  -- `setLock('pessimistic_write')` and `setOnLocked('skip_locked')` on an eligible driver
  | lockDriver (driverId : DriverId) (vehincleType : VehincleType)
  | findOrder (orderId : OrderId)
  -- `update(Order).set(..).where('id = :orderId AND version = :version')`
  | updateOrder (orderId : OrderId) (version : ℕ) (set : Order → Order)
  | saveOrder (order : Order)
  -- the foreign key of `assigned_driver_id`
  | referenceDriver (driverId : DriverId)
  | insertHistory (row : OrderStatusHistory)
  | saveDriver (driver : Driver)

namespace Statement

/-- What a statement answers with. -/
@[reducible] def Answer : Statement → Type
  | lockOrder _ => Option Order
  | lockDriver .. => Option Driver
  | findOrder _ => Option Order
  | updateOrder .. => Bool
  | saveOrder _ => Unit
  | referenceDriver _ => Unit
  | insertHistory _ => Unit
  | saveDriver _ => Unit

/-- The row a statement waits for. -/
def waits : Statement → Option Row
  | lockOrder orderId => some (.order orderId)
  | lockDriver .. => none
  | findOrder _ => none
  | updateOrder orderId _ _ => some (.order orderId)
  | saveOrder order => some (.order order.id)
  | referenceDriver driverId => some (.driver driverId)
  | insertHistory row => some (.order row.orderId)
  | saveDriver driver => some (.driver driver.id)

/-- The row a statement locks, if it finds it. -/
def takes : (s : Statement) → s.Answer → Option Row
  | lockOrder orderId, order => order.map fun _ => .order orderId
  | lockDriver driverId _, driver => driver.map fun _ => .driver driverId
  | findOrder _, _ => none
  | updateOrder orderId _ _, affected => if affected then some (.order orderId) else none
  | saveOrder order, _ => some (.order order.id)
  | referenceDriver driverId, _ => some (.driver driverId)
  | insertHistory row, _ => some (.order row.orderId)
  | saveDriver driver, _ => some (.driver driver.id)

end Statement

/-- A transaction that is open: the rows it holds, and what it has written. -/
structure OpenTx where
  held : List Row
  writes : Db → Db

namespace OpenTx

/-- A transaction that has just begun. -/
def begun : OpenTx := ⟨[], id⟩

/-- Hold one row more. -/
def hold (tx : OpenTx) (row : Option Row) : OpenTx := { tx with held := row.toList ++ tx.held }

/-- Write. -/
def write (tx : OpenTx) (w : Db → Db) : OpenTx := { tx with writes := fun db => w (tx.writes db) }

@[simp] theorem hold_writes (tx : OpenTx) (row : Option Row) : (tx.hold row).writes = tx.writes :=
  rfl
@[simp] theorem hold_held (tx : OpenTx) (row : Option Row) :
    (tx.hold row).held = row.toList ++ tx.held := rfl
@[simp] theorem write_held (tx : OpenTx) (w : Db → Db) : (tx.write w).held = tx.held := rfl
@[simp] theorem write_writes (tx : OpenTx) (w : Db → Db) (db : Db) :
    (tx.write w).writes db = w (tx.writes db) := rfl
@[simp] theorem begun_writes (db : Db) : begun.writes db = db := rfl

end OpenTx

namespace Statement

/-- What a statement finds, of the database with what its transaction has written to it. -/
def answer (locked : List Row) (db : Db) : (s : Statement) → s.Answer
  | lockOrder orderId => db.findOrder orderId
  | lockDriver driverId vehincleType =>
      if Row.driver driverId ∈ locked then none
      else DispatchService.lockDriver db [] driverId vehincleType
  | findOrder orderId => db.findOrder orderId
  | updateOrder orderId version _ =>
      ((db.orders.find orderId).filter fun row => row.version = version).isSome
  | saveOrder _ => ()
  | referenceDriver _ => ()
  | insertHistory _ => ()
  | saveDriver _ => ()

/-- What a statement writes. -/
def writes (ch : Choice) : Statement → Db → Db
  | updateOrder orderId version set, db =>
      match (db.orders.find orderId).filter fun row => row.version = version with
      | none => db
      | some row => { db with orders := db.orders.put { set row with updatedAt := ch.now } }
  | saveOrder order, db => { db with orders := db.orders.put { order with updatedAt := ch.now } }
  | insertHistory row, db => { db with history := db.history ++ [row] }
  | saveDriver driver, db => db.saveDriver driver
  | _, db => db

/-- Execute a statement of an open transaction, while others hold the rows `locked`. -/
def exec (ch : Choice) (locked : List Row) (db : Db) (s : Statement) (tx : OpenTx) :
    s.Answer × OpenTx :=
  let found := s.answer locked (tx.writes db)
  (found, (tx.hold (s.takes found)).write (s.writes ch))

end Statement

/-! ## The transactions -/

/-- A program of statements. -/
abbrev TxProg (α : Type) := Program Statement Statement.Answer Error α

namespace Manager

/-- Execute a statement. -/
def query (s : Statement) : TxProg s.Answer := Program.perform s

/-- Save an order and the history row of its status. -/
def saveWithHistory (order : Order) (previousStatus : Option OrderStatus) (actorId : String) :
    TxProg Unit := do
  query (.saveOrder order)
  query (.insertHistory {
    orderId := order.id
    previousStatus := previousStatus
    newStatus := order.orderStatus
    actorId := actorId })

/-- The loop of `assignDriverWithLock`. -/
def tryCandidates (lockedOrder : Order) (attemptedDriverIds : List DriverId) :
    List Driver → TxProg (Option DriverId)
  | [] => return none
  | candidate :: rest =>
      if candidate.id ∈ attemptedDriverIds then tryCandidates lockedOrder attemptedDriverIds rest
      else do
        match ← query (.lockDriver candidate.id lockedOrder.vehincleType) with
        | none => tryCandidates lockedOrder attemptedDriverIds rest
        | some lockedDriver =>
            let previousStatus := lockedOrder.orderStatus
            let assigned := { lockedOrder with
              assignedDriverId := some lockedDriver.id
              orderStatus := DRIVER_ASSIGNED
              dispatchAttempts := lockedOrder.dispatchAttempts + 1
              version := lockedOrder.version + 1
              attemptedDriverIds := attemptedDriverIds ++ [lockedDriver.id] }
            query (.saveOrder assigned)
            query (.referenceDriver lockedDriver.id)
            query (.insertHistory {
              orderId := assigned.id
              previousStatus := some previousStatus
              newStatus := DRIVER_ASSIGNED
              actorId := "system" })
            return some lockedDriver.id

/-- The transaction of `assignDriverWithLock`. -/
def assignDriverWithLock (orderId : OrderId) (candidateDrivers : List Driver) :
    TxProg (Option DriverId) := do
  match ← query (.lockOrder orderId) with
  | none => return none
  | some lockedOrder =>
      if DispatchService.shouldSkipAssignment lockedOrder then return none
      else tryCandidates lockedOrder (DispatchService.attemptedSet lockedOrder) candidateDrivers

/-- The transaction of `expireOrder`. -/
def expireOrder (orderId : OrderId) : TxProg Unit := do
  match ← query (.lockOrder orderId) with
  | none => return
  | some lockedOrder =>
      if DispatchService.shouldSkipAssignment lockedOrder then return
      else
        let previousStatus := lockedOrder.orderStatus
        let expired := { lockedOrder with
          orderStatus := EXPIRED
          assignedDriverId := none
          dispatchAttempts := lockedOrder.dispatchAttempts + 1
          version := lockedOrder.version + 1 }
        saveWithHistory expired (some previousStatus) "system"

/-- The transaction of `handleDispatchTimeout`. -/
def handleDispatchTimeout (cfg : DispatchConfig) (orderId : OrderId) (driverId : DriverId) :
    TxProg DispatchService.TimeoutResult := do
  match ← query (.lockOrder orderId) with
  | none => return .skip
  | some lockedOrder =>
      if lockedOrder.orderStatus ∈ terminalStatuses then return .skip
      else if lockedOrder.orderStatus ≠ DRIVER_ASSIGNED then return .skip
      else if lockedOrder.assignedDriverId ≠ some driverId then return .skip
      else
        let previousStatus := lockedOrder.orderStatus
        let refused := { lockedOrder with
          assignedDriverId := none
          dispatchAttempts := lockedOrder.dispatchAttempts + 1
          version := lockedOrder.version + 1 }
        if refused.dispatchAttempts ≥ cfg.maxDispatchAttempts then do
          saveWithHistory { refused with orderStatus := EXPIRED } (some previousStatus) "system"
          return .expired refused.id
        else do
          saveWithHistory { refused with orderStatus := PENDING } (some previousStatus) "system"
          return .redispatch refused.id

/-- The transaction of `acceptDispatch`. -/
def acceptDispatch (orderId : OrderId) (driverId : DriverId) :
    TxProg DispatchService.AcceptResult := do
  match ← query (.lockOrder orderId) with
  | none => throw (.NotFoundException "Order not found")
  | some lockedOrder =>
      if lockedOrder.orderStatus = DRIVER_ARRIVING ∧
          lockedOrder.assignedDriverId = some driverId then return .alreadyAccepted
      else if lockedOrder.orderStatus ≠ DRIVER_ASSIGNED then
        throw (.ConflictException "Order is no longer awaiting driver response")
      else if lockedOrder.assignedDriverId ≠ some driverId then
        throw (.ForbiddenException "You are not assigned to this order")
      else do
        let previousStatus := lockedOrder.orderStatus
        let accepted := { lockedOrder with
          orderStatus := DRIVER_ARRIVING
          version := lockedOrder.version + 1 }
        saveWithHistory accepted (some previousStatus) driverId.text
        return .accepted accepted.id

/-- The transaction of `rejectDispatch`. -/
def rejectDispatch (cfg : DispatchConfig) (orderId : OrderId) (driverId : DriverId) :
    TxProg DispatchService.RejectResult := do
  match ← query (.lockOrder orderId) with
  | none => throw (.NotFoundException "Order not found")
  | some lockedOrder =>
      if lockedOrder.orderStatus = PENDING ∨ lockedOrder.orderStatus = EXPIRED then
        return .alreadyHandled
      else if lockedOrder.orderStatus ≠ DRIVER_ASSIGNED then
        throw (.ConflictException "Order is no longer awaiting driver response")
      else if lockedOrder.assignedDriverId ≠ some driverId then
        throw (.ForbiddenException "You are not assigned to this order")
      else
        let previousStatus := lockedOrder.orderStatus
        let refused := { lockedOrder with
          assignedDriverId := none
          dispatchAttempts := lockedOrder.dispatchAttempts + 1
          version := lockedOrder.version + 1
          attemptedDriverIds := lockedOrder.attemptedDriverIds ++ [driverId] }
        if refused.dispatchAttempts ≥ cfg.maxDispatchAttempts then do
          saveWithHistory { refused with orderStatus := EXPIRED } (some previousStatus)
            driverId.text
          return .expired refused.id
        else do
          saveWithHistory { refused with orderStatus := PENDING } (some previousStatus)
            driverId.text
          return .redispatch refused.id

/-- The end of both optimistic transactions. -/
def readBack (orderId : OrderId) : TxProg Order := do
  match ← query (.findOrder orderId) with
  | none => throw (.NotFoundException "Order not found")
  | some updated => return updated

/-- An optimistic transaction: update the order if it has the version that was read, insert the
history row, and read the order back. -/
def updateVersioned (orderId : OrderId) (version : ℕ) (set : Order → Order)
    (history : OrderStatusHistory) : TxProg Order := do
  match ← query (.updateOrder orderId version set) with
  | false => throw (.ConflictException "Order was modified by another request, please retry")
  | true => do
      query (.insertHistory history)
      readBack orderId

/-- The transaction of `updateStatus`. -/
def updateStatus (orderId : OrderId) (order : Order) (newStatus : OrderStatus) (user : JwtUser) :
    TxProg Order :=
  updateVersioned orderId order.version
    (fun row => { row with orderStatus := newStatus, version := order.version + 1 })
    { orderId := orderId
      previousStatus := some order.orderStatus
      newStatus := newStatus
      actorId := user.userId.text }

/-- The transaction of `reassignOrder`. -/
def reassignOrder (orderId : OrderId) (order : Order) (user : JwtUser) : TxProg Order :=
  updateVersioned orderId order.version
    (fun row => { row with
      orderStatus := PENDING
      assignedDriverId := none
      dispatchAttempts := 0
      attemptedDriverIds := []
      version := order.version + 1 })
    { orderId := orderId
      previousStatus := some EXPIRED
      newStatus := PENDING
      actorId := user.userId.text }

/-- The query of `toggleSuspension`, which is refused before it waits for a row. -/
def lockDriverWithUser (_driverId : DriverId) : TxProg (Option Driver) :=
  throw DriversService.lockRefused

/-- The transaction of `toggleSuspension`. -/
def toggleSuspension (driverId : DriverId) : TxProg Driver := do
  match ← lockDriverWithUser driverId with
  | none => throw (.NotFoundException "Driver not found")
  | some driver => do
      let driver := if !driver.isSuspended && driver.onlineStatus
        then { driver with onlineStatus := false } else driver
      let driver := { driver with isSuspended := !driver.isSuspended }
      query (.saveDriver driver)
      return driver

/-- The statements of a transaction, if it is not one step. -/
def body (cfg : DispatchConfig) : (t : Transaction) → Option (TxProg t.Result)
  | .createOrder .. => none
  | .assignDriverWithLock orderId candidateDrivers =>
      some (assignDriverWithLock orderId candidateDrivers)
  | .expireOrder orderId => some (expireOrder orderId)
  | .handleDispatchTimeout orderId driverId => some (handleDispatchTimeout cfg orderId driverId)
  | .acceptDispatch orderId driverId => some (acceptDispatch orderId driverId)
  | .rejectDispatch orderId driverId => some (rejectDispatch cfg orderId driverId)
  | .updateStatus orderId order newStatus user => some (updateStatus orderId order newStatus user)
  | .reassignOrder orderId order user => some (reassignOrder orderId order user)
  | .toggleSuspension driverId => some (toggleSuspension driverId)
  | .promoteToDriver .. => none

end Manager

/-! ## Transactions with nothing between their statements -/

namespace Manager

section Alone

variable {ch : Choice} {locked : List Row} {db : Db} {cfg : DispatchConfig} {tx : OpenTx}

/-- Execute statements one after the other, while others hold the rows `locked`. -/
def alone (ch : Choice) (locked : List Row) (db : Db) (s : Statement) (tx : OpenTx) :
    Except Error s.Answer × OpenTx :=
  (.ok (s.exec ch locked db tx).1, (s.exec ch locked db tx).2)

/-- The end of a transaction: what it has written is committed, or gone if it has thrown. -/
def settle {α : Type} (db : Db) : Except Error α × OpenTx → Except Error (α × Db)
  | (.ok a, tx) => .ok (a, tx.writes db)
  | (.error err, _) => .error err

@[simp] theorem settle_ok {α : Type} (a : α) (tx : OpenTx) :
    settle db (.ok a, tx) = .ok (a, tx.writes db) := rfl

@[simp] theorem settle_error {α : Type} (err : Error) (tx : OpenTx) :
    settle db ((.error err, tx) : Except Error α × OpenTx) = .error err := rfl

/-- A statement, and what goes on with its answer. -/
theorem run_query_bind {α : Type} (s : Statement) (f : s.Answer → TxProg α) (tx : OpenTx) :
    (query s >>= f).run (alone ch locked db) tx =
      (f (s.answer locked (tx.writes db))).run (alone ch locked db)
        ((tx.hold (s.takes (s.answer locked (tx.writes db)))).write (s.writes ch)) :=
  Program.run_perform_bind _ f rfl

theorem run_query (s : Statement) (tx : OpenTx) :
    (query s).run (alone ch locked db) tx =
      (.ok (s.answer locked (tx.writes db)),
        (tx.hold (s.takes (s.answer locked (tx.writes db)))).write (s.writes ch)) :=
  Program.run_perform _ s tx

/-- What saving an order with its history row leaves. -/
theorem settle_saveWithHistory {α : Type} (order : Order) (previousStatus : Option OrderStatus)
    (actorId : String) (a : α) (tx : OpenTx) :
    settle db ((saveWithHistory order previousStatus actorId >>= fun _ => pure a).run
        (alone ch locked db) tx) =
      .ok (a, (tx.writes db).saveWithHistory order previousStatus actorId ch.now) := by
  rw [Program.run_bind, saveWithHistory, run_query_bind, run_query]
  rfl

theorem settle_expireOrder (orderId : OrderId) :
    settle db ((expireOrder orderId).run (alone ch locked db) .begun) =
      DispatchService.expireOrderTx ch orderId db := by
  rw [expireOrder, DispatchService.expireOrderTx, run_query_bind]
  simp only [Statement.answer, OpenTx.begun_writes]
  cases hfind : db.findOrder orderId with
  | none => rfl
  | some order =>
      dsimp only
      split
      · rfl
      · exact settle_saveWithHistory _ _ _ () _

theorem settle_handleDispatchTimeout (orderId : OrderId) (driverId : DriverId) :
    settle db ((handleDispatchTimeout cfg orderId driverId).run (alone ch locked db) .begun) =
      DispatchService.handleDispatchTimeoutTx cfg ch orderId driverId db := by
  rw [handleDispatchTimeout, DispatchService.handleDispatchTimeoutTx, run_query_bind]
  simp only [Statement.answer, OpenTx.begun_writes]
  cases hfind : db.findOrder orderId with
  | none => rfl
  | some order =>
      dsimp only
      split
      · rfl
      · split
        · rfl
        · split
          · rfl
          · split
            · exact settle_saveWithHistory _ _ _ _ _
            · exact settle_saveWithHistory _ _ _ _ _

theorem settle_acceptDispatch (orderId : OrderId) (driverId : DriverId) :
    settle db ((acceptDispatch orderId driverId).run (alone ch locked db) .begun) =
      DispatchService.acceptDispatchTx ch orderId driverId db := by
  rw [acceptDispatch, DispatchService.acceptDispatchTx, run_query_bind]
  simp only [Statement.answer, OpenTx.begun_writes]
  cases hfind : db.findOrder orderId with
  | none => rfl
  | some order =>
      dsimp only
      split
      · rfl
      · split
        · rfl
        · split
          · rfl
          · exact settle_saveWithHistory _ _ _ _ _

theorem settle_rejectDispatch (orderId : OrderId) (driverId : DriverId) :
    settle db ((rejectDispatch cfg orderId driverId).run (alone ch locked db) .begun) =
      DispatchService.rejectDispatchTx cfg ch orderId driverId db := by
  rw [rejectDispatch, DispatchService.rejectDispatchTx, run_query_bind]
  simp only [Statement.answer, OpenTx.begun_writes]
  cases hfind : db.findOrder orderId with
  | none => rfl
  | some order =>
      dsimp only
      split
      · rfl
      · split
        · rfl
        · split
          · rfl
          · split
            · exact settle_saveWithHistory _ _ _ _ _
            · exact settle_saveWithHistory _ _ _ _ _

/-- What is read back is the order as the transaction has written it. -/
theorem settle_readBack (orderId : OrderId) (tx : OpenTx) :
    settle db ((readBack orderId).run (alone ch locked db) tx) =
      OrdersService.readBack (tx.writes db) orderId := by
  rw [readBack, OrdersService.readBack, run_query_bind]
  simp only [Statement.answer]
  cases hread : (tx.writes db).findOrder orderId with
  | none => rfl
  | some updated => rfl

/-- An optimistic transaction is one that updates the row of its version, and reads it back. -/
theorem settle_updateVersioned (orderId : OrderId) (version : ℕ) (set : Order → Order)
    (history : OrderStatusHistory) :
    settle db ((updateVersioned orderId version set history).run (alone ch locked db) .begun) =
      match (db.orders.find orderId).filter fun row => row.version = version with
      | none => .error (.ConflictException "Order was modified by another request, please retry")
      | some row => OrdersService.readBack
          { db with
            orders := db.orders.put { set row with updatedAt := ch.now }
            history := db.history ++ [history] } orderId := by
  rw [updateVersioned, run_query_bind]
  cases hfind : (db.orders.find orderId).filter fun row => row.version = version with
  | none =>
      have hanswer : (Statement.updateOrder orderId version set).answer locked db = false := by
        simp only [Statement.answer, hfind, Option.isSome_none]
      rw [OpenTx.begun_writes, hanswer]
      rfl
  | some row =>
      have hanswer : (Statement.updateOrder orderId version set).answer locked db = true := by
        simp only [Statement.answer, hfind, Option.isSome_some]
      rw [OpenTx.begun_writes, hanswer]
      dsimp only
      rw [run_query_bind, settle_readBack]
      simp only [OpenTx.write_writes, OpenTx.hold_writes, Statement.writes, OpenTx.begun_writes,
        hfind]

theorem settle_updateStatus (orderId : OrderId) (order : Order) (newStatus : OrderStatus)
    (user : JwtUser) :
    settle db ((updateStatus orderId order newStatus user).run (alone ch locked db) .begun) =
      OrdersService.updateStatusTx ch orderId order newStatus user db := by
  rw [updateStatus, settle_updateVersioned, OrdersService.updateStatusTx]
  cases hrow : (db.orders.find orderId).filter fun row => row.version = order.version with
  | none => rfl
  | some row =>
      have hid : row.id = orderId := Table.key_of_find (Option.filter_eq_some_iff.mp hrow).1
      subst hid
      rfl

theorem settle_reassignOrder (orderId : OrderId) (order : Order) (user : JwtUser) :
    settle db ((reassignOrder orderId order user).run (alone ch locked db) .begun) =
      OrdersService.reassignOrderTx ch orderId order user db := by
  rw [reassignOrder, settle_updateVersioned, OrdersService.reassignOrderTx]
  cases hrow : (db.orders.find orderId).filter fun row => row.version = order.version with
  | none => rfl
  | some row =>
      have hid : row.id = orderId := Table.key_of_find (Option.filter_eq_some_iff.mp hrow).1
      subst hid
      rfl

theorem settle_toggleSuspension (driverId : DriverId) :
    settle db ((toggleSuspension driverId).run (alone ch locked db) .begun) =
      DriversService.toggleSuspensionTx driverId db := by
  rfl

/-- The loop over the candidates assigns the first one that is not attempted and that it gets. -/
theorem settle_tryCandidates (lockedOrder : Order) (attemptedDriverIds : List DriverId)
    (cands : List Driver) (tx : OpenTx) (hwrites : tx.writes db = db) :
    settle db ((tryCandidates lockedOrder attemptedDriverIds cands).run
        (alone ch (ch.skipLocked.map Row.driver) db) tx) =
      match DispatchService.lockFirst db ch.skipLocked attemptedDriverIds
          lockedOrder.vehincleType cands with
      | none => .ok (none, db)
      | some lockedDriver => .ok (some lockedDriver.id,
          db.saveWithHistory { lockedOrder with
            assignedDriverId := some lockedDriver.id
            orderStatus := DRIVER_ASSIGNED
            dispatchAttempts := lockedOrder.dispatchAttempts + 1
            version := lockedOrder.version + 1
            attemptedDriverIds := attemptedDriverIds ++ [lockedDriver.id] }
            (some lockedOrder.orderStatus) "system" ch.now) := by
  induction cands generalizing tx with
  | nil =>
      rw [tryCandidates, DispatchService.lockFirst, Program.run_pure, settle_ok, hwrites]
  | cons candidate rest ih =>
      rw [tryCandidates, DispatchService.lockFirst]
      by_cases hatt : candidate.id ∈ attemptedDriverIds
      · rw [if_pos hatt, if_pos hatt]
        exact ih tx hwrites
      · rw [if_neg hatt, if_neg hatt, run_query_bind]
        have hanswer : (Statement.lockDriver candidate.id lockedOrder.vehincleType).answer
            (ch.skipLocked.map Row.driver) (tx.writes db) =
            DispatchService.lockDriver db ch.skipLocked candidate.id lockedOrder.vehincleType := by
          simp [Statement.answer, DispatchService.lockDriver, hwrites]
        rw [hanswer]
        cases hlock : DispatchService.lockDriver db ch.skipLocked candidate.id
            lockedOrder.vehincleType with
        | none => exact ih _ hwrites
        | some lockedDriver =>
            dsimp only
            rw [run_query_bind, run_query_bind, run_query_bind, Program.run_pure, settle_ok]
            simp [Statement.writes, hwrites, Db.saveWithHistory]

theorem settle_assignDriverWithLock (orderId : OrderId) (candidateDrivers : List Driver) :
    settle db ((assignDriverWithLock orderId candidateDrivers).run
        (alone ch (ch.skipLocked.map Row.driver) db) .begun) =
      DispatchService.assignDriverWithLockTx ch orderId candidateDrivers db := by
  rw [assignDriverWithLock, DispatchService.assignDriverWithLockTx, run_query_bind]
  simp only [Statement.answer, OpenTx.begun_writes]
  cases hfind : db.findOrder orderId with
  | none => rfl
  | some order =>
      dsimp only
      split
      · rfl
      · exact settle_tryCandidates _ _ _ _ rfl

end Alone

/-- **The statements of a transaction, with nothing between them, are the step that
`Database.lean` takes it for**, the drivers that are skipped being those that others hold. -/
theorem settle_body {cfg : DispatchConfig} {ch : Choice} {db : Db} {t : Transaction}
    {p : TxProg t.Result} (h : body cfg t = some p) :
    settle db (p.run (alone ch (ch.skipLocked.map Row.driver) db) .begun) = t.run cfg ch db := by
  cases t with
  | createOrder => cases h
  | promoteToDriver => cases h
  | assignDriverWithLock orderId cands =>
      obtain rfl := Option.some.inj h
      exact settle_assignDriverWithLock orderId cands
  | expireOrder orderId =>
      obtain rfl := Option.some.inj h
      exact settle_expireOrder orderId
  | handleDispatchTimeout orderId driverId =>
      obtain rfl := Option.some.inj h
      exact settle_handleDispatchTimeout orderId driverId
  | acceptDispatch orderId driverId =>
      obtain rfl := Option.some.inj h
      exact settle_acceptDispatch orderId driverId
  | rejectDispatch orderId driverId =>
      obtain rfl := Option.some.inj h
      exact settle_rejectDispatch orderId driverId
  | updateStatus orderId order newStatus user =>
      obtain rfl := Option.some.inj h
      exact settle_updateStatus orderId order newStatus user
  | reassignOrder orderId order user =>
      obtain rfl := Option.some.inj h
      exact settle_reassignOrder orderId order user
  | toggleSuspension driverId =>
      obtain rfl := Option.some.inj h
      exact settle_toggleSuspension driverId

end Manager

end LogisticsDispatch
