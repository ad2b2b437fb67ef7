/-
What each transaction does to an order: nothing, or one move of its life.

`Db.move` makes a move of the abstract model on the database: on the row of an order
that is not soft-deleted, with the history row that goes with it. The theorems below
say of each transaction that, when it does not throw, it leaves the database alone or
is `Db.move` with a certain move. The transactions that lock the row (`dispatch`) meet
this outright; the two that update by version need their copy of the order to be the
row whenever the versions agree, which is what `Contract.lean` provides.

Callers use these and never look into a transaction again.
-/
import LogisticsDispatch.Lifecycle
import LogisticsDispatch.Effects

set_option autoImplicit false

namespace LogisticsDispatch

open OrderStatus Lifecycle

/-! ## The ticket of an order -/

/-- The ticket of a row. -/
def Order.ticket (order : Order) : Ticket DriverId where
  status := order.orderStatus
  driver := order.assignedDriverId
  attempts := order.dispatchAttempts
  attempted := order.attemptedDriverIds
  version := order.version

/-- The row with another ticket. -/
def Order.withTicket (order : Order) (t : Ticket DriverId) : Order :=
  { order with
    orderStatus := t.status
    assignedDriverId := t.driver
    dispatchAttempts := t.attempts
    attemptedDriverIds := t.attempted
    version := t.version }

/-! ## Moves on the database -/

namespace Db

/-- Make a move on an order, by an actor. -/
def move (cfg : DispatchConfig) (orderId : OrderId) (m : Move DriverId) (actorId : String)
    (now : ℕ) (db : Db) : Option Db :=
  (db.findOrder orderId).bind fun row =>
    (m.apply cfg.maxDispatchAttempts row.ticket).map fun t =>
      db.saveWithHistory (row.withTicket t) (some row.orderStatus) actorId now

variable {cfg : DispatchConfig} {db db' : Db} {o o' : OrderId} {m : Move DriverId} {actor : String}
  {now : ℕ} {order row : Order} {prev : Option OrderStatus}

/-- A move that can be made on the row that is found. -/
theorem move_of (hrow : db.findOrder o = some row) {t : Ticket DriverId}
    (ht : m.apply cfg.maxDispatchAttempts row.ticket = some t) :
    db.move cfg o m actor now
      = some (db.saveWithHistory (row.withTicket t) (some row.orderStatus) actor now) := by
  rw [move, hrow, Option.bind_some, ht]
  rfl

theorem move_eq_some (h : db.move cfg o m actor now = some db') :
    ∃ row t, db.findOrder o = some row ∧ m.apply cfg.maxDispatchAttempts row.ticket = some t ∧
      db' = db.saveWithHistory (row.withTicket t) (some row.orderStatus) actor now := by
  simp only [move, Option.bind_eq_some_iff, Option.map_eq_some_iff] at h
  obtain ⟨row, hrow, t, ht, rfl⟩ := h
  exact ⟨row, t, hrow, ht, rfl⟩

/-! ### What writing an order with its history row does -/

theorem saveWithHistory_find (h : order.id = o) :
    (db.saveWithHistory order prev actor now).orders.find o
      = some { order with updatedAt := now } :=
  Table.find_put_of_eq h

theorem saveWithHistory_find_of_ne (h : o ≠ order.id) :
    (db.saveWithHistory order prev actor now).orders.find o = db.orders.find o :=
  Table.find_put_of_ne h

theorem saveWithHistory_historyOf (h : order.id = o) :
    (db.saveWithHistory order prev actor now).historyOf o
      = db.historyOf o ++ [⟨o, prev, order.orderStatus, actor⟩] := by
  subst h
  simp [saveWithHistory, historyOf, List.filter_append]

theorem saveWithHistory_historyOf_of_ne (h : o ≠ order.id) :
    (db.saveWithHistory order prev actor now).historyOf o = db.historyOf o := by
  have hne : order.id ≠ o := fun heq => h heq.symm
  simp [saveWithHistory, historyOf, List.filter_append, hne]

@[simp] theorem saveOutbox_orders (db : Db) (row : OutboxEvent) :
    (db.saveOutbox row).orders = db.orders := rfl

@[simp] theorem saveOutbox_historyOf (db : Db) (row : OutboxEvent) (o : OrderId) :
    (db.saveOutbox row).historyOf o = db.historyOf o := rfl

/-- All that a move does: to the row of its order, to the history, and to nothing
else. -/
theorem move_spec (h : db.move cfg o m actor now = some db') :
    ∃ row t, db.orders.find o = some row ∧ row.deletedAt = none ∧
      m.apply cfg.maxDispatchAttempts row.ticket = some t ∧
      db'.orders.find o = some { row.withTicket t with updatedAt := now } ∧
      db'.historyOf o = db.historyOf o ++ [⟨o, some row.orderStatus, t.status, actor⟩] ∧
      (∀ o', o' ≠ o → db'.orders.find o' = db.orders.find o' ∧
        db'.historyOf o' = db.historyOf o') ∧
      db'.drivers = db.drivers ∧ db'.outbox = db.outbox := by
  obtain ⟨row, t, hrow, ht, rfl⟩ := move_eq_some h
  obtain ⟨hfind, hdel⟩ := findOrder_eq_some.mp hrow
  have hid : row.id = o := id_of_findOrder hrow
  have hid : (row.withTicket t).id = o := hid
  refine ⟨row, t, hfind, hdel, ht, saveWithHistory_find hid, saveWithHistory_historyOf hid, ?_,
    rfl, rfl⟩
  intro o' hne
  rw [← hid] at hne
  exact ⟨saveWithHistory_find_of_ne hne, saveWithHistory_historyOf_of_ne hne⟩

/-- An order that is found after a move of it has the status the move led to. -/
theorem status_of_move (h : db.move cfg o m actor now = some db') {row' : Order}
    (hrow' : db'.findOrder o = some row') :
    ∃ t t', m.apply cfg.maxDispatchAttempts t = some t' ∧ row'.orderStatus = t'.status := by
  obtain ⟨row, t', -, -, ht', hfind, -⟩ := move_spec h
  have hfound := (findOrder_eq_some.mp hrow').1
  rw [hfind] at hfound
  obtain rfl := Option.some.inj hfound
  exact ⟨row.ticket, t', ht', rfl⟩

end Db

/-! ## `DispatchService` -/

namespace DispatchService

variable {cfg : DispatchConfig} {ch : Choice} {db db' : Db} {o : OrderId} {d : DriverId}
  {row : Order}

/-- An assignment is skipped unless the order waits. -/
theorem shouldSkipAssignment_eq_false : shouldSkipAssignment row = false ↔
    row.orderStatus = PENDING := by
  unfold shouldSkipAssignment terminalStatuses
  cases row.orderStatus <;> simp

/-- Uuids are not empty, so the set of attempted drivers leaves none out. -/
theorem attemptedSet_eq : attemptedSet row = row.attemptedDriverIds.eraseDups := by
  -- the source keeps only ids with `id?.length > 0`, and that drops none here
  have hall : ∀ u : Uuid, (decide (u.text.length > 0)) = true := by
    intro u
    have hne := u.nonempty
    rw [decide_eq_true_iff, gt_iff_lt, Nat.pos_iff_ne_zero, Ne, String.length_eq_zero_iff]
    exact hne
  have hfilter : row.attemptedDriverIds.filter (fun u => decide (u.text.length > 0))
      = row.attemptedDriverIds := by
    rw [List.filter_eq_self]
    exact fun u _ => hall u
  rw [attemptedSet, hfilter]

/-- The loop over the candidates can lock this one for an order: it was not offered the
order in this round, and the query finds it. -/
def Free (ch : Choice) (db : Db) (row : Order) (candidate : Driver) : Prop :=
  candidate.id ∉ row.attemptedDriverIds ∧
    (lockDriver db ch.skipLocked candidate.id row.vehincleType).isSome

/-- What the query for a candidate finds. -/
theorem lockDriver_eq_some {skip : List DriverId} {v : VehincleType} {driver : Driver}
    (h : lockDriver db skip d v = some driver) :
    driver.id = d ∧ db.drivers.find d = some driver ∧ driver.vehincleType = v := by
  unfold lockDriver at h
  split at h
  -- a row that another transaction has locked is skipped
  · cases h
  · obtain ⟨hfind, hok⟩ := Option.filter_eq_some_iff.mp h
    simp only [Bool.and_eq_true, decide_eq_true_eq] at hok
    exact ⟨Table.key_of_find hfind, hfind, hok.2⟩

/-- The loop over the candidates stops at the first one that is free. -/
theorem lockFirst_eq_some_iff {cands : List Driver} {driver : Driver} :
    lockFirst db ch.skipLocked (attemptedSet row) row.vehincleType cands = some driver ↔
      ∃ passed candidate rest, cands = passed ++ candidate :: rest ∧
        (∀ c ∈ passed, ¬ Free ch db row c) ∧ Free ch db row candidate ∧
        lockDriver db ch.skipLocked candidate.id row.vehincleType = some driver := by
  have hatt : ∀ d, d ∈ attemptedSet row ↔ d ∈ row.attemptedDriverIds := by
    intro d
    rw [attemptedSet_eq, List.mem_eraseDups]
  -- by induction on the candidates: the head is free, and the loop stops at it, or it is
  -- not, and both sides go on with the rest
  induction cands with
  | nil => simp [lockFirst]
  | cons cand rest ih =>
      by_cases hfree : Free ch db row cand
      · obtain ⟨hnew, hlock⟩ := hfree
        obtain ⟨locked, hlocked⟩ := Option.isSome_iff_exists.mp hlock
        have hhead : lockFirst db ch.skipLocked (attemptedSet row) row.vehincleType (cand :: rest)
            = some locked := by
          rw [lockFirst, if_neg (by rwa [hatt]), hlocked]
        rw [hhead]
        constructor
        · intro h
          exact ⟨[], cand, rest, rfl, by simp, ⟨hnew, hlock⟩, hlocked.trans h⟩
        · rintro ⟨passed, candidate, rest', hcands, hpassed, -, hlock'⟩
          cases passed with
          | nil =>
              obtain ⟨rfl, rfl⟩ := List.cons.inj hcands
              rw [← hlocked, hlock']
          | cons c passed =>
              obtain ⟨rfl, -⟩ := List.cons.inj hcands
              exact absurd ⟨hnew, hlock⟩ (hpassed cand List.mem_cons_self)
      · have hskip : lockFirst db ch.skipLocked (attemptedSet row) row.vehincleType (cand :: rest)
            = lockFirst db ch.skipLocked (attemptedSet row) row.vehincleType rest := by
          rw [lockFirst]
          -- skipped as attempted, or the query for it finds no row
          split
          · rfl
          · next hnew =>
              rw [hatt] at hnew
              have hnone : lockDriver db ch.skipLocked cand.id row.vehincleType = none := by
                rw [← Option.not_isSome_iff_eq_none]
                exact fun h => hfree ⟨hnew, h⟩
              rw [hnone]
        rw [hskip]
        refine ih.trans ?_
        constructor
        · rintro ⟨passed, candidate, rest', rfl, hpassed, h⟩
          refine ⟨cand :: passed, candidate, rest', rfl, ?_, h⟩
          intro c hc
          rcases List.mem_cons.mp hc with rfl | hc
          · exact hfree
          · exact hpassed c hc
        · rintro ⟨passed, candidate, rest', hcands, hpassed, h⟩
          cases passed with
          | nil =>
              obtain ⟨rfl, -⟩ := List.cons.inj hcands
              exact absurd h.1 hfree
          | cons c passed =>
              obtain ⟨rfl, rfl⟩ := List.cons.inj hcands
              exact ⟨passed, candidate, rest', rfl,
                fun c hc => hpassed c (List.mem_cons_of_mem _ hc), h⟩

/-- What the driver found by the loop over the candidates is. -/
theorem lockFirst_eq_some {cands : List Driver} {driver : Driver}
    (h : lockFirst db ch.skipLocked (attemptedSet row) row.vehincleType cands = some driver) :
    driver.id ∉ row.attemptedDriverIds ∧ db.drivers.find driver.id = some driver ∧
      driver.vehincleType = row.vehincleType := by
  obtain ⟨passed, candidate, rest, -, -, hfree, hlock⟩ := lockFirst_eq_some_iff.mp h
  obtain ⟨hid, hfind, hvehincle⟩ := lockDriver_eq_some hlock
  rw [hid]
  exact ⟨hfree.1, hfind, hvehincle⟩

theorem assignDriverWithLockTx_ok {cands : List Driver} {res : Option DriverId}
    (h : assignDriverWithLockTx ch o cands db = .ok (res, db')) :
    res = none ∧ db' = db ∨
      ∃ row driver, db.findOrder o = some row ∧ row.orderStatus = PENDING ∧
        lockFirst db ch.skipLocked (attemptedSet row) row.vehincleType cands = some driver ∧
        res = some driver.id ∧
        db.move cfg o (.offer driver.id) "system" ch.now = some db' := by
  unfold assignDriverWithLockTx at h
  split at h
  · cases h
    exact .inl ⟨rfl, rfl⟩
  · next row hrow =>
      split at h
      -- no row or a row that does not wait: `return null`, with nothing written
      · cases h
        exact .inl ⟨rfl, rfl⟩
      · next hskip =>
          have hs : row.orderStatus = PENDING :=
            shouldSkipAssignment_eq_false.mp (Bool.eq_false_iff.mpr hskip)
          dsimp only at h
          split at h
          · cases h
            exact .inl ⟨rfl, rfl⟩
          · next driver hlock =>
              have hnew : driver.id ∉ row.ticket.attempted := (lockFirst_eq_some hlock).1
              refine .inr ⟨row, driver, hrow, hs, hlock, ?_⟩
              cases h
              refine ⟨rfl, ?_⟩
              rw [Db.move_of hrow (apply_offer hs hnew), attemptedSet_eq]
              rfl

/-- An assignment does not throw. -/
theorem assignDriverWithLockTx_ne_error {cands : List Driver} {err : Error} :
    assignDriverWithLockTx ch o cands db ≠ .error err := by
  unfold assignDriverWithLockTx
  split
  · nofun
  split
  · nofun
  dsimp only
  split <;> nofun

/-- On an order that waits, the first free candidate is assigned. -/
theorem assignDriverWithLockTx_waiting {cands : List Driver} {driver : Driver}
    (hrow : db.findOrder o = some row) (hs : row.orderStatus = PENDING)
    (hlock : lockFirst db ch.skipLocked (attemptedSet row) row.vehincleType cands = some driver) :
    ∃ db', assignDriverWithLockTx ch o cands db = .ok (some driver.id, db') ∧
      db.move cfg o (.offer driver.id) "system" ch.now = some db' := by
  have hnew : driver.id ∉ row.ticket.attempted := (lockFirst_eq_some hlock).1
  have hskip : ¬ shouldSkipAssignment row = true := by
    rw [shouldSkipAssignment_eq_false.mpr hs]
    exact Bool.false_ne_true
  have hmove : db.move cfg o (.offer driver.id) "system" ch.now = _ :=
    Db.move_of hrow (apply_offer hs hnew)
  unfold assignDriverWithLockTx
  rw [hrow]
  dsimp only
  rw [if_neg hskip, hlock]
  refine ⟨_, rfl, ?_⟩
  rw [hmove, attemptedSet_eq]
  rfl

/-- `expireOrder` expires the order if it waits. -/
theorem expireOrderTx_eq (cfg : DispatchConfig) : expireOrderTx ch o db
    = .ok ((), (db.move cfg o .expire "system" ch.now).getD db) := by
  unfold expireOrderTx
  split
  · next hrow => rw [Db.move, hrow, Option.bind_none, Option.getD_none]
  · next row hrow =>
      split
      -- a row that does not wait stays, and no move expires it either
      · next hskip =>
          have hs : row.orderStatus ≠ PENDING := by
            intro hs
            rw [shouldSkipAssignment_eq_false.mpr hs] at hskip
            cases hskip
          have hno : (Move.expire : Move DriverId).apply cfg.maxDispatchAttempts row.ticket
              = none := apply_expire_eq_none hs
          rw [Db.move, hrow, Option.bind_some, hno]
          rfl
      · next hskip =>
          have hs : row.orderStatus = PENDING :=
            shouldSkipAssignment_eq_false.mp (Bool.eq_false_iff.mpr hskip)
          rw [Db.move_of hrow (apply_expire hs)]
          rfl

/-- After `expireOrder` the order does not wait. -/
theorem expireOrderTx_settles : ∃ db', expireOrderTx ch o db = .ok ((), db') ∧
    ∀ row, db'.findOrder o = some row → row.orderStatus ≠ PENDING := by
  unfold expireOrderTx
  split
  · next hnone =>
      refine ⟨db, rfl, fun row hrow => ?_⟩
      rw [hnone] at hrow
      cases hrow
  · next row hrow =>
      split
      · next hskip =>
          refine ⟨db, rfl, fun row' hrow' hs => ?_⟩
          rw [hrow] at hrow'
          obtain rfl := Option.some.inj hrow'
          rw [shouldSkipAssignment_eq_false.mpr hs] at hskip
          cases hskip
      -- what was saved has expired
      · refine ⟨_, rfl, fun row' hrow' => ?_⟩
        have hid : row.id = o := Db.id_of_findOrder hrow
        have hfound := (Db.findOrder_eq_some.mp hrow').1
        rw [Db.saveWithHistory_find (by exact hid)] at hfound
        obtain rfl := Option.some.inj hfound
        exact fun hs => by cases hs

theorem handleDispatchTimeoutTx_ok {res : TimeoutResult}
    (h : handleDispatchTimeoutTx cfg ch o d db = .ok (res, db')) :
    res = .skip ∧ db' = db ∨
      (res = .expired o ∧ (db'.orders.find o).map Order.orderStatus = some EXPIRED ∨
        res = .redispatch o) ∧
        db.move cfg o (.timeout d) "system" ch.now = some db' := by
  unfold handleDispatchTimeoutTx at h
  split at h
  · cases h
    exact .inl ⟨rfl, rfl⟩
  · next row hrow =>
      have hid : row.id = o := Db.id_of_findOrder hrow
      -- the three ways out before anything is written: a terminal status, not assigned any
      -- more, assigned to someone else
      split at h
      · cases h
        exact .inl ⟨rfl, rfl⟩
      split at h
      · cases h
        exact .inl ⟨rfl, rfl⟩
      split at h
      · cases h
        exact .inl ⟨rfl, rfl⟩
      next hs hd =>
        have hmove : db.move cfg o (.timeout d) "system" ch.now = _ :=
          Db.move_of hrow (apply_timeout (not_not.mp hs) (not_not.mp hd))
        right
        dsimp only at h
        -- the cap decides between `EXPIRED` and `PENDING`, as `refused` does
        split at h
        · next hmax =>
            rw [refused_of_ge (t := row.ticket) hmax] at hmove
            cases h
            refine ⟨.inl ⟨by rw [← hid], ?_⟩, hmove⟩
            rw [Db.saveWithHistory_find (by exact hid)]
            rfl
        · next hmax =>
            rw [refused_of_not_ge (t := row.ticket) hmax] at hmove
            cases h
            exact ⟨.inr (by rw [← hid]), hmove⟩

/-- What a timeout answers decides what it has made of the order. -/
theorem handleDispatchTimeoutTx_redispatch {r : OrderId}
    (h : handleDispatchTimeoutTx cfg ch o d db = .ok (.redispatch r, db')) :
    (db'.orders.find o).map Order.orderStatus = some PENDING := by
  unfold handleDispatchTimeoutTx at h
  split at h
  · cases h
  · next row hrow =>
      have hid : row.id = o := Db.id_of_findOrder hrow
      split at h
      · cases h
      split at h
      · cases h
      split at h
      · cases h
      dsimp only at h
      split at h
      · cases h
      · cases h
        rw [Db.saveWithHistory_find (by exact hid)]
        rfl

theorem rejectDispatchTx_ok {res : RejectResult}
    (h : rejectDispatchTx cfg ch o d db = .ok (res, db')) :
    res = .alreadyHandled ∧ db' = db ∨
      (res = .expired o ∧ (db'.orders.find o).map Order.orderStatus = some EXPIRED ∨
        res = .redispatch o) ∧
        db.move cfg o (.reject d) d.text ch.now = some db' := by
  unfold rejectDispatchTx at h
  split at h
  · cases h
  · next row hrow =>
      have hid : row.id = o := Db.id_of_findOrder hrow
      -- unlike a timeout, a rejection by the wrong driver throws; one that comes when the
      -- order is back in `PENDING` or has expired does not
      split at h
      · cases h
        exact .inl ⟨rfl, rfl⟩
      split at h
      · cases h
      split at h
      · cases h
      next hs hd =>
        have hmove : db.move cfg o (.reject d) d.text ch.now = _ :=
          Db.move_of hrow (apply_reject (not_not.mp hs) (not_not.mp hd))
        right
        dsimp only at h
        split at h
        · next hmax =>
            rw [refused_of_ge (t := row.ticket) hmax] at hmove
            cases h
            refine ⟨.inl ⟨by rw [← hid], ?_⟩, hmove⟩
            rw [Db.saveWithHistory_find (by exact hid)]
            rfl
        · next hmax =>
            rw [refused_of_not_ge (t := row.ticket) hmax] at hmove
            cases h
            exact ⟨.inr (by rw [← hid]), hmove⟩

/-- What a rejection answers decides what it has made of the order. -/
theorem rejectDispatchTx_redispatch {r : OrderId}
    (h : rejectDispatchTx cfg ch o d db = .ok (.redispatch r, db')) :
    (db'.orders.find o).map Order.orderStatus = some PENDING := by
  unfold rejectDispatchTx at h
  split at h
  · cases h
  · next row hrow =>
      have hid : row.id = o := Db.id_of_findOrder hrow
      split at h
      · cases h
      split at h
      · cases h
      split at h
      · cases h
      dsimp only at h
      split at h
      · cases h
      · cases h
        rw [Db.saveWithHistory_find (by exact hid)]
        rfl

theorem acceptDispatchTx_ok {res : AcceptResult}
    (h : acceptDispatchTx ch o d db = .ok (res, db')) :
    res = .alreadyAccepted ∧ db' = db ∨
      res = .accepted o ∧ db.move cfg o (.accept d) d.text ch.now = some db' := by
  unfold acceptDispatchTx at h
  split at h
  · cases h
  · next row hrow =>
      have hid : row.id = o := Db.id_of_findOrder hrow
      -- an order that this driver has already accepted is answered with a no-op
      split at h
      · cases h
        exact .inl ⟨rfl, rfl⟩
      split at h
      · cases h
      split at h
      · cases h
      next hs hd =>
        have hmove : db.move cfg o (.accept d) d.text ch.now = _ :=
          Db.move_of hrow (apply_accept (not_not.mp hs) (not_not.mp hd))
        right
        cases h
        exact ⟨by rw [← hid], hmove⟩

/-! ### On an order that is offered

A refusal of the driver an order is offered to always goes through. -/

/-- The order is offered to the driver. -/
structure OfferedIn (db : Db) (o : OrderId) (d : DriverId) (row : Order) : Prop where
  found : db.findOrder o = some row
  status : row.orderStatus = DRIVER_ASSIGNED
  driver : row.assignedDriverId = some d

theorem handleDispatchTimeoutTx_offered (h : OfferedIn db o d row) : ∃ res db',
    handleDispatchTimeoutTx cfg ch o d db = .ok (res, db') ∧
      db.move cfg o (.timeout d) "system" ch.now = some db' := by
  have hterm : row.orderStatus ∉ terminalStatuses := by
    rw [h.status]
    decide
  have hmove : db.move cfg o (.timeout d) "system" ch.now = _ :=
    Db.move_of h.found (apply_timeout h.status h.driver)
  unfold handleDispatchTimeoutTx
  rw [h.found]
  dsimp only
  rw [if_neg hterm, if_neg (not_not.mpr h.status), if_neg (not_not.mpr h.driver)]
  by_cases hmax : row.dispatchAttempts + 1 ≥ cfg.maxDispatchAttempts
  · rw [if_pos hmax]
    rw [refused_of_ge (t := row.ticket) hmax] at hmove
    exact ⟨_, _, rfl, hmove⟩
  · rw [if_neg hmax]
    rw [refused_of_not_ge (t := row.ticket) hmax] at hmove
    exact ⟨_, _, rfl, hmove⟩

theorem rejectDispatchTx_offered (h : OfferedIn db o d row) : ∃ res db',
    rejectDispatchTx cfg ch o d db = .ok (res, db') ∧
      db.move cfg o (.reject d) d.text ch.now = some db' := by
  have hhandled : ¬ (row.orderStatus = PENDING ∨ row.orderStatus = EXPIRED) := by
    rw [h.status]
    decide
  have hmove : db.move cfg o (.reject d) d.text ch.now = _ :=
    Db.move_of h.found (apply_reject h.status h.driver)
  unfold rejectDispatchTx
  rw [h.found]
  dsimp only
  rw [if_neg hhandled, if_neg (not_not.mpr h.status), if_neg (not_not.mpr h.driver)]
  by_cases hmax : row.dispatchAttempts + 1 ≥ cfg.maxDispatchAttempts
  · rw [if_pos hmax]
    rw [refused_of_ge (t := row.ticket) hmax] at hmove
    exact ⟨_, _, rfl, hmove⟩
  · rw [if_neg hmax]
    rw [refused_of_not_ge (t := row.ticket) hmax] at hmove
    exact ⟨_, _, rfl, hmove⟩

end DispatchService

/-! ## `OrdersService` -/

namespace OrdersService

variable {cfg : DispatchConfig} {ch : Choice} {db db' : Db} {o : OrderId} {order row res : Order}
  {newStatus : OrderStatus} {user : JwtUser}

/-- Reading back returns the row, which must not be soft-deleted. -/
theorem readBack_ok (h : readBack db o = .ok (res, db')) :
    db' = db ∧ db.findOrder o = some res := by
  unfold readBack at h
  split at h
  · cases h
  · next updated hrow =>
      cases h
      exact ⟨rfl, hrow⟩

/-- What is written is read back only if the row that was overwritten was not
soft-deleted. -/
theorem readBack_saveWithHistory {prev : Option OrderStatus} {actor : String} {now : ℕ}
    (hid : order.id = o)
    (h : readBack (db.saveWithHistory order prev actor now) o = .ok (res, db')) :
    db' = db.saveWithHistory order prev actor now ∧ order.deletedAt = none ∧
      res = { order with updatedAt := now } := by
  obtain ⟨hdb, hrow⟩ := readBack_ok h
  obtain ⟨hfind, hdel⟩ := Db.findOrder_eq_some.mp hrow
  rw [Db.saveWithHistory_find hid] at hfind
  obtain rfl := Option.some.inj hfind
  exact ⟨hdb, hdel, rfl⟩

/-- What both optimistic transactions find: the row with the version of the copy. -/
theorem row_of_version
    (h : (db.orders.find o).filter (fun row => decide (row.version = order.version)) = some row) :
    db.orders.find o = some row ∧ row.version = order.version ∧ row.id = o := by
  obtain ⟨hfind, hver⟩ := Option.filter_eq_some_iff.mp h
  exact ⟨hfind, of_decide_eq_true hver, Table.key_of_find hfind⟩

/-- `updateStatus` moves the order along, if its copy and the row agree whenever
their versions do. -/
theorem updateStatusTx_ok
    (hcopy : ∀ row, db.orders.find o = some row → row.version = order.version →
      row.orderStatus = order.orderStatus)
    (hmay : newStatus ∈ ORDER_TRANSITIONS order.orderStatus ∧ newStatus ≠ DRIVER_ASSIGNED ∧
      newStatus ≠ EXPIRED)
    (h : updateStatusTx ch o order newStatus user db = .ok (res, db')) :
    (∃ row, db.orders.find o = some row ∧ row.version = order.version ∧ row.deletedAt = none ∧
      db.move cfg o (.advance newStatus) user.userId.text ch.now = some db') ∧
      db'.findOrder o = some res := by
  unfold updateStatusTx at h
  split at h
  · cases h
  · next row hrow =>
      obtain ⟨hfind, hver, hid⟩ := row_of_version hrow
      -- the update wrote what it computed from the copy; by `hcopy` the row says the same
      have hstatus := hcopy row hfind hver
      dsimp only at h
      have hback := (readBack_ok h).2
      -- the query builder overwrites deleted rows too: only the read back rules them out
      obtain ⟨rfl, hdel, -⟩ := readBack_saveWithHistory (by exact hid) h
      have hfound : db.findOrder o = some row := Db.findOrder_eq_some.mpr ⟨hfind, hdel⟩
      obtain ⟨hmem, hne, hne'⟩ := hmay
      rw [← hstatus] at hmem
      refine ⟨⟨row, hfind, hver, hdel, ?_⟩, hback⟩
      rw [Db.move_of hfound (apply_advance hmem hne hne'), ← hstatus, ← hver]
      rfl

/-- `reassignOrder` reassigns the order, if its copy had expired and agrees with the
row whenever their versions do. -/
theorem reassignOrderTx_ok
    (hcopy : ∀ row, db.orders.find o = some row → row.version = order.version →
      row.orderStatus = order.orderStatus)
    (hexp : order.orderStatus = EXPIRED)
    (h : reassignOrderTx ch o order user db = .ok (res, db')) :
    (∃ row, db.orders.find o = some row ∧ row.version = order.version ∧ row.deletedAt = none ∧
      db.move cfg o .reassign user.userId.text ch.now = some db') ∧
      db'.findOrder o = some res := by
  unfold reassignOrderTx at h
  split at h
  · cases h
  · next row hrow =>
      obtain ⟨hfind, hver, hid⟩ := row_of_version hrow
      have hstatus : row.orderStatus = EXPIRED := (hcopy row hfind hver).trans hexp
      dsimp only at h
      have hback := (readBack_ok h).2
      obtain ⟨rfl, hdel, -⟩ := readBack_saveWithHistory (by exact hid) h
      have hfound : db.findOrder o = some row := Db.findOrder_eq_some.mpr ⟨hfind, hdel⟩
      refine ⟨⟨row, hfind, hver, hdel, ?_⟩, hback⟩
      rw [Db.move_of hfound (apply_reassign hstatus), ← hver, hstatus]
      rfl

/-- All that creating an order does. -/
theorem createOrderTx_ok {dto : CreateOrderDto} {c : UserId} {p : ℚ}
    (h : createOrderTx ch dto c p db = .ok (res, db')) :
    db.orders.find ch.orderId = none ∧ db.outbox.find ch.outboxId = none ∧
      res.id = ch.orderId ∧ res.ticket = .new ∧
      (∃ row, db'.orders.find ch.orderId = some row ∧ row.ticket = .new ∧ row.deletedAt = none ∧
        row.customerId = c ∧ row.vehincleType = dto.vehincleType) ∧
      db'.historyOf ch.orderId = db.historyOf ch.orderId ++
        [⟨ch.orderId, none, PENDING, c.text⟩] ∧
      (∀ o', o' ≠ ch.orderId → db'.orders.find o' = db.orders.find o' ∧
        db'.historyOf o' = db.historyOf o') ∧
      db'.drivers = db.drivers ∧
      db'.outbox = db.outbox.put ⟨ch.outboxId, "dispatch.trigger", some ch.orderId, .PENDING, 0,
        none, ch.now, none⟩ := by
  unfold createOrderTx at h
  split at h
  -- ids come from the database, so they are new
  · cases h
  · next hfree =>
      rw [not_or, Bool.not_eq_true, Bool.not_eq_true, Option.isSome_eq_false_iff,
        Option.isSome_eq_false_iff, Option.isNone_iff_eq_none, Option.isNone_iff_eq_none] at hfree
      cases h
      refine ⟨hfree.1, hfree.2, rfl, rfl, ?_, ?_, ?_, rfl, rfl⟩
      · rw [Db.saveOutbox_orders]
        exact ⟨_, Db.saveWithHistory_find rfl, rfl, rfl, rfl, rfl⟩
      · rw [Db.saveOutbox_historyOf]
        exact Db.saveWithHistory_historyOf rfl
      · intro o' hne
        rw [Db.saveOutbox_orders, Db.saveOutbox_historyOf]
        exact ⟨Db.saveWithHistory_find_of_ne hne, Db.saveWithHistory_historyOf_of_ne hne⟩

end OrdersService

end LogisticsDispatch
