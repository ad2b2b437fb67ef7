/-
What the tables keep for good.

`createOrder` checks and stores an order and, in the same transaction, the outbox event
that asks for its dispatch. From then on the columns an order was created with stay,
whatever the other calls write (`order_booked`, `order_kept`), a deleted order is written no
more, and orders and events go together one to one (`outbox_matches_orders`): there is no
order that dispatch will never hear of, and no event about an order that is not there.
-/
import LogisticsDispatch.Attribution
import LogisticsDispatch.KeyIsolation

set_option autoImplicit false

namespace LogisticsDispatch

open OrderStatus Lifecycle Resumable Resumable.Program

variable {Q : Type} [JobQueue Q JobId JobData] {cfg : DispatchConfig} {s s' : Sys Q} {a : Action}
  {o : OrderId} {i : ℕ} {row row' : Order}

/-! ## What is written once -/

/-- An order without the columns that are written again after it was created. -/
def Order.constant (order : Order) : Order :=
  { order with
    orderStatus := PENDING
    assignedDriverId := none
    dispatchAttempts := 0
    attemptedDriverIds := []
    version := 0
    updatedAt := 0
    deletedAt := none }

/-- An outbox event without the columns the worker writes. -/
def OutboxEvent.constant (event : OutboxEvent) : String × Option OrderId :=
  (event.eventType, event.payload)

/-- What `createOrder` stores of a request, with the vehicle checked against the type. -/
structure OrdersService.Booked (dto : CreateOrderDto) (customerId : UserId) (row : Order) :
    Prop where
  customerId : row.customerId = customerId
  notes : row.notes = dto.notes
  orderType : row.orderType = dto.orderType
  vehincleType : row.vehincleType = dto.vehincleType
  pickupAddress : row.pickupAddress = dto.pickupAddress
  deliveryAddress : row.deliveryAddress = dto.deliveryAddress
  pickupLatitude : row.pickupLatitude = numeric 7 dto.pickupLatitude
  pickupLongitude : row.pickupLongitude = numeric 7 dto.pickupLongitude
  deliveryLatitude : row.deliveryLatitude = numeric 7 dto.deliveryLatitude
  deliveryLongitude : row.deliveryLongitude = numeric 7 dto.deliveryLongitude
  suitable : dto.vehincleType ∈ ORDER_VEHINCLE_MAP dto.orderType

/-- It depends on the constant columns only. -/
theorem OrdersService.Booked.of_constant {dto : CreateOrderDto} {c : UserId}
    (h : OrdersService.Booked dto c row) (heq : row'.constant = row.constant) :
    OrdersService.Booked dto c row' := by
  have hall : ∀ r : Order, OrdersService.Booked dto c r ↔
      OrdersService.Booked dto c r.constant := fun r =>
    ⟨fun h => ⟨h.1, h.2, h.3, h.4, h.5, h.6, h.7, h.8, h.9, h.10, h.11⟩,
      fun h => ⟨h.1, h.2, h.3, h.4, h.5, h.6, h.7, h.8, h.9, h.10, h.11⟩⟩
  rw [hall, heq, ← hall]
  exact h

/-! ## What `createOrder` brings to its transaction -/

/-- The transaction of a creation comes after the check of the vehicle. -/
def VehicleChecked : Effect → Prop
  | .transaction (.createOrder dto _ _) => dto.vehincleType ∈ ORDER_VEHINCLE_MAP dto.orderType
  | _ => True

theorem createOrder_vehicleChecked (dto : CreateOrderDto) (c : UserId) (key : Option String) :
    (OrdersService.createOrder cfg dto c key).All VehicleChecked := by
  have hkey : (OrdersService.sanitizeKey key).All VehicleChecked := by
    refine (sanitizeKey_noTransaction key).mono fun e he => ?_
    cases e with
    | transaction t => exact he.elim
    | _ => trivial
  refine .bind hkey fun sanitizedKey => ?_
  by_cases hfits : dto.vehincleType ∈ ORDER_VEHINCLE_MAP dto.orderType
  · have hok : OrdersService.validateVehincle dto = .ok () := by
      simp [OrdersService.validateVehincle, hfits]
    rw [hok]
    have htransaction : (transaction (.createOrder dto c (estimatedPrice cfg dto))).All
        VehicleChecked := all_perform hfits
    refine .bind (p := Program.ofExcept (.ok ())) trivial fun _ =>
      .bind htransaction fun order => ?_
    split
    · trivial
    · exact .bind (all_perform trivial) fun _ => trivial
  · -- a vehicle that does not suit the order ends the call
    have herr : ∃ err, OrdersService.validateVehincle dto = .error err := by
      simp [OrdersService.validateVehincle, hfits]
    obtain ⟨err, herr⟩ := herr
    rw [herr]
    trivial

/-! ## What a step does to orders and events -/

/-- All that a step does to what is written once: nothing, or a call that creates orders adds an
order and its event, both under new ids, and has no transaction left. -/
inductive RecordStep (s s' : Sys Q) : Prop
  | same (horders : ∀ o, (s'.order o).map Order.constant = (s.order o).map Order.constant)
      (houtbox : ∀ id, (s'.shared.db.outbox.find id).map OutboxEvent.constant
        = (s.shared.db.outbox.find id).map OutboxEvent.constant)
  | created {i : ℕ} {dto : CreateOrderDto} {c : UserId} {key : Option String} {t : Transaction}
      {k : Except Error t.Result → Prog Response} {r : Except Error t.Result} {o : OrderId}
      {id : Uuid} {row : Order} {event : OutboxEvent}
      (hi : s.threads.lookup i = some ⟨.request (.createOrder dto c key), .op (.transaction t) k⟩)
      (hi' : s'.threads.lookup i = some ⟨.request (.createOrder dto c key), k r⟩)
      (hdone : (k r).All NoTransaction)
      (horder : s.order o = none) (horder' : s'.order o = some row)
      (hbooked : OrdersService.Booked dto c row)
      (horders : ∀ o', o' ≠ o → s'.order o' = s.order o')
      (hevent : s.shared.db.outbox.find id = none)
      (hevent' : s'.shared.db.outbox.find id = some event)
      (habout : event.constant = ("dispatch.trigger", some o))
      (houtbox : ∀ id', id' ≠ id → s'.shared.db.outbox.find id' = s.shared.db.outbox.find id')

/-- Writing back a row with the same constant part, or none. -/
theorem map_find_put {K V W : Type} [DecidableEq K] {key : V → K} {t : Table key} {v w : V}
    (f : V → W) (hf : f v = f w) (hw : t.find (key v) = some w) (k : K) :
    ((t.put v).find k).map f = (t.find k).map f := by
  rw [Table.find_put]
  split
  · next hk =>
      rw [hk, hw, Option.map_some, Option.map_some, hf]
  · rfl

/-- A deletion writes two columns, and neither is constant. -/
theorem constant_softDeleteRow (ch : Choice) (db : Db) (o o' : OrderId) :
    ((OrdersService.softDeleteRow ch o' db).orders.find o).map Order.constant
      = (db.orders.find o).map Order.constant := by
  unfold OrdersService.softDeleteRow
  split
  · rfl
  · next row hrow =>
      obtain rfl : row.id = o' := Table.key_of_find hrow
      have hconstant : Order.constant { row with deletedAt := some ch.now, updatedAt := ch.now }
          = row.constant := rfl
      exact map_find_put Order.constant hconstant hrow o

/-- A creation stores what was asked for. -/
theorem createOrderTx_booked {ch : Choice} {dto : CreateOrderDto} {c : UserId} {price : ℚ}
    {order : Order} {db db' : Db} (hfits : dto.vehincleType ∈ ORDER_VEHINCLE_MAP dto.orderType)
    (h : OrdersService.createOrderTx ch dto c price db = .ok (order, db')) :
    ∃ row, db'.orders.find ch.orderId = some row ∧ OrdersService.Booked dto c row := by
  unfold OrdersService.createOrderTx at h
  split at h
  · cases h
  · cases h
    rw [Db.saveOutbox_orders]
    exact ⟨_, Db.saveWithHistory_find rfl,
      ⟨rfl, rfl, rfl, rfl, rfl, rfl, rfl, rfl, rfl, rfl, hfits⟩⟩

/-- The program of a call that creates an order, at any point of it. -/
theorem creation_of_lookup {dto : CreateOrderDto} {c : UserId} {key : Option String}
    {p : Prog Response} (hs : Transition.Reachable (logistics Q cfg) s)
    (hi : s.threads.lookup i = some ⟨.request (.createOrder dto c key), p⟩) :
    WritesOnce p ∧ p.All VehicleChecked := by
  refine ⟨writesOnce_of_lookup hs hi (.created dto c key ⟨"order", by decide⟩), ?_⟩
  have hall : Pool.ForallThreads (fun call p => (∃ dto c key,
      call = .request (.createOrder dto c key)) → p.All VehicleChecked) s := by
    refine forallThreads_of_reachable (fun call e k ih r hcall => (ih hcall).2 r) ?_ hs
    rintro call ⟨dto, c, key, rfl⟩
    exact (createOrder_vehicleChecked dto c key).bind fun _ => trivial
  exact hall i _ hi ⟨dto, c, key, rfl⟩

/-- What a transaction does to orders and events. -/
theorem record_step_of_transaction {ch : Choice} {call : Call} {t : Transaction}
    {k : Except Error t.Result → Prog Response} (hs : Transition.Reachable (logistics Q cfg) s)
    (hi : s.threads.lookup i = some ⟨call, .op (.transaction t) k⟩)
    (hsh : s'.shared = (perform cfg ch (.transaction t) s.shared).2)
    (hth : s'.threads = s.threads.insert i ⟨call, k (perform cfg ch (.transaction t) s.shared).1⟩) :
    RecordStep s s' := by
  obtain ⟨hbelongs, hchecked⟩ := guar_of_next hs hi
  simp only [perform] at hsh hth
  split at hsh
  · exact .same (fun _ => by rw [Sys.order, hsh]; rfl) fun _ => by rw [hsh]
  next res db' hrun =>
  have hdb : s'.shared.db = db' := by rw [hsh]
  have horder' : ∀ o, s'.order o = db'.orders.find o := fun o => by rw [Sys.order, hdb]
  cases Transaction.run_ok hchecked hrun with
  | nothing heq =>
      subst heq
      exact .same (fun o => by rw [horder']; rfl) fun id => by rw [hdb]
  | driver driver heq _ =>
      subst heq
      exact .same (fun o => by rw [horder']; rfl) fun id => by rw [hdb]; rfl
  | moved o m actor _ _ _ hmove =>
      obtain ⟨row, tk, hrow, -, -, hrow', -, hother, -, houtbox⟩ := Db.move_spec hmove
      refine .same (fun o' => ?_) fun id => by rw [hdb, houtbox]
      rw [horder']
      by_cases ho : o' = o
      · subst ho
        have hrow : s.order o' = some row := hrow
        rw [hrow, hrow']
        rfl
      · rw [(hother o' ho).1]
        rfl
  | created dto c p order ht htx =>
      subst ht
      obtain ⟨key, rfl⟩ := hbelongs
      obtain ⟨hwrites, hfits, -⟩ := creation_of_lookup hs hi
      obtain ⟨row, hrow, hbooked⟩ := createOrderTx_booked hfits htx
      obtain ⟨horder, hevent, -, -, -, -, hother, -, houtbox⟩ :=
        OrdersService.createOrderTx_ok htx
      rw [hrun] at hth
      have hevent' : s'.shared.db.outbox.find ch.outboxId = some ⟨ch.outboxId, "dispatch.trigger",
          some ch.orderId, .PENDING, 0, none, ch.now, none⟩ := by
        rw [hdb, houtbox]
        exact Table.find_put_self _ _
      refine .created hi (by rw [hth, AList.lookup_insert]) ((hwrites _).1 ⟨_, rfl⟩) horder
        ((horder' _).trans hrow) hbooked (fun o' ho => ?_) hevent hevent' rfl fun id hid => ?_
      · rw [horder', (hother o' ho).1]
        rfl
      · rw [hdb, houtbox]
        exact Table.find_put_of_ne hid

/-- Only transactions and saves of the outbox worker write events. -/
theorem perform_outbox {ch : Choice} {e : Effect} {sh : Shared Q}
    (ht : ∀ t, e ≠ .transaction t) (hsave : ∀ row, e ≠ .saveOutbox row) :
    (perform cfg ch e sh).2.db.outbox = sh.db.outbox := by
  cases e with
  | transaction t => exact absurd rfl (ht t)
  | saveOutbox row => exact absurd rfl (hsave row)
  | softDelete o =>
      simp only [perform, OrdersService.softDeleteRow]
      split <;> rfl
  | updateDriverLocation d lat lng =>
      simp only [perform]
      split <;> rfl
  | addJob queue j data delay => cases queue <;> rfl
  | removeJob queue j =>
      simp only [perform]
      split
      · rfl
      · cases queue <;> rfl
  | finishJob queue j ok => cases queue <;> rfl
  | _ => rfl

/-- **All that a step does to what is written once.** -/
theorem record_step (hs : Transition.Reachable (logistics Q cfg) s)
    (hstep : step cfg s a = some s') : RecordStep s s' := by
  by_cases ha : ∀ i ch, a ≠ .exec i ch
  · have hdb := step_db_eq hstep ha
    exact .same (fun o => by rw [Sys.order, hdb]; rfl) fun id => by rw [hdb]
  obtain ⟨i, ch, rfl⟩ : ∃ i ch, a = .exec i ch := by
    simpa only [ne_eq, not_forall, not_not] using ha
  obtain ⟨call, e, k, hi, hsh, hth⟩ := Pool.advance_eq_some hstep
  have hsh : s'.shared = (perform cfg ch e s.shared).2 := hsh
  by_cases ht : ∃ t, e = .transaction t
  · obtain ⟨t, rfl⟩ := ht
    exact record_step_of_transaction hs hi hsh hth
  have ht : ∀ t, e ≠ .transaction t := fun t heq => ht ⟨t, heq⟩
  refine .same (fun o => ?_) fun id => ?_
  · rw [Sys.order, hsh]
    by_cases hd : ∃ o, e = .softDelete o
    · obtain ⟨o', rfl⟩ := hd
      exact constant_softDeleteRow ch s.shared.db o o'
    · rw [(perform_orders ht fun o heq => hd ⟨o, heq⟩).1]
      rfl
  · rw [hsh]
    by_cases hsave : ∃ row, e = .saveOutbox row
    · -- the worker writes back an event about the same order
      obtain ⟨row, rfl⟩ := hsave
      obtain ⟨-, row', hrow', hbecomes⟩ := guar_of_next hs hi
      have hconstant : row.constant = row'.constant := by
        simp only [OutboxEvent.constant, hbecomes.eventType, hbecomes.payload]
      exact map_find_put OutboxEvent.constant hconstant hrow' id
    · rw [perform_outbox ht fun row heq => hsave ⟨row, heq⟩]

/-! ## Every order is one that was booked -/

/-- Call `i` has created the order. -/
def Sys.Booked (s : Sys Q) (row : Order) (i : ℕ) : Prop :=
  ∃ dto c key, s.call i = some (.request (.createOrder dto c key)) ∧
    OrdersService.Booked dto c row

/-- The calls `maker` have created the orders, each its own, and run no other transaction. -/
structure BookedBy (s : Sys Q) (maker : OrderId → ℕ) : Prop where
  booked : ∀ o row, s.order o = some row → s.Booked row (maker o)
  settled : ∀ o row, s.order o = some row → s.Settled (maker o)
  distinct : ∀ o o' row row', s.order o = some row → s.order o' = some row' →
    maker o = maker o' → o = o'

omit [JobQueue Q JobId JobData] in
/-- Rows with the same constant part are rows of the same orders. -/
theorem order_of_constant (h : (s'.order o).map Order.constant = (s.order o).map Order.constant)
    (hrow' : s'.order o = some row') : ∃ row, s.order o = some row ∧ row'.constant = row.constant := by
  rw [hrow', Option.map_some, eq_comm, Option.map_eq_some_iff] at h
  obtain ⟨row, hrow, heq⟩ := h
  exact ⟨row, hrow, heq.symm⟩

theorem BookedBy.step {maker : OrderId → ℕ} (hs : Transition.Reachable (logistics Q cfg) s)
    (h : BookedBy s maker) (hstep : step cfg s a = some s') : ∃ maker, BookedBy s' maker := by
  -- an order that was there keeps its maker
  have hkept : ∀ o row row', s.order o = some row → row'.constant = row.constant →
      s'.Booked row' (maker o) ∧ s'.Settled (maker o) := by
    intro o row row' hrow hconstant
    obtain ⟨dto, c, key, hcall, hbooked⟩ := h.booked o row hrow
    exact ⟨⟨dto, c, key, call_kept hstep hcall, hbooked.of_constant hconstant⟩,
      (h.settled o row hrow).step hstep hcall⟩
  cases record_step hs hstep with
  | same horders _ =>
      refine ⟨maker, fun o row' hrow' => ?_, fun o row' hrow' => ?_,
        fun o₁ o₂ row₁ row₂ hrow₁ hrow₂ heq => ?_⟩
      · obtain ⟨row, hrow, hconstant⟩ := order_of_constant (horders o) hrow'
        exact (hkept o row row' hrow hconstant).1
      · obtain ⟨row, hrow, hconstant⟩ := order_of_constant (horders o) hrow'
        exact (hkept o row row' hrow hconstant).2
      · obtain ⟨_, hrow₁, -⟩ := order_of_constant (horders o₁) hrow₁
        obtain ⟨_, hrow₂, -⟩ := order_of_constant (horders o₂) hrow₂
        exact h.distinct o₁ o₂ _ _ hrow₁ hrow₂ heq
  | @created i dto c key t k r o id row event hi hi' hdone hnone horder' hbooked horders =>
      -- whoever has created an order before runs no transaction now
      have hother : ∀ o' row', o' ≠ o → s'.order o' = some row' →
          s.order o' = some row' ∧ maker o' ≠ i := by
        intro o' row' ho hrow'
        rw [horders o' ho] at hrow'
        refine ⟨hrow', ?_⟩
        rintro rfl
        exact (h.settled o' row' hrow' _ _ hi).1
      refine ⟨Function.update maker o i, fun o' row' hrow' => ?_, fun o' row' hrow' => ?_,
        fun o₁ o₂ row₁ row₂ hrow₁ hrow₂ heq => ?_⟩
      · by_cases ho : o' = o
        · subst ho
          rw [horder'] at hrow'
          obtain rfl := Option.some.inj hrow'
          rw [Function.update_self]
          exact ⟨dto, c, key, Sys.call_of_lookup hi', hbooked⟩
        · rw [Function.update_of_ne ho]
          exact (hkept o' row' row' (hother o' row' ho hrow').1 rfl).1
      · by_cases ho : o' = o
        · subst ho
          rw [Function.update_self]
          intro call p hp
          rw [hi'] at hp
          cases hp
          exact hdone
        · rw [Function.update_of_ne ho]
          exact (hkept o' row' row' (hother o' row' ho hrow').1 rfl).2
      · by_cases ho₁ : o₁ = o
        · by_cases ho₂ : o₂ = o
          · rw [ho₁, ho₂]
          · rw [ho₁, Function.update_self, Function.update_of_ne ho₂] at heq
            exact absurd heq.symm (hother o₂ row₂ ho₂ hrow₂).2
        · by_cases ho₂ : o₂ = o
          · rw [ho₂, Function.update_self, Function.update_of_ne ho₁] at heq
            exact absurd heq (hother o₁ row₁ ho₁ hrow₁).2
          · rw [Function.update_of_ne ho₁, Function.update_of_ne ho₂] at heq
            exact h.distinct o₁ o₂ _ _ (hother o₁ row₁ ho₁ hrow₁).1 (hother o₂ row₂ ho₂ hrow₂).1 heq

/-- **Every order is what one call of `createOrder` was asked for and stored**, whatever was
written since, and no call has made two. -/
theorem orders_booked (hs : Transition.Reachable (logistics Q cfg) s) :
    ∃ maker : OrderId → ℕ, (∀ o row, s.order o = some row → s.Booked row (maker o)) ∧
      ∀ o o' row row', s.order o = some row → s.order o' = some row' → maker o = maker o' →
        o = o' := by
  obtain ⟨maker, h⟩ : ∃ maker, BookedBy s maker := by
    refine hs.invariant (P := fun s => ∃ maker, BookedBy s maker) ?_ ?_
    · intro s hinit
      have hnone : ∀ o, s.order o = none := by
        intro o
        rw [Sys.order, hinit.orders, Table.find_empty]
      refine ⟨fun _ => 0, fun o row hrow => ?_, fun o row hrow => ?_,
        fun o o' row row' hrow => ?_⟩ <;> simp [hnone] at hrow
    · intro s a s' hs hmaker hstep
      obtain ⟨maker, h⟩ := hmaker
      exact h.step hs hstep
  exact ⟨maker, h.booked, h.distinct⟩

/-- **What an order was created with stays, and a deleted order is written no more.** -/
theorem order_kept {tr : List (Transition.Move (Sys Q) Action)}
    (hs : Transition.Reachable (logistics Q cfg) s)
    (path : Transition.Path (logistics Q cfg) s tr s') (hrow : s.order o = some row) :
    ∃ row', s'.order o = some row' ∧ row'.constant = row.constant ∧
      (row.deletedAt ≠ none → row'.deletedAt ≠ none ∧ row'.ticket = row.ticket ∧
        s'.history o = s.history o) := by
  refine path.invariant_trace (P := fun _ s' => ∃ row', s'.order o = some row' ∧
    row'.constant = row.constant ∧ (row.deletedAt ≠ none → row'.deletedAt ≠ none ∧
      row'.ticket = row.ticket ∧ s'.history o = s.history o)) hs
    ⟨row, hrow, rfl, fun h => ⟨h, rfl, rfl⟩⟩ ?_
  intro tr s₁ a s₂ _ hs₁ ⟨row₁, hrow₁, hconstant, hdeleted⟩ hstep
  cases order_step hs₁ hstep o with
  | same horder hhistory =>
      refine ⟨row₁, horder.trans hrow₁, hconstant, fun h => ?_⟩
      obtain ⟨h₁, h₂, h₃⟩ := hdeleted h
      exact ⟨h₁, h₂, hhistory.trans h₃⟩
  | created _ _ hnone =>
      rw [hrow₁] at hnone
      cases hnone
  | deleted _ _ hrow₂ hrow' hhistory =>
      rw [hrow₁] at hrow₂
      obtain rfl := Option.some.inj hrow₂
      refine ⟨_, hrow', hconstant, fun h => ?_⟩
      obtain ⟨-, h₂, h₃⟩ := hdeleted h
      exact ⟨Option.some_ne_none _, h₂, hhistory.trans h₃⟩
  | moved _ _ _ _ _ _ _ _ hrow₂ hlive _ hrow' _ =>
      rw [hrow₁] at hrow₂
      obtain rfl := Option.some.inj hrow₂
      -- an order that is moved is not deleted
      exact ⟨_, hrow', hconstant, fun h => absurd hlive (hdeleted h).1⟩

/-! ## Orders and events -/

/-- The outbox row `id` asks for the dispatch of an order. -/
def Sys.About (s : Sys Q) (id : Uuid) (o : OrderId) : Prop :=
  ∃ event, s.shared.db.outbox.find id = some event ∧ event.payload = some o

/-- The outbox has one event for each order, and none besides. -/
structure Matched (s : Sys Q) : Prop where
  triggers : ∀ id event, s.shared.db.outbox.find id = some event →
    event.eventType = "dispatch.trigger" ∧ ∃ o row, event.payload = some o ∧ s.order o = some row
  once : ∀ o row, s.order o = some row → ∃! id, s.About id o

omit [JobQueue Q JobId JobData] in
/-- Events with the same constant part are the same events. -/
theorem event_of_constant {id : Uuid} {event' : OutboxEvent}
    (h : (s'.shared.db.outbox.find id).map OutboxEvent.constant
      = (s.shared.db.outbox.find id).map OutboxEvent.constant)
    (hevent' : s'.shared.db.outbox.find id = some event') :
    ∃ event, s.shared.db.outbox.find id = some event ∧ event.eventType = event'.eventType ∧
      event.payload = event'.payload := by
  rw [hevent', Option.map_some, eq_comm, Option.map_eq_some_iff] at h
  obtain ⟨event, hevent, heq⟩ := h
  exact ⟨event, hevent, congrArg Prod.fst heq, congrArg Prod.snd heq⟩

omit [JobQueue Q JobId JobData] in
theorem about_of_constant
    (h : ∀ id, (s'.shared.db.outbox.find id).map OutboxEvent.constant
      = (s.shared.db.outbox.find id).map OutboxEvent.constant) (id : Uuid) :
    s'.About id o ↔ s.About id o := by
  constructor
  · rintro ⟨event', hevent', hpayload⟩
    obtain ⟨event, hevent, -, heq⟩ := event_of_constant (h id) hevent'
    exact ⟨event, hevent, heq.trans hpayload⟩
  · rintro ⟨event, hevent, hpayload⟩
    obtain ⟨event', hevent', -, heq⟩ := event_of_constant (h id).symm hevent
    exact ⟨event', hevent', heq.trans hpayload⟩

theorem Matched.step (hs : Transition.Reachable (logistics Q cfg) s) (h : Matched s)
    (hstep : step cfg s a = some s') : Matched s' := by
  cases record_step hs hstep with
  | same horders houtbox =>
      refine ⟨fun id event' hevent' => ?_, fun o row' hrow' => ?_⟩
      · obtain ⟨event, hevent, htype, hpayload⟩ := event_of_constant (houtbox id) hevent'
        obtain ⟨htrigger, o, row, ho, hrow⟩ := h.triggers id event hevent
        obtain ⟨row', hrow', -⟩ := order_of_constant (horders o).symm hrow
        exact ⟨htype ▸ htrigger, o, row', hpayload ▸ ho, hrow'⟩
      · obtain ⟨row, hrow, -⟩ := order_of_constant (horders o) hrow'
        simp only [about_of_constant houtbox]
        exact h.once o row hrow
  | @created i dto c key t k r o id row event _ _ _ hnone horder' _ horders hfree hevent habout
      houtbox =>
      obtain ⟨htype, hpayload⟩ := Prod.mk.inj habout
      have hothers : ∀ id', id' ≠ id → ∀ o', s'.About id' o' ↔ s.About id' o' := by
        intro id' hid o'
        rw [Sys.About, Sys.About, houtbox id' hid]
      have hnew : ∀ o', s'.About id o' ↔ o' = o := by
        intro o'
        rw [Sys.About, hevent]
        simp [hpayload, eq_comm]
      -- no event was about the order before there was one
      have hunheard : ∀ id', ¬ s.About id' o := by
        rintro id' ⟨event', hevent', hpayload'⟩
        obtain ⟨-, o', row', ho', hrow'⟩ := h.triggers id' event' hevent'
        rw [hpayload'] at ho'
        obtain rfl := Option.some.inj ho'
        rw [hnone] at hrow'
        cases hrow'
      refine ⟨fun id' event' hevent' => ?_, fun o' row' hrow' => ?_⟩
      · by_cases hid : id' = id
        · subst hid
          rw [hevent] at hevent'
          obtain rfl := Option.some.inj hevent'
          exact ⟨htype, o, row, hpayload, horder'⟩
        · rw [houtbox id' hid] at hevent'
          obtain ⟨htrigger, o', row', ho', hrow'⟩ := h.triggers id' event' hevent'
          have hne : o' ≠ o := by
            rintro rfl
            rw [hnone] at hrow'
            cases hrow'
          exact ⟨htrigger, o', row', ho', (horders o' hne).trans hrow'⟩
      · by_cases ho : o' = o
        · subst ho
          refine ⟨id, (hnew o').mpr rfl, fun id' habout' => ?_⟩
          by_contra hid
          exact hunheard id' ((hothers id' hid o').mp habout')
        · rw [horders o' ho] at hrow'
          obtain ⟨id', habout', hunique⟩ := h.once o' row' hrow'
          have hid : id' ≠ id := by
            rintro rfl
            obtain ⟨event', hevent', -⟩ := habout'
            rw [hfree] at hevent'
            cases hevent'
          refine ⟨id', (hothers id' hid o').mpr habout', fun id'' habout'' => ?_⟩
          by_cases hid' : id'' = id
          · subst hid'
            exact absurd ((hnew o').mp habout'') ho
          · exact hunique id'' ((hothers id'' hid' o').mp habout'')

/-- **Orders and outbox events go together one to one**, in every reachable state. -/
theorem outbox_matched (hs : Transition.Reachable (logistics Q cfg) s) : Matched s := by
  refine hs.invariant (P := Matched) ?_ fun s a s' hs h hstep => h.step hs hstep
  intro s hinit
  refine ⟨fun id event hevent => ?_, fun o row hrow => ?_⟩
  · rw [hinit.outbox, Table.find_empty] at hevent
    cases hevent
  · rw [Sys.order, hinit.orders, Table.find_empty] at hrow
    cases hrow

/-! ### In the small system -/

/-- The trip of the small system is what the customer asked for, and stays it. -/
theorem orders_booked_of_trip : ((after _ _ _ trip_offered).order sampleOrder).isSome = true ∧
    ∃ maker : OrderId → ℕ, (∀ o row, (after _ _ _ trip_offered).order o = some row →
      (after _ _ _ trip_offered).Booked row (maker o)) ∧
      ∀ o o' row row', (after _ _ _ trip_offered).order o = some row →
        (after _ _ _ trip_offered).order o' = some row' → maker o = maker o' → o = o' :=
  ⟨by decide +kernel, orders_booked (after_reachable trip_offered)⟩

/-- The trip is deleted before a worker gets to it: call `2`. -/
def withdrawTrip : List Action :=
  .invoke 2 (.softDelete sampleOrder) :: proceed 2 2 sampleChoice

theorem trip_withdrawn : ((logistics BullQueue (sampleConfig 3)).exec (start [carDriver])
    (orderTrip ++ withdrawTrip)).isSome := by
  decide +kernel

/-- Then the worker gets to it: call `3`. -/
def missedTrip : List Action :=
  .deliver 3 .DISPATCH_QUEUE (.assignDriver sampleOrder) :: proceed 3 2 sampleChoice

theorem trip_missed : ((logistics BullQueue (sampleConfig 3)).exec (after _ _ _ trip_withdrawn)
    missedTrip).isSome := by
  decide +kernel

/-- The worker leaves the deleted trip as it is. -/
theorem order_kept_of_trip : ∃ (s' : Sys BullQueue) (row row' : Order), row.deletedAt = some 0 ∧
    s'.order sampleOrder = some row' ∧ row'.constant = row.constant ∧
      (row.deletedAt ≠ none → row'.deletedAt ≠ none ∧ row'.ticket = row.ticket ∧
        s'.history sampleOrder = (after _ _ _ trip_withdrawn).history sampleOrder) := by
  have hdeleted : ((after _ _ _ trip_withdrawn).order sampleOrder).map Order.deletedAt
      = some (some 0) := by decide +kernel
  obtain ⟨row, hrow, hdel⟩ := Option.map_eq_some_iff.mp hdeleted
  obtain ⟨row', h⟩ := order_kept (after_reachable trip_withdrawn)
    (Transition.Path.refl.exec (Option.some_get trip_missed).symm) hrow
  exact ⟨_, row, row', hdel, h⟩

/-- The trip has its event. -/
theorem outbox_matched_of_trip : ((after _ _ _ trip_offered).shared.db.outbox.find
    sampleChoice.outboxId).isSome = true ∧ Matched (after _ _ _ trip_offered) :=
  ⟨by decide +kernel, outbox_matched (after_reachable trip_offered)⟩

end LogisticsDispatch
