/-
The rules of `OrdersService` that look at one order only: which status may follow
which (`ORDER_TRANSITIONS`), who may ask for it (`validateActor`), and what a new
order must be and costs (`ORDER_VEHINCLE_MAP`, `PRICING`).

`validateActor` and `validateTransition` are what stands between a request and the
order row, so their specifications at the end of the file are what every statement
about a committed `updateStatus` is derived from.
-/
import LogisticsDispatch.Entities

set_option autoImplicit false

namespace LogisticsDispatch

open OrderStatus

/-- `ORDER_TRANSITIONS`. -/
def ORDER_TRANSITIONS : OrderStatus → List OrderStatus
  | PENDING => [DRIVER_ASSIGNED, CANCELLED, EXPIRED]
  | DRIVER_ASSIGNED => [DRIVER_ARRIVING, CANCELLED]
  | DRIVER_ARRIVING => [PICKED_UP, CANCELLED]
  | PICKED_UP => [IN_TRANSIT]
  | IN_TRANSIT => [DELIVERED, FAILED]
  | DELIVERED => []
  | CANCELLED => []
  | FAILED => []
  | EXPIRED => []

/-- `ORDER_VEHINCLE_MAP`. -/
def ORDER_VEHINCLE_MAP : OrderType → List VehincleType
  | .PERSON => [.CAR]
  | .PACKAGE => [.BIKE, .CAR]
  | .GOODS_SMALL => [.CAR, .VAN]
  | .GOODS_LARGE => [.VAN, .TRUCK]

/-- What a vehicle type costs: a base fare, and a price for each kilometre. -/
structure Price where
  baseFare : ℚ
  perKm : ℚ

/-- `PRICING`. -/
def PRICING : VehincleType → Price
  | .BIKE => ⟨500, 100⟩
  | .CAR => ⟨1000, 150⟩
  | .VAN => ⟨2000, 200⟩
  | .TRUCK => ⟨5000, 300⟩

/-- The `terminalStatuses` of both services. -/
def terminalStatuses : List OrderStatus := [DELIVERED, CANCELLED, FAILED, EXPIRED]

/-- The transitions `validateActor` allows a driver. -/
def driverAllowedTransitions : OrderStatus → List OrderStatus
  | DRIVER_ASSIGNED => [DRIVER_ARRIVING]
  | DRIVER_ARRIVING => [PICKED_UP]
  | PICKED_UP => [IN_TRANSIT]
  | IN_TRANSIT => [DELIVERED, FAILED]
  | _ => []

/-- `validateActor`. -/
def validateActor (order : Order) (newStatus : OrderStatus) (user : JwtUser) :
    Except Error Unit :=
  if newStatus ∈ [DRIVER_ASSIGNED, EXPIRED] then
    .error (.ForbiddenException s!"{newStatus.text} is managed by the system only")
  else if order.orderStatus ∈ terminalStatuses then
    .error (.ForbiddenException
      s!"Order is already {order.orderStatus.text} and cannot be updated")
  else if user.role = .ADMIN then
    -- an admin needs no relation to the order
    if newStatus = CANCELLED then .ok ()
    else if newStatus = FAILED ∧ order.orderStatus = IN_TRANSIT then .ok ()
    else .error (.ForbiddenException
      "Admins can only cancel orders or mark IN_TRANSIT orders as failed")
  else if user.role = .CUSTOMER then
    if order.customerId ≠ user.userId then
      .error (.ForbiddenException "You do not have access to this order")
    else if newStatus ≠ CANCELLED then
      .error (.ForbiddenException "Customers can only cancel orders")
    else if order.orderStatus ∉ [PENDING, DRIVER_ASSIGNED] then
      .error (.ForbiddenException
        s!"You can no longer cancel this order — driver is already {order.orderStatus.text}")
    else .ok ()
  else if user.role = .DRIVER then
    -- the token names the driver profile; the order has to be assigned to it
    if user.driverProfileId = none then
      .error (.ForbiddenException "Driver profile missing from token")
    else if order.assignedDriverId = none then
      .error (.ForbiddenException "This order has no assigned driver yet")
    else if order.assignedDriverId ≠ user.driverProfileId then
      .error (.ForbiddenException "You are not assigned to this order")
    else if newStatus ∉ driverAllowedTransitions order.orderStatus then
      .error (.ForbiddenException
        s!"Drivers cannot transition an order from {order.orderStatus.text} to {newStatus.text}")
    else .ok ()
  else .error (.ForbiddenException "You are not authorized to update order status")

/-- `validateTransition`. -/
def validateTransition (currentStatus newStatus : OrderStatus) : Except Error Unit :=
  if newStatus ∈ ORDER_TRANSITIONS currentStatus then .ok ()
  else .error (.UnprocessableEntityException
    s!"Invalid order status transition from {currentStatus.text} to {newStatus.text}")

/-! ## What the rules say -/

variable {order : Order} {newStatus currentStatus : OrderStatus} {user : JwtUser}

theorem validateTransition_ok_iff :
    validateTransition currentStatus newStatus = .ok () ↔
      newStatus ∈ ORDER_TRANSITIONS currentStatus := by
  unfold validateTransition
  split <;> simp_all

/-- An accepted request of an admin cancels, or fails an order in transit. -/
structure AdminMay (order : Order) (newStatus : OrderStatus) : Prop where
  target : newStatus = CANCELLED ∨ newStatus = FAILED ∧ order.orderStatus = IN_TRANSIT

/-- An accepted request of a customer cancels an order of their own that no driver
has accepted yet. -/
structure CustomerMay (order : Order) (newStatus : OrderStatus) (user : JwtUser) : Prop where
  owner : order.customerId = user.userId
  target : newStatus = CANCELLED
  source : order.orderStatus = PENDING ∨ order.orderStatus = DRIVER_ASSIGNED

/-- An accepted request of a driver moves an order assigned to them along. -/
structure DriverMay (order : Order) (newStatus : OrderStatus) (user : JwtUser) : Prop where
  assigned : ∃ d, order.assignedDriverId = some d ∧ user.driverProfileId = some d
  target : newStatus ∈ driverAllowedTransitions order.orderStatus

/-- **The specification of `validateActor`**: what it accepts, by the role of the
user. -/
theorem validateActor_ok_iff :
    validateActor order newStatus user = .ok () ↔
      (newStatus ≠ DRIVER_ASSIGNED ∧ newStatus ≠ EXPIRED) ∧
      order.orderStatus ∉ terminalStatuses ∧
      (user.role = .ADMIN ∧ AdminMay order newStatus ∨
        user.role = .CUSTOMER ∧ CustomerMay order newStatus user ∨
        user.role = .DRIVER ∧ DriverMay order newStatus user) := by
  unfold validateActor
  by_cases hsys : newStatus ∈ [DRIVER_ASSIGNED, EXPIRED]
  · rw [if_pos hsys]
    simp only [List.mem_cons, List.not_mem_nil, or_false] at hsys
    constructor
    · intro h
      cases h
    · rintro ⟨⟨h1, h2⟩, -⟩
      exact absurd hsys (not_or.mpr ⟨h1, h2⟩)
  rw [if_neg hsys]
  have hsys' : newStatus ≠ DRIVER_ASSIGNED ∧ newStatus ≠ EXPIRED := by
    simpa only [List.mem_cons, List.not_mem_nil, or_false, not_or] using hsys
  by_cases hterm : order.orderStatus ∈ terminalStatuses
  · rw [if_pos hterm]
    constructor
    · intro h
      cases h
    · rintro ⟨-, h, -⟩
      exact absurd hterm h
  rw [if_neg hterm]
  -- past the first two checks only the role decides
  have hcore : ∀ P Q : Prop, (P ↔ Q) →
      (P ↔ (newStatus ≠ DRIVER_ASSIGNED ∧ newStatus ≠ EXPIRED) ∧
        order.orderStatus ∉ terminalStatuses ∧ Q) :=
    fun P Q h => ⟨fun hP => ⟨hsys', hterm, h.mp hP⟩, fun hQ => h.mpr hQ.2.2⟩
  apply hcore
  -- one case for each role, each the branches of that role in the order of the source
  rcases hrole : user.role with _ | _ | _
  · rw [if_neg (by decide), if_pos rfl]
    constructor
    · intro h
      split_ifs at h with h1 h2 h3
      simp only [List.mem_cons, List.not_mem_nil, or_false] at h3
      exact .inr (.inl ⟨rfl, not_not.mp h1, not_not.mp h2, h3⟩)
    · rintro (⟨h, -⟩ | ⟨-, h1, h2, h3⟩ | ⟨h, -⟩)
      · cases h
      · have hsrc : order.orderStatus ∈ [PENDING, DRIVER_ASSIGNED] := by
          simpa only [List.mem_cons, List.not_mem_nil, or_false] using h3
        rw [if_neg (not_not.mpr h1), if_neg (not_not.mpr h2), if_neg (not_not.mpr hsrc)]
      · cases h
  · rw [if_neg (by decide), if_neg (by decide), if_pos rfl]
    constructor
    · intro h
      split_ifs at h with h1 h2 h3 h4
      obtain ⟨d, hd⟩ := Option.ne_none_iff_exists'.mp h2
      have heq : order.assignedDriverId = user.driverProfileId := not_not.mp h3
      exact .inr (.inr ⟨rfl, ⟨d, hd, heq ▸ hd⟩, h4⟩)
    · rintro (⟨h, -⟩ | ⟨h, -⟩ | ⟨-, ⟨d, hd, hu⟩, ht⟩)
      · cases h
      · cases h
      · rw [if_neg (by simp [hu]), if_neg (by simp [hd]), if_neg (by simp [hd, hu]),
          if_neg (not_not.mpr ht)]
  · rw [if_pos rfl]
    constructor
    · intro h
      split_ifs at h with h1 h2
      · exact .inl ⟨rfl, ⟨.inl h1⟩⟩
      · exact .inl ⟨rfl, ⟨.inr h2⟩⟩
    · rintro (⟨-, ⟨h1 | h2⟩⟩ | ⟨h, -⟩ | ⟨h, -⟩)
      · rw [if_pos h1]
      · rw [if_pos h2]
        split_ifs <;> rfl
      · cases h
      · cases h

/-- No status may follow itself. -/
theorem not_mem_transitions_self (status : OrderStatus) :
    status ∉ ORDER_TRANSITIONS status := by
  cases status <;> decide

/-- The table lets no order wait again. -/
theorem pending_not_mem_transitions (status : OrderStatus) :
    PENDING ∉ ORDER_TRANSITIONS status := by
  cases status <;> decide

/-- What a driver may do is an edge of the table, so the second check never stops
what the first one let a driver do. -/
theorem driverAllowed_subset (status : OrderStatus) :
    driverAllowedTransitions status ⊆ ORDER_TRANSITIONS status := by
  cases status <;> decide

end LogisticsDispatch
