/-
An order and the driver it is assigned to.

Nine operations write the status of an order and the columns of its assignment. That
status and driver agree is a property of lives (`Ticket.Agrees`); that the driver has
the right vehicle needs the rows of the drivers as well, which keep their vehicle
(`Driver.Becomes`).
-/
import LogisticsDispatch.Refinement

set_option autoImplicit false

namespace LogisticsDispatch

open OrderStatus Lifecycle

variable {Q : Type} [JobQueue Q JobId JobData] {cfg : DispatchConfig} {s s' : Sys Q} {a : Action}
  {o : OrderId} {d : DriverId} {order : Order}

/-- The driver has a profile, with the vehicle the order asks for. -/
def Suits (s : Sys Q) (order : Order) (d : DriverId) : Prop :=
  ∃ driver, s.shared.db.drivers.find d = some driver ∧ driver.vehincleType = order.vehincleType

/-- A driver who suits an order goes on suiting it, since neither vehicle is ever
updated. -/
theorem Suits.step (h : Suits s order d) (hs : Transition.Reachable (logistics Q cfg) s)
    (hstep : step cfg s a = some s') : Suits s' order d := by
  obtain ⟨driver, hdriver, hvehincle⟩ := h
  -- rows of drivers are saved over, but never with another vehicle
  obtain ⟨driver', hdriver', hsame⟩ := (rely_of_step hs hstep).db.drivers d driver hdriver
  exact ⟨driver', hdriver', hsame.vehincleType.trans hvehincle⟩

/-- Whoever an order is assigned to suits it. -/
theorem assigned_suits (hs : Transition.Reachable (logistics Q cfg) s) :
    ∀ order, s.order o = some order → ∀ d, order.assignedDriverId = some d → Suits s order d := by
  refine hs.invariant (P := fun s => ∀ order, s.order o = some order →
    ∀ d, order.assignedDriverId = some d → Suits s order d) ?_ ?_
  · intro s hinit order hrow
    rw [Sys.order, hinit.orders, Table.find_empty] at hrow
    cases hrow
  · intro s a s' hs ih hstep order hrow d hd
    cases order_step hs hstep o with
    | same horder _ =>
        rw [horder] at hrow
        exact (ih order hrow d hd).step hs hstep
    | @created _ _ _ _ _ row _ _ _ hrow' hticket _ _ =>
        rw [hrow'] at hrow
        obtain rfl := Option.some.inj hrow
        have hnone : row.assignedDriverId = none := congrArg Ticket.driver hticket
        rw [hnone] at hd
        cases hd
    | @deleted _ _ row _ _ hrow₀ hrow' _ =>
        rw [hrow'] at hrow
        obtain rfl := Option.some.inj hrow
        exact (ih row hrow₀ d hd).step hs hstep
    | @moved _ ch _ t m _ row tk _ _ _ _ _ hoffer _ _ hrow₀ _ hticket hrow' _ =>
        rw [hrow'] at hrow
        obtain rfl := Option.some.inj hrow
        have hd : tk.driver = some d := hd
        -- an offer assigns the driver it locked; no other move brings a new driver
        have hcases : m = .offer d ∨ row.assignedDriverId = some d := by
          cases m with
          | offer d' =>
              rw [(offer_eq_some hticket).2.2.2.1] at hd
              obtain rfl := Option.some.inj hd
              exact .inl rfl
          | expire =>
              rw [(expire_eq_some hticket).2.2.1] at hd
              cases hd
          | timeout d' =>
              rw [(refuse_eq_some (.inl rfl) hticket).2.2.2.1] at hd
              cases hd
          | reject d' =>
              rw [(refuse_eq_some (.inr rfl) hticket).2.2.2.1] at hd
              cases hd
          | accept d' =>
              obtain ⟨-, hd₀, -, hd', -⟩ := accept_eq_some hticket
              exact .inr (hd₀.trans (hd'.symm.trans hd))
          | advance newStatus =>
              obtain ⟨-, -, -, -, hd', -⟩ := advance_eq_some hticket
              exact .inr (hd'.symm.trans hd)
          | reassign =>
              rw [(reassign_eq_some hticket).2.2.1] at hd
              cases hd
        -- the query under the lock asks for the vehicle of the order
        rcases hcases with hm | hd₀
        · obtain ⟨cands, driver, -, hlock, rfl⟩ := hoffer d hm
          obtain ⟨-, hfind, hvehincle⟩ := DispatchService.lockFirst_eq_some hlock
          have hsuits : Suits s row driver.id := ⟨driver, hfind, hvehincle⟩
          exact hsuits.step hs hstep
        · exact (ih row hrow₀ d hd₀).step hs hstep

/-- How the status of an order and its assignment agree. -/
structure Assigned (s : Sys Q) (order : Order) : Prop where
  idle : order.orderStatus = PENDING ∨ order.orderStatus = EXPIRED →
    order.assignedDriverId = none
  engaged : order.orderStatus ∈ [DRIVER_ASSIGNED, DRIVER_ARRIVING, PICKED_UP, IN_TRANSIT,
    DELIVERED, FAILED] → ∃ d driver, order.assignedDriverId = some d ∧
      d ∈ order.attemptedDriverIds ∧ s.shared.db.drivers.find d = some driver ∧
      driver.vehincleType = order.vehincleType

/-- **In every reachable state the status and the assignment of every order agree.** -/
theorem status_fits_assignment (hs : Transition.Reachable (logistics Q cfg) s)
    (hrow : s.order o = some order) : Assigned s order := by
  have hsuits := assigned_suits hs order hrow
  obtain ⟨tr, run⟩ := hs
  obtain ⟨l, hl, hticket, -⟩ := books_of_order run hrow
  have hagrees : order.ticket.Agrees := by
    have h := agrees_of_reachable hl
    rwa [hticket] at h
  refine ⟨hagrees.idle, fun hstatus => ?_⟩
  obtain ⟨d, hd, hmem⟩ := hagrees.engaged hstatus
  obtain ⟨driver, hdriver, hvehincle⟩ := hsuits d hd
  exact ⟨d, driver, hd, hmem, hdriver, hvehincle⟩

/-- The trip that was offered to the driver is assigned to him. -/
theorem status_fits_assignment_of_trip :
    ∃ order, (after _ _ _ trip_offered).order sampleOrder = some order ∧
      order.orderStatus = DRIVER_ASSIGNED ∧ Assigned (after _ _ _ trip_offered) order := by
  have hoffered : (after _ _ _ trip_offered).status sampleOrder = some DRIVER_ASSIGNED := by
    decide +kernel
  obtain ⟨order, hrow, hstatus⟩ := Option.map_eq_some_iff.mp hoffered
  exact ⟨order, hrow, hstatus, status_fits_assignment (after_reachable trip_offered) hrow⟩

end LogisticsDispatch
