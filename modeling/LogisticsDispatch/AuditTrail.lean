/-
The audit trail of an order: its rows of `order_status_history`.

Eight transactions write order rows. Six lock the row and read it again, two update by
version a row they read before. Since each of them is at most one move of the order's
life, with the history row of that move, the history of an order is its trail.
-/
import LogisticsDispatch.Refinement

set_option autoImplicit false

namespace LogisticsDispatch

open OrderStatus Lifecycle

variable {Q : Type} [JobQueue Q JobId JobData] {cfg : DispatchConfig} {s : Sys Q} {o : OrderId}
  {order : Order}

/-- The rows are one unbroken chain that leads from the creation of the order to its
present status, with one row for each version. -/
structure Unbroken (order : Order) (rows : List OrderStatusHistory) : Prop where
  first : rows.head?.map (fun row => (row.previousStatus, row.newStatus)) = some (none, PENDING)
  linked : rows.IsChain fun row next => next.previousStatus = some row.newStatus
  last : rows.getLast?.map OrderStatusHistory.newStatus = some order.orderStatus
  version : order.version = rows.length

/-- A ledger's trail that is chained is an unbroken history. -/
theorem Unbroken.of_chained {l : Ledger DriverId} {rows : List OrderStatusHistory}
    (h : l.Chained) (hticket : l.ticket = order.ticket)
    (htrail : l.trail = rows.map fun row => (row.previousStatus, row.newStatus)) :
    Unbroken order rows := by
  have hfirst := h.first
  have hlinked := h.linked
  have hlast := h.last
  have hversion := h.version
  -- the trail is the history without its actors, and none of the four says more
  rw [htrail, List.head?_map] at hfirst
  rw [htrail, List.isChain_map] at hlinked
  rw [htrail, hticket, List.getLast?_map, Option.map_map] at hlast
  rw [htrail, hticket, List.length_map] at hversion
  exact ⟨hfirst, hlinked, hlast, hversion⟩

/-- The version of an order counts the entries of its history. -/
theorem version_eq_length (hs : Transition.Reachable (logistics Q cfg) s)
    (hrow : s.order o = some order) : order.version = (s.history o).length := by
  obtain ⟨tr, run⟩ := hs
  obtain ⟨l, hl, hticket, htrail, -⟩ := books_of_order run hrow
  exact (Unbroken.of_chained (chained_of_reachable hl) hticket htrail).version

/-- **In every reachable state the history of every order is unbroken.** -/
theorem history_unbroken (hs : Transition.Reachable (logistics Q cfg) s)
    (hrow : s.order o = some order) : Unbroken order (s.history o) := by
  obtain ⟨tr, run⟩ := hs
  obtain ⟨l, hl, hticket, htrail, -⟩ := books_of_order run hrow
  exact .of_chained (chained_of_reachable hl) hticket htrail

/-- The history of the trip, from `null` to `PENDING` to `DRIVER_ASSIGNED`. -/
theorem history_unbroken_of_trip :
    ∃ order, (after _ _ _ trip_offered).order sampleOrder = some order ∧
      Unbroken order ((after _ _ _ trip_offered).history sampleOrder) ∧
      ((after _ _ _ trip_offered).history sampleOrder).length = 2 := by
  have hoffered : (after _ _ _ trip_offered).status sampleOrder = some DRIVER_ASSIGNED := by
    decide +kernel
  obtain ⟨order, hrow, -⟩ := Option.map_eq_some_iff.mp hoffered
  refine ⟨order, hrow, ?_, by decide +kernel⟩
  exact history_unbroken (after_reachable trip_offered) hrow

end LogisticsDispatch
