/-
Which status changes are ever committed, and where an order ends.

Only `updateStatus` consults `ORDER_TRANSITIONS`; the dispatch service and
`reassignOrder` have guards of their own. That every change is an edge of the table, or
one of three exceptions, follows for all of them from what a move of a life can do.
Soft deletion takes no version, so an update by version still matches a deleted row; it
is undone when the row is read back, which is why `OrderStep` makes moves only on rows
that are not deleted.
-/
import LogisticsDispatch.Refinement

set_option autoImplicit false

namespace LogisticsDispatch

open OrderStatus Lifecycle

variable {Q : Type} [JobQueue Q JobId JobData] {cfg : DispatchConfig} {s s' : Sys Q} {a : Action}
  {o : OrderId} {row row' : Order}

/-- The step is one of a call with a property. -/
def MadeBy (s : Sys Q) (a : Action) (P : Call → Prop) : Prop :=
  ∃ i ch call, a = .exec i ch ∧ s.call i = some call ∧ P call

/-- The call refuses offers of the order: a timeout of the order's, or a rejection of
it. -/
def Call.Refuses (o : OrderId) (call : Call) : Prop :=
  (∃ d, call.Handles (.DISPATCH_TIMEOUT o d)) ∨ ∃ d, call = .request (.rejectDispatch o d)

/-- A status change that may be committed, and by which calls. -/
def LegalChange (s : Sys Q) (a : Action) (o : OrderId) (before after : OrderStatus) : Prop :=
  after ∈ ORDER_TRANSITIONS before ∨
    before = DRIVER_ASSIGNED ∧ (after = PENDING ∨ after = EXPIRED) ∧ MadeBy s a (Call.Refuses o) ∨
    before = EXPIRED ∧ after = PENDING ∧
      MadeBy s a fun call => ∃ user, call = .request (.reassignOrder o user)

/-- The life of the order is over: it was delivered, cancelled, failed or
soft-deleted. -/
def Over (row : Order) : Prop :=
  row.orderStatus = DELIVERED ∨ row.orderStatus = CANCELLED ∨ row.orderStatus = FAILED ∨
    row.deletedAt ≠ none

/-- A refusing move comes from a call that refuses. -/
theorem Transaction.Makes.refuses {t : Transaction} {m : Move DriverId} {actor : String}
    {call : Call} (h : t.Makes o m actor) (hbelongs : t.BelongsTo call)
    (hm : m.refuses = true) : call.Refuses o := by
  cases h with
  | timeout _ d => exact .inl ⟨d, hbelongs⟩
  | reject _ d => exact .inr ⟨d, hbelongs⟩
  | _ => cases hm

/-- A reassigning move comes from `reassignOrder`. -/
theorem Transaction.Makes.reassigns {t : Transaction} {actor : String} {call : Call}
    (h : t.Makes o .reassign actor) (hbelongs : t.BelongsTo call) :
    ∃ user, call = .request (.reassignOrder o user) := by
  cases h with
  | reassign _ order user => exact ⟨user, hbelongs⟩

/-- Every status change a step commits is legal. -/
theorem legal_change (hs : Transition.Reachable (logistics Q cfg) s)
    (hstep : step cfg s a = some s') (hrow : s.order o = some row)
    (hrow' : s'.order o = some row') (hne : row'.orderStatus ≠ row.orderStatus) :
    LegalChange s a o row.orderStatus row'.orderStatus := by
  cases order_step hs hstep o with
  | same horder _ =>
      rw [horder, hrow] at hrow'
      obtain rfl := Option.some.inj hrow'
      exact absurd rfl hne
  -- an order that is created had no status before
  | created _ _ hnone _ _ _ _ =>
      rw [hrow] at hnone
      cases hnone
  | deleted _ _ hrow₁ hrow₂ _ =>
      rw [hrow] at hrow₁
      obtain rfl := Option.some.inj hrow₁
      rw [hrow'] at hrow₂
      obtain rfl := Option.some.inj hrow₂
      exact absurd rfl hne
  | @moved i ch call t m actor row₁ tk ha hcall _ hbelongs hmakes _ _ _ hrow₁ _ hticket hrow₂ _ =>
      rw [hrow] at hrow₁
      obtain rfl := Option.some.inj hrow₁
      rw [hrow'] at hrow₂
      obtain rfl := Option.some.inj hrow₂
      -- an edge of the table, a refusal, or a reassignment
      rcases apply_edge hticket with hmem | ⟨hm, hs₁, hs₂⟩ | ⟨rfl, hs₁, hs₂⟩
      · exact .inl hmem
      · exact .inr (.inl ⟨hs₁, hs₂, i, ch, call, ha, hcall, hmakes.refuses hbelongs hm⟩)
      · exact .inr (.inr ⟨hs₁, hs₂, i, ch, call, ha, hcall, hmakes.reassigns hbelongs⟩)

/-- One step leaves an order that is over as it is, but for the columns of soft
deletion. -/
theorem over_step (hs : Transition.Reachable (logistics Q cfg) s)
    (hstep : step cfg s a = some s') (hrow : s.order o = some row) (hover : Over row) :
    ∃ row', s'.order o = some row' ∧ Over row' ∧ row'.ticket = row.ticket ∧
      s'.history o = s.history o := by
  cases order_step hs hstep o with
  | same horder hhistory => exact ⟨row, horder.trans hrow, hover, rfl, hhistory⟩
  | created _ _ hnone _ _ _ _ =>
      rw [hrow] at hnone
      cases hnone
  | deleted _ _ hrow₁ hrow₂ hhistory =>
      rw [hrow] at hrow₁
      obtain rfl := Option.some.inj hrow₁
      refine ⟨_, hrow₂, ?_, rfl, hhistory⟩
      -- deleting a second time only moves the date
      exact .inr (.inr (.inr (by simp)))
  | @moved i ch call t m actor row₁ tk _ _ _ _ _ _ _ _ hrow₁ hlive hticket _ _ =>
      rw [hrow] at hrow₁
      obtain rfl := Option.some.inj hrow₁
      -- no move starts from there
      have hend : row.ticket.status = DELIVERED ∨ row.ticket.status = CANCELLED ∨
          row.ticket.status = FAILED := by
        -- a deleted order makes no move at all, so it must be one of the three
        rcases hover with h | h | h | h
        · exact .inl h
        · exact .inr (.inl h)
        · exact .inr (.inr h)
        · exact absurd hlive h
      rw [apply_of_absorbing hend] at hticket
      cases hticket

/-- An order that is over stays as it is in every continuation of a run. -/
theorem over_path (hs : Transition.Reachable (logistics Q cfg) s)
    {tr : List (Transition.Move (Sys Q) Action)}
    (path : Transition.Path (logistics Q cfg) s tr s') (hrow : s.order o = some row)
    (hover : Over row) : ∃ row', s'.order o = some row' ∧ Over row' ∧
      row'.ticket = row.ticket ∧ s'.history o = s.history o := by
  refine path.invariant_trace (P := fun _ s' => ∃ row', s'.order o = some row' ∧ Over row' ∧
    row'.ticket = row.ticket ∧ s'.history o = s.history o) hs ⟨row, hrow, hover, rfl, rfl⟩ ?_
  -- the ticket and the history are compared with those at the start of the path
  rintro tr s₁ a s₂ - hs₁ ⟨row₁, hrow₁, hover₁, hticket₁, hhistory₁⟩ hstep
  obtain ⟨row₂, hrow₂, hover₂, hticket₂, hhistory₂⟩ := over_step hs₁ hstep hrow₁ hover₁
  exact ⟨row₂, hrow₂, hover₂, hticket₂.trans hticket₁, hhistory₂.trans hhistory₁⟩

/-- **Edges and ends of the lifecycle.** From every reachable state, a step commits only
legal status changes, and no continuation of the run changes an order that is over. -/
theorem lifecycle_edges_and_ends (hs : Transition.Reachable (logistics Q cfg) s) (o : OrderId) :
    (∀ a s' row row', step cfg s a = some s' → s.order o = some row → s'.order o = some row' →
      row'.orderStatus ≠ row.orderStatus →
      LegalChange s a o row.orderStatus row'.orderStatus) ∧
    (∀ tr s' row, Transition.Path (logistics Q cfg) s tr s' → s.order o = some row → Over row →
      ∃ row', s'.order o = some row' ∧ row'.orderStatus = row.orderStatus ∧
        row'.assignedDriverId = row.assignedDriverId ∧
        row'.dispatchAttempts = row.dispatchAttempts ∧ row'.version = row.version ∧
        s'.history o = s.history o) := by
  refine ⟨fun a s' row row' hstep hrow hrow' hne => legal_change hs hstep hrow hrow' hne, ?_⟩
  intro tr s' row path hrow hover
  obtain ⟨row', hrow', -, hticket, hhistory⟩ := over_path hs path hrow hover
  exact ⟨row', hrow', congrArg Ticket.status hticket, congrArg Ticket.driver hticket,
    congrArg Ticket.attempts hticket, congrArg Ticket.version hticket, hhistory⟩

/-- The admin cancels the trip that was offered: call `4`. -/
def cancelTrip : List Action :=
  .invoke 4 (.cancelOrder sampleOrder sampleAdmin) :: proceed 4 2 sampleChoice

theorem trip_cancelled : ((logistics BullQueue (sampleConfig 3)).exec (start [carDriver])
    (orderTrip ++ offerTrip ++ cancelTrip)).isSome := by
  decide +kernel

/-- Once cancelled, the trip stays as it is, whatever comes. -/
theorem lifecycle_ends_of_trip : ∃ row,
    (after _ _ _ trip_cancelled).order sampleOrder = some row ∧ row.orderStatus = CANCELLED ∧
    ∀ tr s', Transition.Path (logistics BullQueue (sampleConfig 3)) (after _ _ _ trip_cancelled)
      tr s' → ∃ row', s'.order sampleOrder = some row' ∧ row'.orderStatus = CANCELLED ∧
        row'.version = row.version := by
  have hcancelled : (after _ _ _ trip_cancelled).status sampleOrder = some CANCELLED := by
    decide +kernel
  obtain ⟨row, hrow, hstatus⟩ := Option.map_eq_some_iff.mp hcancelled
  refine ⟨row, hrow, hstatus, fun tr s' path => ?_⟩
  obtain ⟨row', hrow', hstatus', -, -, hversion, -⟩ :=
    (lifecycle_edges_and_ends (after_reachable trip_cancelled) sampleOrder).2 tr s' row path hrow
      (.inr (.inl hstatus))
  exact ⟨row', hrow', hstatus'.trans hstatus, hversion⟩

end LogisticsDispatch
