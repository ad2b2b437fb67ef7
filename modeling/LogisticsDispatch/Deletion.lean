/-
Which orders are deleted.

`softDelete` reads the order without a lock, refuses an order that is active, and then
deletes whatever the row has become: the statement asks for the id only. Everything
else that writes an order looks for rows that are not deleted, so a row stays in the
status it was deleted in. An active order is deleted exactly when the statement comes to
one.
-/
import LogisticsDispatch.StatusChanges

set_option autoImplicit false

namespace LogisticsDispatch

open OrderStatus OrdersService

variable {Q : Type} [JobQueue Q JobId JobData] {cfg : DispatchConfig} {s s' : Sys Q} {a : Action}
  {o : OrderId} {row row' : Order}

/-- No order that is deleted is active. -/
def NoActiveDeleted (s : Sys Q) : Prop :=
  ∀ o row, s.order o = some row → row.deletedAt ≠ none → row.orderStatus ∉ activeStatuses

/-- A step of a run deletes no row that is active by then. -/
def DeletesIdle (m : Transition.Move (Sys Q) Action) : Prop :=
  ∀ i ch o row, m.act = .exec i ch → m.src.next i = some (.softDelete o) →
    m.src.order o = some row → row.orderStatus ∉ activeStatuses

omit [JobQueue Q JobId JobData] in
/-- A call of `softDelete` runs no transaction. -/
theorem Transaction.not_belongsTo_softDelete {t : Transaction} :
    ¬ t.BelongsTo (.request (.softDelete o)) := by
  intro h
  have hno : ∀ data, ¬ (Call.request (.softDelete o)).Handles data := by
    rintro data (h | ⟨queue, jobId, h⟩) <;> cases h
  cases t with
  | createOrder dto c p =>
      obtain ⟨key, h⟩ := h
      cases h
  | assignDriverWithLock o' cands => exact hno _ h
  | expireOrder o' => exact hno _ h
  | handleDispatchTimeout o' d => exact hno _ h
  | updateStatus o' order st user => rcases h with h | ⟨-, h⟩ <;> cases h
  | _ => cases h

/-- A call of `softDelete` changes orders by its statement only. -/
theorem order_eq_of_not_deleting {i : ℕ} {ch : Choice} {o₁ : OrderId}
    (hs : Transition.Reachable (logistics Q cfg) s) (hstep : step cfg s (.exec i ch) = some s')
    (hcall : s.call i = some (.request (.softDelete o₁)))
    (hnext : s.next i ≠ some (.softDelete o₁)) (o : OrderId) : s'.order o = s.order o := by
  obtain ⟨call, e, k, hi, hsh, -⟩ := Resumable.Pool.advance_eq_some hstep
  have hsh : s'.shared = (perform cfg ch e s.shared).2 := hsh
  rw [Sys.call_of_lookup hi] at hcall
  obtain rfl := Option.some.inj hcall
  rw [Sys.next_of_lookup hi] at hnext
  have hguar := guar_of_next hs hi
  have ht : ∀ t, e ≠ .transaction t := by
    rintro t rfl
    exact Transaction.not_belongsTo_softDelete hguar.1
  -- the only deletion the call may perform is its own
  have hd : ∀ o', e ≠ .softDelete o' := by
    rintro o' rfl
    cases hguar
    exact hnext rfl
  rw [Sys.order, hsh, (perform_orders ht hd).1]
  rfl

/-- A step that deletes no active row leaves none that is deleted and active. -/
theorem NoActiveDeleted.step (hs : Transition.Reachable (logistics Q cfg) s)
    (hstep : step cfg s a = some s') (hidle : DeletesIdle ⟨s, a, s'⟩) (h : NoActiveDeleted s) :
    NoActiveDeleted s' := by
  intro o row' hrow' hdeleted
  cases order_step hs hstep o with
  | same horder _ =>
      rw [horder] at hrow'
      exact h o row' hrow' hdeleted
  | created _ _ _ hrow _ hlive _ _ =>
      rw [hrow] at hrow'
      obtain rfl := Option.some.inj hrow'
      exact absurd hlive hdeleted
  | @deleted i ch row ha hcall hrow hrow₁ _ =>
      subst ha
      by_cases hnext : s.next i = some (.softDelete o)
      · rw [hrow₁] at hrow'
        obtain rfl := Option.some.inj hrow'
        exact hidle i ch o row rfl hnext hrow
      -- before its statement the call has changed nothing
      · rw [order_eq_of_not_deleting hs hstep hcall hnext] at hrow'
        exact h o row' hrow' hdeleted
  -- whatever moves an order finds it not deleted, and leaves it so
  | @moved i ch call t m actor row tk _ _ _ _ _ _ _ _ _ hlive _ hrow₁ _ =>
      rw [hrow₁] at hrow'
      obtain rfl := Option.some.inj hrow'
      exact absurd hlive hdeleted

/-- A step that deletes an active row leaves it deleted and active. -/
theorem deletesIdle_of_noActiveDeleted (hstep : step cfg s a = some s')
    (h : NoActiveDeleted s') : DeletesIdle ⟨s, a, s'⟩ := by
  intro i ch o row ha hnext hrow
  obtain rfl : a = .exec i ch := ha
  have hrow : s.shared.db.orders.find o = some row := hrow
  obtain ⟨call, k, hi⟩ := Sys.lookup_of_next hnext
  obtain ⟨hsh, -⟩ := exec_eq_some hi hstep
  have hid : row.id = o := Table.key_of_find hrow
  have hrow' : s'.order o
      = some { row with deletedAt := some ch.now, updatedAt := ch.now } := by
    rw [Sys.order, hsh]
    simp only [perform, softDeleteRow, hrow]
    exact Table.find_put_of_eq hid
  have hidle := h o _ hrow' (by simp)
  exact hidle

/-- **When no active order is deleted**: in every state of a run, exactly if the
statement of `softDelete` never comes to a row that is active by then. -/
theorem no_active_deleted_iff {tr : List (Transition.Move (Sys Q) Action)}
    (run : Transition.Run (logistics Q cfg) tr s) :
    (NoActiveDeleted s ∧ ∀ m ∈ tr, NoActiveDeleted m.src ∧ NoActiveDeleted m.dst) ↔
      ∀ m ∈ tr, DeletesIdle m := by
  constructor
  · rintro ⟨-, h⟩ m hm
    exact deletesIdle_of_noActiveDeleted (run.of_mem hm).2 (h m hm).2
  · refine run.invariant_of (C := DeletesIdle) ?_ ?_
    -- there are no orders at first
    · intro s hinit o row hrow
      rw [Sys.order, hinit.orders, Table.find_empty] at hrow
      cases hrow
    · intro s₁ a s₂ hs₁ hnone hidle hstep
      exact hnone.step hs₁ hstep hidle

/-! ### In the small system -/

/-- The trip is read by `softDelete`, call `3`, offered to the driver, and deleted. -/
def deletedOffer : List Action :=
  orderTrip ++ .invoke 3 (.softDelete sampleOrder) :: proceed 3 1 sampleChoice ++ offerTrip ++
    proceed 3 1 sampleChoice

theorem offer_deleted : ((logistics BullQueue (sampleConfig 3)).exec (start [carDriver])
    deletedOffer).isSome := by
  decide +kernel

/-- An order that is offered between the read and the statement is deleted while its
driver is asked. -/
theorem offered_trip_deleted : ∃ s, Transition.Reachable (logistics BullQueue (sampleConfig 3)) s ∧
    ¬ NoActiveDeleted s := by
  refine ⟨_, after_reachable offer_deleted, fun h => ?_⟩
  have hdeleted : ((after _ _ _ offer_deleted).order sampleOrder).map
      (fun row => (row.orderStatus, row.deletedAt)) = some (DRIVER_ASSIGNED, some 0) := by
    decide +kernel
  obtain ⟨row, hrow, heq⟩ := Option.map_eq_some_iff.mp hdeleted
  obtain ⟨hstatus, hdate⟩ := Prod.mk.inj heq
  refine h sampleOrder row hrow (by simp [hdate]) ?_
  rw [hstatus]
  decide

/-- The trip is deleted before it is offered: call `3`. -/
def deleteTrip : List Action :=
  .invoke 3 (.softDelete sampleOrder) :: proceed 3 2 sampleChoice

theorem trip_deleted : ((logistics BullQueue (sampleConfig 3)).exec (start [carDriver])
    (orderTrip ++ deleteTrip)).isSome := by
  decide +kernel

/-- Whether the row that a step deletes is active, as a computation. -/
def deletesIdleb (m : Transition.Move (Sys Q) Action) : Bool :=
  match m.act with
  | .exec i _ =>
      match m.src.next i with
      | some (.softDelete o) =>
          (m.src.order o).all fun row => decide (row.orderStatus ∉ activeStatuses)
      | _ => true
  | _ => true

omit [JobQueue Q JobId JobData] in
theorem deletesIdle_of_deletesIdleb {m : Transition.Move (Sys Q) Action}
    (h : deletesIdleb m = true) : DeletesIdle m := by
  intro i ch o row ha hnext hrow
  unfold deletesIdleb at h
  simpa only [ha, hnext, hrow, Option.all_some, decide_eq_true_eq] using h

/-- Where the trip is deleted while it waits, no active order is. -/
theorem no_active_deleted_of_trip : NoActiveDeleted (after _ _ _ trip_deleted) := by
  have hall : ((logistics BullQueue (sampleConfig 3)).moves [] (start [carDriver])
      (orderTrip ++ deleteTrip)).all deletesIdleb = true := by decide +kernel
  rw [List.all_eq_true] at hall
  exact ((no_active_deleted_iff (after_run trip_deleted)).mpr fun m hm =>
    deletesIdle_of_deletesIdleb (hall m hm)).1

end LogisticsDispatch
