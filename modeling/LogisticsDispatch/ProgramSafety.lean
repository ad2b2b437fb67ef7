/-
Every program keeps to the contract.

One theorem for each method, in the order of `Services.lean`: from any state of the
right form, whatever the others do between its steps, the method performs only what
its call may perform (`Guar`). A method that only asks for harmless effects is safe at
once; the ones with an argument are those that bring a copy of a row into a
transaction (`updateStatus`, `reassignOrder`, `toggleAvailability`, `processOutbox`)
and the one that removes the job a Redis key names (`cancelDispatchTimeout`).
-/
import LogisticsDispatch.Contract

set_option autoImplicit false

namespace LogisticsDispatch

open OrderStatus Resumable Resumable.Program

variable {Q : Type} [JobQueue Q JobId JobData] {cfg : DispatchConfig} {call : Call} {s : Shared Q}
  {α β : Type}

/-- Asking for an effect that is allowed whatever the state. -/
theorem ask_safe {e : Effect} (h : ∀ s₁ : Shared Q, Guar call s₁ e) :
    (ask e).Safe (rules Q cfg) call s :=
  .perform fun s₁ _ => h s₁

/-- Asking for an effect that is allowed whatever the state, and going on. -/
theorem ask_bind_safe {e : Effect} {g : e.Resp → Prog α} (h : ∀ s₁ : Shared Q, Guar call s₁ e)
    (hg : ∀ a s₁, Rely s s₁ → (g a).Safe (rules Q cfg) call s₁) :
    (ask e >>= g).Safe (rules Q cfg) call s :=
  (ask_safe h).bind hg

/-- A transaction of the call that brings no copy. -/
theorem transaction_safe {t : Transaction} (hcall : t.BelongsTo call) (ht : ∀ db, t.Checked db) :
    (transaction t).Safe (rules Q cfg) call s :=
  ask_safe fun s₁ => ⟨hcall, ht s₁.db⟩

/-! ## `EventPublisherService` and `TrackingService` -/

theorem notify_safe (event : Event) :
    (EventPublisherService.notify event).Safe (rules Q cfg) call s :=
  .tryCatch (ask_safe fun _ => trivial) fun _ _ _ => trivial

namespace TrackingService

theorem ensureEtaJobScheduled_safe (o : OrderId) (d : DriverId) :
    (ensureEtaJobScheduled o d).Safe (rules Q cfg) call s := by
  refine ask_bind_safe (fun _ => trivial) fun existing s₁ _ => ?_
  split
  · trivial
  · refine ask_bind_safe (fun _ => trivial) fun jobId s₂ _ => ?_
    exact ask_safe fun _ => trivial

theorem cancelEtaJob_safe (o : OrderId) : (cancelEtaJob o).Safe (rules Q cfg) call s := by
  refine ask_bind_safe (fun _ => trivial) fun jobId s₁ _ => ?_
  split
  · trivial
  · next jobId =>
      -- the ETA queue is not part of the contract, so any job may be removed from it
      refine .bind (.tryCatch ?_ fun _ _ _ => trivial) fun _ s₂ _ => ask_safe fun _ => trivial
      refine ask_bind_safe (fun _ => trivial) fun job s₂ _ => ?_
      split
      · exact ask_safe fun _ => trivial
      · trivial

theorem activeOrderOf_safe (d : DriverId) : (activeOrderOf d).Safe (rules Q cfg) call s := by
  refine ask_bind_safe (fun _ => trivial) fun cached s₁ _ => ?_
  split
  · trivial
  · refine ask_bind_safe (fun _ => trivial) fun active s₂ _ => ?_
    split
    · trivial
    · exact ask_bind_safe (fun _ => trivial) fun _ _ _ => trivial

theorem handleLocationUpdate_safe (d : DriverId) (lat lng : ℚ) :
    (handleLocationUpdate d lat lng).Safe (rules Q cfg) call s := by
  refine ask_bind_safe (fun _ => trivial) fun _ s₁ _ => ?_
  refine .bind (activeOrderOf_safe d) fun orderId s₂ _ => ?_
  split
  · trivial
  · refine .bind (notify_safe _) fun _ s₃ _ => ?_
    exact .bind (ensureEtaJobScheduled_safe _ _) fun _ _ _ => trivial

theorem handleEtaRecalculation_safe (o : OrderId) (d : DriverId) :
    (handleEtaRecalculation cfg o d).Safe (rules Q cfg) call s := by
  refine ask_bind_safe (fun _ => trivial) fun order s₁ _ => ?_
  split
  · exact cancelEtaJob_safe o
  split
  · exact cancelEtaJob_safe o
  refine ask_bind_safe (fun _ => trivial) fun driver s₂ _ => ?_
  split
  · exact cancelEtaJob_safe o
  split
  · refine .bind (notify_safe _) fun _ s₃ _ => ?_
    refine ask_bind_safe (fun _ => trivial) fun _ s₄ _ => ?_
    exact ask_safe fun _ => trivial
  · exact cancelEtaJob_safe o

end TrackingService

/-! ## `DispatchService` -/

namespace DispatchService

theorem triggerDispatch_safe {o : OrderId} (hknown : Known s.db o) :
    (triggerDispatch o).Safe (rules Q cfg) call s := by
  refine .bind (.perform fun s₁ hrely => ⟨rfl, ?_⟩) fun _ _ _ => trivial
  rintro o' ho
  obtain rfl := JobId.assignDriver.inj ho
  exact hknown.mono hrely.db

theorem findNearestEligibleDrivers_safe (order : Order) :
    (findNearestEligibleDrivers cfg order).Safe (rules Q cfg) call s :=
  ask_bind_safe (fun _ => trivial) fun _ _ _ => trivial

theorem expireAndNotify_safe {o : OrderId} (hcall : call.Handles (.ASSIGN_DRIVER o)) :
    (expireAndNotify o).Safe (rules Q cfg) call s := by
  refine .bind (.bind (transaction_safe hcall fun _ => trivial) fun _ s₁ _ => ?_)
    fun _ s₂ _ => notify_safe _
  exact .tryCatch (TrackingService.cancelEtaJob_safe o) fun _ _ _ => trivial

theorem handleAssignDriver_safe {o : OrderId} (hcall : call.Handles (.ASSIGN_DRIVER o)) :
    (handleAssignDriver cfg o).Safe (rules Q cfg) call s := by
  refine .perform_bind (fun _ _ => trivial) fun s₁ c order _ hread => ?_
  split
  · trivial
  · next order =>
      -- the order that was read is the one the job names
      have hid : order.id = o := Db.id_of_findOrder (Except.ok.inj hread)
      rw [← hid] at hcall
      split
      · trivial
      split
      · exact expireAndNotify_safe hcall
      refine .bind (findNearestEligibleDrivers_safe order) fun cands s₂ _ => ?_
      split
      · exact expireAndNotify_safe hcall
      refine .bind (transaction_safe hcall fun _ => trivial) fun driverId s₃ _ => ?_
      split
      · exact expireAndNotify_safe hcall
      · next driverId =>
          refine .perform_bind (fun _ _ => ⟨rfl, fun _ ho => by cases ho⟩)
            fun s₄ c jobId _ hadd => ?_
          -- the key gets the id the job was added under
          obtain rfl : JobId.dispatchTimeout order.id driverId = jobId := Except.ok.inj hadd
          refine .bind (ask_safe fun _ => ⟨driverId, rfl⟩) fun _ s₅ _ => ?_
          exact notify_safe _

/-- What is known once a transaction has answered. -/
theorem known_of_result {ch : Choice} {t : Transaction} {res : t.Result} {o : OrderId}
    (h : ((machine cfg).exec ch (.transaction t) s).1 = .ok res)
    (hrun : ∀ db, t.run cfg ch s.db = .ok (res, db) → Known db o) :
    Known ((machine cfg).exec ch (.transaction t) s).2.db o := by
  simp only [machine, perform] at h ⊢
  split at h
  · cases h
  · next res' db heq =>
      obtain rfl := Except.ok.inj h
      exact hrun db heq

/-- A move leaves its order stored. -/
theorem known_of_move {db db' : Db} {o : OrderId} {m : Lifecycle.Move DriverId} {actor : String}
    {now : ℕ} (h : db.move cfg o m actor now = some db') : Known db' o := by
  obtain ⟨row, tk, -, -, -, hrow', -⟩ := Db.move_spec h
  exact .inl ⟨_, hrow'⟩

theorem handleDispatchTimeout_safe {o : OrderId} {d : DriverId}
    (hcall : call.Handles (.DISPATCH_TIMEOUT o d)) :
    (handleDispatchTimeout o d).Safe (rules Q cfg) call s := by
  refine .perform_bind (fun _ _ => ⟨hcall, trivial⟩) fun s₁ ch result _ hresult => ?_
  split
  · trivial
  · refine ask_bind_safe (fun _ => trivial) fun _ s₂ _ => ?_
    refine .bind (.tryCatch (TrackingService.cancelEtaJob_safe _) fun _ _ _ => trivial)
      fun _ s₃ _ => ?_
    refine .bind (notify_safe _) fun _ s₄ _ => notify_safe _
  · refine ask_bind_safe (fun _ => trivial) fun _ s₂ hrely₂ => ?_
    refine .bind (notify_safe _) fun _ s₃ hrely₃ => triggerDispatch_safe ?_
    -- the order is stored: the transaction has just moved it, and rows are never dropped
    refine ((known_of_result hresult fun db hrun => ?_).mono hrely₂.db).mono hrely₃.db
    rcases handleDispatchTimeoutTx_ok hrun with ⟨hskip, -⟩ | ⟨⟨hres, -⟩ | hres, hmove⟩
    · cases hskip
    · cases hres
    · obtain rfl := TimeoutResult.redispatch.inj hres
      exact known_of_move hmove

/-- What is removed is what the key names, and that is a timeout job. -/
theorem cancelDispatchTimeout_safe (hwf : WellFormed s) (o : OrderId) :
    (cancelDispatchTimeout o).Safe (rules Q cfg) call s := by
  refine .perform_bind (fun _ _ => trivial) fun s₁ c jobId hrely hget => ?_
  split
  · trivial
  · next jobId =>
      -- the key may have been written again since, but only ever with a timeout job's id
      obtain ⟨d, rfl⟩ := (hrely.wellFormed hwf).timeoutKey o jobId (Except.ok.inj hget)
      refine ask_bind_safe (fun _ => trivial) fun job s₂ _ => ?_
      split
      · refine .bind (.tryCatch (ask_safe fun _ => ⟨o, d, rfl⟩) fun _ _ _ => trivial)
          fun _ s₃ _ => ?_
        exact ask_safe fun _ => trivial
      · exact ask_safe fun _ => trivial

theorem acceptDispatch_safe (hwf : WellFormed s) {o : OrderId} {d : DriverId}
    (hcall : call = .request (.acceptDispatch o d)) :
    (acceptDispatch o d).Safe (rules Q cfg) call s := by
  refine .bind (transaction_safe hcall fun _ => trivial) fun result s₁ hrely => ?_
  split
  · trivial
  · refine .bind (cancelDispatchTimeout_safe (hrely.wellFormed hwf) o) fun _ s₂ _ => ?_
    refine .bind (notify_safe _) fun _ s₃ _ => ?_
    exact .bind (TrackingService.ensureEtaJobScheduled_safe _ _) fun _ _ _ => trivial

theorem rejectDispatch_safe (hwf : WellFormed s) {o : OrderId} {d : DriverId}
    (hcall : call = .request (.rejectDispatch o d)) :
    (rejectDispatch o d).Safe (rules Q cfg) call s := by
  refine .perform_bind (fun _ _ => ⟨hcall, trivial⟩) fun s₁ ch result hrely hresult => ?_
  -- `WellFormed` has to be carried over the transaction itself, not only over what the
  -- others do
  have hguar : Guar (Q := Q) call s₁ (.transaction (.rejectDispatch o d)) := ⟨hcall, trivial⟩
  have hwf₁ := (hrely.trans (hguar.rely : Rely s₁ (perform cfg ch _ s₁).2)).wellFormed hwf
  split
  · trivial
  · refine .bind (cancelDispatchTimeout_safe hwf₁ o) fun _ s₂ _ => ?_
    refine .bind (.tryCatch (TrackingService.cancelEtaJob_safe _) fun _ _ _ => trivial)
      fun _ s₃ _ => ?_
    exact .bind (notify_safe _) fun _ _ _ => trivial
  · refine .bind (cancelDispatchTimeout_safe hwf₁ o) fun _ s₂ hrely₂ => ?_
    refine .bind (triggerDispatch_safe ?_) fun _ _ _ => trivial
    refine (known_of_result hresult fun db hrun => ?_).mono hrely₂.db
    rcases rejectDispatchTx_ok hrun with ⟨hhandled, -⟩ | ⟨⟨hres, -⟩ | hres, hmove⟩
    · cases hhandled
    · cases hres
    · obtain rfl := RejectResult.redispatch.inj hres
      exact known_of_move hmove

end DispatchService

theorem process_safe {data : JobData} (hcall : call.Handles data) :
    (process cfg data).Safe (rules Q cfg) call s := by
  cases data with
  | ASSIGN_DRIVER o => exact DispatchService.handleAssignDriver_safe hcall
  | DISPATCH_TIMEOUT o d => exact DispatchService.handleDispatchTimeout_safe hcall
  | recalculate_eta o d => exact TrackingService.handleEtaRecalculation_safe o d

theorem worker_safe {queue : QueueName} {jobId : JobId} {data : JobData}
    (hcall : call = .worker queue jobId data) :
    (worker cfg queue jobId data).Safe (rules Q cfg) call s := by
  have hprocess : (process cfg data).Safe (rules Q cfg) call s :=
    process_safe (.inr ⟨queue, jobId, hcall⟩)
  refine .bind (.tryCatch (.bind hprocess fun _ _ _ => trivial) fun _ _ _ => trivial)
    fun ok s₁ _ => ?_
  exact ask_safe fun _ => ⟨data, hcall⟩

/-! ## `OrdersService` -/

namespace OrdersService

/-- A copy of an order that was found is what the row was then. -/
theorem copy_of_read {o : OrderId} {order : Order} {s s₁ : Shared Q}
    (hread : s.db.findOrder o = some order) (hrely : Rely s s₁) :
    ∃ row, s₁.db.orders.find o = some row ∧ order.Becomes row :=
  hrely.db.orders o order (Db.findOrder_eq_some.mp hread).1

theorem sanitizeKey_safe (key : Option String) :
    (sanitizeKey key).Safe (rules Q cfg) call s := by
  unfold sanitizeKey
  split
  · trivial
  · dsimp only
    split
    · trivial
    · refine ask_bind_safe (fun _ => trivial) fun cached s₁ _ => ?_
      split <;> trivial

theorem createOrder_safe {dto : CreateOrderDto} {c : UserId} {key : Option String}
    (hcall : call = .request (.createOrder dto c key)) :
    (createOrder cfg dto c key).Safe (rules Q cfg) call s := by
  refine .bind (sanitizeKey_safe key) fun sanitizedKey s₁ _ => ?_
  refine .ofExcept_bind fun _ _ => ?_
  refine .bind (transaction_safe ⟨key, hcall⟩ fun _ => trivial) fun order s₂ _ => ?_
  dsimp only
  split
  · trivial
  · exact ask_bind_safe (fun _ => trivial) fun _ _ _ => trivial

theorem updateStatus_safe {o : OrderId} {newStatus : OrderStatus} {user : JwtUser}
    (hcall : call = .request (.updateStatus o newStatus user) ∨
      newStatus = CANCELLED ∧ call = .request (.cancelOrder o user)) :
    (updateStatus o newStatus user).Safe (rules Q cfg) call s := by
  refine .perform_bind (fun _ _ => trivial) fun s₁ c order _ hread => ?_
  split
  · trivial
  · next order =>
      have hread : s₁.db.findOrder o = some order := Except.ok.inj hread
      refine .ofExcept_bind fun _ hactor => .ofExcept_bind fun _ htransition => ?_
      -- both checks passed on the copy; `Checked` keeps them, with the row as it is by now
      refine .bind (.perform fun s₂ hrely => ⟨hcall, copy_of_read hread hrely, hactor, htransition⟩)
        fun updated s₂ _ => ?_
      split
      · exact .bind (.tryCatch (TrackingService.cancelEtaJob_safe o) fun _ _ _ => trivial)
          fun _ _ _ => trivial
      · trivial

theorem softDelete_safe {o : OrderId} (hcall : call = .request (.softDelete o)) :
    (softDelete o).Safe (rules Q cfg) call s := by
  refine ask_bind_safe (fun _ => trivial) fun order s₁ _ => ?_
  split
  · trivial
  split
  · trivial
  · exact ask_bind_safe (fun _ => hcall) fun _ _ _ => trivial

theorem reassignOrder_safe {o : OrderId} {user : JwtUser}
    (hcall : call = .request (.reassignOrder o user)) :
    (reassignOrder o user).Safe (rules Q cfg) call s := by
  refine .perform_bind (fun _ _ => trivial) fun s₁ c order _ hread => ?_
  split
  · trivial
  · next order =>
      have hread : s₁.db.findOrder o = some order := Except.ok.inj hread
      have hknown : Known s₁.db o := .inl ⟨order, (Db.findOrder_eq_some.mp hread).1⟩
      split
      · trivial
      split
      · next hexp =>
          refine .bind (.perform fun s₂ hrely => ⟨hcall, copy_of_read hread hrely, hexp⟩)
            fun updated s₂ hrely₂ => ?_
          exact .bind (DispatchService.triggerDispatch_safe (hknown.mono hrely₂.db))
            fun _ _ _ => trivial
      -- a `PENDING` order is only dispatched again, with no transaction
      · refine .bind trivial fun updated s₂ hrely₂ => ?_
        exact .bind (DispatchService.triggerDispatch_safe (hknown.mono hrely₂.db))
          fun _ _ _ => trivial

end OrdersService

/-! ## `OutboxWorkerService` -/

namespace OutboxWorkerService

/-- The row is a copy of a stored row: it is stored, and about the same. -/
def Stored (s : Shared Q) (row : OutboxEvent) : Prop :=
  ∃ row', s.db.outbox.find row.id = some row' ∧ row'.Becomes row

theorem Stored.mono {s₁ : Shared Q} {row : OutboxEvent} (h : Stored s row) (hrely : Rely s s₁) :
    Stored s₁ row := by
  obtain ⟨row', hrow', hsame⟩ := h
  obtain ⟨row₁, hrow₁, hsame₁⟩ := hrely.db.outbox _ row' hrow'
  exact ⟨row₁, hrow₁, ⟨hsame.eventType.trans hsame₁.eventType.symm,
    hsame.payload.trans hsame₁.payload.symm⟩⟩

/-- Saving another state of a stored row. -/
theorem saveOutbox_safe {row row' : OutboxEvent} (hcall : call = .request .processOutbox)
    (hrow : Stored s row) (hid : row'.id = row.id) (hsame : row.Becomes row') :
    (ask (.saveOutbox row')).Safe (rules Q cfg) call s := by
  refine .perform fun s₁ hrely => ?_
  obtain ⟨row₁, hrow₁, hsame₁⟩ := hrow.mono hrely
  exact ⟨hcall, row₁, by rw [hid]; exact hrow₁, hsame₁.trans hsame⟩

theorem recordFailure_safe {row : OutboxEvent} (hcall : call = .request .processOutbox)
    (hrow : Stored s row) (err : Error) :
    (recordFailure row err).Safe (rules Q cfg) call s := by
  -- a failure is recorded in the state and the attempts, not in what the event says
  have hfailed : (failed row err).id = row.id ∧ row.Becomes (failed row err) := by
    unfold failed
    dsimp only
    split <;> exact ⟨rfl, rfl, rfl⟩
  exact saveOutbox_safe hcall hrow hfailed.1 hfailed.2

theorem triggerRow_safe {row : OutboxEvent} (hrow : Stored s row) :
    (triggerRow row).Safe (rules Q cfg) call s := by
  unfold triggerRow
  split
  -- only `dispatch.trigger` events have a handler
  · split
    · trivial
    · next o hpayload =>
        obtain ⟨row', hrow', hsame⟩ := hrow
        exact DispatchService.triggerDispatch_safe
          (.inr ⟨row.id, row', hrow', hsame.payload.symm.trans hpayload⟩)
  · trivial

theorem handleRow_safe {row : OutboxEvent} (hcall : call = .request .processOutbox)
    (hrow : Stored s row) :
    (handleRow row).Safe (rules Q cfg) call s := by
  refine .bind (.tryCatch (.bind (triggerRow_safe hrow) fun _ _ _ => trivial) fun _ _ _ => trivial)
    fun triggered s₁ hrely => ?_
  have hrow₁ := hrow.mono hrely
  split
  · exact recordFailure_safe hcall hrow₁ _
  · refine ask_bind_safe (fun _ => trivial) fun processedAt s₂ hrely₂ => ?_
    have hrow₂ := hrow₁.mono hrely₂
    refine .tryCatch (saveOutbox_safe hcall hrow₂ rfl ⟨rfl, rfl⟩) fun err s₃ hrely₃ => ?_
    -- the row that failed to be saved is another state of the same row
    obtain ⟨row', hrow', hsame⟩ := hrow₂.mono hrely₃
    refine recordFailure_safe hcall ⟨row', ?_, ?_⟩ err
    · exact hrow'
    · exact ⟨hsame.eventType, hsame.payload⟩

/-- The rows that are claimed are stored. -/
theorem claimed_stored {ch : Choice} {n : ℕ} {rows : List OutboxEvent}
    (h : ((machine cfg).exec ch (.claimOutbox n) s).1 = .ok rows) : ∀ row ∈ rows, Stored s row := by
  intro row hmem
  obtain rfl : _ = rows := Except.ok.inj h
  have hsorted := List.mem_of_mem_take hmem
  rw [List.mem_insertionSort, List.mem_filter] at hsorted
  exact ⟨row, Table.mem_toList.mp hsorted.1, .refl row⟩

theorem processOutbox_safe (hcall : call = .request .processOutbox) :
    processOutbox.Safe (rules Q cfg) call s := by
  refine .perform_bind (fun _ _ => trivial) fun s₁ c rows _ hread => ?_
  refine .forM fun row hmem s₂ hrely => ?_
  have hrow : Stored s₁ row := claimed_stored hread row hmem
  exact .tryCatch (handleRow_safe hcall (hrow.mono hrely)) fun _ _ _ => trivial

end OutboxWorkerService

/-! ## `DriversService` and `UsersService` -/

namespace DriversService

theorem toggleAvailability_safe (user : JwtUser) :
    (toggleAvailability user).Safe (rules Q cfg) call s := by
  refine .perform_bind (fun _ _ => trivial) fun s₁ c driver _ hread => ?_
  split
  · trivial
  · next driver =>
      split
      · trivial
      -- the driver is found by the user, so its id is that of the row that was read
      · have hfound : (s₁.db.drivers.toList.find? fun driver =>
            decide (driver.userId = user.userId)) = some driver := Except.ok.inj hread
        have hrow := Table.mem_toList.mp (List.mem_of_find?_eq_some hfound)
        refine .bind (.perform fun s₂ hrely => ?_) fun _ _ _ => trivial
        obtain ⟨row, hrow₂, hsame⟩ := hrely.db.drivers _ driver hrow
        exact ⟨row, hrow₂, ⟨hsame.userId.symm, hsame.vehincleType.symm⟩⟩

theorem updateLocation_safe (user : JwtUser) (lat lng : ℚ) :
    (updateLocation user lat lng).Safe (rules Q cfg) call s := by
  refine ask_bind_safe (fun _ => trivial) fun driver s₁ _ => ?_
  split
  · trivial
  · exact ask_bind_safe (fun _ => trivial) fun _ _ _ => trivial

end DriversService

/-! ## Every call -/

/-- **The program of every request keeps to the contract.** -/
theorem request_safe (hwf : WellFormed s) (req : Request) :
    (req.program cfg).Safe (rules Q cfg) (.request req) s := by
  cases req with
  | createOrder dto c key =>
      exact .bind (OrdersService.createOrder_safe rfl) fun _ _ _ => trivial
  | updateStatus o newStatus user =>
      exact .bind (OrdersService.updateStatus_safe (.inl rfl)) fun _ _ _ => trivial
  | cancelOrder o user =>
      exact .bind (OrdersService.updateStatus_safe (.inr ⟨rfl, rfl⟩)) fun _ _ _ => trivial
  | softDelete o => exact OrdersService.softDelete_safe rfl
  | reassignOrder o user =>
      exact .bind (OrdersService.reassignOrder_safe rfl) fun _ _ _ => trivial
  | acceptDispatch o d => exact DispatchService.acceptDispatch_safe hwf rfl
  | rejectDispatch o d => exact DispatchService.rejectDispatch_safe hwf rfl
  | process data => exact .bind (process_safe (.inl rfl)) fun _ _ _ => trivial
  | processOutbox => exact .bind (OutboxWorkerService.processOutbox_safe rfl) fun _ _ _ => trivial
  | handleLocationUpdate d lat lng =>
      exact .bind (TrackingService.handleLocationUpdate_safe d lat lng) fun _ _ _ => trivial
  | toggleAvailability user => exact DriversService.toggleAvailability_safe user
  | updateLocation user lat lng => exact DriversService.updateLocation_safe user lat lng
  | toggleSuspension d =>
      exact .bind (transaction_safe rfl fun _ => trivial) fun _ _ _ => trivial
  | promoteToDriver u v =>
      exact .bind (transaction_safe rfl fun _ => trivial) fun _ _ _ => trivial

/-! ## Every reachable state -/

open Transition

/-- A system in which every call keeps to the contract. -/
structure Kept (cfg : DispatchConfig) (s : Sys Q) : Prop where
  wellFormed : WellFormed s.shared
  safe : Pool.ThreadsSafe (rules Q cfg) s

/-- One step of a system whose calls keep to the contract: they still do, and the
shared state has changed as they rely on. -/
theorem Kept.step {s s' : Sys Q} {a : Action} (h : Kept cfg s)
    (hstep : LogisticsDispatch.step cfg s a = some s') :
    Kept cfg s' ∧ Rely s.shared s'.shared := by
  -- the actions that leave the database alone and only move jobs or keys
  have henv : ∀ {sh : Shared Q}, sh.db = s.shared.db → WellFormed sh →
      Kept cfg { s with shared := sh } ∧ Rely s.shared sh := by
    intro sh hdb hwf
    have hrely : Rely s.shared sh := .of_db_eq hdb fun _ => hwf
    exact ⟨⟨hwf, h.safe.env hrely⟩, hrely⟩
  cases a with
  | invoke i req =>
      obtain ⟨-, hsh, -⟩ := Pool.spawn_eq_some hstep
      refine ⟨⟨by rw [hsh]; exact h.wellFormed, ?_⟩, by rw [hsh]; exact .refl _⟩
      exact h.safe.spawn (request_safe h.wellFormed req) hstep
  | exec i ch =>
      obtain ⟨hsafe, hrely⟩ := h.safe.advance hstep
      have hrely : Rely s.shared s'.shared := hrely
      exact ⟨⟨hrely.wellFormed h.wellFormed, hsafe⟩, hrely⟩
  | fail i =>
      simp only [LogisticsDispatch.step, Option.ite_none_right_eq_some] at hstep
      obtain ⟨-, hstep⟩ := hstep
      obtain ⟨l, e, k, -, hsh, -⟩ := Pool.interrupt_eq_some hstep
      exact ⟨⟨by rw [hsh]; exact h.wellFormed, h.safe.interrupt hstep⟩, by rw [hsh]; exact .refl _⟩
  -- taking a job marks it active; the call that handles it starts out safe
  | deliver i queue jobId =>
      simp only [LogisticsDispatch.step] at hstep
      split at hstep
      · next data hfind =>
          obtain ⟨henv, hrely⟩ := henv (Shared.setQueue_db ..) (h.wellFormed.take queue jobId)
          obtain ⟨-, hsh, -⟩ := Pool.spawn_eq_some hstep
          refine ⟨⟨by rw [hsh]; exact henv.wellFormed, ?_⟩, by rw [hsh]; exact hrely⟩
          refine Pool.ThreadsSafe.spawn ?_ henv.safe hstep
          exact .bind (worker_safe rfl) fun _ _ _ => trivial
      · cases hstep
  | promote queue jobId =>
      obtain rfl := Option.some.inj hstep
      exact henv (Shared.setQueue_db ..) (h.wellFormed.promote queue jobId)
  | evict queue jobId =>
      obtain rfl := Option.some.inj hstep
      exact henv (Shared.setQueue_db ..) (h.wellFormed.evict queue jobId)
  | expire key =>
      obtain rfl := Option.some.inj hstep
      exact henv rfl (h.wellFormed.expire key)

theorem kept_of_initial {s : Sys Q} (h : Initial s) : Kept cfg s := by
  -- no jobs, no keys and no calls at first
  refine ⟨⟨fun j st data hfind => ?_, fun o j hj => ?_⟩, fun i th hi => ?_⟩
  · have hnone : JobQueue.find s.shared.dispatchQueue j = none := h.queue .DISPATCH_QUEUE j
    rw [hnone] at hfind
    cases hfind
  · rw [h.redis, AList.lookup_empty] at hj
    cases hj
  · rw [h.threads, AList.lookup_empty] at hi
    cases hi

/-- **Every reachable state keeps to the contract.** -/
theorem kept_of_reachable {s : Sys Q} (hs : Reachable (logistics Q cfg) s) : Kept cfg s :=
  hs.invariant (fun _ => kept_of_initial) fun _ _ _ _ h hstep => (h.step hstep).1

/-- Along every step the shared state changes as the calls rely on. -/
theorem rely_of_step {s s' : Sys Q} {a : Action} (hs : Reachable (logistics Q cfg) s)
    (h : step cfg s a = some s') : Rely s.shared s'.shared :=
  ((kept_of_reachable hs).step h).2

/-- What a call is about to perform, it may perform. -/
theorem guar_of_next {s : Sys Q} {i : ℕ} {call : Call} {e : Effect}
    {k : Except Error e.Resp → Prog Response} (hs : Reachable (logistics Q cfg) s)
    (hi : s.threads.lookup i = some ⟨call, .op e k⟩) : Guar call s.shared e :=
  (kept_of_reachable hs).safe.guar hi

end LogisticsDispatch
