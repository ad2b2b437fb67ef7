/-
What a call that is under way has still to do.

An order that waits is attended to by whoever has still to add its job or to expire it;
an open offer is attended to by whoever has still to add its timeout, or to run the
timeout's transaction. That is an obligation of the program of a call (`Will`), under the
answers it can get: only transactions and the removal of a job throw by themselves, and
while an order waits, `handleAssignDriver` finds it waiting and can assign no driver.

The theorems say which programs have these obligations: a job's handler from the start,
and the methods that put an order back or offer it from the answer of their transaction
on (`AllNodes`).
-/
import LogisticsDispatch.StatusChanges

set_option autoImplicit false

namespace LogisticsDispatch

open OrderStatus Resumable Resumable.Program

variable {cfg : DispatchConfig} {o : OrderId} {d : DriverId} {α : Type}

/-! ## Answers -/

/-- The answers an effect can give when the call itself does not fail: only a transaction
and the removal of a job throw. -/
def Answer : (e : Effect) → Except Error e.Resp → Prop
  | .transaction _, _ => True
  | .removeJob _ _, _ => True
  | _, r => ∃ a, r = .ok a

theorem perform_answer {Q : Type} [JobQueue Q JobId JobData] (ch : Choice) (e : Effect)
    (s : Shared Q) : Answer e (perform cfg ch e s).1 := by
  -- everything but transactions and removals answers `.ok`
  cases e with
  | transaction t => trivial
  | removeJob queue j => trivial
  | updateDriverLocation d lat lng =>
      simp only [perform]
      split <;> exact ⟨_, rfl⟩
  | _ => exact ⟨_, rfl⟩

/-- No transaction. -/
def NoTransaction : Effect → Prop
  | .transaction _ => False
  | _ => True

/-! ## Attending to an order that waits -/

/-- To add the job of an order, or to expire it. -/
def AttendsTo (o : OrderId) : Effect → Prop
  | .addJob .DISPATCH_QUEUE (.assignDriver o') _ delay => o' = o ∧ delay = 0
  | .transaction (.expireOrder o') => o' = o
  | _ => False

/-- The answers an effect can give while an order waits. -/
def WaitingAnswer (o : OrderId) (e : Effect) (r : Except Error e.Resp) : Prop :=
  Answer e r ∧
    match e, r with
    | .findOrder o', r => o' = o →
        ∃ order, r = .ok (some order) ∧ order.id = o ∧ order.orderStatus = PENDING
    | .transaction (.assignDriverWithLock o' _), r => o' = o → r = .ok none
    | _, _ => True

/-- The program will attend to an order as long as it waits. -/
abbrev Attends (o : OrderId) (p : Prog α) : Prop := p.Will (AttendsTo o) (WaitingAnswer o)

/-- An effect that neither is a transaction nor removes a job does not throw. -/
theorem not_answer_error {e : Effect} {err : Error} (ht : NoTransaction e)
    (hr : ∀ queue j, e ≠ .removeJob queue j) : ¬ Answer e (.error err) := by
  intro hanswer
  cases e with
  | transaction t => exact ht
  | removeJob queue j => exact hr queue j rfl
  | _ =>
      obtain ⟨a, h⟩ := hanswer
      cases h

theorem not_error {e : Effect} {err : Error} (ht : NoTransaction e)
    (hr : ∀ queue j, e ≠ .removeJob queue j) : ¬ WaitingAnswer o e (.error err) :=
  fun h => not_answer_error ht hr h.1

/-- Such an effect completes. -/
theorem ask_completes {e : Effect} (ht : NoTransaction e) (hr : ∀ queue j, e ≠ .removeJob queue j) :
    (ask e).Completes (WaitingAnswer o) :=
  completes_perform fun _ => not_error ht hr

theorem ask_answers {e : Effect} (ht : NoTransaction e) (hr : ∀ queue j, e ≠ .removeJob queue j) :
    (ask e).Completes Answer :=
  completes_perform fun _ => not_answer_error ht hr

theorem notify_answers (event : Event) :
    (EventPublisherService.notify event).Completes Answer :=
  completes_tryCatch fun _ => trivial

theorem notify_completes (event : Event) :
    (EventPublisherService.notify event).Completes (WaitingAnswer o) :=
  (notify_answers event).mono fun _ _ h => h.1

/-- What goes wrong in removing the job is handled. -/
theorem cancelDispatchTimeout_answers (o : OrderId) :
    (DispatchService.cancelDispatchTimeout o).Completes Answer := by
  refine .bind (ask_answers trivial fun _ _ h => by cases h) fun jobId => ?_
  split
  · trivial
  · refine .bind (ask_answers trivial fun _ _ h => by cases h) fun job => ?_
    split
    · exact .bind (completes_tryCatch fun _ => trivial)
        fun _ => ask_answers trivial fun _ _ h => by cases h
    · exact ask_answers trivial fun _ _ h => by cases h

theorem cancelDispatchTimeout_completes (o' : OrderId) :
    (DispatchService.cancelDispatchTimeout o').Completes (WaitingAnswer o) :=
  (cancelDispatchTimeout_answers o').mono fun _ _ h => h.1

/-- `triggerDispatch` adds the job. -/
theorem triggerDispatch_attends : Attends o (DispatchService.triggerDispatch o) :=
  will_of_next ⟨rfl, rfl⟩

/-- Giving up on an order expires it. -/
theorem expireAndNotify_attends : Attends o (DispatchService.expireAndNotify o) :=
  will_of_next (show o = o from rfl)

/-- **`handleAssignDriver` attends to its order**: it finds the order waiting, and if no
driver is assigned, it expires the order. -/
theorem handleAssignDriver_attends : Attends o (DispatchService.handleAssignDriver cfg o) := by
  refine will_perform_bind (fun err => not_error trivial fun _ _ h => by cases h) ?_
  -- the answer is the order, and it waits
  rintro found ⟨-, hfound⟩
  obtain ⟨order, hok, hid, hs⟩ := hfound rfl
  obtain rfl := Except.ok.inj hok
  have hskip : ¬ DispatchService.shouldSkipAssignment order = true := by
    rw [DispatchService.shouldSkipAssignment_eq_false.mpr hs]
    exact Bool.false_ne_true
  dsimp only
  rw [if_neg hskip, hid]
  split
  · exact expireAndNotify_attends
  have hcandidates : (DispatchService.findNearestEligibleDrivers cfg order).Completes
      (WaitingAnswer o) :=
    .bind (ask_completes trivial fun _ _ h => by cases h) fun _ => trivial
  refine hcandidates.will_bind fun cands => ?_
  split
  · exact expireAndNotify_attends
  -- assigning it would have ended the wait, so the answer is that no driver was free
  refine will_perform_bind ?_ ?_
  · rintro err ⟨-, hnone⟩
    cases hnone rfl
  · rintro res ⟨-, hnone⟩
    obtain rfl := Except.ok.inj (hnone rfl)
    exact expireAndNotify_attends

/-- A worker that takes the job of an order attends to the order. -/
theorem worker_attends (queue : QueueName) (jobId : JobId) :
    Attends o ((Call.worker queue jobId (.ASSIGN_DRIVER o)).program cfg) :=
  .bind (.bind (.tryCatch (.bind handleAssignDriver_attends)))

/-! ## The handlers of a job -/

/-- A condition that lasts holds at all nodes of the calls that run a handler, if it
does at those of the handler and of the report to the queue. -/
theorem allNodes_of_handler {P : (α : Type) → (e : Effect) → (Except Error e.Resp → Prog α) → Prop}
    (hP : Lasting P) {call : Call} {data : JobData} (hcall : call.Handles data)
    (hreport : ∀ queue jobId ok, (ask (.finishJob queue jobId ok)).AllNodes (P Unit))
    (h : (process cfg data).AllNodes (P Unit)) : (call.program cfg).AllNodes (P Response) := by
  -- run for a request, or by a worker, who catches errors and reports
  rcases hcall with rfl | ⟨queue, jobId, rfl⟩
  · exact .bind hP h fun _ => trivial
  · refine .bind hP (.bind hP (.tryCatch hP (.bind hP h fun _ => trivial) fun _ => trivial) ?_)
      fun _ => trivial
    exact fun ok => hreport queue jobId ok

/-! ## Putting an order back

A timeout, a rejection and a reassignment let an order wait again. The call that does so
attends to it from then on. -/

/-- The call may put the order back. -/
def Call.PutsBack (o : OrderId) (call : Call) : Prop :=
  call.Refuses o ∨ ∃ user, call = .request (.reassignOrder o user)

/-- Whoever puts the order back attends to it. -/
def PutBackAttends (α : Type) : (e : Effect) → (Except Error e.Resp → Prog α) → Prop
  | .transaction (.handleDispatchTimeout o _), k => Attends o (k (.ok (.redispatch o)))
  | .transaction (.rejectDispatch o _), k => Attends o (k (.ok (.redispatch o)))
  | .transaction (.reassignOrder o _ _), k => ∀ order, Attends o (k (.ok order))
  | _, _ => True

theorem putBackAttends_lasting : Lasting PutBackAttends where
  bind e k f h := by
    unfold PutBackAttends at h ⊢
    split
    · exact .bind h
    · exact .bind h
    · exact fun order => .bind (h order)
    · trivial
  tryCatch e k g h := by
    unfold PutBackAttends at h ⊢
    split
    · exact .tryCatch h
    · exact .tryCatch h
    · exact fun order => .tryCatch (h order)
    · trivial

/-- An effect after which there is nothing to attend to. -/
theorem allNodes_of_noTransaction {p : Prog α} (h : p.All NoTransaction) :
    p.AllNodes (PutBackAttends α) := by
  refine h.allNodes fun e k he => ?_
  cases e with
  | transaction t => exact he.elim
  | _ => trivial

/-! ### What the helpers perform -/

section Performed

variable {P : Effect → Prop}

theorem notify_all {event : Event} (h : P (.emit event)) :
    (EventPublisherService.notify event).All P :=
  .tryCatch (all_perform h) fun _ => trivial

theorem cancelEtaJob_all (hget : P (.redisGet (.ETA_JOB_KEY o)))
    (hjob : ∀ j, P (.getJob .TRACKING_QUEUE j)) (hremove : ∀ j, P (.removeJob .TRACKING_QUEUE j))
    (hdel : P (.redisDel (.ETA_JOB_KEY o))) : (TrackingService.cancelEtaJob o).All P := by
  refine .bind (all_perform hget) fun jobId => ?_
  split
  · trivial
  · refine .bind (.tryCatch (.bind (all_perform (hjob _)) fun job => ?_) fun _ => trivial)
      fun _ => all_perform hdel
    split
    · exact all_perform (hremove _)
    · trivial

theorem ensureEtaJobScheduled_all (hget : P (.redisGet (.ETA_JOB_KEY o)))
    (hadd : ∀ j data delay, P (.addJob .TRACKING_QUEUE j data delay))
    (hset : ∀ j ttl, P (.redisSet (.ETA_JOB_KEY o) j ttl)) :
    (TrackingService.ensureEtaJobScheduled o d).All P := by
  refine .bind (all_perform hget) fun existing => ?_
  split
  · trivial
  · exact .bind (all_perform (hadd _ _ _)) fun jobId => all_perform (hset _ _)

theorem cancelDispatchTimeout_all (hget : P (.redisGet (.DISPATCH_TIMEOUT_KEY o)))
    (hjob : ∀ j, P (.getJob .DISPATCH_QUEUE j)) (hremove : ∀ j, P (.removeJob .DISPATCH_QUEUE j))
    (hdel : P (.redisDel (.DISPATCH_TIMEOUT_KEY o))) :
    (DispatchService.cancelDispatchTimeout o).All P := by
  refine .bind (all_perform hget) fun jobId => ?_
  split
  · trivial
  · refine .bind (all_perform (hjob _)) fun job => ?_
    split
    · exact .bind (.tryCatch (all_perform (hremove _)) fun _ => trivial) fun _ =>
        all_perform hdel
    · exact all_perform hdel

theorem triggerDispatch_all
    (hadd : ∀ j data delay, P (.addJob .DISPATCH_QUEUE j data delay)) :
    (DispatchService.triggerDispatch o).All P :=
  .bind (all_perform (hadd _ _ _)) fun _ => trivial

theorem updateStatus_all {newStatus : OrderStatus} {user : JwtUser} (hfind : P (.findOrder o))
    (htx : ∀ order, P (.transaction (.updateStatus o order newStatus user)))
    (hcancel : (TrackingService.cancelEtaJob o).All P) :
    (OrdersService.updateStatus o newStatus user).All P := by
  refine .bind (all_perform hfind) fun found => ?_
  split
  · trivial
  next order =>
  refine .bind (p := Program.ofExcept (validateActor order newStatus user)) ?_ fun _ => ?_
  · cases validateActor order newStatus user <;> trivial
  refine .bind (p := Program.ofExcept (validateTransition order.orderStatus newStatus)) ?_
    fun _ => ?_
  · cases validateTransition order.orderStatus newStatus <;> trivial
  refine .bind (all_perform (htx order)) fun updated => ?_
  split
  · exact .bind (.tryCatch hcancel fun _ => trivial) fun _ => trivial
  · trivial

end Performed

section NoTransactions

theorem ask_noTransaction {e : Effect} (h : NoTransaction e) : (ask e).All NoTransaction :=
  all_perform h

theorem notify_noTransaction (event : Event) :
    (EventPublisherService.notify event).All NoTransaction :=
  notify_all trivial

theorem cancelEtaJob_noTransaction (o : OrderId) :
    (TrackingService.cancelEtaJob o).All NoTransaction :=
  cancelEtaJob_all trivial (fun _ => trivial) (fun _ => trivial) trivial

theorem cancelDispatchTimeout_noTransaction (o : OrderId) :
    (DispatchService.cancelDispatchTimeout o).All NoTransaction :=
  cancelDispatchTimeout_all trivial (fun _ => trivial) (fun _ => trivial) trivial

theorem triggerDispatch_noTransaction (o : OrderId) :
    (DispatchService.triggerDispatch o).All NoTransaction :=
  triggerDispatch_all fun _ _ _ => trivial

end NoTransactions

/-- The part of `handleDispatchTimeout` after its transaction. -/
def DispatchService.afterTimeout (orderId : OrderId) (driverId : DriverId) :
    DispatchService.TimeoutResult → Prog Unit
  | .skip => return
  | .expired resultId => do
      ask (.redisDel (.DISPATCH_TIMEOUT_KEY orderId))
      try TrackingService.cancelEtaJob resultId catch _ => pure ()
      EventPublisherService.notifyCustomerStatusChanged resultId EXPIRED
      EventPublisherService.notifyDriverTimeout orderId driverId
  | .redispatch resultId => do
      ask (.redisDel (.DISPATCH_TIMEOUT_KEY orderId))
      EventPublisherService.notifyDriverTimeout orderId driverId
      DispatchService.triggerDispatch resultId

theorem handleDispatchTimeout_bind (o : OrderId) (d : DriverId) :
    DispatchService.handleDispatchTimeout o d
      = transaction (.handleDispatchTimeout o d) >>= DispatchService.afterTimeout o d := by
  refine congrArg _ (funext fun res => ?_)
  cases res <;> rfl

theorem afterTimeout_noTransaction (res : DispatchService.TimeoutResult) :
    (DispatchService.afterTimeout o d res).All NoTransaction := by
  cases res with
  | skip => trivial
  | expired resultId =>
      exact .bind (ask_noTransaction trivial) fun _ =>
        .bind (.tryCatch (cancelEtaJob_noTransaction resultId) fun _ => trivial) fun _ =>
          .bind (notify_noTransaction _) fun _ => notify_noTransaction _
  | redispatch resultId =>
      exact .bind (ask_noTransaction trivial) fun _ =>
        .bind (notify_noTransaction _) fun _ => triggerDispatch_noTransaction resultId

theorem handleDispatchTimeout_putBackAttends (o : OrderId) (d : DriverId) :
    (DispatchService.handleDispatchTimeout o d).AllNodes (PutBackAttends Unit) := by
  rw [handleDispatchTimeout_bind]
  -- the answer `redispatch` leads to `triggerDispatch`; no later effect puts anything back
  refine allNodes_perform_bind ?_ fun res =>
    allNodes_of_noTransaction (afterTimeout_noTransaction res)
  refine Completes.will_bind (p := ask _) (ask_completes trivial fun _ _ h => by cases h)
    fun _ => ?_
  exact Completes.will_bind (notify_completes _) fun _ => triggerDispatch_attends

/-- The part of `acceptDispatch` after its transaction. -/
def DispatchService.afterAccept (orderId : OrderId) (driverId : DriverId) :
    DispatchService.AcceptResult → Prog Response
  | .alreadyAccepted => return .message "Dispatch already accepted"
  | .accepted resultId => do
      DispatchService.cancelDispatchTimeout orderId
      EventPublisherService.notifyCustomerStatusChanged resultId DRIVER_ARRIVING
      TrackingService.ensureEtaJobScheduled resultId driverId
      return .message "Dispatch accepted successfully"

theorem acceptDispatch_bind (o : OrderId) (d : DriverId) :
    DispatchService.acceptDispatch o d
      = transaction (.acceptDispatch o d) >>= DispatchService.afterAccept o d := by
  refine congrArg _ (funext fun res => ?_)
  cases res <;> rfl

theorem afterAccept_noTransaction (res : DispatchService.AcceptResult) :
    (DispatchService.afterAccept o d res).All NoTransaction := by
  cases res with
  | alreadyAccepted => trivial
  | accepted resultId =>
      refine .bind (cancelDispatchTimeout_noTransaction o) fun _ =>
        .bind (notify_noTransaction _) fun _ => .bind ?_ fun _ => trivial
      exact ensureEtaJobScheduled_all trivial (fun _ _ _ => trivial) fun _ _ => trivial

/-- The part of `rejectDispatch` after its transaction. -/
def DispatchService.afterReject (orderId : OrderId) :
    DispatchService.RejectResult → Prog Response
  | .alreadyHandled => return .message "Dispatch already handled"
  | .expired resultId => do
      DispatchService.cancelDispatchTimeout orderId
      try TrackingService.cancelEtaJob resultId catch _ => pure ()
      EventPublisherService.notifyCustomerStatusChanged resultId EXPIRED
      return .message "Dispatch rejected. Order expired."
  | .redispatch resultId => do
      DispatchService.cancelDispatchTimeout orderId
      DispatchService.triggerDispatch resultId
      return .message "Dispatch rejected. Reassigning another driver."

theorem rejectDispatch_bind (o : OrderId) (d : DriverId) :
    DispatchService.rejectDispatch o d
      = transaction (.rejectDispatch o d) >>= DispatchService.afterReject o := by
  refine congrArg _ (funext fun res => ?_)
  cases res <;> rfl

theorem afterReject_noTransaction (res : DispatchService.RejectResult) :
    (DispatchService.afterReject o res).All NoTransaction := by
  cases res with
  | alreadyHandled => trivial
  | expired resultId =>
      exact .bind (cancelDispatchTimeout_noTransaction o) fun _ =>
        .bind (.tryCatch (cancelEtaJob_noTransaction resultId) fun _ => trivial) fun _ =>
          .bind (notify_noTransaction _) fun _ => trivial
  | redispatch resultId =>
      exact .bind (cancelDispatchTimeout_noTransaction o) fun _ =>
        .bind (triggerDispatch_noTransaction resultId) fun _ => trivial

theorem rejectDispatch_putBackAttends (o : OrderId) (d : DriverId) :
    (DispatchService.rejectDispatch o d).AllNodes (PutBackAttends Response) := by
  rw [rejectDispatch_bind]
  refine allNodes_perform_bind ?_ fun res =>
    allNodes_of_noTransaction (afterReject_noTransaction res)
  refine Completes.will_bind (cancelDispatchTimeout_completes o) fun _ => ?_
  exact .bind triggerDispatch_attends

theorem reassignOrder_putBackAttends (o : OrderId) (user : JwtUser) :
    (OrdersService.reassignOrder o user).AllNodes (PutBackAttends OrderResponse) := by
  refine allNodes_perform_bind trivial fun found => ?_
  split
  · trivial
  split
  · trivial
  -- both branches end alike, but only an expired order goes through the transaction
  have hrest : ∀ updated : Order, (do
      DispatchService.triggerDispatch o
      return toOrderResponse updated : Prog OrderResponse).All NoTransaction :=
    fun updated => .bind (triggerDispatch_noTransaction o) fun _ => trivial
  split
  · refine allNodes_perform_bind (fun updated => ?_) fun updated =>
      allNodes_of_noTransaction (hrest updated)
    exact .bind triggerDispatch_attends
  · exact allNodes_of_noTransaction (hrest _)

/-- **Every call that puts an order back attends to it.** -/
theorem putBackAttends_of_program {call : Call} (h : call.PutsBack o) :
    (call.program cfg).AllNodes (PutBackAttends Response) := by
  rcases h with (⟨d, hcall⟩ | ⟨d, rfl⟩) | ⟨user, rfl⟩
  · refine allNodes_of_handler putBackAttends_lasting hcall (fun _ _ _ => ?_)
      (handleDispatchTimeout_putBackAttends o d)
    exact allNodes_of_noTransaction (ask_noTransaction trivial)
  · exact rejectDispatch_putBackAttends o d
  · exact .bind putBackAttends_lasting (reassignOrder_putBackAttends o user) fun _ => trivial

/-! ## An open offer -/

/-- To add the timeout of an offer, or to run the transaction of the timeout. -/
def TimesOut (o : OrderId) (d : DriverId) : Effect → Prop
  | .addJob .DISPATCH_QUEUE (.dispatchTimeout o' d') _ _ => o' = o ∧ d' = d
  | .transaction (.handleDispatchTimeout o' d') => o' = o ∧ d' = d
  | _ => False

/-- Whoever offers an order adds the timeout of the offer. -/
def OfferTimesOut (α : Type) : (e : Effect) → (Except Error e.Resp → Prog α) → Prop
  | .transaction (.assignDriverWithLock o _), k =>
      ∀ d, (k (.ok (some d))).Will (TimesOut o d) Answer
  | _, _ => True

theorem offerTimesOut_lasting : Lasting OfferTimesOut where
  bind e k f h := by
    unfold OfferTimesOut at h ⊢
    split
    · exact fun d => .bind (h d)
    · trivial
  tryCatch e k g h := by
    unfold OfferTimesOut at h ⊢
    split
    · exact fun d => .tryCatch (h d)
    · trivial

/-- No assignment. -/
def NoAssignment : Effect → Prop
  | .transaction (.assignDriverWithLock _ _) => False
  | _ => True

theorem allNodes_of_noAssignment {p : Prog α} (h : p.All NoAssignment) :
    p.AllNodes (OfferTimesOut α) := by
  refine h.allNodes fun e k he => ?_
  unfold OfferTimesOut
  split
  · exact he.elim
  · trivial

theorem expireAndNotify_noAssignment (o : OrderId) :
    (DispatchService.expireAndNotify o).All NoAssignment := by
  have hnone : ∀ e, NoTransaction e → NoAssignment e := by
    intro e he
    cases e with
    | transaction t => exact he.elim
    | _ => trivial
  refine .bind (.bind (all_perform trivial) fun _ => ?_) fun _ =>
    (notify_noTransaction _).mono hnone
  exact .tryCatch ((cancelEtaJob_noTransaction o).mono hnone) fun _ => trivial

theorem handleAssignDriver_offerTimesOut (o : OrderId) :
    (DispatchService.handleAssignDriver cfg o).AllNodes (OfferTimesOut Unit) := by
  refine allNodes_perform_bind trivial fun found => ?_
  split
  · trivial
  split
  · trivial
  split
  · exact allNodes_of_noAssignment (expireAndNotify_noAssignment _)
  refine .bind offerTimesOut_lasting (allNodes_perform_bind trivial fun _ => trivial)
    fun cands => ?_
  split
  · exact allNodes_of_noAssignment (expireAndNotify_noAssignment _)
  -- with a driver the next effect adds the timeout
  refine allNodes_perform_bind (fun d => will_of_next ⟨rfl, rfl⟩) fun res => ?_
  refine allNodes_of_noAssignment ?_
  split
  · exact expireAndNotify_noAssignment _
  · exact .bind (all_perform trivial) fun _ => .bind (all_perform trivial) fun _ =>
      .tryCatch (all_perform trivial) fun _ => trivial

/-- **Every call that offers an order adds the timeout of the offer.** -/
theorem offerTimesOut_of_program {call : Call} (h : call.Handles (.ASSIGN_DRIVER o)) :
    (call.program cfg).AllNodes (OfferTimesOut Response) := by
  refine allNodes_of_handler offerTimesOut_lasting h (fun _ _ _ => ?_)
    (handleAssignDriver_offerTimesOut o)
  exact allNodes_of_noAssignment (all_perform trivial)

/-- A worker that takes the timeout job of an offer runs the transaction of the
timeout. -/
theorem worker_timesOut (queue : QueueName) (jobId : JobId) :
    ((Call.worker queue jobId (.DISPATCH_TIMEOUT o d)).program cfg).Will (TimesOut o d) Answer :=
  will_of_next ⟨rfl, rfl⟩

/-! ## The outbox -/

/-- To save an outbox row that asks for the dispatch of an order as anything but
pending. -/
def Closes (o : OrderId) : Effect → Prop
  | .saveOutbox row =>
      row.eventType = "dispatch.trigger" ∧ row.payload = some o ∧ row.status ≠ .PENDING
  | _ => False

/-- The program closes an outbox row only after it has attended to the order, except for
the orders of `G`. -/
abbrev ClosesLast (p : Prog α) (G : OrderId → Prop) : Prop := p.Follows AttendsTo Closes Answer G

/-- A row that asks for no dispatch is not closed. -/
theorem handleRow_closesLast_of_ne {row : OutboxEvent} {G : OrderId → Prop}
    (h : row.eventType ≠ "dispatch.trigger" ∨ row.payload = none) :
    ClosesLast (OutboxWorkerService.handleRow row) G := by
  -- neither save of the row changes what it is about
  have hsave : ∀ row' : OutboxEvent, row.Becomes row' → ∀ o, ¬ Closes o (.saveOutbox row') := by
    rintro row' hsame o ⟨htype, hpayload, -⟩
    rcases h with h | h
    · exact h (hsame.eventType.symm.trans htype)
    · rw [hsame.payload, h] at hpayload
      cases hpayload
  have hfailed : ∀ (row' : OutboxEvent) err,
      row'.Becomes (OutboxWorkerService.failed row' err) := by
    intro row' err
    unfold OutboxWorkerService.failed
    dsimp only
    split <;> exact ⟨rfl, rfl⟩
  have htrigger : (OutboxWorkerService.triggerRow row).All fun e => ∀ o, ¬ Closes o e := by
    unfold OutboxWorkerService.triggerRow
    split
    · split
      · trivial
      · exact .bind (all_perform fun o h => h.elim) fun _ => trivial
    · trivial
  refine follows_of_all (.bind (.tryCatch (.bind htrigger fun _ => trivial) fun _ => trivial) ?_)
  intro triggered
  cases triggered with
  | error err => exact all_perform (hsave _ (hfailed row err))
  | ok _ =>
      refine .bind (all_perform fun o h => h.elim) fun processedAt => ?_
      have hprocessed : row.Becomes
          { row with status := .PROCESSED, processedAt := some processedAt } := ⟨rfl, rfl⟩
      refine .tryCatch (all_perform (hsave _ hprocessed)) fun err => ?_
      exact all_perform (hsave _ (hprocessed.trans (hfailed _ err)))

/-- A row that asks for the dispatch of an order is closed after the order's job was
added. -/
theorem handleRow_closesLast_of_eq {row : OutboxEvent} {G : OrderId → Prop}
    (htype : row.eventType = "dispatch.trigger") (hpayload : row.payload = some o) :
    ClosesLast (OutboxWorkerService.handleRow row) G := by
  have htrigger : OutboxWorkerService.triggerRow row = DispatchService.triggerDispatch o := by
    rw [OutboxWorkerService.triggerRow, if_pos htype, hpayload]
  unfold OutboxWorkerService.handleRow
  rw [htrigger]
  -- three effects in a row: the job is added, the clock is read, the row is saved
  refine ⟨fun _ h => h.elim, fun r hr => ?_⟩
  obtain ⟨jobId, rfl⟩ := hr
  refine ⟨fun _ h => h.elim, fun r hr => ?_⟩
  obtain ⟨processedAt, rfl⟩ := hr
  refine ⟨fun o' h => ?_, fun r hr => ?_⟩
  · -- the row is about the order whose job was added
    obtain ⟨-, hpayload', -⟩ := h
    have ho : some o = some o' := hpayload.symm.trans hpayload'
    exact .inl (.inr ⟨Option.some.inj ho, rfl⟩)
  · obtain ⟨_, rfl⟩ := hr
    trivial

/-- **`processOutbox` closes a row only after it has added the job it asks for.** -/
theorem processOutbox_closesLast :
    ClosesLast (Request.processOutbox.program cfg) fun _ => False := by
  refine .bind ⟨fun _ h => h.elim, fun r hr => ?_⟩ fun _ => trivial
  obtain ⟨rows, rfl⟩ := hr
  refine follows_forM fun row _ => .tryCatch ?_ fun _ => trivial
  -- only rows that ask for a dispatch are of interest
  by_cases htype : row.eventType = "dispatch.trigger"
  · cases hpayload : row.payload with
    | none => exact handleRow_closesLast_of_ne (.inr hpayload)
    | some o => exact handleRow_closesLast_of_eq htype hpayload
  · exact handleRow_closesLast_of_ne (.inl htype)

/-! ## Every call of a reachable state -/

/-- What holds of every call's program, and is handed on to what is left of it after any
answer, holds of every call that is under way. -/
theorem forallThreads_of_reachable {Q : Type} [JobQueue Q JobId JobData] {s : Sys Q}
    {T : Call → Prog Response → Prop} (hT : ∀ call e k, T call (.op e k) → ∀ r, T call (k r))
    (hprog : ∀ call : Call, T call (call.program cfg))
    (hs : Transition.Reachable (logistics Q cfg) s) : Pool.ForallThreads T s := by
  refine hs.invariant (P := Pool.ForallThreads T) ?_ ?_
  · intro s hinit i th hi
    rw [hinit.threads, AList.lookup_empty] at hi
    cases hi
  · intro s a s' _ ih hstep
    -- a call begins with its program, and goes on with what its answers leave of it
    cases call_step hstep with
    | same hth => exact ih.same hth
    | made _ hth => exact ih.insert hth (hprog _)
    | went _ hi _ hth => exact ih.insert hth (hT _ _ _ (ih _ _ hi) _)
    | failed _ hi _ hth => exact ih.insert hth (hT _ _ _ (ih _ _ hi) _)

end LogisticsDispatch
