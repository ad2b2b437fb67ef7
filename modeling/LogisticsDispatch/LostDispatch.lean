/-
Whether an order that waits is ever lost to dispatch.

An order waits for the outbox event that was written with it, for its job in the
dispatch queue, or for a call that is under way and attends to it. All operations that
let an order wait again add its job, under one id per order. The queue drops what is added
under an id that is present, and it keeps finished jobs: so the second round of an order
may be asked for and not come.

That is the only way. As long as every job that is added for a waiting order is heard, no
order is lost. The invariant is `Covered`, and for the outbox, that an event is closed
only once its order is covered (`ClosesLast`).
-/
import LogisticsDispatch.Duties
import LogisticsDispatch.QueueAndOutbox

set_option autoImplicit false

namespace LogisticsDispatch

open OrderStatus Lifecycle Resumable

variable {Q : Type} [JobQueue Q JobId JobData] {cfg : DispatchConfig} {s s' : Sys Q} {a : Action}
  {o : OrderId} {i : ℕ} {call : Call}

/-! ## Orders that wait -/

/-- The order waits to be dispatched. -/
def Waits (s : Sys Q) (o : OrderId) : Prop :=
  ∃ row, s.shared.db.findOrder o = some row ∧ row.orderStatus = PENDING

/-- The job of the order waits in the dispatch queue. -/
def JobWaits (s : Sys Q) (o : OrderId) : Prop :=
  JobQueue.Has s.shared.dispatchQueue (.assignDriver o) .waiting

/-- An outbox event for the dispatch of the order is pending. -/
def EventPends (s : Sys Q) (o : OrderId) : Prop :=
  ∃ id row, s.shared.db.outbox.find id = some row ∧ row.eventType = "dispatch.trigger" ∧
    row.payload = some o ∧ row.status = .PENDING

/-- A call under way attends to the order. -/
def Attended (s : Sys Q) (o : OrderId) : Prop := Pool.Owed (AttendsTo o) (WaitingAnswer o) s

/-- A call under way other than `i` attends to the order. -/
def AttendedBeside (s : Sys Q) (o : OrderId) (i : ℕ) : Prop :=
  Pool.OwedBeside (AttendsTo o) (WaitingAnswer o) i s

/-- The job a step adds for an order that waits is heard: there is none under its id, or
it is waiting already; or another call attends to the order. -/
def Heard (s : Sys Q) (a : Action) : Prop :=
  ∀ i ch o data delay, a = .exec i ch →
    s.next i = some (.addJob .DISPATCH_QUEUE (.assignDriver o) data delay) → Waits s o →
      JobQueue.find s.shared.dispatchQueue (.assignDriver o) = none ∨ JobWaits s o ∨
        AttendedBeside s o i

/-- The order is stored, and if it waits, its job waits or a call attends to it. -/
structure Covered (s : Sys Q) (o : OrderId) : Prop where
  stored : ∃ row, s.order o = some row
  waits : Waits s o → JobWaits s o ∨ Attended s o

/-! ## What a step does to a waiting order's job -/

/-- A job that waits goes on waiting, or is taken by a worker, who attends to the
order. -/
theorem jobWaits_step (hs : Transition.Reachable (logistics Q cfg) s)
    (hstep : step cfg s a = some s') (h : JobWaits s o) : JobWaits s' o ∨ Attended s' o := by
  cases queue_step hstep with
  | same hq => exact .inl (by rwa [JobWaits, hq])
  | add _ _ hq => exact .inl (by rw [JobWaits, hq]; exact h.add _)
  | remove ha hnext hq =>
      -- only timeout jobs are removed
      obtain ⟨call, k, hi⟩ := Sys.lookup_of_next hnext
      obtain ⟨o', d, rfl⟩ := guar_of_next hs hi
      obtain ⟨data, hfind⟩ := h
      refine .inl ⟨data, ?_⟩
      rw [hq, JobQueue.find_remove_of_ne fun heq => by cases heq]
      exact hfind
  | finish hq => exact .inl (by rw [JobWaits, hq]; exact h.finish (.inl rfl) _)
  | @take i j data ha hfind hq =>
      -- the job of this order, or of another one
      by_cases hj : j = .assignDriver o
      · subst hj ha
        obtain ⟨data', -, hcarries, -, hth⟩ := deliver_eq_some hs hstep
        obtain rfl : data' = .ASSIGN_DRIVER o := hcarries
        exact .inr (Pool.owed_of_insert hth (worker_attends _ _))
      · obtain ⟨data', hfind'⟩ := h
        refine .inl ⟨data', ?_⟩
        rw [hq, JobQueue.find_take_of_ne fun heq => hj heq.symm]
        exact hfind'
  | promote hq => exact .inl (by rw [JobWaits, hq]; exact h.promote)
  | evict hq => exact .inl (by rw [JobWaits, hq]; exact h.evict rfl)

/-- What an effect answers after which the order waits. -/
theorem waitingAnswer_of_waits {ch : Choice} {e : Effect}
    (hsh : s'.shared = (perform cfg ch e s.shared).2) (h : Waits s' o) :
    WaitingAnswer o e (perform cfg ch e s.shared).1 := by
  refine ⟨perform_answer ch e s.shared, ?_⟩
  -- only the read of the order and its assignment say something about it
  cases e with
  | findOrder o' =>
      rintro rfl
      obtain ⟨row, hrow, hs⟩ := h
      have hrow : s.shared.db.findOrder o' = some row := by rwa [hsh] at hrow
      exact ⟨row, congrArg Except.ok hrow, Db.id_of_findOrder hrow, hs⟩
  | transaction t =>
      cases t with
      | assignDriverWithLock o' cands =>
          rintro rfl
          simp only [perform, Transaction.run] at hsh ⊢
          cases hrun : DispatchService.assignDriverWithLockTx ch o' cands s.shared.db with
          | error err => exact absurd hrun DispatchService.assignDriverWithLockTx_ne_error
          | ok x =>
              obtain ⟨res, db'⟩ := x
              rw [hrun] at hsh
              rcases DispatchService.assignDriverWithLockTx_ok hrun with
                ⟨hres, -⟩ | ⟨row, driver, -, -, -, -, hmove⟩
              · rw [hres]
              · -- the order was offered, so it does not wait
                have hdb : s'.shared.db = db' := by rw [hsh]
                have hmove : s.shared.db.move cfg o' (.offer driver.id) "system" ch.now
                    = some db' := hmove
                obtain ⟨row', hrow', hs⟩ := h
                rw [hdb] at hrow'
                obtain ⟨t, t', ht, hstatus⟩ := Db.status_of_move hmove hrow'
                rw [hstatus, (offer_eq_some ht).2.2.1] at hs
                cases hs
      | _ => trivial
  | _ => trivial

/-- After an effect that attends to an order, the order waits no longer, or its job waits,
or it is attended to, if what is added is heard. -/
theorem covered_of_attends {ch : Choice} {e : Effect} {k : Except Error e.Resp → Prog Response}
    (hi : s.threads.lookup i = some ⟨call, .op e k⟩)
    (hstep : step cfg s (.exec i ch) = some s') (hheard : Heard s (.exec i ch))
    (he : AttendsTo o e) (hwaits : Waits s' o) : JobWaits s' o ∨ Attended s' o := by
  obtain ⟨hsh, hth⟩ := exec_eq_some hi hstep
  have hnext := Sys.next_of_lookup hi
  unfold AttendsTo at he
  split at he
  · next o' data delay =>
      obtain ⟨rfl, rfl⟩ := he
      -- adding a job does not touch the order, so it waited before
      have hbefore : Waits s o' := by
        obtain ⟨row, hrow, hs⟩ := hwaits
        rw [hsh] at hrow
        exact ⟨row, hrow, hs⟩
      have hq : s'.shared.dispatchQueue
          = JobQueue.add s.shared.dispatchQueue (.assignDriver o') data 0 := by rw [hsh]; rfl
      rcases hheard i ch o' data 0 rfl hnext hbefore with hnone | hjob | hbeside
      · exact .inl (by rw [JobWaits, hq]; exact JobQueue.waiting_add hnone)
      · exact .inl (by rw [JobWaits, hq]; exact hjob.add _)
      · exact .inr (hbeside.insert hth)
  · next o' =>
      -- expiring the order ends the wait
      subst he
      obtain ⟨db', hrun, hsettled⟩ : ∃ db', DispatchService.expireOrderTx ch o' s.shared.db
          = .ok ((), db') ∧ ∀ row, db'.findOrder o' = some row → row.orderStatus ≠ PENDING :=
        DispatchService.expireOrderTx_settles
      have hdb : s'.shared.db = db' := by simp only [hsh, perform, Transaction.run, hrun]
      obtain ⟨row, hrow, hs⟩ := hwaits
      rw [hdb] at hrow
      exact absurd hs (hsettled row hrow)
  · exact he.elim

/-- An order that was attended to waits no longer, or its job waits, or it still is, if
nothing fails and what is added is heard. -/
theorem attended_step (hstep : step cfg s a = some s') (hok : a.succeeds = true)
    (hheard : Heard s a) (h : Attended s o) (hwaits : Waits s' o) :
    JobWaits s' o ∨ Attended s' o := by
  cases call_step hstep with
  | same hth => exact .inr (Pool.Owed.same h hth)
  | made hfree hth => exact .inr (Pool.Owed.insert h hfree hth)
  -- the call that attended goes on, or another one does
  | went ha hi hsh hth =>
      subst ha
      rcases Pool.Owed.advance h hi hth (waitingAnswer_of_waits hsh hwaits) with
        hbeside | hattends | howed
      · exact .inr (hbeside.insert hth)
      · exact covered_of_attends hi hstep hheard hattends hwaits
      · exact .inr howed
  | failed ha _ _ _ =>
      subst ha
      cases hok

/-! ## Orders that are put back -/

/-- A transaction that puts an order back gives the answer after which its call attends to
the order. -/
theorem putBack_answer {ch : Choice} {t : Transaction} {m : Move DriverId} {actor : String}
    {α : Type} {k : Except Error t.Result → Prog α} (hmakes : t.Makes o m actor)
    (hm : m = .reassign ∨ m.refuses = true)
    (hsh : s'.shared = (perform cfg ch (.transaction t) s.shared).2) (hbefore : ¬ Waits s o)
    (hafter : Waits s' o) (hnode : PutBackAttends α (.transaction t) k) :
    Attends o (k (perform cfg ch (.transaction t) s.shared).1) := by
  -- a transaction that leaves the database alone does not make the order wait
  have hsame : s'.shared.db ≠ s.shared.db := by
    intro heq
    obtain ⟨row, hrow, hs⟩ := hafter
    rw [heq] at hrow
    exact hbefore ⟨row, hrow, hs⟩
  have hexpired : (s'.shared.db.orders.find o).map Order.orderStatus ≠ some EXPIRED := by
    intro heq
    obtain ⟨row, hrow, hs⟩ := hafter
    rw [(Db.findOrder_eq_some.mp hrow).1, Option.map_some, hs] at heq
    cases heq
  simp only [perform] at hsh ⊢
  split
  · next err hrun =>
      rw [hrun] at hsh
      exact absurd (by rw [hsh]) hsame
  · next res db' hrun =>
      rw [hrun] at hsh
      have hdb : s'.shared.db = db' := by rw [hsh]
      rw [hdb] at hsame hexpired
      cases hmakes with
      | timeout _ d =>
          rcases DispatchService.handleDispatchTimeoutTx_ok hrun with
            ⟨-, heq⟩ | ⟨⟨-, heq⟩ | hres, -⟩
          · exact absurd heq hsame
          · exact absurd heq hexpired
          · obtain rfl := hres
            exact hnode
      | reject _ d =>
          rcases DispatchService.rejectDispatchTx_ok hrun with ⟨-, heq⟩ | ⟨⟨-, heq⟩ | hres, -⟩
          · exact absurd heq hsame
          · exact absurd heq hexpired
          · obtain rfl := hres
            exact hnode
      | reassign _ order user => exact hnode res
      | offer => rcases hm with hm | hm <;> cases hm
      | expire => rcases hm with hm | hm <;> cases hm
      | accept => rcases hm with hm | hm <;> cases hm
      | advance => rcases hm with hm | hm <;> cases hm

/-- Whoever lets an order wait again attends to it. -/
theorem putBack_step (hs : Transition.Reachable (logistics Q cfg) s)
    (hstep : step cfg s a = some s') (hstored : ∃ row, s.order o = some row)
    (hbefore : ¬ Waits s o) (hafter : Waits s' o) : Attended s' o := by
  obtain ⟨row', hrow', hs'⟩ := id hafter
  obtain ⟨hfind', hlive'⟩ := Db.findOrder_eq_some.mp hrow'
  have hfind' : s'.order o = some row' := hfind'
  cases order_step hs hstep o with
  | same horder _ =>
      rw [horder] at hfind'
      exact absurd ⟨row', Db.findOrder_eq_some.mpr ⟨hfind', hlive'⟩, hs'⟩ hbefore
  | created _ _ hnone _ _ _ _ =>
      obtain ⟨row, hrow⟩ := hstored
      rw [hrow] at hnone
      cases hnone
  | deleted _ _ _ hrow₁ _ =>
      rw [hrow₁] at hfind'
      obtain rfl := Option.some.inj hfind'
      cases hlive'
  | @moved i ch call t m actor row tk ha hcall hnext hbelongs hmakes _ _ _ hrow hlive hticket hrow₁
      _ =>
      subst ha
      rw [hrow₁] at hfind'
      obtain rfl := Option.some.inj hfind'
      have hstatus : tk.status = PENDING := hs'
      -- only timeouts, rejections and reassignments lead to `PENDING`
      have hm : m = .reassign ∨ m.refuses = true := by
        rcases apply_edge hticket with hmem | ⟨hm, -⟩ | ⟨hm, -⟩
        · rw [hstatus] at hmem
          exact absurd hmem (pending_not_mem_transitions _)
        · exact .inr hm
        · exact .inl hm
      have hputs : call.PutsBack o := by
        rcases hm with rfl | hm
        · exact .inr (hmakes.reassigns hbelongs)
        · exact .inl (hmakes.refuses hbelongs hm)
      obtain ⟨call', k, hi⟩ := Sys.lookup_of_next hnext
      rw [Sys.call_of_lookup hi] at hcall
      obtain rfl := Option.some.inj hcall
      obtain ⟨hsh, hth⟩ := exec_eq_some hi hstep
      have hnodes := forallThreads_of_reachable
        (T := fun call p => call.PutsBack o → p.AllNodes (PutBackAttends Response))
        (fun call e k h r hputs => (h hputs).2 r) (fun call => putBackAttends_of_program) hs i _ hi
        hputs
      exact Pool.owed_of_insert hth (putBack_answer hmakes hm hsh hbefore hafter hnodes.1)

/-! ## The invariant -/

/-- **An order that is covered stays covered**, if nothing fails and what is added is
heard. -/
theorem Covered.step (hs : Transition.Reachable (logistics Q cfg) s)
    (hstep : LogisticsDispatch.step cfg s a = some s') (hok : a.succeeds = true)
    (hheard : Heard s a) (h : Covered s o) : Covered s' o := by
  refine ⟨order_stays hs hstep h.stored, fun hafter => ?_⟩
  -- it waited already, or this step puts it back
  by_cases hbefore : Waits s o
  · rcases h.waits hbefore with hjob | hattended
    · exact jobWaits_step hs hstep hjob
    · exact attended_step hstep hok hheard hattended hafter
  · exact .inr (putBack_step hs hstep h.stored hbefore hafter)

/-- A run of the outbox timer that is under way closes an event only once its order is
covered. -/
def ClosesCovered (s : Sys Q) : Prop :=
  Pool.ForallThreads (fun call p => call = .request .processOutbox → ClosesLast p (Covered s)) s

/-- An order the outbox timer has just attended to is covered. -/
theorem covered_of_processOutbox {ch : Choice} {e : Effect}
    {k : Except Error e.Resp → Prog Response} (hs : Transition.Reachable (logistics Q cfg) s)
    (hi : s.threads.lookup i = some ⟨.request .processOutbox, .op e k⟩)
    (hstep : LogisticsDispatch.step cfg s (.exec i ch) = some s') (hheard : Heard s (.exec i ch))
    (he : AttendsTo o e) : Covered s' o := by
  refine ⟨?_, fun hwaits => covered_of_attends hi hstep hheard he hwaits⟩
  have hguar := guar_of_next hs hi
  unfold AttendsTo at he
  split at he
  · obtain ⟨rfl, -⟩ := he
    exact order_stays hs hstep (order_of_add hs hi)
  · -- the outbox timer expires no order
    rcases hguar.1 with hcall | ⟨_, _, hcall⟩ <;> cases hcall
  · exact he.elim

/-- What the outbox timer closes stays covered. -/
theorem ClosesCovered.step (hs : Transition.Reachable (logistics Q cfg) s)
    (hstep : LogisticsDispatch.step cfg s a = some s') (hok : a.succeeds = true)
    (hheard : Heard s a) (h : ClosesCovered s) : ClosesCovered s' := by
  have hcovered : ∀ o, Covered s o → Covered s' o := fun o hold =>
    hold.step hs hstep hok hheard
  have hold : Pool.ForallThreads
      (fun call p => call = .request .processOutbox → ClosesLast p (Covered s')) s :=
    fun j th hj hcall => (h j th hj hcall).mono hcovered
  have hprogram : ∀ call : Call, call = .request .processOutbox →
      ClosesLast (call.program cfg) (Covered s') := by
    rintro call rfl
    have hcloses : ClosesLast (Request.processOutbox.program cfg) fun _ => False :=
      processOutbox_closesLast
    exact hcloses.mono fun _ => False.elim
  cases call_step hstep with
  | same hth => exact hold.same hth
  | made _ hth => exact hold.insert hth (hprogram _)
  | @went i ch call e k ha hi _ hth =>
      subst ha
      refine hold.insert hth ?_
      rintro rfl
      refine ((h i _ hi rfl).2 _ (perform_answer ch e s.shared)).mono fun o => ?_
      -- covered before, or attended to by this very step
      rintro (hcov | hattends)
      · exact hcovered o hcov
      · exact covered_of_processOutbox hs hi hstep hheard hattends
  | failed ha _ _ _ =>
      subst ha
      cases hok

/-- An order whose event is pending keeps its event, or is covered: its event is closed
last. -/
theorem eventPends_step (hs : Transition.Reachable (logistics Q cfg) s)
    (hstep : LogisticsDispatch.step cfg s a = some s') (hcloses : ClosesCovered s)
    (h : EventPends s o) : EventPends s' o ∨ Covered s o := by
  obtain ⟨id, row, hrow, htype, hpayload, hstatus⟩ := h
  cases outbox_step hs hstep with
  | same hout => exact .inl ⟨id, row, by rw [hout]; exact hrow, htype, hpayload, hstatus⟩
  | @created ch _ _ hnew hout =>
      refine .inl ⟨id, row, ?_, htype, hpayload, hstatus⟩
      rw [hout, Table.find_put_of_ne]
      · exact hrow
      · rintro rfl
        have hnew : s.shared.db.outbox.find ch.outboxId = none := hnew
        rw [hrow] at hnew
        cases hnew
  | @saved i ch row₁ row₀ k ha hi hrow₀ hsame hout =>
      -- the row that is saved is this one; it may be saved as `PENDING` after a failed attempt
      by_cases hid : id = row₁.id
      · subst hid
        rw [hrow] at hrow₀
        obtain rfl := Option.some.inj hrow₀
        have htype₁ := hsame.eventType.trans htype
        have hpayload₁ := hsame.payload.trans hpayload
        -- closing it is only allowed for a covered order
        by_cases hpending : row₁.status = .PENDING
        · exact .inl ⟨row₁.id, row₁, by rw [hout]; exact Table.find_put_self _ _, htype₁, hpayload₁,
            hpending⟩
        · exact .inr ((hcloses i _ hi rfl).1 o ⟨htype₁, hpayload₁, hpending⟩)
      · refine .inl ⟨id, row, ?_, htype, hpayload, hstatus⟩
        rw [hout, Table.find_put_of_ne hid]
        exact hrow

/-- The invariant: a stored order is covered or its event is pending, and the outbox timer
closes the events of covered orders only. -/
structure NoneLost (s : Sys Q) : Prop where
  orders : ∀ o, (∃ row, s.order o = some row) → Covered s o ∨ EventPends s o
  outbox : ClosesCovered s

theorem noneLost_of_initial (h : Initial s) : NoneLost s where
  orders := by
    rintro o ⟨row, hrow⟩
    rw [Sys.order, h.orders, Table.find_empty] at hrow
    cases hrow
  outbox := by
    intro i th hi
    rw [h.threads, AList.lookup_empty] at hi
    cases hi

/-- **No step loses an order**, if nothing fails and what is added is heard. -/
theorem NoneLost.step (hs : Transition.Reachable (logistics Q cfg) s)
    (hstep : LogisticsDispatch.step cfg s a = some s') (hok : a.succeeds = true)
    (hheard : Heard s a) (h : NoneLost s) : NoneLost s' := by
  refine ⟨fun o hstored => ?_, h.outbox.step hs hstep hok hheard⟩
  by_cases hbefore : ∃ row, s.order o = some row
  · have hcovered : Covered s o → Covered s' o := fun hold => hold.step hs hstep hok hheard
    rcases h.orders o hbefore with hold | hpends
    · exact .inl (hcovered hold)
    · rcases eventPends_step hs hstep h.outbox hpends with hpends' | hold
      · exact .inr hpends'
      · exact .inl (hcovered hold)
  · -- a new order comes with its event
    cases order_step hs hstep o with
    | same horder _ => exact absurd (horder ▸ hstored) hbefore
    | created _ _ _ _ _ _ _ hevent => exact .inr hevent
    | deleted _ _ hrow _ _ => exact absurd ⟨_, hrow⟩ hbefore
    | moved _ _ _ _ _ _ _ _ hrow _ _ _ _ => exact absurd ⟨_, hrow⟩ hbefore

/-! ## When no dispatch is lost -/

/-- Every order that waits while no call is under way has a pending event, or a job that is
waiting or active. -/
def DispatchPending (s : Sys Q) : Prop :=
  s.Quiet → ∀ o, Waits s o → EventPends s o ∨ JobWaits s o ∨
    JobQueue.Has s.shared.dispatchQueue (.assignDriver o) .active

theorem NoneLost.dispatchPending (h : NoneLost s) : DispatchPending s := by
  intro hquiet o hwaits
  obtain ⟨row, hrow, -⟩ := id hwaits
  rcases h.orders o ⟨row, (Db.findOrder_eq_some.mp hrow).1⟩ with hcovered | hpends
  · rcases hcovered.waits hwaits with hjob | hattended
    · exact .inr (.inl hjob)
    · exact absurd hquiet hattended.not_quiet
  · exact .inl hpends

/-- **When no dispatch is lost**: in a run in which nothing fails and every job that is
added for a waiting order is heard, no order waits in vain. -/
theorem no_dispatch_lost {tr : List (Transition.Move (Sys Q) Action)}
    (run : Transition.Run (logistics Q cfg) tr s) (hok : ∀ m ∈ tr, m.act.succeeds = true)
    (hheard : ∀ m ∈ tr, Heard m.src m.act) :
    DispatchPending s ∧ ∀ m ∈ tr, DispatchPending m.src := by
  -- the invariant holds all along the run; in quiet states it says that nothing is lost
  obtain ⟨hlast, hall⟩ := run.invariant_of (P := NoneLost)
    (C := fun m => m.act.succeeds = true ∧ Heard m.src m.act)
    (fun s₁ hinit => noneLost_of_initial hinit)
    (fun s₁ a s₂ hs₁ hnone hC hstep => hnone.step hs₁ hstep hC.1 hC.2)
    fun m hm => ⟨hok m hm, hheard m hm⟩
  exact ⟨hlast.dispatchPending, fun m hm => (hall m hm).1.dispatchPending⟩

/-! ### In the small system -/

/-- A trip that is ordered when there is no driver: its job comes to nothing, and call `3`
reassigns the order that has expired. -/
def reassignedTrip : List Action :=
  orderTrip ++ .deliver 2 .DISPATCH_QUEUE (.assignDriver sampleOrder) :: proceed 2 6 sampleChoice ++
    .invoke 3 (.reassignOrder sampleOrder sampleAdmin) :: proceed 3 3 sampleChoice

theorem trip_reassigned : ((logistics BullQueue (sampleConfig 3)).exec (start [])
    reassignedTrip).isSome := by
  decide +kernel

omit [JobQueue Q JobId JobData] in
theorem waits_of_map (h : (s.shared.db.findOrder o).map Order.orderStatus = some PENDING) :
    Waits s o := by
  obtain ⟨row, hrow, hs⟩ := Option.map_eq_some_iff.mp h
  exact ⟨row, hrow, hs⟩

omit [JobQueue Q JobId JobData] in
theorem not_eventPends_of_all
    (h : (s.shared.db.outbox.toList.all fun row => decide (row.status ≠ .PENDING)) = true) :
    ¬ EventPends s o := by
  rintro ⟨id, row, hrow, -, -, hstatus⟩
  rw [List.all_eq_true] at h
  exact absurd hstatus (of_decide_eq_true (h row (Table.mem_toList_of_find hrow)))

/-- The job of the first round is kept when it is completed, so the second round is not
added: the reassigned trip waits in vain. -/
theorem reassigned_trip_lost : ∃ tr s, Transition.Run (logistics BullQueue (sampleConfig 3)) tr s ∧
    (∀ m ∈ tr, m.act.succeeds = true) ∧ ¬ DispatchPending s := by
  refine ⟨_, _, after_run trip_reassigned, ?_, fun h => ?_⟩
  · have hall : ((logistics BullQueue (sampleConfig 3)).moves [] (start [])
        reassignedTrip).all (fun m => m.act.succeeds) = true := by decide +kernel
    exact List.all_eq_true.mp hall
  have hquiet : (after _ _ _ trip_reassigned).quietb = true := by decide +kernel
  have hevents : ((after _ _ _ trip_reassigned).shared.db.outbox.toList.all
      fun row => decide (row.status ≠ .PENDING)) = true := by decide +kernel
  have hjob : (JobQueue.find (after _ _ _ trip_reassigned).shared.dispatchQueue
      (.assignDriver sampleOrder)).map Prod.fst = some .completed := by decide +kernel
  rcases h (Pool.quiet_of_quietb hquiet) sampleOrder (waits_of_map (by decide +kernel)) with
    hpends | ⟨data, hfind⟩ | ⟨data, hfind⟩
  · exact not_eventPends_of_all hevents hpends
  · rw [hfind] at hjob
    cases hjob
  · rw [hfind] at hjob
    cases hjob

/-- The trip is offered and, after its job is dropped from the queue, rejected: call
`3`. -/
def rejectedTrip : List Action :=
  -- the eviction stands for the hundred jobs that are completed in the meantime
  orderTrip ++ offerTrip ++ .evict .DISPATCH_QUEUE (.assignDriver sampleOrder) ::
    .invoke 3 (.rejectDispatch sampleOrder sampleDriver) :: proceed 3 6 sampleChoice

theorem trip_rejected : ((logistics BullQueue (sampleConfig 3)).exec (start [carDriver])
    rejectedTrip).isSome := by
  decide +kernel

theorem heard_of_addsNew {m : Transition.Move (Sys Q) Action} (h : addsNew m = true) :
    Heard m.src m.act :=
  fun _ _ _ _ _ ha hnext _ => .inl (find_of_addsNew h ha hnext)

/-- The rejected trip is dispatched again. -/
theorem rejected_trip_pending : DispatchPending (after _ _ _ trip_rejected) := by
  have hok : ((logistics BullQueue (sampleConfig 3)).moves [] (start [carDriver])
      rejectedTrip).all (fun m => m.act.succeeds) = true := by decide +kernel
  have hall : ((logistics BullQueue (sampleConfig 3)).moves [] (start [carDriver])
      rejectedTrip).all addsNew = true := by decide +kernel
  exact (no_dispatch_lost (after_run trip_rejected) (List.all_eq_true.mp hok) fun m hm =>
    heard_of_addsNew (List.all_eq_true.mp hall m hm)).1

end LogisticsDispatch
