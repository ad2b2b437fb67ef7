/-
Which changes of an order's status reach its room.

A method that has committed a change publishes it, or not, by what its transaction has
answered (`Tells`). So after a commit the events of the call for the order's room are
settled, whatever else it still does (`TellsAfter`): one for the expiry of an order and
for its acceptance, none for any other change. `published_iff` says for which changes of
a run the room gets the one event it is due.
-/
import LogisticsDispatch.Reports

set_option autoImplicit false

namespace LogisticsDispatch

open OrderStatus Lifecycle Resumable Resumable.Program

variable {Q : Type} [JobQueue Q JobId JobData] {cfg : DispatchConfig} {s s' : Sys Q} {a : Action}
  {o : OrderId} {d : DriverId} {i : ℕ} {α : Type}

/-! ## The contract -/

/-- The event of a status for the room of an order. -/
def statusChanged : Effect → Option (OrderId × OrderStatus)
  | .emit (.customerStatusChanged o st) => some (o, st)
  | _ => none

/-- What call `i` publishes in a step of the statuses of orders. -/
def publication (i : ℕ) (m : Transition.Move (Sys Q) Action) : Option (OrderId × OrderStatus) :=
  match m.act with
  | .exec j _ => if j = i then (m.src.next i).bind statusChanged else none
  | _ => none

/-- The statuses that call `i` publishes in the room of an order, the latest first. -/
def published (i : ℕ) (o : OrderId) (tr : List (Transition.Move (Sys Q) Action)) :
    List OrderStatus :=
  ((tr.filterMap (publication i)).filter fun p => decide (p.1 = o)).map Prod.snd

/-- A step changes the status of an order from the one that `row` has to that of `row'`. -/
structure ChangesStatus (m : Transition.Move (Sys Q) Action) (o : OrderId) (row row' : Order) :
    Prop where
  src : m.src.order o = some row
  dst : m.dst.order o = some row'
  status : row.orderStatus ≠ row'.orderStatus

/-- The call has returned or thrown. -/
def Sys.Done (s : Sys Q) (i : ℕ) : Prop :=
  ∃ call p, s.threads.lookup i = some ⟨call, p⟩ ∧ p.isDone = true

/-- A change that a transaction makes is published: the order expires, or is accepted. -/
def Transaction.Announces (cfg : DispatchConfig) (row : Order) : Transaction → Prop
  | .expireOrder _ => True
  | .acceptDispatch _ _ => True
  | .handleDispatchTimeout _ _ => row.dispatchAttempts + 1 ≥ cfg.maxDispatchAttempts
  | .rejectDispatch _ _ => row.dispatchAttempts + 1 ≥ cfg.maxDispatchAttempts
  | _ => False

/-! ## What the methods publish -/

/-- The statuses a method publishes after an answer of a transaction that has changed one. -/
inductive Tells : (t : Transaction) → Except Error t.Result → List (OrderId × OrderStatus) → Prop
  | assigned (o : OrderId) (cands : List Driver) (d : DriverId) :
      Tells (.assignDriverWithLock o cands) (.ok (some d)) []
  | expired (o : OrderId) : Tells (.expireOrder o) (.ok ()) [(o, EXPIRED)]
  | timedOut (o r : OrderId) (d : DriverId) :
      Tells (.handleDispatchTimeout o d) (.ok (.expired r)) [(r, EXPIRED)]
  | putBack (o r : OrderId) (d : DriverId) :
      Tells (.handleDispatchTimeout o d) (.ok (.redispatch r)) []
  | accepted (o r : OrderId) (d : DriverId) :
      Tells (.acceptDispatch o d) (.ok (.accepted r)) [(r, DRIVER_ARRIVING)]
  | rejected (o r : OrderId) (d : DriverId) :
      Tells (.rejectDispatch o d) (.ok (.expired r)) [(r, EXPIRED)]
  | declined (o r : OrderId) (d : DriverId) : Tells (.rejectDispatch o d) (.ok (.redispatch r)) []
  | updated (o : OrderId) (order order' : Order) (newStatus : OrderStatus) (user : JwtUser) :
      Tells (.updateStatus o order newStatus user) (.ok order') []
  | reassigned (o : OrderId) (order order' : Order) (user : JwtUser) :
      Tells (.reassignOrder o order user) (.ok order') []

/-- The program publishes these statuses, if nothing fails. -/
abbrev Publishes (p : Prog α) (l : List (OrderId × OrderStatus)) : Prop :=
  p.Emits statusChanged Answer l

/-- The program publishes no status. -/
abbrev Silent (p : Prog α) : Prop := p.All fun e => statusChanged e = none

/-- After a transaction that has changed a status, the program publishes what it is to tell. -/
def TellsAfter (α : Type) : (e : Effect) → (Except Error e.Resp → Prog α) → Prop
  | .transaction t, k => ∀ r l, Tells t r l → Publishes (k r) l
  | _, _ => True

section Silent

theorem ask_silent {e : Effect} (h : statusChanged e = none) : Silent (ask e) := all_perform h

theorem notify_silent {event : Event} (h : statusChanged (.emit event) = none) :
    Silent (EventPublisherService.notify event) :=
  notify_all h

theorem cancelEtaJob_silent (o : OrderId) : Silent (TrackingService.cancelEtaJob o) :=
  cancelEtaJob_all rfl (fun _ => rfl) (fun _ => rfl) rfl

theorem ensureEtaJobScheduled_silent (o : OrderId) (d : DriverId) :
    Silent (TrackingService.ensureEtaJobScheduled o d) :=
  ensureEtaJobScheduled_all rfl (fun _ _ _ => rfl) fun _ _ => rfl

theorem cancelDispatchTimeout_silent (o : OrderId) :
    Silent (DispatchService.cancelDispatchTimeout o) :=
  cancelDispatchTimeout_all rfl (fun _ => rfl) (fun _ => rfl) rfl

theorem triggerDispatch_silent (o : OrderId) : Silent (DispatchService.triggerDispatch o) :=
  triggerDispatch_all fun _ _ _ => rfl

end Silent

/-- A status is published once. -/
theorem notifyCustomerStatusChanged_publishes (o : OrderId) (st : OrderStatus) :
    Publishes (EventPublisherService.notifyCustomerStatusChanged o st) [(o, st)] := by
  refine ⟨[], rfl, fun r _ => ?_⟩
  cases r with
  | error err => rfl
  | ok _ => rfl

/-- Cancelling an ETA job comes before what is published, whatever goes wrong in it. -/
theorem publishes_after_cancelEtaJob {o : OrderId} {g : Unit → Prog α}
    {l : List (OrderId × OrderStatus)} (hg : ∀ u, Publishes (g u) l) :
    Publishes ((try TrackingService.cancelEtaJob o catch _ => pure ()) >>= g) l :=
  .after ((cancelEtaJob_silent o).tryCatch fun _ => trivial)
    (completes_tryCatch fun _ => trivial) hg

/-! ## Every method tells what it is to tell -/

section Methods

variable {β : Type}

/-- A program without transactions. -/
theorem tellsAfter_of_noTransaction {p : Prog α} (h : p.All NoTransaction) :
    p.AllNodes (TellsAfter α) := by
  refine h.allNodes fun e k he => ?_
  cases e with
  | transaction t => exact he.elim
  | _ => trivial

/-- What comes before changes no status. -/
theorem tellsAfter_after {p : Prog α} {f : α → Prog β} (hp : p.All NoTransaction)
    (hf : ∀ a, (f a).AllNodes (TellsAfter β)) : (p >>= f).AllNodes (TellsAfter β) := by
  have hp : p.AllNodes fun e _ => NoTransaction e := hp.allNodes fun _ _ he => he
  refine hp.bind_of (fun e k he => ?_) hf
  cases e with
  | transaction t => exact he.elim
  | _ => trivial

/-- Nothing is published by what comes after. -/
theorem tellsAfter_bind {p : Prog α} {f : α → Prog β} (hp : p.AllNodes (TellsAfter α))
    (hf : ∀ a, (f a).All fun e => NoTransaction e ∧ statusChanged e = none) :
    (p >>= f).AllNodes (TellsAfter β) := by
  refine hp.bind_of (fun e k h => ?_)
    fun a => tellsAfter_of_noTransaction ((hf a).mono fun _ => And.left)
  cases e with
  | transaction t => exact fun r l ht => (h r l ht).bind fun a => (hf a).mono fun _ => And.right
  | _ => trivial

theorem tellsAfter_tryCatch {p : Prog α} {h : Error → Prog α} (hp : p.AllNodes (TellsAfter α))
    (hh : ∀ err, (h err).All fun e => NoTransaction e ∧ statusChanged e = none) :
    (MonadExcept.tryCatch p h).AllNodes (TellsAfter α) := by
  refine hp.tryCatch_of (fun e k hk => ?_)
    fun err => tellsAfter_of_noTransaction ((hh err).mono fun _ => And.left)
  cases e with
  | transaction t =>
      exact fun r l ht => (hk r l ht).tryCatch fun e => (hh e).mono fun _ => And.right
  | _ => trivial

theorem expireAndNotify_tells (o : OrderId) :
    (DispatchService.expireAndNotify o).AllNodes (TellsAfter Unit) := by
  refine ⟨?_, fun r => ?_⟩
  · rintro r l ⟨⟩
    exact publishes_after_cancelEtaJob fun _ => notifyCustomerStatusChanged_publishes o EXPIRED
  · refine tellsAfter_of_noTransaction ?_
    cases r with
    | error err => trivial
    | ok u =>
        exact .bind (.tryCatch (cancelEtaJob_noTransaction o) fun _ => trivial)
          fun _ => notify_noTransaction _

theorem handleAssignDriver_tells (o : OrderId) :
    (DispatchService.handleAssignDriver cfg o).AllNodes (TellsAfter Unit) := by
  refine allNodes_perform_bind trivial fun found => ?_
  split
  · trivial
  split
  · trivial
  split
  · exact expireAndNotify_tells _
  refine tellsAfter_after (.bind (ask_noTransaction trivial) fun _ => trivial) fun cands => ?_
  split
  · exact expireAndNotify_tells _
  -- the driver is told of the offer, and the room is not
  refine allNodes_perform_bind ?_ fun res => ?_
  · rintro r l ⟨⟩
    exact emits_of_all (.bind (ask_silent rfl) fun _ => .bind (ask_silent rfl) fun _ =>
      notify_silent rfl)
  · split
    · exact expireAndNotify_tells _
    · exact tellsAfter_of_noTransaction (.bind (ask_noTransaction trivial) fun _ =>
        .bind (ask_noTransaction trivial) fun _ => notify_noTransaction _)

theorem handleDispatchTimeout_tells (o : OrderId) (d : DriverId) :
    (DispatchService.handleDispatchTimeout o d).AllNodes (TellsAfter Unit) := by
  rw [handleDispatchTimeout_bind]
  refine allNodes_perform_bind ?_ fun res =>
    tellsAfter_of_noTransaction (afterTimeout_noTransaction res)
  intro r l h
  cases h with
  | timedOut _ r =>
      refine .after (p := ask _) (ask_silent rfl) (ask_answers trivial fun _ _ h => by cases h)
        fun _ => publishes_after_cancelEtaJob fun _ => ?_
      exact (notifyCustomerStatusChanged_publishes r EXPIRED).bind fun _ => notify_silent rfl
  | putBack _ r =>
      exact emits_of_all (.bind (ask_silent rfl) fun _ => .bind (notify_silent rfl) fun _ =>
        triggerDispatch_silent r)

theorem acceptDispatch_tells (o : OrderId) (d : DriverId) :
    (DispatchService.acceptDispatch o d).AllNodes (TellsAfter Response) := by
  rw [acceptDispatch_bind]
  refine allNodes_perform_bind ?_ fun res =>
    tellsAfter_of_noTransaction (afterAccept_noTransaction res)
  intro r l h
  cases h with
  | accepted _ r =>
      refine .after (cancelDispatchTimeout_silent o) (cancelDispatchTimeout_answers o) fun _ => ?_
      exact (notifyCustomerStatusChanged_publishes r DRIVER_ARRIVING).bind fun _ =>
        .bind (ensureEtaJobScheduled_silent r d) fun _ => trivial

theorem rejectDispatch_tells (o : OrderId) (d : DriverId) :
    (DispatchService.rejectDispatch o d).AllNodes (TellsAfter Response) := by
  rw [rejectDispatch_bind]
  refine allNodes_perform_bind ?_ fun res =>
    tellsAfter_of_noTransaction (afterReject_noTransaction res)
  intro r l h
  cases h with
  | rejected _ r =>
      refine .after (cancelDispatchTimeout_silent o) (cancelDispatchTimeout_answers o)
        fun _ => publishes_after_cancelEtaJob fun _ => ?_
      exact (notifyCustomerStatusChanged_publishes r EXPIRED).bind fun _ => trivial
  | declined _ r =>
      exact emits_of_all (.bind (cancelDispatchTimeout_silent o) fun _ =>
        .bind (triggerDispatch_silent r) fun _ => trivial)

theorem updateStatus_tells (o : OrderId) (newStatus : OrderStatus) (user : JwtUser) :
    (OrdersService.updateStatus o newStatus user).AllNodes (TellsAfter OrderResponse) := by
  refine allNodes_perform_bind trivial fun found => ?_
  split
  · trivial
  next order =>
  refine tellsAfter_after (p := Program.ofExcept (validateActor order newStatus user)) ?_
    fun _ => ?_
  · cases validateActor order newStatus user <;> trivial
  refine tellsAfter_after
    (p := Program.ofExcept (validateTransition order.orderStatus newStatus)) ?_ fun _ => ?_
  · cases validateTransition order.orderStatus newStatus <;> trivial
  -- what is left is to cancel the ETA job of an order that is over
  refine allNodes_perform_bind ?_ fun updated => tellsAfter_of_noTransaction ?_
  · rintro r l ⟨⟩
    refine emits_of_all ?_
    show Silent (if newStatus ∈ terminalStatuses then _ else _)
    split
    · exact .bind (.tryCatch (cancelEtaJob_silent o) fun _ => trivial) fun _ => trivial
    · trivial
  · split
    · exact .bind (.tryCatch (cancelEtaJob_noTransaction o) fun _ => trivial) fun _ => trivial
    · trivial

theorem reassignOrder_tells (o : OrderId) (user : JwtUser) :
    (OrdersService.reassignOrder o user).AllNodes (TellsAfter OrderResponse) := by
  refine allNodes_perform_bind trivial fun found => ?_
  split
  · trivial
  split
  · trivial
  split
  · refine allNodes_perform_bind ?_ fun updated => tellsAfter_of_noTransaction
      (.bind (triggerDispatch_noTransaction o) fun _ => trivial)
    rintro r l ⟨⟩
    exact emits_of_all (.bind (triggerDispatch_silent o) fun _ => trivial)
  · exact tellsAfter_of_noTransaction (.bind trivial fun _ =>
      .bind (triggerDispatch_noTransaction o) fun _ => trivial)

/-- The calls that run a handler do after a transaction what the handler does. -/
theorem tells_of_handler {call : Call} {data : JobData} (hcall : call.Handles data)
    (h : (process cfg data).AllNodes (TellsAfter Unit)) :
    (call.program cfg).AllNodes (TellsAfter Response) := by
  rcases hcall with rfl | ⟨queue, jobId, rfl⟩
  · exact tellsAfter_bind h fun _ => trivial
  · refine tellsAfter_bind (tellsAfter_bind (tellsAfter_tryCatch (tellsAfter_bind h
      fun _ => trivial) fun _ => trivial) ?_) fun _ => trivial
    exact fun ok => all_perform ⟨trivial, rfl⟩

/-- **Every call tells what its transactions have it tell.** -/
theorem program_tells {call : Call} {t : Transaction} {r : Except Error t.Result}
    {l : List (OrderId × OrderStatus)} (htells : Tells t r l) (hbelongs : t.BelongsTo call) :
    (call.program cfg).AllNodes (TellsAfter Response) := by
  cases htells with
  | assigned o cands d => exact tells_of_handler hbelongs (handleAssignDriver_tells o)
  | expired o => exact tells_of_handler hbelongs (handleAssignDriver_tells o)
  | timedOut o r d => exact tells_of_handler hbelongs (handleDispatchTimeout_tells o d)
  | putBack o r d => exact tells_of_handler hbelongs (handleDispatchTimeout_tells o d)
  | accepted o r d =>
      obtain rfl := hbelongs
      exact acceptDispatch_tells o d
  | rejected o r d =>
      obtain rfl := hbelongs
      exact rejectDispatch_tells o d
  | declined o r d =>
      obtain rfl := hbelongs
      exact rejectDispatch_tells o d
  | updated o order order' newStatus user =>
      rcases hbelongs with rfl | ⟨-, rfl⟩
      · exact tellsAfter_bind (updateStatus_tells o newStatus user) fun _ => trivial
      · exact tellsAfter_bind (updateStatus_tells o CANCELLED user) fun _ => trivial
  | reassigned o order order' user =>
      obtain rfl := hbelongs
      exact tellsAfter_bind (reassignOrder_tells o user) fun _ => trivial

end Methods

/-! ## One change -/

/-- A refusal that leads to `EXPIRED` has used up the attempts. -/
theorem expires_of_refusal {m : Move DriverId} {row : Order} {tk : Ticket DriverId}
    (hm : m = .timeout d ∨ m = .reject d)
    (hticket : m.apply cfg.maxDispatchAttempts row.ticket = some tk)
    (h : some tk.status = some EXPIRED) :
    row.dispatchAttempts + 1 ≥ cfg.maxDispatchAttempts ∧ tk.status = EXPIRED := by
  obtain ⟨-, -, hs', -⟩ := refuse_eq_some hm hticket
  have h := Option.some.inj h
  refine ⟨?_, h⟩
  by_contra hmax
  rw [h, if_neg (show ¬ row.ticket.attempts + 1 ≥ cfg.maxDispatchAttempts from hmax)] at hs'
  cases hs'

/-- A refusal that lets the order wait has not. -/
theorem waits_of_refusal {m : Move DriverId} {row : Order} {tk : Ticket DriverId}
    (hm : m = .timeout d ∨ m = .reject d)
    (hticket : m.apply cfg.maxDispatchAttempts row.ticket = some tk)
    (h : some tk.status = some PENDING) :
    ¬ row.dispatchAttempts + 1 ≥ cfg.maxDispatchAttempts := by
  obtain ⟨-, -, hs', -⟩ := refuse_eq_some hm hticket
  intro hmax
  rw [Option.some.inj h,
    if_pos (show row.ticket.attempts + 1 ≥ cfg.maxDispatchAttempts from hmax)] at hs'
  cases hs'

/-- What a transaction that changes a status has told. -/
theorem tells_of_change {ch : Choice} {t : Transaction} {res : t.Result} {m : Move DriverId}
    {actor : String} {row : Order} {tk : Ticket DriverId} {db db' : Db}
    (hrun : t.run cfg ch db = .ok (res, db')) (hmakes : t.Makes o m actor)
    (hrow : db.findOrder o = some row)
    (hticket : m.apply cfg.maxDispatchAttempts row.ticket = some tk)
    (hrow' : (db'.orders.find o).map Order.orderStatus = some tk.status)
    (hne : row.orderStatus ≠ tk.status) :
    ∃ l, Tells t (.ok res) l ∧
      (t.Announces cfg row ∧ l = [(o, tk.status)] ∨ ¬ t.Announces cfg row ∧ l = []) := by
  -- a transaction that has left the database alone has changed nothing
  have hchanged : db' ≠ db := by
    rintro rfl
    rw [(Db.findOrder_eq_some.mp hrow).1, Option.map_some] at hrow'
    exact hne (Option.some.inj hrow')
  cases hmakes with
  | offer _ cands d =>
      rcases @DispatchService.assignDriverWithLockTx_ok cfg _ _ _ _ _ _ hrun with ⟨-, h⟩ | h
      · exact absurd h hchanged
      · obtain ⟨_, driver, -, -, -, rfl, -⟩ := h
        exact ⟨_, .assigned o cands driver.id, .inr ⟨id, rfl⟩⟩
  | expire =>
      obtain ⟨-, hs', -⟩ := expire_eq_some hticket
      exact ⟨_, .expired o, .inl ⟨trivial, by rw [hs']⟩⟩
  | timeout _ d =>
      rcases DispatchService.handleDispatchTimeoutTx_ok hrun with ⟨-, h⟩ | ⟨⟨rfl, h⟩ | rfl, -⟩
      · exact absurd h hchanged
      · obtain ⟨hmax, hs⟩ := expires_of_refusal (.inl rfl) hticket (hrow'.symm.trans h)
        exact ⟨_, .timedOut o o d, .inl ⟨hmax, by rw [hs]⟩⟩
      · have h := DispatchService.handleDispatchTimeoutTx_redispatch hrun
        exact ⟨_, .putBack o o d, .inr ⟨waits_of_refusal (.inl rfl) hticket (hrow'.symm.trans h),
          rfl⟩⟩
  | reject _ d =>
      rcases DispatchService.rejectDispatchTx_ok hrun with ⟨-, h⟩ | ⟨⟨rfl, h⟩ | rfl, -⟩
      · exact absurd h hchanged
      · obtain ⟨hmax, hs⟩ := expires_of_refusal (.inr rfl) hticket (hrow'.symm.trans h)
        exact ⟨_, .rejected o o d, .inl ⟨hmax, by rw [hs]⟩⟩
      · have h := DispatchService.rejectDispatchTx_redispatch hrun
        exact ⟨_, .declined o o d, .inr ⟨waits_of_refusal (.inr rfl) hticket (hrow'.symm.trans h),
          rfl⟩⟩
  | accept _ d =>
      obtain ⟨-, -, hs', -⟩ := accept_eq_some hticket
      rcases @DispatchService.acceptDispatchTx_ok cfg _ _ _ _ _ _ hrun with ⟨-, h⟩ | ⟨rfl, -⟩
      · exact absurd h hchanged
      · exact ⟨_, .accepted o o d, .inl ⟨trivial, by rw [hs']⟩⟩
  | advance _ order newStatus user =>
      exact ⟨_, .updated o order res newStatus user, .inr ⟨id, rfl⟩⟩
  | reassign _ order user => exact ⟨_, .reassigned o order res user, .inr ⟨id, rfl⟩⟩

/-- A step that changes a status is that of a call which has its transaction answered. -/
theorem answer_of_change {row row' : Order} (hs : Transition.Reachable (logistics Q cfg) s)
    (hstep : step cfg s a = some s') (h : ChangesStatus ⟨s, a, s'⟩ o row row') :
    ∃ i ch t call k res l, a = .exec i ch ∧
      s.threads.lookup i = some ⟨call, .op (.transaction t) k⟩ ∧ t.BelongsTo call ∧
      s'.threads = s.threads.insert i ⟨call, k (.ok res)⟩ ∧ Tells t (.ok res) l ∧
      (t.Announces cfg row ∧ l = [(o, row'.orderStatus)] ∨ ¬ t.Announces cfg row ∧ l = []) := by
  obtain ⟨hrow, hrow', hne⟩ := h
  have hrow : s.order o = some row := hrow
  have hrow' : s'.order o = some row' := hrow'
  cases order_step hs hstep o with
  | same horder _ =>
      rw [horder, hrow] at hrow'
      obtain rfl := Option.some.inj hrow'
      exact absurd rfl hne
  | created _ _ hnone _ _ _ _ =>
      rw [hrow] at hnone
      cases hnone
  | deleted _ _ hrow₁ hrow₂ _ =>
      rw [hrow] at hrow₁
      obtain rfl := Option.some.inj hrow₁
      rw [hrow'] at hrow₂
      obtain rfl := Option.some.inj hrow₂
      exact absurd rfl hne
  | @moved i ch call t m actor row₁ tk ha hcall hnext hbelongs hmakes _ _ _ hrow₁ hlive hticket
      hrow₂ _ =>
      subst ha
      rw [hrow] at hrow₁
      obtain rfl := Option.some.inj hrow₁
      obtain ⟨call', k, hi⟩ := Sys.lookup_of_next hnext
      rw [Sys.call_of_lookup hi] at hcall
      obtain rfl := Option.some.inj hcall
      obtain ⟨hsh, hth⟩ := exec_eq_some hi hstep
      rw [hrow'] at hrow₂
      obtain rfl := Option.some.inj hrow₂
      -- the transaction has not thrown, since it has left another status
      cases hans : (perform cfg ch (.transaction t) s.shared).1 with
      | error err =>
          rw [rolled_back hans] at hsh
          rw [Sys.order, hsh] at hrow'
          rw [Sys.order, hrow'] at hrow
          exact absurd (congrArg Order.orderStatus (Option.some.inj hrow)).symm hne
      | ok res =>
          obtain ⟨db', hrun, hdb⟩ := run_of_answer hans
          have hstatus : (db'.orders.find o).map Order.orderStatus = some tk.status := by
            rw [← hdb, ← hsh]
            exact congrArg (Option.map Order.orderStatus) hrow'
          obtain ⟨l, htells, hl⟩ := tells_of_change hrun hmakes
            (Db.findOrder_eq_some.mpr ⟨hrow, hlive⟩) hticket hstatus hne
          rw [hans] at hth
          exact ⟨i, ch, t, call', k, res, l, rfl, hi, hbelongs, hth, htells, hl⟩

/-- What is left of the call then tells what it is to tell. -/
theorem call_of_change {row row' : Order} (hs : Transition.Reachable (logistics Q cfg) s)
    (hstep : step cfg s a = some s') (h : ChangesStatus ⟨s, a, s'⟩ o row row') :
    ∃ i ch t call p l, a = .exec i ch ∧ s.next i = some (.transaction t) ∧
      s'.threads.lookup i = some ⟨call, p⟩ ∧ Publishes p l ∧
      (t.Announces cfg row ∧ l = [(o, row'.orderStatus)] ∨ ¬ t.Announces cfg row ∧ l = []) := by
  obtain ⟨i, ch, t, call, k, res, l, ha, hi, hbelongs, hth, htells, hl⟩ :=
    answer_of_change hs hstep h
  have htellsAfter : Pool.ForallThreads (fun call p => ∀ t r l, Tells t r l →
      t.BelongsTo call → p.AllNodes (TellsAfter Response)) s :=
    forallThreads_of_reachable (fun _ _ _ h r t res l ht hb => (h t res l ht hb).2 r)
      (fun _ t r l ht hb => program_tells ht hb) hs
  refine ⟨i, ch, t, call, k (.ok res), l, ha, Sys.next_of_lookup hi, ?_, ?_, hl⟩
  · rw [hth, AList.lookup_insert]
  · exact (htellsAfter i _ hi t _ l htells hbelongs).1 _ l htells

/-! ## What a call publishes from then on -/

/-- A call that is under way, in a step in which nothing fails: what it has still to publish. -/
theorem publishes_step {call : Call} {p : Prog Response} {l : List (OrderId × OrderStatus)}
    (hstep : step cfg s a = some s') (hsucc : a.succeeds = true)
    (hi : s.threads.lookup i = some ⟨call, p⟩) (hp : Publishes p l) :
    ∃ p' l', s'.threads.lookup i = some ⟨call, p'⟩ ∧ Publishes p' l' ∧
      l = (publication i ⟨s, a, s'⟩).toList ++ l' := by
  have hne : ∀ {j}, s.threads.lookup j = none → i ≠ j := by
    rintro j hnone rfl
    rw [hi] at hnone
    cases hnone
  cases a with
  | invoke j req =>
      obtain ⟨hfree, -, hth⟩ := Pool.spawn_eq_some hstep
      refine ⟨p, l, ?_, hp, rfl⟩
      rw [hth, AList.lookup_insert_ne (hne hfree)]
      exact hi
  | deliver j queue jobId =>
      simp only [step] at hstep
      split at hstep
      · obtain ⟨hfree, -, hth⟩ := Pool.spawn_eq_some hstep
        refine ⟨p, l, ?_, hp, rfl⟩
        rw [hth, AList.lookup_insert_ne (hne hfree)]
        exact hi
      · cases hstep
  | promote queue jobId =>
      obtain rfl := Option.some.inj hstep
      exact ⟨p, l, hi, hp, rfl⟩
  | evict queue jobId =>
      obtain rfl := Option.some.inj hstep
      exact ⟨p, l, hi, hp, rfl⟩
  | expire key =>
      obtain rfl := Option.some.inj hstep
      exact ⟨p, l, hi, hp, rfl⟩
  | fail j => cases hsucc
  | exec j ch =>
      obtain ⟨call', e, k, hj, -, hth⟩ := Pool.advance_eq_some hstep
      by_cases hij : j = i
      · subst hij
        rw [hi] at hj
        cases hj
        obtain ⟨l', rfl, hk⟩ := hp
        have hans : Answer e (perform cfg ch e s.shared).1 := perform_answer ch e s.shared
        refine ⟨_, l', ?_, hk _ hans, ?_⟩
        · rw [hth, AList.lookup_insert]
          rfl
        · simp only [publication, if_true, Sys.next_of_lookup hi, Option.bind_some]
      · refine ⟨p, l, ?_, hp, ?_⟩
        · rw [hth, AList.lookup_insert_ne (Ne.symm hij)]
          exact hi
        · simp only [publication, if_neg hij, Option.toList_none, List.nil_append]

/-- What a call publishes until it has returned is what it had to. -/
theorem published_of_path {call : Call} {p : Prog Response} {l : List (OrderId × OrderStatus)}
    {tr : List (Transition.Move (Sys Q) Action)}
    (path : Transition.Path (logistics Q cfg) s tr s') (hsucc : ∀ m ∈ tr, m.act.succeeds = true)
    (hi : s.threads.lookup i = some ⟨call, p⟩) (hp : Publishes p l) :
    ∃ p' l', s'.threads.lookup i = some ⟨call, p'⟩ ∧ Publishes p' l' ∧
      l = (tr.filterMap (publication i)).reverse ++ l' := by
  induction path with
  | refl => exact ⟨p, l, hi, hp, rfl⟩
  | @snoc tr s₁ s₂ a path hstep ih =>
      obtain ⟨p₁, l₁, hi₁, hp₁, rfl⟩ := ih fun m hm => hsucc m (List.mem_cons_of_mem _ hm)
      obtain ⟨p₂, l₂, hi₂, hp₂, rfl⟩ :=
        publishes_step hstep (hsucc _ List.mem_cons_self) hi₁ hp₁
      refine ⟨p₂, l₂, hi₂, hp₂, ?_⟩
      cases hpub : publication i ⟨s₁, a, s₂⟩ with
      | none => simp [hpub]
      | some x => simp [hpub]

omit [JobQueue Q JobId JobData] in
/-- A call that has returned or thrown publishes nothing more. -/
theorem publishes_done {p : Prog Response} {l : List (OrderId × OrderStatus)}
    (hp : Publishes p l) (hdone : p.isDone = true) : l = [] := by
  cases p with
  | ret a => exact hp
  | fail err => exact hp
  | op e k => cases hdone

/-- **The room of an order is told of the changes that are announced, and of no others**: in
every run in which nothing fails, the call that has changed the status of an order publishes
the new status, once, before it returns, if and only if its transaction announces the
change. -/
theorem published_iff {tr : List (Transition.Move (Sys Q) Action)} {row row' : Order}
    (run : Transition.Run (logistics Q cfg) tr s) (hsucc : ∀ m ∈ tr, m.act.succeeds = true)
    (later earlier : List (Transition.Move (Sys Q) Action)) (m : Transition.Move (Sys Q) Action)
    (htr : tr = later ++ m :: earlier) (h : ChangesStatus m o row row') :
    ∃ i ch t, m.act = .exec i ch ∧ m.src.next i = some (.transaction t) ∧
      (s.Done i → (published i o later = [row'.orderStatus] ↔ t.Announces cfg row)) := by
  subst htr
  obtain ⟨hearlier, hstep, hlater⟩ := run.split
  obtain ⟨i, ch, t, call, p, l, ha, hnext, hi, hp, hl⟩ :=
    call_of_change hearlier.reachable hstep h
  refine ⟨i, ch, t, ha, hnext, ?_⟩
  rintro ⟨call', q, hq, hdone⟩
  obtain ⟨p', l', hi', hp', heq⟩ := published_of_path hlater
    (fun m' hm' => hsucc m' (List.mem_append_left _ hm')) hi hp
  rw [hi'] at hq
  cases hq
  rw [publishes_done hp' hdone, List.append_nil] at heq
  -- what was to be published was published, in the other order
  have heq : later.filterMap (publication i) = l.reverse := by
    rw [heq, List.reverse_reverse]
  unfold published
  rw [heq]
  rcases hl with ⟨hann, rfl⟩ | ⟨hann, rfl⟩
  · simp [hann]
  · simp [hann]

/-! ### In the small system -/

omit [JobQueue Q JobId JobData] in
theorem done_of_any (h : (s.threads.lookup i).any (fun th => th.prog.isDone) = true) :
    s.Done i := by
  obtain ⟨⟨call, p⟩, hi, hdone⟩ := (Option.any_eq_true ..).mp h
  exact ⟨call, p, hi, hdone⟩

section Through

variable {drivers : List Driver} {before rest : List Action}
  (h : ((logistics BullQueue cfg).exec (start drivers) before).isSome)
  (hstep : (step cfg (after cfg drivers before h) a).isSome)

/-- The step a list of actions leads up to. -/
def moveAfter : Transition.Move (Sys BullQueue) Action := ⟨after cfg drivers before h, a,
  (step cfg (after cfg drivers before h) a).get hstep⟩

/-- A run through the step. -/
theorem run_through
    (hrest : ((logistics BullQueue cfg).exec (moveAfter h hstep).dst rest).isSome) :
    Transition.Run (logistics BullQueue cfg)
      ((logistics BullQueue cfg).moves [] (moveAfter h hstep).dst rest ++
        moveAfter h hstep :: (logistics BullQueue cfg).moves [] (start drivers) before)
      (((logistics BullQueue cfg).exec (moveAfter h hstep).dst rest).get hrest) := by
  have hnext : (logistics BullQueue cfg).step (after cfg drivers before h) a
      = some (moveAfter h hstep).dst := (Option.some_get hstep).symm
  exact (Transition.Path.refl.exec (Option.some_get hrest).symm).run ((after_run h).snoc hnext)

end Through

/-- The admin is about to cancel the trip, which waits: call `2`. -/
def cancelling : List Action :=
  orderTrip ++ .invoke 2 (.cancelOrder sampleOrder sampleAdmin) :: proceed 2 1 sampleChoice

theorem cancelling_possible : ((logistics BullQueue (sampleConfig 3)).exec (start [carDriver])
    cancelling).isSome := by
  decide +kernel

theorem cancelling_commits : (step (sampleConfig 3) (after _ _ _ cancelling_possible)
    (.exec 2 sampleChoice)).isSome := by
  decide +kernel

theorem cancelling_returns : ((logistics BullQueue (sampleConfig 3)).exec
    (moveAfter cancelling_possible cancelling_commits).dst (proceed 2 1 sampleChoice)).isSome := by
  decide +kernel

/-- The room of a trip is not told that it was cancelled. -/
theorem cancellation_untold : ∃ tr s later m earlier row row',
    Transition.Run (logistics BullQueue (sampleConfig 3)) tr s ∧
    (∀ m ∈ tr, m.act.succeeds = true) ∧ tr = later ++ m :: earlier ∧
    ChangesStatus m sampleOrder row row' ∧ m.act = .exec 2 sampleChoice ∧ s.Done 2 ∧
    published 2 sampleOrder later ≠ [row'.orderStatus] := by
  have hsrc : ((moveAfter cancelling_possible cancelling_commits).src.order sampleOrder).map
      Order.orderStatus = some PENDING := by decide +kernel
  have hdst : ((moveAfter cancelling_possible cancelling_commits).dst.order sampleOrder).map
      Order.orderStatus = some CANCELLED := by decide +kernel
  obtain ⟨row, hrow, hs⟩ := Option.map_eq_some_iff.mp hsrc
  obtain ⟨row', hrow', hs'⟩ := Option.map_eq_some_iff.mp hdst
  have hne : row.orderStatus ≠ row'.orderStatus := by
    rw [hs, hs']
    decide
  refine ⟨_, _, _, _, _, row, row',
    run_through cancelling_possible cancelling_commits cancelling_returns,
    List.all_eq_true.mp ?_, rfl, ⟨hrow, hrow', hne⟩, rfl, done_of_any ?_, ?_⟩
  · decide +kernel
  · decide +kernel
  · rw [hs']
    decide +kernel

/-- The driver is about to accept the trip: call `3`. -/
def accepting : List Action :=
  orderTrip ++ offerTrip ++ [.invoke 3 (.acceptDispatch sampleOrder sampleDriver)]

theorem accepting_possible : ((logistics BullQueue (sampleConfig 3)).exec (start [carDriver])
    accepting).isSome := by
  decide +kernel

theorem accepting_commits : (step (sampleConfig 3) (after _ _ _ accepting_possible)
    (.exec 3 sampleChoice)).isSome := by
  decide +kernel

theorem accepting_returns : ((logistics BullQueue (sampleConfig 3)).exec
    (moveAfter accepting_possible accepting_commits).dst (proceed 3 8 sampleChoice)).isSome := by
  decide +kernel

/-- Whether an effect is the transaction of an acceptance. -/
def acceptsb : Effect → Bool
  | .transaction (.acceptDispatch _ _) => true
  | _ => false

/-- The room of a trip is told once that its driver arrives. -/
theorem published_iff_of_trip : ∃ s later m earlier,
    Transition.Run (logistics BullQueue (sampleConfig 3)) (later ++ m :: earlier) s ∧
    m.dst.status sampleOrder = some DRIVER_ARRIVING ∧
    published 3 sampleOrder later = [DRIVER_ARRIVING] := by
  have hsrc : ((moveAfter accepting_possible accepting_commits).src.order sampleOrder).map
      Order.orderStatus = some DRIVER_ASSIGNED := by decide +kernel
  have hdst : ((moveAfter accepting_possible accepting_commits).dst.order sampleOrder).map
      Order.orderStatus = some DRIVER_ARRIVING := by decide +kernel
  have haccepts : ((moveAfter accepting_possible accepting_commits).src.next 3).any acceptsb
      = true := by decide +kernel
  obtain ⟨row, hrow, hs⟩ := Option.map_eq_some_iff.mp hsrc
  obtain ⟨row', hrow', hs'⟩ := Option.map_eq_some_iff.mp hdst
  have hne : row.orderStatus ≠ row'.orderStatus := by
    rw [hs, hs']
    decide
  have run := run_through accepting_possible accepting_commits accepting_returns
  refine ⟨_, _, _, _, run, hdst, ?_⟩
  obtain ⟨i, ch, t, hact, hnext, hiff⟩ := published_iff run
    (List.all_eq_true.mp (by decide +kernel)) _ _ _ rfl ⟨hrow, hrow', hne⟩
  obtain ⟨rfl, rfl⟩ := Action.exec.inj hact
  rw [hnext, Option.any_some] at haccepts
  have hann : t.Announces (sampleConfig 3) row := by
    cases t with
    | acceptDispatch o d => trivial
    | _ => cases haccepts
  rw [← hs']
  exact (hiff (done_of_any (by decide +kernel))).mpr hann

end LogisticsDispatch
