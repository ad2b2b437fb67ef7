/-
What the dispatch service reports of an order.

Its methods commit first and report afterwards, by what the transaction has answered.
`expireOrder` answers nothing: it may have found the order taken or gone, and
`handleAssignDriver` reports the expiry all the same. Every other report is of a
transition that its call has committed.
-/
import LogisticsDispatch.Authorisation
import LogisticsDispatch.Footprint

set_option autoImplicit false

namespace LogisticsDispatch

open OrderStatus Lifecycle Resumable Resumable.Program

variable {Q : Type} [JobQueue Q JobId JobData] {cfg : DispatchConfig} {s s' : Sys Q} {a : Action}
  {o : OrderId} {d : DriverId}

/-! ## What a call commits -/

/-- What a call can have committed: it moved an order to a status, it assigned the order to
a driver, it took the order back from a driver; or any transition. -/
inductive Deed
  | moved (orderId : OrderId) (status : OrderStatus)
  | assigned (orderId : OrderId) (driverId : DriverId)
  | tookBack (orderId : OrderId) (driverId : DriverId)
  | transition

/-- A step commits a deed. -/
def Deed.DoneIn : Deed → Transition.Move (Sys Q) Action → Prop
  | moved o st, m => m.src.status o ≠ some st ∧ m.dst.status o = some st ∧
      CommitsOn m.src m.dst o
  | assigned o d, m => m.src.status o = some PENDING ∧ ∃ row, m.dst.order o = some row ∧
      row.orderStatus = DRIVER_ASSIGNED ∧ row.assignedDriverId = some d
  | tookBack o d, m => ∃ row row', m.src.order o = some row ∧ row.orderStatus = DRIVER_ASSIGNED ∧
      row.assignedDriverId = some d ∧ m.dst.order o = some row' ∧ row'.assignedDriverId = none
  | transition, m => ∃ o, CommitsOn m.src m.dst o

/-- The answers of transactions that a call takes for a deed. -/
inductive Shows : Deed → (e : Effect) → Except Error e.Resp → Prop
  | offered (o : OrderId) (cands : List Driver) (d : DriverId) :
      Shows (.assigned o d) (.transaction (.assignDriverWithLock o cands)) (.ok (some d))
  -- whatever the transaction has found
  | expired (o : OrderId) : Shows (.moved o EXPIRED) (.transaction (.expireOrder o)) (.ok ())
  | timedOut (o r : OrderId) (d : DriverId) :
      Shows (.moved r EXPIRED) (.transaction (.handleDispatchTimeout o d)) (.ok (.expired r))
  | givenUp (o r : OrderId) (d : DriverId) :
      Shows (.tookBack o d) (.transaction (.handleDispatchTimeout o d)) (.ok (.expired r))
  | putBack (o r : OrderId) (d : DriverId) :
      Shows (.tookBack o d) (.transaction (.handleDispatchTimeout o d)) (.ok (.redispatch r))
  | accepted (o r : OrderId) (d : DriverId) :
      Shows (.moved r DRIVER_ARRIVING) (.transaction (.acceptDispatch o d)) (.ok (.accepted r))
  | rejected (o r : OrderId) (d : DriverId) :
      Shows (.moved r EXPIRED) (.transaction (.rejectDispatch o d)) (.ok (.expired r))
  | assigns (o : OrderId) (cands : List Driver) (d : DriverId) :
      Shows .transition (.transaction (.assignDriverWithLock o cands)) (.ok (some d))
  | expires (o : OrderId) : Shows .transition (.transaction (.expireOrder o)) (.ok ())

/-- What has to be committed before an effect: the transition that an event reports, and
before anything `handleAssignDriver` reports or cancels, a transition. -/
inductive Reports (call : Call) : Deed → Effect → Prop
  | driverAssigned (o : OrderId) (d : DriverId) :
      Reports call (.assigned o d) (.emit (.driverAssigned o d))
  | customerStatusChanged (o : OrderId) (st : OrderStatus) :
      Reports call (.moved o st) (.emit (.customerStatusChanged o st))
  | driverTimeout (o : OrderId) (d : DriverId) :
      Reports call (.tookBack o d) (.emit (.driverTimeout o d))
  | publishes (o : OrderId) (event : Event) (h : call.Handles (.ASSIGN_DRIVER o)) :
      Reports call .transition (.emit event)
  | cancels (o : OrderId) (j : JobId) (h : call.Handles (.ASSIGN_DRIVER o)) :
      Reports call .transition (.removeJob .TRACKING_QUEUE j)
  | forgets (o o' : OrderId) (h : call.Handles (.ASSIGN_DRIVER o)) :
      Reports call .transition (.redisDel (.ETA_JOB_KEY o'))

/-- The program reports what its answers show, and what is in `G`. -/
abbrev ReportsEarned {α : Type} (call : Call) (p : Prog α) (G : Deed → Prop) : Prop :=
  p.Earns Shows (Reports call) (fun _ _ => True) G

/-! ## The methods report what they commit -/

section Methods

variable {call : Call} {G : Deed → Prop}

/-- To publish what is in `G`. -/
theorem notify_earned {event : Event} (h : ∀ x, Reports call x (.emit event) → G x) :
    ReportsEarned call (EventPublisherService.notify event) G :=
  .tryCatch (earns_of_granted (all_perform h)) fun _ => trivial

/-- To cancel an ETA job; `handleAssignDriver` needs a transition for it. -/
theorem cancelEtaJob_earned (o : OrderId)
    (hG : ∀ o, call.Handles (.ASSIGN_DRIVER o) → G .transition) :
    ReportsEarned call (TrackingService.cancelEtaJob o) G := by
  -- it publishes nothing
  have hask : ∀ e : Effect, (∀ event, e ≠ .emit event) →
      (ask e).All fun e => ∀ x, Reports call x e → G x := by
    intro e hno
    refine all_perform ?_
    rintro x (_ | _ | _ | _ | ⟨o, j, h⟩ | ⟨o, o', h⟩)
    · exact absurd rfl (hno _)
    · exact absurd rfl (hno _)
    · exact absurd rfl (hno _)
    · exact absurd rfl (hno _)
    · exact hG o h
    · exact hG o h
  refine earns_of_granted (.bind (hask _ nofun) fun jobId => ?_)
  split
  · trivial
  · refine .bind (.tryCatch (.bind (hask _ nofun) fun job => ?_) fun _ => trivial)
      fun _ => hask _ nofun
    split
    · exact hask _ nofun
    · trivial

/-- Giving up on an order: what `expireOrder` has answered is taken for an expiry. -/
theorem expireAndNotify_earned (o : OrderId) :
    ReportsEarned call (DispatchService.expireAndNotify o) G := by
  refine ⟨fun x h => (by cases h), fun r _ => ?_⟩
  cases r with
  | error err => trivial
  | ok u =>
      refine .bind (.tryCatch (cancelEtaJob_earned o fun _ _ => .inr (.expires o))
        fun _ => trivial) fun _ => notify_earned ?_
      rintro x (_ | _ | _ | _ | _ | _)
      · exact .inr (.expired o)
      · exact .inr (.expires o)

theorem handleAssignDriver_earned (o : OrderId) :
    ReportsEarned call (DispatchService.handleAssignDriver cfg o) G := by
  refine earns_perform_bind (fun x h => by cases h) fun found _ => ?_
  cases found with
  | none => trivial
  | some order =>
      dsimp only
      split
      · trivial
      split
      · exact expireAndNotify_earned _
      refine .bind (earns_perform_bind (fun x h => by cases h) fun _ _ => trivial) fun cands => ?_
      split
      · exact expireAndNotify_earned _
      refine earns_perform_bind (fun x h => by cases h) fun driverId _ => ?_
      cases driverId with
      | none => exact expireAndNotify_earned _
      | some d =>
          refine earns_perform_bind (fun x h => by cases h) fun jobId _ => ?_
          refine earns_perform_bind (fun x h => by cases h) fun _ _ => notify_earned ?_
          rintro x (_ | _ | _ | _ | _ | _)
          · exact .inl (.inl (.inr (.offered order.id cands d)))
          · exact .inl (.inl (.inr (.assigns order.id cands d)))

/-- The calls of the other methods are none of `handleAssignDriver`. -/
theorem not_assigns {data : JobData} {o' : OrderId} (hcall : call.Handles data)
    (hdata : data ≠ .ASSIGN_DRIVER o') : ¬ call.Handles (.ASSIGN_DRIVER o') := by
  rcases hcall with rfl | ⟨queue, jobId, rfl⟩
  · rintro (h | ⟨_, _, h⟩)
    · exact hdata (Request.process.inj (Call.request.inj h))
    · cases h
  · rintro (h | ⟨_, _, h⟩)
    · cases h
    · exact hdata (Call.worker.inj h).2.2

theorem handleDispatchTimeout_earned (hcall : call.Handles (.DISPATCH_TIMEOUT o d)) :
    ReportsEarned call (DispatchService.handleDispatchTimeout o d) G := by
  have hno : ∀ o', ¬ call.Handles (.ASSIGN_DRIVER o') := fun o' => not_assigns hcall nofun
  refine earns_perform_bind (fun x h => by cases h) fun result _ => ?_
  cases result with
  | skip => trivial
  | expired r =>
      refine earns_perform_bind (fun x h => by cases h) fun _ _ => ?_
      refine .bind (.tryCatch (cancelEtaJob_earned r fun o' h => absurd h (hno o'))
        fun _ => trivial) fun _ => .bind (notify_earned ?_) fun _ => notify_earned ?_
      · rintro x (_ | _ | _ | ⟨o', _, h⟩ | _ | _)
        · exact .inl (.inr (.timedOut o r d))
        · exact absurd h (hno o')
      · rintro x (_ | _ | _ | ⟨o', _, h⟩ | _ | _)
        · exact .inl (.inr (.givenUp o r d))
        · exact absurd h (hno o')
  | redispatch r =>
      refine earns_perform_bind (fun x h => by cases h) fun _ _ => ?_
      refine .bind (notify_earned ?_) fun _ =>
        earns_perform_bind (fun x h => by cases h) fun _ _ => trivial
      rintro x (_ | _ | _ | ⟨o', _, h⟩ | _ | _)
      · exact .inl (.inr (.putBack o r d))
      · exact absurd h (hno o')

/-- To cancel the timeout of an offer is no report. -/
theorem cancelDispatchTimeout_earned (o : OrderId) :
    ReportsEarned call (DispatchService.cancelDispatchTimeout o) G := by
  refine earns_perform_bind (fun x h => by cases h) fun jobId _ => ?_
  split
  · trivial
  · refine earns_perform_bind (fun x h => by cases h) fun job _ => ?_
    have hdel : ∀ G', ReportsEarned call (ask (.redisDel (.DISPATCH_TIMEOUT_KEY o))) G' :=
      fun _ => earns_of_granted (all_perform fun x h => by cases h)
    split
    · exact .bind (.tryCatch (earns_of_granted (all_perform fun x h => by cases h))
        fun _ => trivial) fun _ => hdel _
    · exact hdel _

theorem acceptDispatch_earned (hcall : call = .request (.acceptDispatch o d)) :
    ReportsEarned call (DispatchService.acceptDispatch o d) G := by
  refine earns_perform_bind (fun x h => by cases h) fun result _ => ?_
  cases result with
  | alreadyAccepted => trivial
  | accepted r =>
      refine .bind (cancelDispatchTimeout_earned o) fun _ => .bind (notify_earned ?_) fun _ => ?_
      · rintro x (_ | _ | _ | ⟨o', _, h⟩ | _ | _)
        · exact .inr (.accepted o r d)
        · rw [hcall] at h
          rcases h with h | ⟨_, _, h⟩ <;> cases h
      · refine .bind (earns_perform_bind (fun x h => by cases h) fun existing _ => ?_)
          fun _ => trivial
        split
        · trivial
        · refine earns_perform_bind (fun x h => by cases h) fun jobId _ => ?_
          exact earns_of_granted (all_perform fun x h => by cases h)

theorem rejectDispatch_earned (hcall : call = .request (.rejectDispatch o d)) :
    ReportsEarned call (DispatchService.rejectDispatch o d) G := by
  have hno : ∀ o', ¬ call.Handles (.ASSIGN_DRIVER o') := by
    rintro o' (h | ⟨_, _, h⟩) <;> rw [hcall] at h <;> cases h
  refine earns_perform_bind (fun x h => by cases h) fun result _ => ?_
  cases result with
  | alreadyHandled => trivial
  | expired r =>
      refine .bind (cancelDispatchTimeout_earned o) fun _ => ?_
      refine .bind (.tryCatch (cancelEtaJob_earned r fun o' h => absurd h (hno o'))
        fun _ => trivial) fun _ => .bind (notify_earned ?_) fun _ => trivial
      rintro x (_ | _ | _ | ⟨o', _, h⟩ | _ | _)
      · exact .inr (.rejected o r d)
      · exact absurd h (hno o')
  | redispatch r =>
      exact .bind (cancelDispatchTimeout_earned o) fun _ =>
        .bind (earns_perform_bind (fun x h => by cases h) fun _ _ => trivial) fun _ => trivial

/-- A call of none of these methods reports no transition. -/
theorem earned_of_not_notifies (hcall : ¬ call.Notifies) :
    ReportsEarned call (call.program cfg) G := by
  refine earns_of_all ((program_performs call).mono fun e he x h => hcall ?_)
  cases h with
  | publishes o event h => exact .inl ⟨o, h⟩
  | cancels o j h => exact .inl ⟨o, h⟩
  | forgets o o' h => exact .inl ⟨o, h⟩
  | _ => exact he

/-- What a job's handler earns, the calls that run it earn. -/
theorem earned_of_handler {data : JobData} (hcall : call.Handles data)
    (h : ReportsEarned call (process cfg data) G) : ReportsEarned call (call.program cfg) G := by
  rcases hcall with rfl | ⟨queue, jobId, rfl⟩
  · exact .bind h fun _ => trivial
  · refine .bind (.bind (.tryCatch (.bind h fun _ => trivial) fun _ => trivial) fun ok => ?_)
      fun _ => trivial
    exact earns_of_granted (all_perform fun x h => by cases h)

/-- **Every call reports only what its answers show.** -/
theorem program_earned (call : Call) : ReportsEarned call (call.program cfg) G := by
  by_cases hcall : call.Notifies
  · rcases hcall with ⟨o, h⟩ | ⟨o, d, h⟩ | ⟨o, d, h⟩ | ⟨o, d, h⟩
    · exact earned_of_handler h (handleAssignDriver_earned o)
    · exact earned_of_handler h (handleDispatchTimeout_earned h)
    · rw [h]
      exact acceptDispatch_earned rfl
    · rw [h]
      exact rejectDispatch_earned rfl
  · exact earned_of_not_notifies hcall

end Methods

/-! ## What the answers show was committed -/

/-- A step at which `expireOrder` runs finds the order waiting. -/
def ExpiresWaiting (m : Transition.Move (Sys Q) Action) : Prop :=
  ∀ i ch o, m.act = .exec i ch → m.src.next i = some (.transaction (.expireOrder o)) →
    ∃ row, m.src.shared.db.findOrder o = some row ∧ row.orderStatus = PENDING

omit [JobQueue Q JobId JobData] in
/-- A step that makes a move of an order commits it, and takes it from one ticket to the
next. -/
theorem committed_of_move {m : Move DriverId} {actor : String} {now : ℕ}
    (h : s.shared.db.move cfg o m actor now = some s'.shared.db) :
    CommitsOn s s' o ∧ ∃ row row' tk, s.order o = some row ∧
      m.apply cfg.maxDispatchAttempts row.ticket = some tk ∧ s'.order o = some row' ∧
      row'.orderStatus = tk.status ∧ row'.assignedDriverId = tk.driver := by
  obtain ⟨row, tk, hrow, -, hticket, hrow', hhistory, -⟩ := Db.move_spec h
  refine ⟨?_, row, _, tk, hrow, hticket, hrow', rfl, rfl⟩
  have hhistory : s'.history o = s.history o ++ [⟨o, some row.orderStatus, tk.status, actor⟩] :=
    hhistory
  rw [CommitsOn, hhistory]
  simp

omit [JobQueue Q JobId JobData] in
/-- A step that makes a move to another status. -/
theorem moved_of_move {m : Move DriverId} {actor : String} {now : ℕ} {st : OrderStatus}
    (h : s.shared.db.move cfg o m actor now = some s'.shared.db)
    (hst : ∀ t t', m.apply cfg.maxDispatchAttempts t = some t' → t.status ≠ st)
    (hrow : (s'.order o).map Order.orderStatus = some st) :
    (Deed.moved o st).DoneIn ⟨s, a, s'⟩ := by
  obtain ⟨hcommits, row, row', tk, hrow₁, hticket, -⟩ := committed_of_move h
  refine ⟨?_, hrow, hcommits⟩
  have hne : row.orderStatus ≠ st := hst _ _ hticket
  simpa only [Sys.status, hrow₁, Option.map_some, ne_eq, Option.some.injEq] using hne

omit [JobQueue Q JobId JobData] in
/-- A timeout that is not skipped takes the order back. -/
theorem tookBack_of_move {actor : String} {now : ℕ}
    (h : s.shared.db.move cfg o (.timeout d) actor now = some s'.shared.db) :
    (Deed.tookBack o d).DoneIn ⟨s, a, s'⟩ := by
  obtain ⟨-, row, row', tk, hrow, hticket, hrow', -, hdriver⟩ := committed_of_move h
  obtain ⟨hs, hd, -, hnone, -⟩ := refuse_eq_some (.inl rfl) hticket
  exact ⟨row, row', hrow, hs, hd, hrow', hdriver.trans hnone⟩

/-- **What an answer shows, the step has committed**, if `expireOrder` finds its order
waiting. -/
theorem shows_done {i : ℕ} {ch : Choice} {call : Call} {e : Effect}
    {k : Except Error e.Resp → Prog Response} {x : Deed}
    (hstep : step cfg s (.exec i ch) = some s')
    (hi : s.threads.lookup i = some ⟨call, .op e k⟩)
    (hwaiting : ExpiresWaiting ⟨s, .exec i ch, s'⟩)
    (h : Shows x e (perform cfg ch e s.shared).1) : x.DoneIn ⟨s, .exec i ch, s'⟩ := by
  obtain ⟨hsh, -⟩ := exec_eq_some hi hstep
  -- the answer is that of a transaction, and the database is what it has left
  have hrun : ∀ {t : Transaction} {res : t.Result}, e = .transaction t →
      (perform cfg ch (.transaction t) s.shared).1 = .ok res →
      t.run cfg ch s.shared.db = .ok (res, s'.shared.db) := by
    rintro t res rfl hres
    obtain ⟨db', hrun, hdb⟩ := run_of_answer hres
    rw [hsh, hdb]
    exact hrun
  have hexpire : ∀ {o : OrderId}, e = .transaction (.expireOrder o) →
      (perform cfg ch (.transaction (.expireOrder o)) s.shared).1 = .ok () →
      s.shared.db.move cfg o .expire "system" ch.now = some s'.shared.db := by
    rintro o rfl hres
    obtain ⟨row, hrow, hs⟩ := hwaiting i ch o rfl (Sys.next_of_lookup hi)
    have hmove : s.shared.db.move cfg o .expire "system" ch.now = _ :=
      Db.move_of hrow (apply_expire hs)
    have heq := (DispatchService.expireOrderTx_eq cfg).symm.trans (hrun rfl hres)
    obtain ⟨-, hdb⟩ := Prod.mk.inj (Except.ok.inj heq)
    rw [← hdb, hmove]
    rfl
  generalize hr : (perform cfg ch e s.shared).1 = r at h
  cases h with
  | offered o cands d =>
      rcases DispatchService.assignDriverWithLockTx_ok (hrun rfl hr) with ⟨h, -⟩ | h
      · cases h
      obtain ⟨row, driver, -, -, -, hres, hmove⟩ := h
      have hmove : s.shared.db.move cfg o (.offer driver.id) "system" ch.now
          = some s'.shared.db := hmove
      obtain rfl := Option.some.inj hres
      obtain ⟨-, row, row', tk, hrow, hticket, hrow', hstatus, hdriver⟩ := committed_of_move hmove
      obtain ⟨hs, -, hs', hd', -⟩ := offer_eq_some hticket
      have hs : row.orderStatus = PENDING := hs
      refine ⟨?_, row', hrow', hstatus.trans hs', hdriver.trans hd'⟩
      simp only [Sys.status, hrow, Option.map_some, hs]
  | assigns o cands d =>
      rcases DispatchService.assignDriverWithLockTx_ok (hrun rfl hr) with ⟨h, -⟩ | h
      · cases h
      obtain ⟨row, driver, -, -, -, -, hmove⟩ := h
      have hmove : s.shared.db.move cfg o (.offer driver.id) "system" ch.now
          = some s'.shared.db := hmove
      exact ⟨o, (committed_of_move hmove).1⟩
  | expired o =>
      obtain ⟨-, row, row', tk, -, hticket, hrow', hstatus, -⟩ := committed_of_move (hexpire rfl hr)
      refine moved_of_move (hexpire rfl hr) (fun t t' ht => ?_) ?_
      · rw [(expire_eq_some ht).1]
        decide
      · rw [hrow', Option.map_some, hstatus, (expire_eq_some hticket).2.1]
  | expires o => exact ⟨o, (committed_of_move (hexpire rfl hr)).1⟩
  | timedOut o r d =>
      rcases DispatchService.handleDispatchTimeoutTx_ok (hrun rfl hr) with ⟨h, -⟩ | ⟨h, hmove⟩
      · cases h
      rcases h with ⟨h, hstatus⟩ | h
      · obtain rfl := DispatchService.TimeoutResult.expired.inj h
        refine moved_of_move hmove (fun t t' ht => ?_) hstatus
        rw [(refuse_eq_some (.inl rfl) ht).1]
        decide
      · cases h
  | givenUp o r d =>
      rcases DispatchService.handleDispatchTimeoutTx_ok (hrun rfl hr) with ⟨h, -⟩ | ⟨-, hmove⟩
      · cases h
      · exact tookBack_of_move hmove
  | putBack o r d =>
      rcases DispatchService.handleDispatchTimeoutTx_ok (hrun rfl hr) with ⟨h, -⟩ | ⟨-, hmove⟩
      · cases h
      · exact tookBack_of_move hmove
  | accepted o r d =>
      rcases DispatchService.acceptDispatchTx_ok (hrun rfl hr) with ⟨h, -⟩ | ⟨h, hmove⟩
      · cases h
      have hmove : s.shared.db.move cfg o (.accept d) d.text ch.now = some s'.shared.db := hmove
      obtain rfl := DispatchService.AcceptResult.accepted.inj h
      obtain ⟨-, row, row', tk, -, hticket, hrow', hstatus, -⟩ := committed_of_move hmove
      refine moved_of_move hmove (fun t t' ht => ?_) ?_
      · rw [(accept_eq_some ht).1]
        decide
      · rw [hrow', Option.map_some, hstatus, (accept_eq_some hticket).2.2.1]
  | rejected o r d =>
      rcases DispatchService.rejectDispatchTx_ok (hrun rfl hr) with ⟨h, -⟩ | ⟨h, hmove⟩
      · cases h
      rcases h with ⟨h, hstatus⟩ | h
      · obtain rfl := DispatchService.RejectResult.expired.inj h
        refine moved_of_move hmove (fun t t' ht => ?_) hstatus
        rw [(refuse_eq_some (.inr rfl) ht).1]
        decide
      · cases h

/-! ## Every report of a run -/

/-- The reports of a call are earned along every run in which `expireOrder` finds its
orders waiting. -/
theorem reports_earnings : Earnings (Q := Q) cfg Shows Reports (fun _ _ => True) Deed.DoneIn
    ExpiresWaiting where
  program := program_earned
  step _ _ _ _ _ _ _ _ hstep hK hi := ⟨trivial, fun _ hx => shows_done hstep hi hK hx⟩
  fail _ := ⟨trivial, fun _ hx => by cases hx⟩

/-- What call `i` reports in a move of a run, it has committed in one of the moves before
it, `earlier`. -/
structure TruthfulAt (earlier : List (Transition.Move (Sys Q) Action))
    (m : Transition.Move (Sys Q) Action) : Prop where
  assigned : ∀ i ch o d, m.act = .exec i ch → m.src.next i = some (.emit (.driverAssigned o d)) →
    DoneBy Deed.DoneIn i earlier (.assigned o d)
  changed : ∀ i ch o st, m.act = .exec i ch →
    m.src.next i = some (.emit (.customerStatusChanged o st)) →
    DoneBy Deed.DoneIn i earlier (.moved o st)
  timedOut : ∀ i ch o d, m.act = .exec i ch → m.src.next i = some (.emit (.driverTimeout o d)) →
    DoneBy Deed.DoneIn i earlier (.tookBack o d)
  /-- A call of `handleAssignDriver` that has committed nothing publishes nothing, and
  cancels no ETA job. -/
  idle : ∀ i ch call o, m.act = .exec i ch → m.src.call i = some call →
    call.Handles (.ASSIGN_DRIVER o) →
    (∃ event, m.src.next i = some (.emit event)) ∨
      (∃ j, m.src.next i = some (.removeJob .TRACKING_QUEUE j)) ∨
      (∃ o', m.src.next i = some (.redisDel (.ETA_JOB_KEY o'))) →
    DoneBy Deed.DoneIn i earlier .transition

/-- **Notifications are truthful**, in every run in which the transaction of
`expireOrder` only comes to orders that wait. -/
theorem notifications_truthful {tr : List (Transition.Move (Sys Q) Action)}
    (run : Transition.Run (logistics Q cfg) tr s) (hwaiting : ∀ m ∈ tr, ExpiresWaiting m)
    (later earlier : List (Transition.Move (Sys Q) Action)) (m : Transition.Move (Sys Q) Action)
    (htr : tr = later ++ m :: earlier) : TruthfulAt earlier m := by
  subst htr
  obtain ⟨run₁, -, -⟩ := run.of_suffix
  -- whatever is about to be performed is earned by then
  have hearned : ∀ {i call e x}, m.src.next i = some e → m.src.call i = some call →
      Reports call x e → DoneBy Deed.DoneIn i earlier x := by
    intro i call e x hnext hcall hx
    obtain ⟨call', k, hi⟩ := Sys.lookup_of_next hnext
    rw [Sys.call_of_lookup hi] at hcall
    obtain rfl := Option.some.inj hcall
    exact (earns_of_run reports_earnings run₁ (fun m' hm' => hwaiting m'
      (List.mem_append_right _ (List.mem_cons_of_mem _ hm'))) i _ hi).1 x hx
  have hcall : ∀ {i e}, m.src.next i = some e → ∃ call, m.src.call i = some call := by
    intro i e hnext
    obtain ⟨call, k, hi⟩ := Sys.lookup_of_next hnext
    exact ⟨call, Sys.call_of_lookup hi⟩
  refine ⟨?_, ?_, ?_, ?_⟩
  · intro i ch o d _ hnext
    obtain ⟨call, hcall⟩ := hcall hnext
    exact hearned hnext hcall (.driverAssigned o d)
  · intro i ch o st _ hnext
    obtain ⟨call, hcall⟩ := hcall hnext
    exact hearned hnext hcall (.customerStatusChanged o st)
  · intro i ch o d _ hnext
    obtain ⟨call, hcall⟩ := hcall hnext
    exact hearned hnext hcall (.driverTimeout o d)
  · rintro i ch call o _ hcall hhandles (⟨event, hnext⟩ | ⟨j, hnext⟩ | ⟨o', hnext⟩)
    · exact hearned hnext hcall (.publishes o event hhandles)
    · exact hearned hnext hcall (.cancels o j hhandles)
    · exact hearned hnext hcall (.forgets o o' hhandles)

/-! ### In the small system -/

/-- The event call `i` is about to emit. -/
def Sys.emits (s : Sys Q) (i : ℕ) : Option Event :=
  match s.next i with
  | some (.emit event) => some event
  | _ => none

omit [JobQueue Q JobId JobData] in
theorem next_of_emits {i : ℕ} {event : Event} (h : s.emits i = some event) :
    s.next i = some (.emit event) := by
  unfold Sys.emits at h
  split at h
  · next event' hnext =>
      obtain rfl := Option.some.inj h
      exact hnext
  · cases h

/-- There is no driver for the trip, the admin cancels it, and `handleAssignDriver`
reports that it has expired. -/
def falseExpiry : List Action :=
  orderTrip ++ .deliver 2 .DISPATCH_QUEUE (.assignDriver sampleOrder) :: proceed 2 2 sampleChoice ++
    .invoke 3 (.cancelOrder sampleOrder sampleAdmin) :: proceed 3 2 sampleChoice ++
    proceed 2 3 sampleChoice

theorem false_expiry : ((logistics BullQueue (sampleConfig 3)).exec (start [])
    falseExpiry).isSome := by
  decide +kernel

/-- The call that goes on by an action. -/
def Action.call : Action → Option ℕ
  | .exec i _ => some i
  | _ => none

theorem Action.call_eq_some {a : Action} {i : ℕ} (h : a.call = some i) : ∃ ch, a = .exec i ch := by
  cases a with
  | exec j ch =>
      obtain rfl := Option.some.inj h
      exact ⟨ch, rfl⟩
  | _ => cases h

/-- The customer of a cancelled trip is told that it has expired. -/
theorem cancelled_trip_reported_expired : ∃ tr s m earlier,
    Transition.Run (logistics BullQueue (sampleConfig 3)) tr s ∧ tr = [] ++ m :: earlier ∧
      ¬ TruthfulAt earlier m := by
  let moves := (logistics BullQueue (sampleConfig 3)).moves [] (start []) falseExpiry
  have hhead : (moves.head?.bind fun m => (m.src.emits 2).map fun event => (event, m.act.call))
      = some (.customerStatusChanged sampleOrder EXPIRED, some 2) := by decide +kernel
  have hnever : moves.all (fun m => m.dst.status sampleOrder != some EXPIRED) = true := by
    decide +kernel
  obtain ⟨m, hm, hevent⟩ := Option.bind_eq_some_iff.mp hhead
  obtain ⟨earlier, hmoves⟩ := List.head?_eq_some_iff.mp hm
  refine ⟨moves, _, m, earlier, after_run false_expiry, hmoves, fun h => ?_⟩
  obtain ⟨event, hemits, heq⟩ := Option.map_eq_some_iff.mp hevent
  obtain ⟨rfl, hact⟩ := Prod.mk.inj heq
  obtain ⟨ch, hact⟩ := Action.call_eq_some hact
  -- but the trip never was expired
  obtain ⟨m', hm', -, -, hdst, -⟩ := h.changed 2 ch _ _ hact (next_of_emits hemits)
  rw [hmoves, List.all_eq_true] at hnever
  have hne := hnever m' (List.mem_cons_of_mem _ hm')
  rw [hdst] at hne
  exact absurd hne (by decide)

/-- Whether a step that expires an order finds it waiting, as a computation. -/
def expiresWaitingb (m : Transition.Move (Sys Q) Action) : Bool :=
  match m.act with
  | .exec i _ =>
      match m.src.next i with
      | some (.transaction (.expireOrder o)) =>
          (m.src.shared.db.findOrder o).any fun row => decide (row.orderStatus = PENDING)
      | _ => true
  | _ => true

omit [JobQueue Q JobId JobData] in
theorem expiresWaiting_of_expiresWaitingb {m : Transition.Move (Sys Q) Action}
    (h : expiresWaitingb m = true) : ExpiresWaiting m := by
  intro i ch o ha hnext
  unfold expiresWaitingb at h
  simpa only [ha, hnext, Option.any_eq_true, decide_eq_true_eq] using h

/-- The trip is offered, up to the report of the offer. -/
def reportedOffer : List Action :=
  orderTrip ++ .deliver 2 .DISPATCH_QUEUE (.assignDriver sampleOrder) :: proceed 2 6 sampleChoice

theorem offer_reported : ((logistics BullQueue (sampleConfig 3)).exec (start [carDriver])
    reportedOffer).isSome := by
  decide +kernel

/-- The report of the offer of a trip is true. -/
theorem notifications_truthful_of_trip : ∃ (earlier : List (Transition.Move (Sys BullQueue) Action))
    (m : Transition.Move (Sys BullQueue) Action),
    m.src.emits 2 = some (.driverAssigned sampleOrder sampleDriver) ∧ TruthfulAt earlier m := by
  let moves := (logistics BullQueue (sampleConfig 3)).moves [] (start [carDriver]) reportedOffer
  have hhead : (moves.head?.bind fun m => m.src.emits 2)
      = some (.driverAssigned sampleOrder sampleDriver) := by decide +kernel
  have hall : moves.all expiresWaitingb = true := by decide +kernel
  rw [List.all_eq_true] at hall
  obtain ⟨m, hm, hemits⟩ := Option.bind_eq_some_iff.mp hhead
  obtain ⟨earlier, hmoves⟩ := List.head?_eq_some_iff.mp hm
  refine ⟨earlier, m, hemits, notifications_truthful (after_run offer_reported)
    (fun m' hm' => expiresWaiting_of_expiresWaitingb (hall m' hm')) [] earlier m hmoves⟩

end LogisticsDispatch
