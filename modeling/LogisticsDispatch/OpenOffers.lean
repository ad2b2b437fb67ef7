/-
Whether an offer can stay open for ever.

An offer that nobody answers is ended by its timeout, a delayed job whose id names the
order and the driver. An open offer can be left without it in two ways. A second offer of
an order to the same driver asks for its timeout under the id of the first one's, and the
queue drops what is added while that is kept. And `cancelDispatchTimeout` removes the job
that the order's key names when it gets there, which may be that of a newer offer.

There is no third way. The invariant is `Timed`.
-/
import LogisticsDispatch.Duties
import LogisticsDispatch.QueueAndOutbox

set_option autoImplicit false

namespace LogisticsDispatch

open OrderStatus Lifecycle DispatchService Resumable

variable {Q : Type} [JobQueue Q JobId JobData] {cfg : DispatchConfig} {s s' : Sys Q} {a : Action}
  {o : OrderId} {d : DriverId} {i : ℕ}

/-! ## Open offers -/

/-- The order is offered to the driver, who has not answered yet. -/
def OfferOpen (s : Sys Q) (o : OrderId) (d : DriverId) : Prop :=
  ∃ row, OfferedIn s.shared.db o d row

/-- The timeout of the offer has not begun. -/
def TimeoutAhead (s : Sys Q) (o : OrderId) (d : DriverId) : Prop :=
  JobQueue.Ahead s.shared.dispatchQueue (.dispatchTimeout o d)

/-- A call under way will add the timeout of the offer, or end the offer as its timeout
does. -/
def TimeoutOwed (s : Sys Q) (o : OrderId) (d : DriverId) : Prop := Pool.Owed (TimesOut o d) Answer s

/-- A call under way other than `i` will. -/
def TimeoutOwedBeside (s : Sys Q) (o : OrderId) (d : DriverId) (i : ℕ) : Prop :=
  Pool.OwedBeside (TimesOut o d) Answer i s

/-- A step leaves the open offers their timeouts: a timeout it adds for one is not dropped,
and what it removes is not the timeout of one, unless another call sees to the timeout. -/
structure TimeoutsKept (s : Sys Q) (a : Action) : Prop where
  added : ∀ i ch o d data delay, a = .exec i ch →
    s.next i = some (.addJob .DISPATCH_QUEUE (.dispatchTimeout o d) data delay) → OfferOpen s o d →
      JobQueue.find s.shared.dispatchQueue (.dispatchTimeout o d) = none ∨ TimeoutAhead s o d ∨
        TimeoutOwedBeside s o d i
  removed : ∀ i ch o d, a = .exec i ch →
    s.next i = some (.removeJob .DISPATCH_QUEUE (.dispatchTimeout o d)) → OfferOpen s o d →
      ¬ TimeoutAhead s o d ∨ TimeoutOwedBeside s o d i

/-- If the offer is open, its timeout has not begun, or a call sees to it. -/
def Timed (s : Sys Q) (o : OrderId) (d : DriverId) : Prop :=
  OfferOpen s o d → TimeoutAhead s o d ∨ TimeoutOwed s o d

/-! ## What a step does to the timeout of an open offer -/

/-- A timeout that has not begun is still ahead, or is begun by a worker, or is removed
where that is made up for. -/
theorem timeoutAhead_step (hs : Transition.Reachable (logistics Q cfg) s)
    (hstep : step cfg s a = some s') (hkept : TimeoutsKept s a) (hopen : OfferOpen s o d)
    (h : TimeoutAhead s o d) : TimeoutAhead s' o d ∨ TimeoutOwed s' o d := by
  rcases ahead_step hstep h with hahead | ⟨i, ch, rfl, hnext⟩ | ⟨i, rfl⟩
  · exact .inl hahead
  -- `cancelDispatchTimeout` removes it
  · rcases hkept.removed i ch o d rfl hnext hopen with hnot | hbeside
    · exact absurd h hnot
    · obtain ⟨call, k, hi⟩ := Sys.lookup_of_next hnext
      exact .inr (hbeside.insert (exec_eq_some hi hstep).2)
  -- a worker takes it, and begins with the transaction of the timeout
  · obtain ⟨data, -, hcarries, -, hth⟩ := deliver_eq_some hs hstep
    obtain rfl : data = .DISPATCH_TIMEOUT o d := hcarries
    exact .inr (Pool.owed_of_insert hth (worker_timesOut _ _))

/-- The timeout's transaction ends an open offer. -/
theorem not_open_of_timeout {ch : Choice} (hopen : OfferOpen s o d)
    (hsh : s'.shared = (perform cfg ch (.transaction (.handleDispatchTimeout o d)) s.shared).2) :
    ¬ OfferOpen s' o d := by
  rintro ⟨row', hoffered⟩
  obtain ⟨row, hrow⟩ := hopen
  obtain ⟨res, db', hrun, hmove⟩ : ∃ res db', handleDispatchTimeoutTx cfg ch o d s.shared.db
      = .ok (res, db') ∧ s.shared.db.move cfg o (.timeout d) "system" ch.now = some db' :=
    handleDispatchTimeoutTx_offered hrow
  have hdb : s'.shared.db = db' := by simp only [hsh, perform, Transaction.run, hrun]
  have hfound := hoffered.found
  rw [hdb] at hfound
  -- the timeout leads to `PENDING` or `EXPIRED`
  obtain ⟨t, t', ht, hstatus⟩ := Db.status_of_move hmove hfound
  have hassigned := hoffered.status
  rw [hstatus, (refuse_eq_some (.inl rfl) ht).2.2.1] at hassigned
  split at hassigned <;> cases hassigned

/-- After a call has seen to the timeout of an open offer, the offer is closed, or its
timeout has not begun, or another call sees to it. -/
theorem timed_of_timesOut {ch : Choice} {call : Call} {e : Effect}
    {k : Except Error e.Resp → Prog Response} (hi : s.threads.lookup i = some ⟨call, .op e k⟩)
    (hstep : step cfg s (.exec i ch) = some s') (hkept : TimeoutsKept s (.exec i ch))
    (he : TimesOut o d e) (hopen : OfferOpen s o d) : Timed s' o d := by
  intro hopen'
  obtain ⟨hsh, hth⟩ := exec_eq_some hi hstep
  have hnext := Sys.next_of_lookup hi
  unfold TimesOut at he
  split at he
  · next o' d' data delay =>
      obtain ⟨rfl, rfl⟩ := he
      have hq : s'.shared.dispatchQueue
          = JobQueue.add s.shared.dispatchQueue (.dispatchTimeout o' d') data delay := by
        rw [hsh]
        rfl
      rcases hkept.added i ch o' d' data delay rfl hnext hopen with hnone | hahead | hbeside
      · exact .inl (by rw [TimeoutAhead, hq]; exact JobQueue.ahead_add hnone delay)
      · exact .inl (by rw [TimeoutAhead, hq]; exact JobQueue.Ahead.add hahead delay)
      · exact .inr (hbeside.insert hth)
  -- not `addJob` but the transaction itself
  · obtain ⟨rfl, rfl⟩ := he
    exact absurd hopen' (not_open_of_timeout hopen hsh)
  · exact he.elim

/-- A timeout that a call sees to is seen to, or is ahead, as long as the offer is
open. -/
theorem timeoutOwed_step (hstep : step cfg s a = some s') (hok : a.succeeds = true)
    (hkept : TimeoutsKept s a) (hopen : OfferOpen s o d) (hopen' : OfferOpen s' o d)
    (h : TimeoutOwed s o d) : TimeoutAhead s' o d ∨ TimeoutOwed s' o d := by
  cases call_step hstep with
  | same hth => exact .inr (Pool.Owed.same h hth)
  | made hfree hth => exact .inr (Pool.Owed.insert h hfree hth)
  | @went i ch call e k ha hi _ hth =>
      subst ha
      have hanswer : Answer e (perform cfg ch e s.shared).1 := perform_answer ch e s.shared
      rcases Pool.Owed.advance h hi hth hanswer with hbeside | htimesOut | howed
      · exact .inr (hbeside.insert hth)
      · exact timed_of_timesOut hi hstep hkept htimesOut hopen hopen'
      · exact .inr howed
  | failed ha _ _ _ =>
      subst ha
      cases hok

/-! ## How an offer is opened -/

/-- Whoever offers an order to a driver sees to the timeout of the offer. -/
theorem opened_step (hs : Transition.Reachable (logistics Q cfg) s)
    (hstep : step cfg s a = some s') (hclosed : ¬ OfferOpen s o d) (hopen : OfferOpen s' o d) :
    TimeoutOwed s' o d := by
  obtain ⟨row', hoffered⟩ := hopen
  obtain ⟨hfind', hlive'⟩ := Db.findOrder_eq_some.mp hoffered.found
  have hfind' : s'.order o = some row' := hfind'
  cases order_step hs hstep o with
  | same horder _ =>
      rw [horder] at hfind'
      have hfound := Db.findOrder_eq_some.mpr ⟨hfind', hlive'⟩
      exact absurd ⟨row', hfound, hoffered.status, hoffered.driver⟩ hclosed
  | created _ _ _ hrow hticket _ _ _ =>
      rw [hrow] at hfind'
      obtain rfl := Option.some.inj hfind'
      have hnew := congrArg Ticket.status hticket
      exact absurd (hoffered.status.symm.trans hnew) (by decide)
  | deleted _ _ _ hrow₁ _ =>
      rw [hrow₁] at hfind'
      obtain rfl := Option.some.inj hfind'
      cases hlive'
  | @moved i ch call t m actor row tk ha hcall hnext hbelongs hmakes hoffer _ _ hrow hlive hticket
      hrow₁ _ =>
      subst ha
      rw [hrow₁] at hfind'
      obtain rfl := Option.some.inj hfind'
      -- of all moves only an offer leads to `DRIVER_ASSIGNED`
      obtain ⟨d', rfl, hs₀, hd'⟩ := offer_of_apply hticket hoffered.status
      obtain rfl : d' = d := Option.some.inj (hd'.symm.trans hoffered.driver)
      obtain ⟨cands, driver, rfl, hlock, rfl⟩ := hoffer d' rfl
      -- the assignment of the order has answered with the driver
      have ho : row.id = o := Table.key_of_find hrow
      rw [ho] at hnext hbelongs
      obtain ⟨db', hrun, -⟩ : ∃ db', assignDriverWithLockTx ch o cands s.shared.db
          = .ok (some driver.id, db') ∧
            s.shared.db.move cfg o (.offer driver.id) "system" ch.now = some db' :=
        assignDriverWithLockTx_waiting (Db.findOrder_eq_some.mpr ⟨hrow, hlive⟩) hs₀ hlock
      have hanswer : (perform cfg ch (.transaction (.assignDriverWithLock o cands)) s.shared).1
          = .ok (some driver.id) := by
        simp only [perform, Transaction.run, hrun]
      obtain ⟨call', k, hi⟩ := Sys.lookup_of_next hnext
      rw [Sys.call_of_lookup hi] at hcall
      obtain rfl := Option.some.inj hcall
      obtain ⟨-, hth⟩ := exec_eq_some hi hstep
      have hnodes := forallThreads_of_reachable
        (T := fun call p => call.Handles (.ASSIGN_DRIVER o) → p.AllNodes (OfferTimesOut Response))
        (fun call e k h r hhandles => (h hhandles).2 r) (fun call => offerTimesOut_of_program) hs i
        _ hi hbelongs
      refine Pool.owed_of_insert hth ?_
      rw [hanswer]
      exact hnodes.1 driver.id

/-! ## When every offer is timed -/

/-- An offer whose timeout is ahead or seen to stays so while it is open, if nothing fails
and the step leaves open offers their timeouts. -/
theorem Timed.step (hs : Transition.Reachable (logistics Q cfg) s)
    (hstep : LogisticsDispatch.step cfg s a = some s') (hok : a.succeeds = true)
    (hkept : TimeoutsKept s a) (h : Timed s o d) : Timed s' o d := by
  intro hopen'
  -- it was open already, or this step opens it
  by_cases hopen : OfferOpen s o d
  · rcases h hopen with hahead | howed
    · exact timeoutAhead_step hs hstep hkept hopen hahead
    · exact timeoutOwed_step hstep hok hkept hopen hopen' howed
  · exact .inr (opened_step hs hstep hopen hopen')

/-- While no call is under way, every open offer has a timeout that is waiting, delayed or
active. -/
def OffersTimed (s : Sys Q) : Prop :=
  s.Quiet → ∀ o d, OfferOpen s o d → TimeoutAhead s o d ∨
    JobQueue.Has s.shared.dispatchQueue (.dispatchTimeout o d) .active

theorem offersTimed_of_timed (h : ∀ o d, Timed s o d) : OffersTimed s := by
  intro hquiet o d hopen
  rcases h o d hopen with hahead | howed
  · exact .inl hahead
  · exact absurd hquiet howed.not_quiet

/-- **When every open offer has its timeout**: all along a run in which nothing fails and
every step leaves the open offers their timeouts. -/
theorem open_offers_timed {tr : List (Transition.Move (Sys Q) Action)}
    (run : Transition.Run (logistics Q cfg) tr s) (hok : ∀ m ∈ tr, m.act.succeeds = true)
    (hkept : ∀ m ∈ tr, TimeoutsKept m.src m.act) :
    OffersTimed s ∧ ∀ m ∈ tr, OffersTimed m.src := by
  have hinitial : ∀ s : Sys Q, Initial s → ∀ o d, Timed s o d := by
    rintro s hinit o d ⟨row, hoffered⟩
    have hfind := (Db.findOrder_eq_some.mp hoffered.found).1
    rw [hinit.orders, Table.find_empty] at hfind
    cases hfind
  obtain ⟨hlast, hall⟩ := run.invariant_of (P := fun s => ∀ o d, Timed s o d)
    (C := fun m => m.act.succeeds = true ∧ TimeoutsKept m.src m.act) hinitial
    (fun s₁ a s₂ hs₁ htimed hC hstep o d => (htimed o d).step hs₁ hstep hC.1 hC.2)
    fun m hm => ⟨hok m hm, hkept m hm⟩
  exact ⟨offersTimed_of_timed hlast, fun m hm => offersTimed_of_timed (hall m hm).1⟩

/-! ### In the small system -/

/-- The trip is offered, and the offer times out: call `3`. The order has expired, since
one attempt is all it has, and is reassigned: call `4`. It is offered again when its
job is run again: call `5`. -/
def offeredTwice : List Action :=
  orderTrip ++ offerTrip ++
    .promote .DISPATCH_QUEUE (.dispatchTimeout sampleOrder sampleDriver) ::
    .deliver 3 .DISPATCH_QUEUE (.dispatchTimeout sampleOrder sampleDriver) ::
      proceed 3 6 sampleChoice ++
    .invoke 4 (.reassignOrder sampleOrder sampleAdmin) :: proceed 4 3 sampleChoice ++
    .invoke 5 (.process (.ASSIGN_DRIVER sampleOrder)) :: proceed 5 6 sampleChoice

theorem offered_twice : ((logistics BullQueue (sampleConfig 1)).exec (start [carDriver])
    offeredTwice).isSome := by
  decide +kernel

omit [JobQueue Q JobId JobData] in
theorem offerOpen_of_map
    (h : (s.shared.db.findOrder o).map (fun row => (row.orderStatus, row.assignedDriverId))
      = some (DRIVER_ASSIGNED, some d)) : OfferOpen s o d := by
  obtain ⟨row, hrow, heq⟩ := Option.map_eq_some_iff.mp h
  obtain ⟨hs, hd⟩ := Prod.mk.inj heq
  exact ⟨row, hrow, hs, hd⟩

/-- The timeout of the first offer is kept when it is completed, so that of the second is
not added: the second offer stays open. -/
theorem second_offer_untimed :
    ∃ tr s, Transition.Run (logistics BullQueue (sampleConfig 1)) tr s ∧
      (∀ m ∈ tr, m.act.succeeds = true) ∧ ¬ OffersTimed s := by
  refine ⟨_, _, after_run offered_twice, ?_, fun h => ?_⟩
  · have hall : ((logistics BullQueue (sampleConfig 1)).moves [] (start [carDriver])
        offeredTwice).all (fun m => m.act.succeeds) = true := by decide +kernel
    exact List.all_eq_true.mp hall
  have hquiet : (after _ _ _ offered_twice).quietb = true := by decide +kernel
  have hopen : OfferOpen (after _ _ _ offered_twice) sampleOrder sampleDriver :=
    offerOpen_of_map (by decide +kernel)
  have hjob : (JobQueue.find (after _ _ _ offered_twice).shared.dispatchQueue
      (.dispatchTimeout sampleOrder sampleDriver)).map Prod.fst = some .completed := by
    decide +kernel
  -- waiting, delayed or active, but the job there is completed
  rcases h (Pool.quiet_of_quietb hquiet) _ _ hopen with (⟨data, hfind⟩ | ⟨data, hfind⟩) |
    ⟨data, hfind⟩
  all_goals
    rw [hfind] at hjob
    cases hjob

/-- Whether a step removes a job, as a computation. -/
def removes (m : Transition.Move (Sys Q) Action) : Bool :=
  match m.act with
  | .exec i _ =>
      match m.src.next i with
      | some (.removeJob _ _) => true
      | _ => false
  | _ => false

theorem timeoutsKept_of {m : Transition.Move (Sys Q) Action} (hadds : addsNew m = true)
    (hremoves : removes m = false) : TimeoutsKept m.src m.act where
  added _ _ _ _ _ _ ha hnext _ := .inl (find_of_addsNew hadds ha hnext)
  removed i ch o d ha hnext _ := by
    unfold removes at hremoves
    simp only [ha, hnext] at hremoves
    cases hremoves

/-- The first offer of the trip has its timeout. -/
theorem first_offer_timed : OffersTimed (after _ _ _ trip_offered) := by
  have hok : ((logistics BullQueue (sampleConfig 3)).moves [] (start [carDriver])
      (orderTrip ++ offerTrip)).all (fun m => m.act.succeeds) = true := by decide +kernel
  have hadds : ((logistics BullQueue (sampleConfig 3)).moves [] (start [carDriver])
      (orderTrip ++ offerTrip)).all addsNew = true := by decide +kernel
  have hremoves : ((logistics BullQueue (sampleConfig 3)).moves [] (start [carDriver])
      (orderTrip ++ offerTrip)).all (fun m => !removes m) = true := by decide +kernel
  refine (open_offers_timed (after_run trip_offered) (List.all_eq_true.mp hok) fun m hm => ?_).1
  have hnot := List.all_eq_true.mp hremoves m hm
  rw [Bool.not_eq_true'] at hnot
  exact timeoutsKept_of (List.all_eq_true.mp hadds m hm) hnot

end LogisticsDispatch
