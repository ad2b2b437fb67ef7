/-
What `updateStatus` was allowed to do, it is allowed to do when it commits.

`validateActor` and `validateTransition` run on a row that was read outside the
transaction. The transaction commits only if the row has the version that was read.
Every writer of an order takes a new version, so the version cannot come back to what it
was, and the row that is overwritten is in all that matters the row that was checked.
-/
import LogisticsDispatch.StatusChanges

set_option autoImplicit false

namespace LogisticsDispatch

open OrderStatus Lifecycle

variable {Q : Type} [JobQueue Q JobId JobData] {cfg : DispatchConfig} {s s' : Sys Q} {a : Action}
  {o : OrderId} {row row' : Order} {newStatus : OrderStatus} {user : JwtUser}

/-- The call asks for a status of an order, as a user: `updateStatus` or
`cancelOrder`. -/
def Call.Requests (o : OrderId) (newStatus : OrderStatus) (user : JwtUser) (call : Call) : Prop :=
  call = .request (.updateStatus o newStatus user) ∨
    newStatus = CANCELLED ∧ call = .request (.cancelOrder o user)

/-- The step commits something about the order. -/
def CommitsOn (s s' : Sys Q) (o : OrderId) : Prop := s'.history o ≠ s.history o

/-- A call asks for one status only. -/
theorem Call.Requests.inj {call : Call} {o₁ o₂ : OrderId} {st₁ st₂ : OrderStatus}
    {user₁ user₂ : JwtUser} (h₁ : call.Requests o₁ st₁ user₁) (h₂ : call.Requests o₂ st₂ user₂) :
    o₁ = o₂ ∧ st₁ = st₂ ∧ user₁ = user₂ := by
  rcases h₁ with rfl | ⟨rfl, rfl⟩ <;> rcases h₂ with h₂ | ⟨rfl, h₂⟩ <;> cases h₂ <;>
    exact ⟨rfl, rfl, rfl⟩

/-- The only transaction of a call that asks for a status is `updateStatus`. -/
theorem Transaction.BelongsTo.updates {t : Transaction} {call : Call}
    (h : t.BelongsTo call) (hreq : call.Requests o newStatus user) :
    ∃ order, t = .updateStatus o order newStatus user := by
  have hno : ∀ data, ¬ call.Handles data := by
    rintro data (rfl | ⟨queue, jobId, rfl⟩) <;> rcases hreq with h | ⟨-, h⟩ <;> cases h
  -- every other transaction belongs to another call
  cases t with
  | updateStatus o' order st user' =>
      have hreq' : call.Requests o' st user' := h
      obtain ⟨rfl, rfl, rfl⟩ := hreq.inj hreq'
      exact ⟨order, rfl⟩
  | createOrder dto c p =>
      obtain ⟨key, rfl⟩ := h
      rcases hreq with h | ⟨-, h⟩ <;> cases h
  | assignDriverWithLock o' cands => exact absurd h (hno _)
  | expireOrder o' => exact absurd h (hno _)
  | handleDispatchTimeout o' d => exact absurd h (hno _)
  | acceptDispatch o' d =>
      obtain rfl : call = _ := h
      rcases hreq with h | ⟨-, h⟩ <;> cases h
  | rejectDispatch o' d =>
      obtain rfl : call = _ := h
      rcases hreq with h | ⟨-, h⟩ <;> cases h
  | reassignOrder o' order user' =>
      obtain rfl : call = _ := h
      rcases hreq with h | ⟨-, h⟩ <;> cases h
  | toggleSuspension d =>
      obtain rfl : call = _ := h
      rcases hreq with h | ⟨-, h⟩ <;> cases h
  | promoteToDriver u v =>
      obtain rfl : call = _ := h
      rcases hreq with h | ⟨-, h⟩ <;> cases h

/-- What was checked of the copy holds of the row it is the copy of. -/
theorem checked_row {db : Db} {order : Order}
    (hchecked : (Transaction.updateStatus o order newStatus user).Checked db)
    (hrow : db.orders.find o = some row) (hversion : row.version = order.version) :
    validateActor row newStatus user = .ok () ∧
      validateTransition row.orderStatus newStatus = .ok () := by
  obtain ⟨⟨row₁, hrow₁, hbecomes⟩, hactor, htransition⟩ := hchecked
  rw [hrow] at hrow₁
  obtain rfl := Option.some.inj hrow₁
  -- same version, same status and driver, so both checks see the same
  rw [hbecomes.validateActor_eq hversion, hbecomes.status_eq hversion]
  exact ⟨hactor, htransition⟩

/-- A step of a call that asks for a status and commits: the row it overwrites passes
both checks, and gets that status. -/
theorem update_commits {i : ℕ} {ch : Choice} {call : Call}
    (hs : Transition.Reachable (logistics Q cfg) s) (hstep : step cfg s (.exec i ch) = some s')
    (hcall : s.call i = some call) (hreq : call.Requests o newStatus user)
    (hcommits : CommitsOn s s' o) :
    ∃ row row', s.order o = some row ∧ validateActor row newStatus user = .ok () ∧
      validateTransition row.orderStatus newStatus = .ok () ∧ s'.order o = some row' ∧
      row'.orderStatus = newStatus := by
  -- a commit writes history, which leaves creation and moves; and only `updateStatus`
  -- belongs to the call
  cases order_step hs hstep o with
  | same _ hhistory => exact absurd hhistory hcommits
  | deleted _ _ _ _ hhistory => exact absurd hhistory hcommits
  | created ha hcall' _ _ _ _ _ =>
      obtain ⟨rfl, rfl⟩ := Action.exec.inj ha
      rw [hcall] at hcall'
      obtain rfl := Option.some.inj hcall'
      rcases hreq with h | ⟨-, h⟩ <;> cases h
  | @moved i' ch' call' t m actor row tk ha hcall' _ hbelongs hmakes _ hchecked hcopy hrow _ hticket
      hrow' _ =>
      obtain ⟨rfl, rfl⟩ := Action.exec.inj ha
      rw [hcall] at hcall'
      obtain rfl := Option.some.inj hcall'
      obtain ⟨order, rfl⟩ := hbelongs.updates hreq
      obtain ⟨hactor, htransition⟩ := checked_row hchecked hrow (hcopy order rfl)
      cases hmakes with
      | advance _ _ _ _ =>
          exact ⟨row, _, hrow, hactor, htransition, hrow', (advance_eq_some hticket).2.2.2.1⟩

/-! ## Particular requests -/

/-- The statuses an order has from its acceptance on. -/
def acceptedStatuses : List OrderStatus :=
  [DRIVER_ARRIVING, PICKED_UP, IN_TRANSIT, DELIVERED, FAILED, CANCELLED]

/-- An order that was accepted is not set back. -/
theorem accepted_step (hs : Transition.Reachable (logistics Q cfg) s)
    (hstep : step cfg s a = some s') (h : ∃ st ∈ acceptedStatuses, s.status o = some st) :
    ∃ st ∈ acceptedStatuses, s'.status o = some st := by
  obtain ⟨st, hst, hstatus⟩ := h
  obtain ⟨row, hrow, rfl⟩ := Option.map_eq_some_iff.mp hstatus
  obtain ⟨row', hrow', -⟩ := (rely_of_step hs hstep).db.orders o row hrow
  have hrow' : s'.order o = some row' := hrow'
  have hstatus' : s'.status o = some row'.orderStatus := by rw [Sys.status, hrow']; rfl
  refine ⟨row'.orderStatus, ?_, hstatus'⟩
  by_cases hne : row'.orderStatus = row.orderStatus
  · rw [hne]
    exact hst
  -- both exceptions to the table start from a status before acceptance
  · rcases legal_change hs hstep hrow hrow' hne with hmem | ⟨hsrc, -, -⟩ | ⟨hsrc, -, -⟩
    · revert hst hmem
      cases row.orderStatus <;> cases row'.orderStatus <;> decide
    · rw [hsrc] at hst
      exact absurd hst (by decide)
    · rw [hsrc] at hst
      exact absurd hst (by decide)

/-- An order that a driver was on the way to at some point of a run is accepted ever
after. -/
theorem accepted_since {tr : List (Transition.Move (Sys Q) Action)}
    (run : Transition.Run (logistics Q cfg) tr s)
    (h : ∃ m ∈ tr, m.src.status o = some DRIVER_ARRIVING) :
    ∃ st ∈ acceptedStatuses, s.status o = some st := by
  refine run.invariant_trace (P := fun tr s => (∃ m ∈ tr, m.src.status o = some DRIVER_ARRIVING) →
    ∃ st ∈ acceptedStatuses, s.status o = some st) ?_ ?_ h
  · rintro s - ⟨m, hm, -⟩
    cases hm
  · rintro tr s a s' run ih hstep ⟨m, hm, hstatus⟩
    refine accepted_step run.reachable hstep ?_
    -- the latest step, or an earlier one
    rcases List.mem_cons.mp hm with rfl | hm
    · exact ⟨DRIVER_ARRIVING, by decide, hstatus⟩
    · exact ih ⟨m, hm, hstatus⟩

/-- A customer's cancellation is accepted of an order that no driver has accepted. -/
theorem customer_cancels_early {order : Order} (hrole : user.role = .CUSTOMER)
    (h : validateActor order newStatus user = .ok ()) :
    order.orderStatus = PENDING ∨ order.orderStatus = DRIVER_ASSIGNED := by
  -- the three roles
  rcases (validateActor_ok_iff.mp h).2.2 with ⟨hr, -⟩ | ⟨-, hmay⟩ | ⟨hr, -⟩
  · rw [hrole] at hr
    cases hr
  · exact hmay.source
  · rw [hrole] at hr
    cases hr

/-- Picking up, carrying and delivering an order is accepted of its driver only. -/
theorem only_driver_delivers {order : Order}
    (hnew : newStatus ∈ [PICKED_UP, IN_TRANSIT, DELIVERED])
    (h : validateActor order newStatus user = .ok ()) :
    ∃ d, user.driverProfileId = some d ∧ order.assignedDriverId = some d := by
  rcases (validateActor_ok_iff.mp h).2.2 with ⟨-, hmay⟩ | ⟨-, hmay⟩ | ⟨-, hmay⟩
  · rcases hmay.target with h | ⟨h, -⟩ <;> rw [h] at hnew <;> exact absurd hnew (by decide)
  · rw [hmay.target] at hnew
    exact absurd hnew (by decide)
  · obtain ⟨d, hd, hd'⟩ := hmay.assigned
    exact ⟨d, hd', hd⟩

/-- A committed move to `PICKED_UP`, `IN_TRANSIT` or `DELIVERED` is one of a call that
asked for it. -/
theorem delivery_requested (hs : Transition.Reachable (logistics Q cfg) s)
    (hstep : step cfg s a = some s') (hrow : s.order o = some row)
    (hrow' : s'.order o = some row') (hne : row'.orderStatus ≠ row.orderStatus)
    (hnew : row'.orderStatus ∈ [PICKED_UP, IN_TRANSIT, DELIVERED]) :
    ∃ i ch call user, a = .exec i ch ∧ s.call i = some call ∧
      call.Requests o row'.orderStatus user ∧
      validateActor row row'.orderStatus user = .ok () := by
  cases order_step hs hstep o with
  | same horder _ =>
      rw [horder, hrow] at hrow'
      obtain rfl := Option.some.inj hrow'
      exact absurd rfl hne
  | created _ _ hnone _ _ _ _ =>
      rw [hrow] at hnone
      cases hnone
  | deleted _ _ hrow₁ hrow₂ _ =>
      rw [hrow] at hrow₁
      obtain rfl := Option.some.inj hrow₁
      rw [hrow'] at hrow₂
      obtain rfl := Option.some.inj hrow₂
      exact absurd rfl hne
  | @moved i ch call t m actor row₁ tk ha hcall _ hbelongs hmakes _ hchecked hcopy hrow₁ _ hticket
      hrow₂ _ =>
      rw [hrow] at hrow₁
      obtain rfl := Option.some.inj hrow₁
      rw [hrow'] at hrow₂
      obtain rfl := Option.some.inj hrow₂
      have hnew : tk.status ∈ [PICKED_UP, IN_TRANSIT, DELIVERED] := hnew
      -- of the moves only `advance` leads to one of the three statuses
      have hrefused : ∀ d, m = .timeout d ∨ m = .reject d → False := by
        intro d hm
        rw [(refuse_eq_some hm hticket).2.2.1] at hnew
        split at hnew <;> exact absurd hnew (by decide)
      cases hmakes with
      | advance _ order st user =>
          obtain ⟨hactor, -⟩ := checked_row hchecked hrow (hcopy order rfl)
          have hst : tk.status = st := (advance_eq_some hticket).2.2.2.1
          subst hst
          exact ⟨i, ch, call, user, ha, hcall, hbelongs, hactor⟩
      | offer =>
          rw [(offer_eq_some hticket).2.2.1] at hnew
          exact absurd hnew (by decide)
      | expire =>
          rw [(expire_eq_some hticket).2.1] at hnew
          exact absurd hnew (by decide)
      | timeout _ d => exact (hrefused d (.inl rfl)).elim
      | reject _ d => exact (hrefused d (.inr rfl)).elim
      | accept =>
          rw [(accept_eq_some hticket).2.2.1] at hnew
          exact absurd hnew (by decide)
      | reassign =>
          rw [(reassign_eq_some hticket).2.1] at hnew
          exact absurd hnew (by decide)

/-! ## Every commit -/

/-- A move of a run was authorised when it committed. `earlier` are the moves before
it. -/
structure AuthorisedAt (o : OrderId) (earlier : List (Transition.Move (Sys Q) Action))
    (m : Transition.Move (Sys Q) Action) : Prop where
  /-- Whatever `updateStatus` or `cancelOrder` commits, both checks accept of the row as
  it stood immediately before. -/
  accepted : ∀ i ch call newStatus user, m.act = .exec i ch → m.src.call i = some call →
    call.Requests o newStatus user → CommitsOn m.src m.dst o →
    ∃ row, m.src.order o = some row ∧ validateActor row newStatus user = .ok () ∧
      validateTransition row.orderStatus newStatus = .ok ()
  /-- A customer cancels no order that ever was in `DRIVER_ARRIVING`. -/
  customer : ∀ i ch call user, m.act = .exec i ch → m.src.call i = some call →
    call.Requests o CANCELLED user → user.role = .CUSTOMER → CommitsOn m.src m.dst o →
    ∀ m' ∈ m :: earlier, m'.src.status o ≠ some DRIVER_ARRIVING
  /-- An order is picked up, carried and delivered at the request of its driver. -/
  driver : ∀ row row', m.src.order o = some row → m.dst.order o = some row' →
    row'.orderStatus ≠ row.orderStatus → row'.orderStatus ∈ [PICKED_UP, IN_TRANSIT, DELIVERED] →
    ∃ i ch call user d, m.act = .exec i ch ∧ m.src.call i = some call ∧
      call.Requests o row'.orderStatus user ∧ user.driverProfileId = some d ∧
      row.assignedDriverId = some d

/-- **Authorisation holds at commit time**, in every step of every run. -/
theorem authorised_at_commit {tr : List (Transition.Move (Sys Q) Action)}
    (run : Transition.Run (logistics Q cfg) tr s) (o : OrderId)
    (later earlier : List (Transition.Move (Sys Q) Action)) (m : Transition.Move (Sys Q) Action)
    (htr : tr = later ++ m :: earlier) : AuthorisedAt o earlier m := by
  subst htr
  obtain ⟨run₁, hstep, -⟩ := run.of_suffix
  have hs : Transition.Reachable (logistics Q cfg) m.src := run₁.reachable
  have haccepted : ∀ i ch call newStatus user, m.act = .exec i ch → m.src.call i = some call →
      call.Requests o newStatus user → CommitsOn m.src m.dst o →
      ∃ row, m.src.order o = some row ∧ validateActor row newStatus user = .ok () ∧
        validateTransition row.orderStatus newStatus = .ok () := by
    intro i ch call newStatus user hact hcall hreq hcommits
    rw [hact] at hstep
    obtain ⟨row, -, hrow, hactor, htransition, -⟩ := update_commits hs hstep hcall hreq hcommits
    exact ⟨row, hrow, hactor, htransition⟩
  refine ⟨haccepted, ?_, ?_⟩
  · intro i ch call user hact hcall hreq hrole hcommits m' hm' harriving
    obtain ⟨row, hrow, hactor, -⟩ := haccepted i ch call CANCELLED user hact hcall hreq hcommits
    -- before acceptance by the check, but accepted ever since `DRIVER_ARRIVING`
    have hsrc := customer_cancels_early hrole hactor
    have hstatus : m.src.status o = some row.orderStatus := by rw [Sys.status, hrow]; rfl
    obtain ⟨st, hst, hstatus'⟩ : ∃ st ∈ acceptedStatuses, m.src.status o = some st := by
      rcases List.mem_cons.mp hm' with rfl | hm'
      · exact ⟨DRIVER_ARRIVING, by decide, harriving⟩
      · exact accepted_since run₁ ⟨m', hm', harriving⟩
    rw [hstatus] at hstatus'
    obtain rfl := Option.some.inj hstatus'
    rcases hsrc with h | h <;> rw [h] at hst <;> exact absurd hst (by decide)
  · intro row row' hrow hrow' hne hnew
    obtain ⟨i, ch, call, user, hact, hcall, hreq, hactor⟩ :=
      delivery_requested hs hstep hrow hrow' hne hnew
    obtain ⟨d, hd, hd'⟩ := only_driver_delivers hnew hactor
    exact ⟨i, ch, call, user, d, hact, hcall, hreq, hd, hd'⟩

/-- The cancellation of the small system was authorised. -/
theorem authorised_at_commit_of_trip : ∃ (earlier : List (Transition.Move (Sys BullQueue) Action))
    (m : Transition.Move (Sys BullQueue) Action), m.dst.status sampleOrder = some CANCELLED ∧
      AuthorisedAt sampleOrder earlier m := by
  have hhead : (((logistics BullQueue (sampleConfig 3)).moves [] (start [carDriver])
      (orderTrip ++ offerTrip ++ cancelTrip)).head?.bind fun m => m.dst.status sampleOrder)
      = some CANCELLED := by decide +kernel
  obtain ⟨m, hm, hstatus⟩ := Option.bind_eq_some_iff.mp hhead
  obtain ⟨earlier, hmoves⟩ := List.head?_eq_some_iff.mp hm
  exact ⟨earlier, m, hstatus, authorised_at_commit (after_run trip_cancelled) sampleOrder []
    earlier m hmoves⟩

end LogisticsDispatch
