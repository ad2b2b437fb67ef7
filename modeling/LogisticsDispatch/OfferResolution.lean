/-
An offer is resolved at most once.

An order offered to a driver is in `DRIVER_ASSIGNED` at some version. Acceptances,
rejections, timeouts, status updates and cancellations race for it, with two ways of
locking and with jobs that are delivered more than once. Whoever commits first takes
the next version. Of the others, those that lock the row find another status, and those
that read it before find another version. A repetition of the call that won finds that
its move was made already (`apply_apply_eq_none`).

A status update that reads the order only after it was resolved is another matter: it
may well commit the next status.
-/
import LogisticsDispatch.Authorisation
import LogisticsDispatch.Duties

set_option autoImplicit false

namespace LogisticsDispatch

open OrderStatus Lifecycle Resumable Resumable.Program

variable {Q : Type} [JobQueue Q JobId JobData] {cfg : DispatchConfig} {s s' : Sys Q} {a : Action}
  {o : OrderId} {d : DriverId} {row : Order} {m : Move DriverId} {call : Call}

/-! ## The calls that race for an offer -/

/-- The order whose offer a call would resolve, and the move by which: `acceptDispatch`,
`rejectDispatch`, a timeout, `updateStatus` and `cancelOrder`. -/
def Call.resolution : Call → Option (OrderId × Move DriverId)
  | .request (.acceptDispatch o d) => some (o, .accept d)
  | .request (.rejectDispatch o d) => some (o, .reject d)
  | .request (.process (.DISPATCH_TIMEOUT o d)) => some (o, .timeout d)
  | .worker _ _ (.DISPATCH_TIMEOUT o d) => some (o, .timeout d)
  | .request (.updateStatus o newStatus _) => some (o, .advance newStatus)
  | .request (.cancelOrder o _) => some (o, .advance CANCELLED)
  | _ => none

/-- The driver in whose place a move resolves an offer, if it is an acceptance, a
rejection or a timeout. -/
def movedFor : Move DriverId → Option DriverId
  | .accept d => some d
  | .reject d => some d
  | .timeout d => some d
  | _ => none

/-- The move a transaction of a call makes is the one by which the call would resolve
the offer, if it would at all. -/
theorem Transaction.Makes.resolution {t : Transaction} {actor : String}
    (hmakes : t.Makes o m actor) (hbelongs : t.BelongsTo call) :
    call.resolution = some (o, m) ∨ call.resolution = none := by
  -- an offer, an expiry or a reassignment comes from a call that resolves nothing
  cases hmakes with
  | offer _ cands d => rcases hbelongs with rfl | ⟨queue, jobId, rfl⟩ <;> exact .inr rfl
  | expire => rcases hbelongs with rfl | ⟨queue, jobId, rfl⟩ <;> exact .inr rfl
  | timeout _ d => rcases hbelongs with rfl | ⟨queue, jobId, rfl⟩ <;> exact .inl rfl
  | reject _ d =>
      obtain rfl : call = _ := hbelongs
      exact .inl rfl
  | accept _ d =>
      obtain rfl : call = _ := hbelongs
      exact .inl rfl
  | advance _ order newStatus user =>
      rcases hbelongs with rfl | ⟨rfl, rfl⟩ <;> exact .inl rfl
  | reassign _ order user =>
      obtain rfl : call = _ := hbelongs
      exact .inr rfl

/-! ## How a call ends that commits nothing -/

/-- Only the report of a worker to its queue. -/
def IsReport : Effect → Prop
  | .finishJob .. => True
  | _ => False

/-- The answers of a transaction that has done nothing: an error, or its no-op
result. -/
def NoOp : (e : Effect) → Except Error e.Resp → Prop
  | .transaction (.acceptDispatch _ _), r => (∃ err, r = .error err) ∨ r = .ok .alreadyAccepted
  | .transaction (.rejectDispatch _ _), r => (∃ err, r = .error err) ∨ r = .ok .alreadyHandled
  | .transaction (.handleDispatchTimeout _ _), r => (∃ err, r = .error err) ∨ r = .ok .skip
  | .transaction _, r => ∃ err, r = .error err
  | _, _ => False

/-- The call has thrown or returned its no-op result; of the turn of a worker, only the
report to the queue is left. -/
def GaveUp : Call → Prog Response → Prop
  | .request (.acceptDispatch _ _), p =>
      (∃ err, p = .fail err) ∨ p = .ret (.message "Dispatch already accepted")
  | .request (.rejectDispatch _ _), p =>
      (∃ err, p = .fail err) ∨ p = .ret (.message "Dispatch already handled")
  | .request (.process _), p => (∃ err, p = .fail err) ∨ p = .ret .void
  | .worker _ _ _, p => p.All IsReport
  | _, p => ∃ err, p = .fail err

/-- The call has not come to its transaction, and gives up if that does nothing. -/
def Undecided (call : Call) : Prog Response → Prop
  | .ret a => GaveUp call (.ret a)
  | .fail err => GaveUp call (.fail err)
  | .op e k => (∀ r, NoOp e r → GaveUp call (k r)) ∧ (NoTransaction e → ∀ r, Undecided call (k r))

/-- A call that gave up does nothing else. -/
theorem GaveUp.answer {e : Effect} {k : Except Error e.Resp → Prog Response}
    (h : GaveUp call (.op e k)) (r : Except Error e.Resp) : GaveUp call (k r) := by
  cases call with
  | worker queue jobId data => exact h.2 r
  | request req =>
      cases req with
      | acceptDispatch o d => rcases h with ⟨err, h⟩ | h <;> cases h
      | rejectDispatch o d => rcases h with ⟨err, h⟩ | h <;> cases h
      | process data => rcases h with ⟨err, h⟩ | h <;> cases h
      | _ =>
          obtain ⟨err, h⟩ := h
          cases h

/-- A call that has ended undecided gave up. -/
theorem Undecided.done {p : Prog Response} (h : Undecided call p) (hdone : p.isDone = true) :
    GaveUp call p := by
  cases p with
  | ret a => exact h
  | fail err => exact h
  | op e k => cases hdone

/-- `handleDispatchTimeout` is its transaction, and returns if that does nothing. -/
theorem handleDispatchTimeout_eq (o : OrderId) (d : DriverId) : ∃ k,
    DispatchService.handleDispatchTimeout o d = .op (.transaction (.handleDispatchTimeout o d)) k ∧
      (∀ err, k (.error err) = .fail err) ∧ k (.ok .skip) = .ret () :=
  ⟨_, rfl, fun _ => rfl, rfl⟩

/-- `updateStatus` throws, unless its transaction goes through. -/
theorem updateStatus_undecided {newStatus : OrderStatus} {user : JwtUser}
    (hcall : ∀ err, GaveUp call (.fail err)) :
    Undecided call (OrdersService.updateStatus o newStatus user >>= fun res =>
      (pure (.order res) : Prog Response)) := by
  -- the read comes first, then the two checks, then the transaction
  refine ⟨fun _ h => h.elim, fun _ r => ?_⟩
  rcases r with err | _ | order
  · exact hcall err
  · exact hcall _
  · show Undecided call
      ((Program.ofExcept (validateActor order newStatus user) >>= fun _ => _) >>= _)
    cases validateActor order newStatus user with
    | error err => exact hcall err
    | ok _ =>
        show Undecided call ((Program.ofExcept (validateTransition order.orderStatus newStatus) >>=
          fun _ => _) >>= _)
        cases validateTransition order.orderStatus newStatus with
        | error err => exact hcall err
        | ok _ =>
            refine ⟨?_, fun h => h.elim⟩
            rintro r ⟨err, rfl⟩
            exact hcall err

/-- **Every call that would resolve an offer begins undecided.** -/
theorem undecided_of_program (h : call.resolution = some (o, m)) :
    Undecided call (call.program cfg) := by
  cases call with
  | worker queue jobId data =>
      cases data with
      | DISPATCH_TIMEOUT o' d =>
          obtain ⟨k, hk, herr, hskip⟩ := handleDispatchTimeout_eq o' d
          -- a worker reports whichever way the handler has ended
          simp only [Call.program, worker, process, hk, op_bind, op_tryCatch]
          refine ⟨?_, fun h => h.elim⟩
          rintro r (⟨err, rfl⟩ | rfl)
          · simp only [herr, fail_bind, fail_tryCatch]
            exact ⟨trivial, fun r => by cases r <;> trivial⟩
          · simp only [hskip, ret_bind]
            exact ⟨trivial, fun r => by cases r <;> trivial⟩
      | _ => cases h
  | request req =>
      cases req with
      | acceptDispatch o' d =>
          refine ⟨?_, fun h => h.elim⟩
          rintro r (⟨err, rfl⟩ | rfl)
          · exact .inl ⟨err, rfl⟩
          · exact .inr rfl
      | rejectDispatch o' d =>
          refine ⟨?_, fun h => h.elim⟩
          rintro r (⟨err, rfl⟩ | rfl)
          · exact .inl ⟨err, rfl⟩
          · exact .inr rfl
      | process data =>
          cases data with
          | DISPATCH_TIMEOUT o' d =>
              refine ⟨?_, fun h => h.elim⟩
              rintro r (⟨err, rfl⟩ | rfl)
              · exact .inl ⟨err, rfl⟩
              · exact .inr rfl
          | _ => cases h
      | updateStatus o' newStatus user => exact updateStatus_undecided fun err => ⟨err, rfl⟩
      | cancelOrder o' user => exact updateStatus_undecided fun err => ⟨err, rfl⟩
      | _ => cases h

/-- The transaction of a call that would resolve an offer does nothing, or makes the
move. -/
theorem Transaction.BelongsTo.resolves {t : Transaction} {db db' : Db} {ch : Choice}
    {res : t.Result} (hbelongs : t.BelongsTo call) (hchecked : t.Checked db)
    (h : call.resolution = some (o, m)) (hrun : t.run cfg ch db = .ok (res, db')) :
    NoOp (.transaction t) (.ok res) ∨ ∃ actor, db.move cfg o m actor ch.now = some db' := by
  -- each transaction belongs to one kind of call; those of other calls are absurd here
  cases t with
  | handleDispatchTimeout o' d =>
      have heq : call.resolution = some (o', .timeout d) := by
        rcases hbelongs with rfl | ⟨queue, jobId, rfl⟩ <;> rfl
      rw [h] at heq
      obtain ⟨rfl, rfl⟩ := Prod.mk.inj (Option.some.inj heq)
      rcases DispatchService.handleDispatchTimeoutTx_ok hrun with ⟨hres, -⟩ | ⟨-, hmove⟩
      · exact .inl (.inr (by rw [hres]))
      · exact .inr ⟨_, hmove⟩
  | acceptDispatch o' d =>
      obtain rfl : call = _ := hbelongs
      obtain ⟨rfl, rfl⟩ := Prod.mk.inj (Option.some.inj h)
      rcases DispatchService.acceptDispatchTx_ok hrun with ⟨hres, -⟩ | ⟨-, hmove⟩
      · exact .inl (.inr (by rw [hres]))
      · exact .inr ⟨_, hmove⟩
  | rejectDispatch o' d =>
      obtain rfl : call = _ := hbelongs
      obtain ⟨rfl, rfl⟩ := Prod.mk.inj (Option.some.inj h)
      rcases DispatchService.rejectDispatchTx_ok hrun with ⟨hres, -⟩ | ⟨-, hmove⟩
      · exact .inl (.inr (by rw [hres]))
      · exact .inr ⟨_, hmove⟩
  | updateStatus o' order newStatus user =>
      have heq : call.resolution = some (o', .advance newStatus) := by
        rcases hbelongs with rfl | ⟨rfl, rfl⟩ <;> rfl
      rw [h] at heq
      obtain ⟨rfl, rfl⟩ := Prod.mk.inj (Option.some.inj heq)
      obtain ⟨hcopy, hactor, htransition⟩ := hchecked
      obtain ⟨⟨row, -, -, -, hmove⟩, -⟩ := OrdersService.updateStatusTx_ok (copy_status hcopy)
        (may_advance hactor htransition) hrun
      exact .inr ⟨_, hmove⟩
  | createOrder dto c p =>
      obtain ⟨key, rfl⟩ := hbelongs
      cases h
  | assignDriverWithLock o' cands => rcases hbelongs with rfl | ⟨queue, jobId, rfl⟩ <;> cases h
  | expireOrder o' => rcases hbelongs with rfl | ⟨queue, jobId, rfl⟩ <;> cases h
  | reassignOrder o' order user =>
      obtain rfl : call = _ := hbelongs
      cases h
  | toggleSuspension d =>
      obtain rfl : call = _ := hbelongs
      cases h
  | promoteToDriver u v =>
      obtain rfl : call = _ := hbelongs
      cases h

/-- An error is no answer of a transaction that has done something. -/
theorem noOp_error (t : Transaction) (err : Error) : NoOp (.transaction t) (.error err) := by
  cases t with
  | acceptDispatch o d => exact .inl ⟨err, rfl⟩
  | rejectDispatch o d => exact .inl ⟨err, rfl⟩
  | handleDispatchTimeout o d => exact .inl ⟨err, rfl⟩
  | _ => exact ⟨err, rfl⟩

/-! ## The calls of a run -/

/-- A step of the run with call `i` has committed something about the order. -/
def HasCommitted (o : OrderId) (i : ℕ) (tr : List (Transition.Move (Sys Q) Action)) : Prop :=
  ∃ m ∈ tr, (∃ ch, m.act = .exec i ch) ∧ CommitsOn m.src m.dst o

/-- How far a call has come that would resolve an offer. -/
def Standing (o : OrderId) (tr : List (Transition.Move (Sys Q) Action)) (i : ℕ) (call : Call)
    (p : Prog Response) : Prop :=
  HasCommitted o i tr ∨ Undecided call p ∨ GaveUp call p

omit [JobQueue Q JobId JobData] in
theorem Standing.mono {tr : List (Transition.Move (Sys Q) Action)} {i : ℕ} {p : Prog Response}
    (h : Standing o tr i call p) (m : Transition.Move (Sys Q) Action) :
    Standing o (m :: tr) i call p := by
  rcases h with ⟨m', hm', h⟩ | h
  · exact .inl ⟨m', List.mem_cons_of_mem _ hm', h⟩
  · exact .inr h

/-- An undecided call that goes on commits, is still undecided, or gives up. -/
theorem Undecided.exec {i : ℕ} {ch : Choice} {e : Effect} {k : Except Error e.Resp → Prog Response}
    (hs : Transition.Reachable (logistics Q cfg) s)
    (hi : s.threads.lookup i = some ⟨call, .op e k⟩)
    (hsh : s'.shared = (perform cfg ch e s.shared).2) (hres : call.resolution = some (o, m))
    (h : Undecided call (.op e k)) :
    CommitsOn s s' o ∨ Undecided call (k (perform cfg ch e s.shared).1) ∨
      GaveUp call (k (perform cfg ch e s.shared).1) := by
  by_cases he : NoTransaction e
  · exact .inr (.inl (h.2 he _))
  -- all before the transaction leaves the call undecided
  obtain ⟨t, rfl⟩ : ∃ t, e = .transaction t := by
    cases e with
    | transaction t => exact ⟨t, rfl⟩
    | _ => exact absurd trivial he
  obtain ⟨hbelongs, hchecked⟩ := guar_of_next hs hi
  simp only [perform] at hsh ⊢
  split
  · next err hrun => exact .inr (.inr (h.1 _ (noOp_error t err)))
  · next res db' hrun =>
      rw [hrun] at hsh
      rcases hbelongs.resolves hchecked hres hrun with hnoop | ⟨actor, hmove⟩
      · exact .inr (.inr (h.1 _ hnoop))
      · left
        -- a move writes a history row, so it commits
        obtain ⟨row, tk, -, -, -, -, hhistory, -⟩ := Db.move_spec hmove
        rw [CommitsOn, Sys.history, hsh, hhistory]
        intro heq
        have hlength := congrArg List.length heq
        rw [List.length_append] at hlength
        have hsame : (s.history o).length = (s.shared.db.historyOf o).length := rfl
        simp only [List.length_cons, List.length_nil] at hlength
        omega

omit [JobQueue Q JobId JobData] in
/-- An undecided call whose next effect fails is still undecided, or gives up. -/
theorem Undecided.fail {e : Effect} {k : Except Error e.Resp → Prog Response} {err : Error}
    (h : Undecided call (.op e k)) :
    Undecided call (k (.error err)) ∨ GaveUp call (k (.error err)) := by
  by_cases he : NoTransaction e
  · exact .inl (h.2 he _)
  · cases e with
    | transaction t => exact .inr (h.1 _ (noOp_error t _))
    | _ => exact absurd trivial he

/-- A call that would resolve an offer has committed, is undecided or gave up. -/
theorem standing_of_run {tr : List (Transition.Move (Sys Q) Action)}
    (run : Transition.Run (logistics Q cfg) tr s) :
    ∀ i th m, s.threads.lookup i = some th → th.call.resolution = some (o, m) →
      Standing o tr i th.call th.prog := by
  -- by induction on the run, for all calls at once
  refine run.invariant_trace (P := fun tr s => ∀ i th m, s.threads.lookup i = some th →
    th.call.resolution = some (o, m) → Standing o tr i th.call th.prog) ?_ ?_
  · intro s hinit i th m hi _
    rw [hinit.threads, AList.lookup_empty] at hi
    cases hi
  · intro tr s a s' run ih hstep
    have hs : Transition.Reachable (logistics Q cfg) s := run.reachable
    have hold : ∀ j th m, s.threads.lookup j = some th → th.call.resolution = some (o, m) →
        Standing o (⟨s, a, s'⟩ :: tr) j th.call th.prog :=
      fun j th m hj hres => (ih j th m hj hres).mono _
    -- the others stand where they stood
    have hinsert : ∀ i th, s'.threads = s.threads.insert i th →
        (∀ m, th.call.resolution = some (o, m) →
          Standing o (⟨s, a, s'⟩ :: tr) i th.call th.prog) →
        ∀ j th' m, s'.threads.lookup j = some th' → th'.call.resolution = some (o, m) →
          Standing o (⟨s, a, s'⟩ :: tr) j th'.call th'.prog := by
      intro i th hth hi j th' m hj
      rw [hth] at hj
      exact Pool.forall_insert (T := fun j th => th.call.resolution = some (o, m) →
        Standing o (⟨s, a, s'⟩ :: tr) j th.call th.prog)
        (fun j th hj _ => hold j th m hj) (hi m) j th' hj
    cases call_step hstep with
    | same hth =>
        intro j th m hj
        rw [hth] at hj
        exact hold j th m hj
    | made _ hth => exact hinsert _ _ hth fun m hres => .inr (.inl (undecided_of_program hres))
    | @went i ch call e k ha hi hsh hth =>
        subst ha
        refine hinsert i _ hth fun m hres => ?_
        rcases ih i _ m hi hres with ⟨m', hm', h⟩ | hundecided | hgave
        · exact .inl ⟨m', List.mem_cons_of_mem _ hm', h⟩
        · rcases hundecided.exec hs hi hsh hres with hcommits | h
          · exact .inl ⟨_, List.mem_cons_self, ⟨ch, rfl⟩, hcommits⟩
          · exact .inr h
        · exact .inr (.inr (hgave.answer _))
    | @failed i call e k ha hi _ hth =>
        refine hinsert i _ hth fun m hres => ?_
        rcases ih i _ m hi hres with ⟨m', hm', h⟩ | hundecided | hgave
        · exact .inl ⟨m', List.mem_cons_of_mem _ hm', h⟩
        · exact .inr hundecided.fail
        · exact .inr (.inr (hgave.answer _))

/-! ## The moves out of an offer -/

/-- The order is offered to the driver. -/
structure Offered (s : Sys Q) (o : OrderId) (d : DriverId) (row : Order) : Prop where
  order : s.order o = some row
  status : row.orderStatus = DRIVER_ASSIGNED
  driver : row.assignedDriverId = some d

/-- The move commits on the order out of a version of it. -/
def Resolves (o : OrderId) (v : ℕ) (m : Transition.Move (Sys Q) Action) : Prop :=
  (m.src.order o).map Order.version = some v ∧ CommitsOn m.src m.dst o

/-- Only calls that race for offers of the order write it. -/
def OnlyRacing (o : OrderId) (tr : List (Transition.Move (Sys Q) Action)) : Prop :=
  ∀ m ∈ tr, m.dst.order o ≠ m.src.order o →
    MadeBy m.src m.act fun call => ∃ mv, call.resolution = some (o, mv)

/-- What a step that commits on an order has done to it. -/
theorem commits_row (hs : Transition.Reachable (logistics Q cfg) s)
    (hstep : step cfg s a = some s') (hrow : s.order o = some row)
    (hcommits : CommitsOn s s' o) :
    ∃ i ch call t m actor row', a = .exec i ch ∧ s.call i = some call ∧
      s.next i = some (.transaction t) ∧ t.BelongsTo call ∧ t.Makes o m actor ∧
      (∀ order, t.copy = some order → row.version = order.version) ∧
      m.apply cfg.maxDispatchAttempts row.ticket = some row'.ticket ∧ s'.order o = some row' := by
  -- history is written by creation and by moves, and the order is there already
  cases order_step hs hstep o with
  | same _ hhistory => exact absurd hhistory hcommits
  | deleted _ _ _ _ hhistory => exact absurd hhistory hcommits
  | created _ _ hnone _ _ _ _ =>
      rw [hrow] at hnone
      cases hnone
  | @moved i ch call t m actor row₁ tk ha hcall hnext hbelongs hmakes _ _ hcopy hrow₁ _ hticket
      hrow' _ =>
      rw [hrow] at hrow₁
      obtain rfl := Option.some.inj hrow₁
      exact ⟨i, ch, call, t, m, actor, { row.withTicket tk with updatedAt := ch.now }, ha, hcall,
        hnext, hbelongs, hmakes, hcopy, hticket, hrow'⟩

/-- A step of a call that races for the order and does not commit leaves it alone. -/
theorem unchanged_of_not_commits {i : ℕ} {ch : Choice}
    (hs : Transition.Reachable (logistics Q cfg) s) (hstep : step cfg s (.exec i ch) = some s')
    (hcall : s.call i = some call) (hres : call.resolution = some (o, m))
    (hnot : ¬ CommitsOn s s' o) : s'.order o = s.order o ∧ s'.history o = s.history o := by
  have hhistory : s'.history o = s.history o := not_not.mp hnot
  refine ⟨?_, hhistory⟩
  cases order_step hs hstep o with
  | same horder _ => exact horder
  | deleted ha hcall' _ _ _ =>
      obtain ⟨rfl, rfl⟩ := Action.exec.inj ha
      rw [hcall] at hcall'
      obtain rfl := Option.some.inj hcall'
      cases hres
  | created _ _ _ _ _ _ hhistory' =>
      rw [hhistory] at hhistory'
      exact absurd (congrArg List.length hhistory') (by simp)
  | moved _ _ _ _ _ _ _ _ _ _ _ _ hhistory' =>
      rw [hhistory] at hhistory'
      exact absurd (congrArg List.length hhistory') (by simp)

/-- What becomes of an order along a stretch of a run. -/
theorem becomes_of_path {tr : List (Transition.Move (Sys Q) Action)}
    (hs : Transition.Reachable (logistics Q cfg) s)
    (path : Transition.Path (logistics Q cfg) s tr s') (hrow : s.order o = some row) :
    ∃ row', s'.order o = some row' ∧ row.Becomes row' := by
  refine path.invariant_trace (P := fun _ s' => ∃ row', s'.order o = some row' ∧
    row.Becomes row') hs ⟨row, hrow, .refl row⟩ ?_
  rintro tr s₁ a s₂ - hs₁ ⟨row₁, hrow₁, hbecomes₁⟩ hstep
  obtain ⟨row₂, hrow₂, hbecomes₂⟩ := (rely_of_step hs₁ hstep).db.orders o row₁ hrow₁
  exact ⟨row₂, hrow₂, hbecomes₁.trans hbecomes₂⟩

/-- Once a version of the order was left, no later step commits out of it. -/
theorem resolves_once {v : ℕ} {m₁ m₂ : Transition.Move (Sys Q) Action}
    {mid : List (Transition.Move (Sys Q) Action)}
    (hs : Transition.Reachable (logistics Q cfg) m₁.src)
    (hstep : step cfg m₁.src m₁.act = some m₁.dst)
    (path : Transition.Path (logistics Q cfg) m₁.dst mid m₂.src) (h₁ : Resolves o v m₁) :
    ¬ Resolves o v m₂ := by
  rintro ⟨hversion₂, -⟩
  obtain ⟨hversion₁, hcommits⟩ := h₁
  obtain ⟨row, hrow, hv⟩ := Option.map_eq_some_iff.mp hversion₁
  obtain ⟨_, _, _, _, _, _, row', -, -, -, -, -, -, hticket, hrow'⟩ :=
    commits_row hs hstep hrow hcommits
  -- the first commit takes version `v + 1`, and versions never go back
  have hnext : row'.version = row.version + 1 := apply_version hticket
  have hs' : Transition.Reachable (logistics Q cfg) m₁.dst := hs.step hstep
  obtain ⟨row₂, hrow₂, hbecomes⟩ := becomes_of_path hs' path hrow'
  have hle : row'.version ≤ row₂.version := hbecomes.older.version_le
  rw [hrow₂] at hversion₂
  have hv₂ : row₂.version = v := Option.some.inj hversion₂
  omega

/-- Along a stretch in which only racing calls write the order, it is offered at its
version or was resolved for good. -/
def SettledSince (o : OrderId) (v : ℕ) (s : Sys Q) : Prop :=
  ∃ row, s.order o = some row ∧
    (row.version = v ∨ v < row.version ∧ row.orderStatus ≠ DRIVER_ASSIGNED)

/-- A racing move does not offer the order. -/
theorem not_assigned_of_raced {t t' : Ticket DriverId} {tx : Transaction} {actor : String}
    {call : Call} (hbelongs : tx.BelongsTo call) (hmakes : tx.Makes o m actor)
    (hres : ∃ mv, call.resolution = some (o, mv))
    (h : m.apply cfg.maxDispatchAttempts t = some t') :
    t'.status ≠ DRIVER_ASSIGNED ∧
      (t.status ≠ DRIVER_ASSIGNED → ∃ newStatus, m = .advance newStatus) := by
  obtain ⟨mv, hmv⟩ := hres
  have hm : call.resolution = some (o, m) := by
    rcases hmakes.resolution hbelongs with hm | hnone
    · exact hm
    · rw [hnone] at hmv
      cases hmv
  -- accept, reject and timeout need an offered order; only `advance` goes on from elsewhere
  have hrefused : ∀ d, m = .timeout d ∨ m = .reject d → t'.status ≠ DRIVER_ASSIGNED ∧
      (t.status ≠ DRIVER_ASSIGNED → ∃ newStatus, m = .advance newStatus) := by
    intro d hm
    obtain ⟨hs, -, hs', -⟩ := refuse_eq_some hm h
    refine ⟨?_, fun hne => absurd hs hne⟩
    rw [hs']
    split <;> decide
  cases hmakes with
  | offer => rcases hbelongs with rfl | ⟨queue, jobId, rfl⟩ <;> cases hm
  | expire => rcases hbelongs with rfl | ⟨queue, jobId, rfl⟩ <;> cases hm
  | reassign =>
      obtain rfl : call = _ := hbelongs
      cases hm
  | timeout _ d => exact hrefused d (.inl rfl)
  | reject _ d => exact hrefused d (.inr rfl)
  | accept _ d =>
      obtain ⟨hs, -, hs', -⟩ := accept_eq_some h
      refine ⟨?_, fun hne => absurd hs hne⟩
      rw [hs']
      decide
  | advance _ order newStatus user =>
      obtain ⟨-, hne, -, hs', -⟩ := advance_eq_some h
      refine ⟨?_, fun _ => ⟨newStatus, rfl⟩⟩
      rw [hs']
      exact hne

theorem settled_of_path {tr : List (Transition.Move (Sys Q) Action)}
    (hs : Transition.Reachable (logistics Q cfg) s)
    (path : Transition.Path (logistics Q cfg) s tr s') (hrow : s.order o = some row) :
    OnlyRacing o tr → SettledSince o row.version s' := by
  refine path.invariant_trace (P := fun tr s' => OnlyRacing o tr → SettledSince o row.version s')
    hs (fun _ => ⟨row, hrow, .inl rfl⟩) ?_
  intro tr s₁ a s₂ _ hs₁ ih hstep hracing
  obtain ⟨row₁, hrow₁, hsettled⟩ := ih fun m hm => hracing m (List.mem_cons_of_mem _ hm)
  by_cases hcommits : CommitsOn s₁ s₂ o
  -- a commit moves on to a later version, and racing calls do not offer
  · obtain ⟨i, ch, call, t, m, actor, row₂, ha, hcall, -, hbelongs, hmakes, -, hticket, hrow₂⟩ :=
      commits_row hs₁ hstep hrow₁ hcommits
    have hnext : row₂.version = row₁.version + 1 := apply_version hticket
    have hne : s₂.order o ≠ s₁.order o := by
      rw [hrow₁, hrow₂]
      intro heq
      have hversion := congrArg Order.version (Option.some.inj heq)
      omega
    obtain ⟨i', ch', call', ha', hcall', hres⟩ := hracing ⟨s₁, a, s₂⟩ List.mem_cons_self hne
    rw [ha] at ha'
    obtain ⟨rfl, rfl⟩ := Action.exec.inj ha'
    rw [hcall] at hcall'
    obtain rfl := Option.some.inj hcall'
    obtain ⟨hassigned, -⟩ := not_assigned_of_raced hbelongs hmakes hres hticket
    refine ⟨row₂, hrow₂, .inr ⟨?_, hassigned⟩⟩
    rcases hsettled with h | ⟨h, -⟩
    · omega
    · omega
  · -- only soft deletion writes the row without committing, and keeps version and status
    cases order_step hs₁ hstep o with
    | same horder _ => exact ⟨row₁, horder.trans hrow₁, hsettled⟩
    | created _ _ hnone _ _ _ _ =>
        rw [hrow₁] at hnone
        cases hnone
    | deleted _ _ hrow₁' hrow₂ _ =>
        rw [hrow₁] at hrow₁'
        obtain rfl := Option.some.inj hrow₁'
        exact ⟨_, hrow₂, hsettled⟩
    | moved _ _ _ _ _ _ _ _ _ _ _ _ hhistory =>
        refine absurd (fun heq => ?_) hcommits
        rw [heq] at hhistory
        exact absurd (congrArg List.length hhistory) (by simp)

/-! ## Every offer -/

/-- The order and its history are the same after the move. -/
def LeavesAlone (o : OrderId) (m : Transition.Move (Sys Q) Action) : Prop :=
  m.dst.order o = m.src.order o ∧ m.dst.history o = m.src.history o

/-- The move is a step of a call that would resolve an offer of the order by `mv`. -/
def StepOf (o : OrderId) (mv : Move DriverId) (m : Transition.Move (Sys Q) Action) : Prop :=
  MadeBy m.src m.act fun call => call.resolution = some (o, mv)

/-- The move is no transaction of a status update on a copy of the order that is newer
than a version. -/
def ReadBy (v : ℕ) (m : Transition.Move (Sys Q) Action) : Prop :=
  ∀ i ch t order, m.act = .exec i ch → m.src.next i = some (.transaction t) →
    t.copy = some order → order.version ≤ v

/-- An offer to `d` at version `v` is resolved at most once by the moves `tr`, which
follow the moves `before`. -/
structure ResolvedOnce (o : OrderId) (d : DriverId) (v : ℕ)
    (before tr : List (Transition.Move (Sys Q) Action)) (s' : Sys Q) : Prop where
  /-- At most one move commits a transition out of the offer. -/
  once : ∀ later m₂ mid m₁ earlier, tr = later ++ m₂ :: (mid ++ m₁ :: earlier) →
    Resolves o v m₁ → ¬ Resolves o v m₂
  /-- Acceptances, rejections and timeouts do so for the driver it is offered to. -/
  only : ∀ m ∈ tr, Resolves o v m → ∀ mv d', StepOf o mv m → movedFor mv = some d' → d' = d
  /-- Whatever else the racing calls do leaves the order alone, unless a status update
  has read it after the offer was resolved. -/
  others : ∀ m ∈ tr, ∀ mv, StepOf o mv m → ReadBy v m → ¬ Resolves o v m → LeavesAlone o m
  /-- A racing call that has ended and committed nothing has thrown or returned its no-op
  result. -/
  ends : ∀ i call p mv, s'.threads.lookup i = some ⟨call, p⟩ → call.resolution = some (o, mv) →
    p.isDone = true → ¬ HasCommitted o i (tr ++ before) → GaveUp call p
  /-- The winning call, delivered again with nothing in between, leaves the order alone. -/
  again : ∀ m ∈ tr, Resolves o v m → ∀ mv, StepOf o mv m → ∀ m' : Transition.Move (Sys Q) Action,
    m' ∈ tr → m'.src.order o = m.dst.order o → StepOf o mv m' → LeavesAlone o m'

omit [JobQueue Q JobId JobData] in
/-- The move a racing call commits is its own. -/
theorem move_of_stepOf {i : ℕ} {ch : Choice} {t : Transaction} {actor : String} {mv : Move DriverId}
    {m' : Transition.Move (Sys Q) Action} (hact : m'.act = .exec i ch)
    (hcall : m'.src.call i = some call) (hbelongs : t.BelongsTo call) (hmakes : t.Makes o m actor)
    (hof : StepOf o mv m') : mv = m := by
  obtain ⟨i', ch', call', hact', hcall', hres⟩ := hof
  rw [hact] at hact'
  obtain ⟨rfl, rfl⟩ := Action.exec.inj hact'
  rw [hcall] at hcall'
  obtain rfl := Option.some.inj hcall'
  rcases hmakes.resolution hbelongs with h | h
  · rw [hres] at h
    exact (Prod.mk.inj (Option.some.inj h)).2
  · rw [hres] at h
    cases h

/-- A step of a racing call that does not commit leaves the order alone. -/
theorem leavesAlone_of_not_commits {m' : Transition.Move (Sys Q) Action} {mv : Move DriverId}
    (hs : Transition.Reachable (logistics Q cfg) m'.src)
    (hstep : step cfg m'.src m'.act = some m'.dst) (hof : StepOf o mv m')
    (hnot : ¬ CommitsOn m'.src m'.dst o) : LeavesAlone o m' := by
  obtain ⟨i, ch, call, hact, hcall, hres⟩ := hof
  rw [hact] at hstep
  exact unchanged_of_not_commits hs hstep hcall hres hnot

/-- What commits for a driver commits on an order that is offered to the driver. -/
theorem driver_of_commit {m' : Transition.Move (Sys Q) Action} {mv : Move DriverId} {d' : DriverId}
    {row₁ : Order} (hs : Transition.Reachable (logistics Q cfg) m'.src)
    (hstep : step cfg m'.src m'.act = some m'.dst) (hrow : m'.src.order o = some row₁)
    (hcommits : CommitsOn m'.src m'.dst o) (hof : StepOf o mv m') (hmoved : movedFor mv = some d') :
    row₁.ticket.driver = some d' := by
  obtain ⟨i, ch, call, t, m, actor, row', ha, hcall, -, hbelongs, hmakes, -, hticket, -⟩ :=
    commits_row hs hstep hrow hcommits
  obtain rfl := move_of_stepOf ha hcall hbelongs hmakes hof
  -- each of the three moves checks the driver it names
  cases mv with
  | accept d'' =>
      obtain rfl := Option.some.inj hmoved
      exact (accept_eq_some hticket).2.1
  | timeout d'' =>
      obtain rfl := Option.some.inj hmoved
      exact (refuse_eq_some (.inl rfl) hticket).2.1
  | reject d'' =>
      obtain rfl := Option.some.inj hmoved
      exact (refuse_eq_some (.inr rfl) hticket).2.1
  | _ => cases hmoved

/-- After an offer was resolved, only a status update that has read the order since then
commits. -/
theorem readBy_not_commits {m' : Transition.Move (Sys Q) Action} {mv : Move DriverId} {v : ℕ}
    (hs : Transition.Reachable (logistics Q cfg) m'.src)
    (hstep : step cfg m'.src m'.act = some m'.dst) (hsettled : SettledSince o v m'.src)
    (hof : StepOf o mv m') (hread : ReadBy v m') (hnot : ¬ Resolves o v m') :
    ¬ CommitsOn m'.src m'.dst o := by
  intro hcommits
  obtain ⟨row₁, hrow₁, hsettled⟩ := hsettled
  obtain ⟨i, ch, call, t, m, actor, row', ha, hcall, hnext, hbelongs, hmakes, hcopy, hticket, -⟩ :=
    commits_row hs hstep hrow₁ hcommits
  rcases hsettled with hv | ⟨hv, hne⟩
  -- still at the version of the offer: then it would resolve it
  · exact hnot ⟨by rw [hrow₁, ← hv]; rfl, hcommits⟩
  -- past it only `advance` is left, whose copy must have the version of the row
  · obtain ⟨i', ch', call', ha', hcall', hres⟩ := hof
    rw [ha] at ha'
    obtain ⟨rfl, rfl⟩ := Action.exec.inj ha'
    rw [hcall] at hcall'
    obtain rfl := Option.some.inj hcall'
    obtain ⟨newStatus, rfl⟩ := (not_assigned_of_raced hbelongs hmakes ⟨mv, hres⟩ hticket).2 hne
    cases hmakes with
    | advance _ order _ user =>
        have hle := hread i ch _ order ha hnext rfl
        have hversion := hcopy order rfl
        omega

/-- A move that has committed is not made again from where it has led. -/
theorem commits_once {m₁ m₂ : Transition.Move (Sys Q) Action} {mv : Move DriverId} {row₁ : Order}
    (hs₁ : Transition.Reachable (logistics Q cfg) m₁.src)
    (hstep₁ : step cfg m₁.src m₁.act = some m₁.dst)
    (hs₂ : Transition.Reachable (logistics Q cfg) m₂.src)
    (hstep₂ : step cfg m₂.src m₂.act = some m₂.dst) (hrow : m₁.src.order o = some row₁)
    (hcommits : CommitsOn m₁.src m₁.dst o) (hof₁ : StepOf o mv m₁) (hof₂ : StepOf o mv m₂)
    (hsrc : m₂.src.order o = m₁.dst.order o) : ¬ CommitsOn m₂.src m₂.dst o := by
  intro hcommits₂
  obtain ⟨i, ch, call, t, m, actor, row', ha, hcall, -, hbelongs, hmakes, -, hticket, hrow'⟩ :=
    commits_row hs₁ hstep₁ hrow hcommits
  rw [hrow'] at hsrc
  obtain ⟨i₂, ch₂, call₂, t₂, m', actor₂, row₂', ha₂, hcall₂, -, hbelongs₂, hmakes₂, -, hticket₂,
    -⟩ := commits_row hs₂ hstep₂ hsrc hcommits₂
  obtain rfl := move_of_stepOf ha hcall hbelongs hmakes hof₁
  obtain rfl := move_of_stepOf ha₂ hcall₂ hbelongs₂ hmakes₂ hof₂
  rw [apply_apply_eq_none hticket] at hticket₂
  cases hticket₂

/-- **An offer is resolved at most once**, whatever the calls that race for it. -/
theorem offer_resolved_once {before tr : List (Transition.Move (Sys Q) Action)}
    (run : Transition.Run (logistics Q cfg) before s) (hoffered : Offered s o d row)
    (path : Transition.Path (logistics Q cfg) s tr s') (hracing : OnlyRacing o tr) :
    ResolvedOnce o d row.version before tr s' := by
  have hs : Transition.Reachable (logistics Q cfg) s := run.reachable
  have hrow := hoffered.order
  -- where a move of the stretch starts from, and what was done by then
  have hmem : ∀ m ∈ tr, Transition.Reachable (logistics Q cfg) m.src ∧
      step cfg m.src m.act = some m.dst ∧ SettledSince o row.version m.src ∧
      ∃ row₁, m.src.order o = some row₁ ∧ row.Becomes row₁ := by
    intro m hm
    obtain ⟨later, earlier, rfl⟩ := List.append_of_mem hm
    obtain ⟨hpath, hstep, -⟩ := path.before
    refine ⟨hpath.reachable hs, hstep, settled_of_path hs hpath hrow ?_,
      becomes_of_path hs hpath hrow⟩
    intro m' hm'
    exact hracing m' (List.mem_append_right _ (List.mem_cons_of_mem _ hm'))
  -- the five parts are `resolves_once`, `driver_of_commit`, `readBy_not_commits`,
  -- `standing_of_run` and `commits_once`
  constructor
  · intro later m₂ mid m₁ earlier htr h₁
    subst htr
    obtain ⟨hpath₂, -, -⟩ := path.before
    obtain ⟨hpath₁, hstep₁, hmid⟩ := hpath₂.before
    exact resolves_once (hpath₁.reachable hs) hstep₁ hmid h₁
  · rintro m hm ⟨hversion, hcommits⟩ mv d' hof hmoved
    obtain ⟨hsm, hstep, -, row₁, hrow₁, hbecomes⟩ := hmem m hm
    have hassigned := driver_of_commit hsm hstep hrow₁ hcommits hof hmoved
    -- at the version of the offer the order is as it was offered
    rw [hrow₁] at hversion
    rw [hbecomes.ticket_eq (Option.some.inj hversion)] at hassigned
    exact Option.some.inj (hassigned.symm.trans hoffered.driver)
  · intro m hm mv hof hread hnot
    obtain ⟨hsm, hstep, hsettled, -⟩ := hmem m hm
    exact leavesAlone_of_not_commits hsm hstep hof
      (readBy_not_commits hsm hstep hsettled hof hread hnot)
  · intro i call p mv hi hres hdone hnot
    rcases standing_of_run (path.run run) i _ mv hi hres with h | h | h
    · exact absurd h hnot
    · exact h.done hdone
    · exact h
  · rintro m hm ⟨-, hcommits⟩ mv hof m₂ hm₂ hsrc hof₂
    obtain ⟨hsm, hstep, -, row₁, hrow₁, -⟩ := hmem m hm
    obtain ⟨hsm₂, hstep₂, -⟩ := hmem m₂ hm₂
    exact leavesAlone_of_not_commits hsm₂ hstep₂ hof₂
      (commits_once hsm hstep hsm₂ hstep₂ hrow₁ hcommits hof hof₂ hsrc)

/-! ### In the small system -/

/-- Whether a move is a step of a call that races for the order, as a computation. -/
def racesb (o : OrderId) (m : Transition.Move (Sys Q) Action) : Bool :=
  match m.act with
  | .exec i _ => ((m.src.call i).bind Call.resolution).any fun r => decide (r.1 = o)
  | _ => false

omit [JobQueue Q JobId JobData] in
theorem onlyRacing_of_all {tr : List (Transition.Move (Sys Q) Action)}
    (h : tr.all (fun m => decide (m.dst.order o = m.src.order o) || racesb o m) = true) :
    OnlyRacing o tr := by
  intro m hm hne
  rw [List.all_eq_true] at h
  have hraces : racesb o m = true := by simpa [hne] using h m hm
  unfold racesb at hraces
  split at hraces
  · next i ch hact =>
      obtain ⟨⟨o', mv⟩, hmv, ho⟩ : ∃ r, (m.src.call i).bind Call.resolution = some r ∧ r.1 = o := by
        simpa [Option.any_eq_true] using hraces
      obtain ⟨call, hcall, hres⟩ := Option.bind_eq_some_iff.mp hmv
      obtain rfl : o' = o := ho
      exact ⟨i, ch, call, hact, hcall, mv, hres⟩
  · cases hraces

/-- The driver accepts the trip: call `3`. -/
def acceptTrip : List Action :=
  .invoke 3 (.acceptDispatch sampleOrder sampleDriver) :: proceed 3 1 sampleChoice

/-- The driver picks the customer up: call `4`. -/
def pickUpTrip : List Action :=
  .invoke 4 (.updateStatus sampleOrder PICKED_UP carDriverUser) :: proceed 4 2 sampleChoice

/-- The moves from the offer on. -/
def raceMoves : List (Transition.Move (Sys BullQueue) Action) :=
  (logistics BullQueue (sampleConfig 3)).moves [] (after _ _ _ trip_offered)
    (acceptTrip ++ pickUpTrip)

theorem trip_raced : ((logistics BullQueue (sampleConfig 3)).exec (after _ _ _ trip_offered)
    (acceptTrip ++ pickUpTrip)).isSome := by
  decide +kernel

theorem raceMoves_path :
    Transition.Path (logistics BullQueue (sampleConfig 3)) (after _ _ _ trip_offered) raceMoves
      (((logistics BullQueue (sampleConfig 3)).exec (after _ _ _ trip_offered)
        (acceptTrip ++ pickUpTrip)).get trip_raced) :=
  Transition.Path.refl.exec (Option.some_get trip_raced).symm

theorem raceMoves_racing : OnlyRacing sampleOrder raceMoves :=
  onlyRacing_of_all (by decide +kernel)

theorem trip_is_offered : ∃ row, Offered (after _ _ _ trip_offered) sampleOrder sampleDriver row ∧
    row.version = 2 := by
  have hrow : ((after _ _ _ trip_offered).order sampleOrder).map (fun row =>
      (row.orderStatus, row.assignedDriverId, row.version))
      = some (DRIVER_ASSIGNED, some sampleDriver, 2) := by decide +kernel
  obtain ⟨row, hrow, heq⟩ := Option.map_eq_some_iff.mp hrow
  obtain ⟨hstatus, heq⟩ := Prod.mk.inj heq
  obtain ⟨hdriver, hversion⟩ := Prod.mk.inj heq
  exact ⟨row, ⟨hrow, hstatus, hdriver⟩, hversion⟩

/-- After the driver has accepted the trip, a status update that races for the order
commits as well. -/
theorem later_update_commits : ∃ s before tr s' row,
    Transition.Run (logistics BullQueue (sampleConfig 3)) before s ∧
    Offered s sampleOrder sampleDriver row ∧
    Transition.Path (logistics BullQueue (sampleConfig 3)) s tr s' ∧ OnlyRacing sampleOrder tr ∧
    ¬ ∀ m ∈ tr, ∀ mv, StepOf sampleOrder mv m → ¬ Resolves sampleOrder row.version m →
      LeavesAlone sampleOrder m := by
  obtain ⟨row, hoffered, hversion⟩ := trip_is_offered
  refine ⟨_, _, _, _, row, after_run trip_offered, hoffered, raceMoves_path, raceMoves_racing,
    fun h => ?_⟩
  have hlast : (raceMoves.head?.map fun m => ((m.src.order sampleOrder).map Order.version,
      m.src.status sampleOrder, m.dst.status sampleOrder))
      = some (some 3, some DRIVER_ARRIVING, some PICKED_UP) := by decide +kernel
  obtain ⟨m, hm, heq⟩ := Option.map_eq_some_iff.mp hlast
  obtain ⟨hv, heq⟩ := Prod.mk.inj heq
  obtain ⟨hsrc, hdst⟩ := Prod.mk.inj heq
  have hm : m ∈ raceMoves := List.mem_of_mem_head? hm
  have hne : m.dst.order sampleOrder ≠ m.src.order sampleOrder := by
    intro heq
    rw [Sys.status, heq, ← Sys.status, hsrc] at hdst
    cases hdst
  obtain ⟨i, ch, call, hact, hcall, mv, hres⟩ := raceMoves_racing m hm hne
  refine hne (h m hm mv ⟨i, ch, call, hact, hcall, hres⟩ ?_).1
  rintro ⟨hresolved, -⟩
  rw [hv, hversion] at hresolved
  cases hresolved

/-- The trip is accepted once: the race is settled. -/
theorem offer_resolved_once_of_trip : ∃ before s',
    ResolvedOnce sampleOrder sampleDriver 2 before raceMoves s' := by
  obtain ⟨row, hoffered, hversion⟩ := trip_is_offered
  have h := offer_resolved_once (after_run trip_offered) hoffered raceMoves_path raceMoves_racing
  rw [hversion] at h
  exact ⟨_, _, h⟩

end LogisticsDispatch
