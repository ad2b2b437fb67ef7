/-
Who wrote the rows of the audit trail.

A row of `order_status_history` names an actor. `Call.Records` says which rows a call may
write: about its own order, about a change it can make, and in the name of the user or the
driver who made the call, or of "system" where a job did. Calls overlap, fail half-way and
are delivered again, and still every row was written by a call of its own
(`history_attributed`): no call writes two rows, and no row is without its call.
-/
import LogisticsDispatch.Authorisation
import LogisticsDispatch.Duties

set_option autoImplicit false

namespace LogisticsDispatch

open OrderStatus Lifecycle Resumable Resumable.Program

variable {Q : Type} [JobQueue Q JobId JobData] {cfg : DispatchConfig} {s s' : Sys Q} {a : Action}
  {o : OrderId} {d : DriverId} {call : Call} {i : ℕ}

/-! ## The rows of a call -/

/-- The history rows a call may write. -/
inductive Call.Records : Call → OrderStatusHistory → Prop
  | created (dto : CreateOrderDto) (c : UserId) (key : Option String) (o : OrderId) :
      Records (.request (.createOrder dto c key)) ⟨o, none, PENDING, c.text⟩
  | assigned {call : Call} {o : OrderId} (h : call.Handles (.ASSIGN_DRIVER o)) :
      Records call ⟨o, some PENDING, DRIVER_ASSIGNED, "system"⟩
  | expired {call : Call} {o : OrderId} (h : call.Handles (.ASSIGN_DRIVER o)) :
      Records call ⟨o, some PENDING, EXPIRED, "system"⟩
  | timedOut {call : Call} {o : OrderId} {d : DriverId} {st : OrderStatus}
      (h : call.Handles (.DISPATCH_TIMEOUT o d)) (hst : st = PENDING ∨ st = EXPIRED) :
      Records call ⟨o, some DRIVER_ASSIGNED, st, "system"⟩
  | accepted (o : OrderId) (d : DriverId) :
      Records (.request (.acceptDispatch o d)) ⟨o, some DRIVER_ASSIGNED, DRIVER_ARRIVING, d.text⟩
  | rejected (o : OrderId) (d : DriverId) {st : OrderStatus} (hst : st = PENDING ∨ st = EXPIRED) :
      Records (.request (.rejectDispatch o d)) ⟨o, some DRIVER_ASSIGNED, st, d.text⟩
  | updated {call : Call} {o : OrderId} {st prev : OrderStatus} {user : JwtUser}
      (h : call.Requests o st user) (hst : st ∈ ORDER_TRANSITIONS prev) :
      Records call ⟨o, some prev, st, user.userId.text⟩
  | reassigned (o : OrderId) (user : JwtUser) :
      Records (.request (.reassignOrder o user)) ⟨o, some EXPIRED, PENDING, user.userId.text⟩

/-- The answers of a transaction that may have written a row. -/
def Commits : (e : Effect) → Except Error e.Resp → Prop
  | .transaction (.assignDriverWithLock _ _), r => ∃ d, r = .ok (some d)
  | .transaction _, r => ∃ res, r = .ok res
  | _, _ => False

/-- A refusal leads to one of two statuses. -/
theorem refused_status {m : Move DriverId} {max : ℕ} {t t' : Ticket DriverId}
    (hm : m = .timeout d ∨ m = .reject d) (h : m.apply max t = some t') :
    t'.status = PENDING ∨ t'.status = EXPIRED := by
  rw [(refuse_eq_some hm h).2.2.1]
  split
  · exact .inr rfl
  · exact .inl rfl

/-- The row that goes with a move is one that the call of the transaction may write. -/
theorem records_of_move {t : Transaction} {m : Move DriverId} {actor : String} {row : Order}
    {tk : Ticket DriverId} (hbelongs : t.BelongsTo call) (hmakes : t.Makes o m actor)
    (h : m.apply cfg.maxDispatchAttempts row.ticket = some tk) :
    call.Records ⟨o, some row.orderStatus, tk.status, actor⟩ := by
  have hstatus : row.orderStatus = row.ticket.status := rfl
  rw [hstatus]
  cases hmakes with
  | offer _ cands d =>
      obtain ⟨hs, -, hs', -⟩ := offer_eq_some h
      rw [hs, hs']
      exact .assigned hbelongs
  | expire =>
      obtain ⟨hs, hs', -⟩ := expire_eq_some h
      rw [hs, hs']
      exact .expired hbelongs
  | timeout _ d =>
      rw [(refuse_eq_some (.inl rfl) h).1]
      exact .timedOut hbelongs (refused_status (.inl rfl) h)
  | reject _ d =>
      obtain rfl : call = _ := hbelongs
      rw [(refuse_eq_some (.inr rfl) h).1]
      exact .rejected o d (refused_status (.inr rfl) h)
  | accept _ d =>
      obtain rfl : call = _ := hbelongs
      obtain ⟨hs, -, hs', -⟩ := accept_eq_some h
      rw [hs, hs']
      exact .accepted o d
  | advance _ order newStatus user =>
      obtain ⟨hmem, -, -, hs', -⟩ := advance_eq_some h
      rw [hs']
      exact .updated hbelongs hmem
  | reassign _ order user =>
      obtain rfl : call = _ := hbelongs
      obtain ⟨hs, hs', -⟩ := reassign_eq_some h
      rw [hs, hs']
      exact .reassigned o user

/-- What a transaction does to the history: nothing, or it adds one row of its call. -/
theorem history_of_run {t : Transaction} {db db' : Db} {ch : Choice} {res : t.Result}
    (hbelongs : t.BelongsTo call) (hchecked : t.Checked db)
    (hrun : t.run cfg ch db = .ok (res, db')) :
    db'.history = db.history ∨ Commits (.transaction t) (.ok res) ∧
      ∃ row, call.Records row ∧ db'.history = db.history ++ [row] := by
  cases Transaction.run_ok hchecked hrun with
  | nothing h => exact .inl (by rw [h])
  | driver driver h _ => exact .inl (by rw [h]; rfl)
  | created dto c p order ht htx =>
      subst ht
      obtain ⟨key, rfl⟩ := hbelongs
      refine .inr ⟨⟨_, rfl⟩, ⟨ch.orderId, none, PENDING, c.text⟩, .created dto c key _, ?_⟩
      unfold OrdersService.createOrderTx at htx
      split at htx
      · cases htx
      · cases htx
        rfl
  | moved o m actor hmakes _ _ hmove =>
      obtain ⟨row, tk, hrow, htk, rfl⟩ := Db.move_eq_some hmove
      have hid : row.id = o := Db.id_of_findOrder hrow
      have hrecord : call.Records ⟨o, some row.orderStatus, tk.status, actor⟩ :=
        records_of_move hbelongs hmakes htk
      have hhistory : (db.saveWithHistory (row.withTicket tk) (some row.orderStatus) actor
          ch.now).history = db.history ++ [⟨o, some row.orderStatus, tk.status, actor⟩] := by
        simp [Db.saveWithHistory, hid, Order.withTicket]
      by_cases hnone : ∃ o' cands, t = .assignDriverWithLock o' cands
      · -- an assignment that has moved the order has answered with its driver
        obtain ⟨o', cands, rfl⟩ := hnone
        rcases @DispatchService.assignDriverWithLockTx_ok cfg _ _ _ _ _ _ hrun with
          ⟨-, hdb⟩ | ⟨_, driver, -, -, -, hres, -⟩
        · exact .inl (by rw [hdb])
        · exact .inr ⟨⟨_, by rw [hres]⟩, _, hrecord, hhistory⟩
      · refine .inr ⟨?_, _, hrecord, hhistory⟩
        cases t with
        | assignDriverWithLock o' cands => exact absurd ⟨o', cands, rfl⟩ hnone
        | _ => exact ⟨_, rfl⟩

/-! ## A call writes once -/

section Programs

variable {α : Type}

/-- After a transaction that may have written a row, the program runs no other. -/
abbrev WritesOnce (p : Prog α) : Prop := p.Afterwards Commits NoTransaction

/-- What is no transaction writes no row. -/
theorem not_commits {e : Effect} (h : NoTransaction e) (r : Except Error e.Resp) :
    ¬ Commits e r := by
  cases e with
  | transaction t => exact h.elim
  | _ => exact id

/-- A first part without transactions. -/
theorem writesOnce_after {β : Type} {p : Prog α} {f : α → Prog β} (hp : p.All NoTransaction)
    (hf : ∀ a, WritesOnce (f a)) : WritesOnce (p >>= f) :=
  .after (hp.mono fun _ h r => not_commits h r) hf

/-- A rest without transactions, whatever the answer before it was. -/
theorem rest_noTransaction {P : Prop} {p : Prog α} (h : p.All NoTransaction) :
    (P → p.All NoTransaction) ∧ WritesOnce p :=
  ⟨fun _ => h, afterwards_of_all h⟩

/-- One transaction, and none after it. -/
theorem writesOnce_transaction {β : Type} {t : Transaction} {g : t.Result → Prog β}
    (hg : ∀ res, (g res).All NoTransaction) : WritesOnce (transaction t >>= g) :=
  afterwards_perform_bind fun res => rest_noTransaction (hg res)

theorem expireAndNotify_writesOnce (o : OrderId) :
    WritesOnce (DispatchService.expireAndNotify o) := by
  refine .bind (writesOnce_transaction fun _ => ?_) fun _ => notify_noTransaction _
  exact .tryCatch (cancelEtaJob_noTransaction o) fun _ => trivial

theorem handleAssignDriver_writesOnce (o : OrderId) :
    WritesOnce (DispatchService.handleAssignDriver cfg o) := by
  refine writesOnce_after (ask_noTransaction trivial) fun found => ?_
  split
  · trivial
  split
  · trivial
  split
  · exact expireAndNotify_writesOnce _
  refine writesOnce_after (.bind (ask_noTransaction trivial) fun _ => trivial) fun cands => ?_
  split
  · exact expireAndNotify_writesOnce _
  -- an assignment that finds no driver has written nothing, and the order expires
  refine afterwards_perform_bind fun res => ?_
  cases res with
  | none =>
      refine ⟨fun hcommits => ?_, expireAndNotify_writesOnce _⟩
      obtain ⟨d, h⟩ := hcommits
      cases h
  | some d =>
      exact rest_noTransaction (.bind (ask_noTransaction trivial) fun _ =>
        .bind (ask_noTransaction trivial) fun _ => notify_noTransaction _)

theorem updateStatus_writesOnce (newStatus : OrderStatus) (user : JwtUser) :
    WritesOnce (OrdersService.updateStatus o newStatus user) := by
  refine writesOnce_after (ask_noTransaction trivial) fun found => ?_
  split
  · trivial
  next order =>
  refine writesOnce_after (p := Program.ofExcept (validateActor order newStatus user)) ?_
    fun _ => ?_
  · cases validateActor order newStatus user <;> trivial
  refine writesOnce_after
    (p := Program.ofExcept (validateTransition order.orderStatus newStatus)) ?_ fun _ => ?_
  · cases validateTransition order.orderStatus newStatus <;> trivial
  refine writesOnce_transaction fun updated => ?_
  split
  · exact .bind (.tryCatch (cancelEtaJob_noTransaction o) fun _ => trivial) fun _ => trivial
  · trivial

theorem reassignOrder_writesOnce (user : JwtUser) :
    WritesOnce (OrdersService.reassignOrder o user) := by
  refine writesOnce_after (ask_noTransaction trivial) fun found => ?_
  split
  · trivial
  split
  · trivial
  have hrest : ∀ updated : Order, (do
      DispatchService.triggerDispatch o
      return toOrderResponse updated : Prog OrderResponse).All NoTransaction :=
    fun updated => .bind (triggerDispatch_noTransaction o) fun _ => trivial
  split
  · exact writesOnce_transaction hrest
  · exact afterwards_of_all (hrest _)

theorem sanitizeKey_noTransaction (key : Option String) :
    (OrdersService.sanitizeKey key).All NoTransaction := by
  unfold OrdersService.sanitizeKey
  split
  · trivial
  dsimp only
  split
  · trivial
  refine .bind (ask_noTransaction trivial) fun cached => ?_
  split <;> trivial

theorem createOrder_writesOnce (dto : CreateOrderDto) (c : UserId) (key : Option String) :
    WritesOnce (OrdersService.createOrder cfg dto c key) := by
  refine writesOnce_after (sanitizeKey_noTransaction key) fun sanitizedKey => ?_
  refine writesOnce_after (p := Program.ofExcept (OrdersService.validateVehincle dto)) ?_
    fun _ => ?_
  · cases OrdersService.validateVehincle dto <;> trivial
  refine writesOnce_transaction fun order => ?_
  split
  · trivial
  · exact .bind (ask_noTransaction trivial) fun _ => trivial

/-- The calls that run a handler do what the handler does. -/
theorem writesOnce_of_handler {data : JobData} (hcall : call.Handles data)
    (h : WritesOnce (process cfg data)) : WritesOnce (call.program cfg) := by
  rcases hcall with rfl | ⟨queue, jobId, rfl⟩
  · exact h.bind fun _ => trivial
  · refine .bind (.bind (.tryCatch (.bind h fun _ => trivial) fun _ => trivial) fun ok => ?_)
      fun _ => trivial
    exact ask_noTransaction trivial

/-- **No call that may write a row goes on to another transaction.** -/
theorem writesOnce_of_records {row : OrderStatusHistory} (h : call.Records row) :
    WritesOnce (call.program cfg) := by
  cases h with
  | created dto c key => exact (createOrder_writesOnce dto c key).bind fun _ => trivial
  | assigned hcall => exact writesOnce_of_handler hcall (handleAssignDriver_writesOnce _)
  | expired hcall => exact writesOnce_of_handler hcall (handleAssignDriver_writesOnce _)
  | timedOut hcall _ =>
      refine writesOnce_of_handler hcall ?_
      rw [process, handleDispatchTimeout_bind]
      exact writesOnce_transaction afterTimeout_noTransaction
  | accepted o d =>
      show WritesOnce (DispatchService.acceptDispatch o d)
      rw [acceptDispatch_bind]
      exact writesOnce_transaction afterAccept_noTransaction
  | rejected o d _ =>
      show WritesOnce (DispatchService.rejectDispatch o d)
      rw [rejectDispatch_bind]
      exact writesOnce_transaction afterReject_noTransaction
  | updated hcall _ =>
      rcases hcall with rfl | ⟨rfl, rfl⟩
      · exact (updateStatus_writesOnce _ _).bind fun _ => trivial
      · exact (updateStatus_writesOnce _ _).bind fun _ => trivial
  | reassigned o user => exact (reassignOrder_writesOnce user).bind fun _ => trivial

end Programs

/-! ## Every row has its call -/

/-- What a step does to the history: nothing, or a call adds one of its rows. -/
theorem history_step (hs : Transition.Reachable (logistics Q cfg) s)
    (hstep : step cfg s a = some s') :
    s'.shared.db.history = s.shared.db.history ∨
      ∃ i call t k r row, s.threads.lookup i = some ⟨call, .op (.transaction t) k⟩ ∧
        s'.threads = s.threads.insert i ⟨call, k r⟩ ∧ Commits (.transaction t) r ∧
        call.Records row ∧ s'.shared.db.history = s.shared.db.history ++ [row] := by
  by_cases ha : ∀ i ch, a ≠ .exec i ch
  · exact .inl (by rw [step_db_eq hstep ha])
  obtain ⟨i, ch, rfl⟩ : ∃ i ch, a = .exec i ch := by
    simpa only [ne_eq, not_forall, not_not] using ha
  obtain ⟨call, e, k, hi, hsh, hth⟩ := Pool.advance_eq_some hstep
  have hsh : s'.shared = (perform cfg ch e s.shared).2 := hsh
  have hth : s'.threads = s.threads.insert i ⟨call, k (perform cfg ch e s.shared).1⟩ := hth
  rw [hsh]
  by_cases ht : ∃ t, e = .transaction t
  · obtain ⟨t, rfl⟩ := ht
    obtain ⟨hbelongs, hchecked⟩ := guar_of_next hs hi
    cases hrun : t.run cfg ch s.shared.db with
    | error err =>
        left
        simp only [perform, hrun]
    | ok res =>
        obtain ⟨res, db'⟩ := res
        simp only [perform, hrun] at hth ⊢
        rcases history_of_run hbelongs hchecked hrun with heq | ⟨hcommits, row, hrecords, heq⟩
        · exact .inl heq
        · exact .inr ⟨i, call, t, k, _, row, hi, hth, hcommits, hrecords, heq⟩
  left
  by_cases hd : ∃ o, e = .softDelete o
  · obtain ⟨o, rfl⟩ := hd
    simp only [perform, OrdersService.softDeleteRow]
    split <;> rfl
  · exact (perform_orders (fun t heq => ht ⟨t, heq⟩) fun o heq => hd ⟨o, heq⟩).2

/-- Calls are not forgotten. -/
theorem call_kept (hstep : step cfg s a = some s') (h : s.call i = some call) :
    s'.call i = some call := by
  obtain ⟨⟨call', p⟩, hi, rfl⟩ := Option.map_eq_some_iff.mp h
  cases call_step hstep with
  | same hth => rw [Sys.call, hth, hi, Option.map_some]
  | @made j _ hfree hth =>
      have hne : i ≠ j := by
        rintro rfl
        rw [hi] at hfree
        cases hfree
      rw [Sys.call, hth, AList.lookup_insert_ne hne, hi, Option.map_some]
  | @went j _ _ _ _ _ hj _ hth =>
      by_cases hij : i = j
      · subst hij
        rw [hi] at hj
        cases hj
        rw [Sys.call, hth, AList.lookup_insert, Option.map_some]
      · rw [Sys.call, hth, AList.lookup_insert_ne hij, hi, Option.map_some]
  | @failed j _ _ _ _ hj _ hth =>
      by_cases hij : i = j
      · subst hij
        rw [hi] at hj
        cases hj
        rw [Sys.call, hth, AList.lookup_insert, Option.map_some]
      · rw [Sys.call, hth, AList.lookup_insert_ne hij, hi, Option.map_some]

/-- Call `i` runs no transaction any more. -/
def Sys.Settled (s : Sys Q) (i : ℕ) : Prop :=
  ∀ call p, s.threads.lookup i = some ⟨call, p⟩ → p.All NoTransaction

/-- A call goes on with a part of what was left of its program. -/
theorem Sys.Settled.step (h : s.Settled i) (hstep : step cfg s a = some s')
    (hcall : s.call i = some call) : s'.Settled i := by
  intro call' p hp
  have hinsert : ∀ {j call'' e} {k : Except Error e.Resp → Prog Response} {r},
      s.threads.lookup j = some ⟨call'', .op e k⟩ →
      s'.threads = s.threads.insert j ⟨call'', k r⟩ → p.All NoTransaction := by
    intro j call'' e k r hj hth
    rw [hth] at hp
    by_cases hij : i = j
    · subst hij
      rw [AList.lookup_insert] at hp
      cases hp
      exact (h _ _ hj).2 r
    · rw [AList.lookup_insert_ne hij] at hp
      exact h _ _ hp
  cases call_step hstep with
  | same hth =>
      rw [hth] at hp
      exact h _ _ hp
  | @made j _ hfree hth =>
      have hne : i ≠ j := by
        rintro rfl
        rw [Sys.call, hfree] at hcall
        cases hcall
      rw [hth, AList.lookup_insert_ne hne] at hp
      exact h _ _ hp
  | went _ hj _ hth => exact hinsert hj hth
  | failed _ hj _ hth => exact hinsert hj hth

/-- Call `i` is one that may write the row. -/
def Sys.Wrote (s : Sys Q) (row : OrderStatusHistory) (i : ℕ) : Prop :=
  ∃ call, s.call i = some call ∧ call.Records row

/-- The calls `writers` wrote the history, a row each, and run no other transaction. -/
structure Attributed (s : Sys Q) (writers : List ℕ) : Prop where
  rows : List.Forall₂ s.Wrote s.shared.db.history writers
  nodup : writers.Nodup
  settled : ∀ i ∈ writers, s.Settled i

omit [JobQueue Q JobId JobData] in
theorem Attributed.isCall {writers : List ℕ} (h : Attributed s writers) (hi : i ∈ writers) :
    ∃ call, s.call i = some call := by
  obtain ⟨n, hn, rfl⟩ := List.getElem_of_mem hi
  have hlength := h.rows.length_eq
  obtain ⟨call, hcall, -⟩ := (List.forall₂_iff_get.mp h.rows).2 n (by omega) hn
  exact ⟨call, hcall⟩

/-- A step keeps what is known of the calls that have written. -/
theorem Attributed.step {writers : List ℕ} (h : Attributed s writers)
    (hstep : step cfg s a = some s') :
    List.Forall₂ s'.Wrote s.shared.db.history writers ∧
      ∀ i ∈ writers, s'.Settled i := by
  refine ⟨h.rows.imp fun row i ⟨call, hcall, hrecords⟩ =>
    ⟨call, call_kept hstep hcall, hrecords⟩, fun i hi => ?_⟩
  obtain ⟨call, hcall⟩ := h.isCall hi
  exact (h.settled i hi).step hstep hcall

/-- The program of a call that may write a row, at any point of it. -/
theorem writesOnce_of_lookup {p : Prog Response} {row : OrderStatusHistory}
    (hs : Transition.Reachable (logistics Q cfg) s) (hi : s.threads.lookup i = some ⟨call, p⟩)
    (hrecords : call.Records row) : WritesOnce p := by
  have hall : Pool.ForallThreads (fun call p => (∃ row, call.Records row) → WritesOnce p) s := by
    refine forallThreads_of_reachable (fun call e k ih r hrow => (ih hrow r).2) ?_ hs
    rintro call ⟨row, hrecords⟩
    exact writesOnce_of_records hrecords
  exact hall i _ hi ⟨row, hrecords⟩

theorem attributed_of_reachable (hs : Transition.Reachable (logistics Q cfg) s) :
    ∃ writers, Attributed s writers := by
  refine hs.invariant (P := fun s => ∃ writers, Attributed s writers) ?_ ?_
  · intro s hinit
    refine ⟨[], ?_, List.nodup_nil, fun i hi => absurd hi List.not_mem_nil⟩
    rw [hinit.history]
    exact .nil
  · intro s a s' hs ⟨writers, h⟩ hstep
    obtain ⟨hrows, hsettled⟩ := h.step hstep
    rcases history_step hs hstep with heq | ⟨i, call, t, k, r, row, hi, hth, hcommits, hrecords, heq⟩
    · exact ⟨writers, by rw [heq]; exact hrows, h.nodup, hsettled⟩
    · -- the call that writes has not written before, as it still runs a transaction
      have hnew : i ∉ writers := fun hmem => (h.settled i hmem _ _ hi).1
      have hdone : (k r).All NoTransaction :=
        (writesOnce_of_lookup hs hi hrecords r).1 hcommits
      have hlookup : s'.threads.lookup i = some ⟨call, k r⟩ := by
        rw [hth, AList.lookup_insert]
      refine ⟨writers ++ [i], ?_, ?_, ?_⟩
      · rw [heq]
        exact List.rel_append hrows (.cons ⟨call, Sys.call_of_lookup hlookup, hrecords⟩ .nil)
      · exact h.nodup.append (List.nodup_singleton i) (List.disjoint_singleton.mpr hnew)
      · intro j hj call' p hp
        rcases List.mem_append.mp hj with hj | hj
        · exact hsettled j hj call' p hp
        · obtain rfl := List.mem_singleton.mp hj
          rw [hlookup] at hp
          cases hp
          exact hdone

/-- **Every row of the audit trail was written by a call of its own**, and names its actor:
in every reachable state the rows and as many distinct calls go together. -/
theorem history_attributed (hs : Transition.Reachable (logistics Q cfg) s) :
    ∃ writers : List ℕ, writers.Nodup ∧ List.Forall₂ s.Wrote s.shared.db.history writers := by
  obtain ⟨writers, h⟩ := attributed_of_reachable hs
  exact ⟨writers, h.nodup, h.rows⟩

/-- In the small system, the customer wrote one row and a job the other. -/
theorem history_attributed_of_trip :
    (after _ _ _ trip_offered).shared.db.history.map OrderStatusHistory.actorId
        = ["customer", "system"] ∧
      ∃ writers : List ℕ, writers.Nodup ∧ List.Forall₂ (after _ _ _ trip_offered).Wrote
        (after _ _ _ trip_offered).shared.db.history writers :=
  ⟨by decide +kernel, history_attributed (after_reachable trip_offered)⟩

end LogisticsDispatch
