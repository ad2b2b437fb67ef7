/-
What one step does to the dispatch queue and to the outbox.

`queue_step` and `outbox_step` say of every step what it does to the two, and which call
does it. An outbox row is about an order that is stored (`order_of_row`), so the orders
whose jobs are added are (`order_of_add`).
-/
import LogisticsDispatch.Refinement

set_option autoImplicit false

namespace LogisticsDispatch

open OrderStatus Lifecycle Resumable

variable {Q : Type} [JobQueue Q JobId JobData] {cfg : DispatchConfig} {s s' : Sys Q} {a : Action}
  {o : OrderId} {j : JobId}

/-! ## The dispatch queue -/

/-- All that a step can do to the dispatch queue. -/
inductive QueueStep (s : Sys Q) (a : Action) (s' : Sys Q) : Prop
  | same (h : s'.shared.dispatchQueue = s.shared.dispatchQueue)
  | add {i : ℕ} {ch : Choice} {j : JobId} {data : JobData} {delay : ℕ} (ha : a = .exec i ch)
      (hnext : s.next i = some (.addJob .DISPATCH_QUEUE j data delay))
      (h : s'.shared.dispatchQueue = JobQueue.add s.shared.dispatchQueue j data delay)
  | remove {i : ℕ} {ch : Choice} {j : JobId} (ha : a = .exec i ch)
      (hnext : s.next i = some (.removeJob .DISPATCH_QUEUE j))
      (h : s'.shared.dispatchQueue = JobQueue.remove s.shared.dispatchQueue j)
  | finish {j : JobId} {ok : Bool}
      (h : s'.shared.dispatchQueue = JobQueue.finish s.shared.dispatchQueue j ok)
  | take {i : ℕ} {j : JobId} {data : JobData} (ha : a = .deliver i .DISPATCH_QUEUE j)
      (hfind : JobQueue.find s.shared.dispatchQueue j = some (.waiting, data))
      (h : s'.shared.dispatchQueue = JobQueue.take s.shared.dispatchQueue j)
  | promote {j : JobId} (h : s'.shared.dispatchQueue = JobQueue.promote s.shared.dispatchQueue j)
  | evict {j : JobId} (h : s'.shared.dispatchQueue = JobQueue.evict s.shared.dispatchQueue j)

/-- What performing an effect does to the dispatch queue. -/
theorem perform_queue {i : ℕ} {ch : Choice} {e : Effect} (hnext : s.next i = some e)
    (hsh : s'.shared = (perform cfg ch e s.shared).2) : QueueStep s (.exec i ch) s' := by
  cases e with
  | addJob queue j data delay =>
      cases queue with
      | DISPATCH_QUEUE => exact .add rfl hnext (by rw [hsh]; rfl)
      | TRACKING_QUEUE => exact .same (by rw [hsh]; rfl)
  | removeJob queue j =>
      simp only [perform] at hsh
      split at hsh
      -- `job.remove()` has thrown
      · exact .same (by rw [hsh])
      · cases queue with
        | DISPATCH_QUEUE => exact .remove rfl hnext (by rw [hsh]; rfl)
        | TRACKING_QUEUE => exact .same (by rw [hsh]; rfl)
  | finishJob queue j ok =>
      cases queue with
      | DISPATCH_QUEUE => exact .finish (j := j) (by rw [hsh]; rfl)
      | TRACKING_QUEUE => exact .same (by rw [hsh]; rfl)
  | transaction t =>
      simp only [perform] at hsh
      split at hsh <;> exact .same (by rw [hsh])
  | updateDriverLocation d lat lng =>
      simp only [perform] at hsh
      split at hsh <;> exact .same (by rw [hsh])
  | _ => exact .same (by rw [hsh]; rfl)

/-- **All that a step does to the dispatch queue.** -/
theorem queue_step (h : step cfg s a = some s') : QueueStep s a s' := by
  cases a with
  | invoke i req =>
      obtain ⟨-, hsh, -⟩ := Pool.spawn_eq_some h
      exact .same (by rw [hsh])
  | exec i ch =>
      obtain ⟨call, e, k, hi, hsh, -⟩ := Pool.advance_eq_some h
      exact perform_queue (Sys.next_of_lookup hi) hsh
  | fail i =>
      simp only [step, Option.ite_none_right_eq_some] at h
      obtain ⟨l, e, k, -, hsh, -⟩ := Pool.interrupt_eq_some h.2
      exact .same (by rw [hsh])
  | deliver i queue jobId =>
      simp only [step] at h
      split at h
      · next data hfind =>
          obtain ⟨-, hsh, -⟩ := Pool.spawn_eq_some h
          cases queue with
          | DISPATCH_QUEUE => exact .take rfl hfind (by rw [hsh]; rfl)
          | TRACKING_QUEUE => exact .same (by rw [hsh]; rfl)
      · cases h
  | promote queue jobId =>
      obtain rfl := Option.some.inj h
      cases queue with
      | DISPATCH_QUEUE => exact .promote (j := jobId) rfl
      | TRACKING_QUEUE => exact .same rfl
  | evict queue jobId =>
      obtain rfl := Option.some.inj h
      cases queue with
      | DISPATCH_QUEUE => exact .evict (j := jobId) rfl
      | TRACKING_QUEUE => exact .same rfl
  | expire key =>
      obtain rfl := Option.some.inj h
      exact .same rfl

/-- What can happen to a job that is ahead: it is removed or taken by a worker. -/
theorem ahead_step (h : step cfg s a = some s') (hj : JobQueue.Ahead s.shared.dispatchQueue j) :
    JobQueue.Ahead s'.shared.dispatchQueue j ∨
      (∃ i ch, a = .exec i ch ∧ s.next i = some (.removeJob .DISPATCH_QUEUE j)) ∨
      ∃ i, a = .deliver i .DISPATCH_QUEUE j := by
  -- eviction and finishing concern jobs that are no longer ahead
  cases queue_step h with
  | same h => exact .inl (by rwa [h])
  | add ha hnext h => exact .inl (by rw [h]; exact hj.add _)
  | @remove i ch j' ha hnext h =>
      by_cases hjj : j = j'
      · subst hjj
        exact .inr (.inl ⟨i, ch, ha, hnext⟩)
      · exact .inl (by rw [h]; exact hj.remove_of_ne hjj)
  | finish h => exact .inl (by rw [h]; exact hj.finish _)
  | @take i j' data ha hfind h =>
      by_cases hjj : j = j'
      · subst hjj
        exact .inr (.inr ⟨i, ha⟩)
      · exact .inl (by rw [h]; exact hj.take_of_ne hjj)
  | promote h => exact .inl (by rw [h]; exact hj.promote)
  | evict h => exact .inl (by rw [h]; exact hj.evict)

/-- A worker takes a job that waits, and runs the handler of what the job is about. -/
theorem deliver_eq_some {i : ℕ} (hs : Transition.Reachable (logistics Q cfg) s)
    (h : step cfg s (.deliver i .DISPATCH_QUEUE j) = some s') :
    ∃ data, JobQueue.find s.shared.dispatchQueue j = some (.waiting, data) ∧ j.Carries data ∧
      s.threads.lookup i = none ∧ s'.threads = s.threads.insert i
        ⟨.worker .DISPATCH_QUEUE j data, (Call.worker .DISPATCH_QUEUE j data).program cfg⟩ := by
  simp only [step] at h
  split at h
  · next data hfind =>
      obtain ⟨hfree, -, hth⟩ := Pool.spawn_eq_some h
      have hcarries := (kept_of_reachable hs).wellFormed.jobs j .waiting data hfind
      exact ⟨data, hfind, hcarries, hfree, hth⟩
  · cases h

/-- Whether a step that adds a job to the dispatch queue finds none under its id, as a
computation. -/
def addsNew (m : Transition.Move (Sys Q) Action) : Bool :=
  match m.act with
  | .exec i _ =>
      match m.src.next i with
      | some (.addJob .DISPATCH_QUEUE j _ _) =>
          (JobQueue.find m.src.shared.dispatchQueue j).isNone
      | _ => true
  | _ => true

theorem find_of_addsNew {m : Transition.Move (Sys Q) Action} {i : ℕ} {ch : Choice}
    {data : JobData} {delay : ℕ} (h : addsNew m = true) (ha : m.act = .exec i ch)
    (hnext : m.src.next i = some (.addJob .DISPATCH_QUEUE j data delay)) :
    JobQueue.find m.src.shared.dispatchQueue j = none := by
  unfold addsNew at h
  simp only [ha, hnext] at h
  exact Option.isNone_iff_eq_none.mp h

/-! ## The outbox -/

/-- All that a step can do to the outbox. -/
inductive OutboxStep (s : Sys Q) (a : Action) (s' : Sys Q) : Prop
  | same (h : s'.shared.db.outbox = s.shared.db.outbox)
  | created {ch : Choice} (hnone : s.order ch.orderId = none)
      (hrow : ∃ row, s'.order ch.orderId = some row)
      (hnew : s.shared.db.outbox.find ch.outboxId = none)
      (h : s'.shared.db.outbox = s.shared.db.outbox.put
        ⟨ch.outboxId, "dispatch.trigger", some ch.orderId, .PENDING, 0, none, ch.now, none⟩)
  | saved {i : ℕ} {ch : Choice} {row row' : OutboxEvent}
      {k : Except Error Unit → Prog Response} (ha : a = .exec i ch)
      (hi : s.threads.lookup i = some ⟨.request .processOutbox, .op (.saveOutbox row) k⟩)
      (hrow : s.shared.db.outbox.find row.id = some row') (hsame : row'.Becomes row)
      (h : s'.shared.db.outbox = s.shared.db.outbox.put row)

/-- **All that a step does to the outbox.** -/
theorem outbox_step (hs : Transition.Reachable (logistics Q cfg) s)
    (h : step cfg s a = some s') : OutboxStep s a s' := by
  by_cases ha : ∀ i ch, a ≠ .exec i ch
  · exact .same (by rw [step_db_eq h ha])
  obtain ⟨i, ch, rfl⟩ : ∃ i ch, a = .exec i ch := by
    simpa only [ne_eq, not_forall, not_not] using ha
  obtain ⟨call, e, k, hi, hsh, -⟩ := Pool.advance_eq_some h
  have hguar := guar_of_next hs hi
  have hsh : s'.shared = (perform cfg ch e s.shared).2 := hsh
  cases e with
  | transaction t =>
      simp only [perform] at hsh
      split at hsh
      · exact .same (by rw [hsh])
      next res db' hrun =>
      have hdb : s'.shared.db = db' := by rw [hsh]
      cases Transaction.run_ok hguar.2 hrun with
      | nothing heq => exact .same (by rw [hdb, heq])
      | driver driver heq _ => exact .same (by rw [hdb, heq]; rfl)
      | created dto c p order ht htx =>
          obtain ⟨hfree, hnew, -, -, ⟨row, hrow, -⟩, -, -, -, hout⟩ :=
            OrdersService.createOrderTx_ok htx
          -- the event is written in the transaction of its order
          refine .created hfree ⟨row, ?_⟩ hnew (by rw [hdb, hout])
          rw [Sys.order, hdb]
          exact hrow
      | moved o m actor _ _ _ hmove =>
          obtain ⟨row, tk, -, -, -, -, -, -, -, hout⟩ := Db.move_spec hmove
          exact .same (by rw [hdb, hout])
  | saveOutbox row =>
      obtain ⟨rfl, row', hrow, hsame⟩ := hguar
      exact .saved rfl hi hrow hsame (by rw [hsh]; rfl)
  | softDelete o =>
      have hdb : s'.shared.db = OrdersService.softDeleteRow ch o s.shared.db := by rw [hsh]; rfl
      unfold OrdersService.softDeleteRow at hdb
      split at hdb <;> exact .same (by rw [hdb])
  | updateDriverLocation d lat lng =>
      simp only [perform] at hsh
      split at hsh
      · exact .same (by rw [hsh])
      · exact .same (by rw [hsh]; rfl)
  | addJob queue j data delay => cases queue <;> exact .same (by rw [hsh]; rfl)
  | removeJob queue j =>
      simp only [perform] at hsh
      split at hsh
      · exact .same (by rw [hsh])
      · cases queue <;> exact .same (by rw [hsh]; rfl)
  | finishJob queue j ok => cases queue <;> exact .same (by rw [hsh]; rfl)
  | _ => exact .same (by rw [hsh]; rfl)

/-- An order is not lost from the table. -/
theorem order_stays (hs : Transition.Reachable (logistics Q cfg) s) (h : step cfg s a = some s')
    (ho : ∃ row, s.order o = some row) : ∃ row, s'.order o = some row := by
  obtain ⟨row, hrow⟩ := ho
  obtain ⟨row', hrow', -⟩ := (rely_of_step hs h).db.orders o row hrow
  exact ⟨row', hrow'⟩

/-- The order an outbox row is about is stored. -/
theorem order_of_row (hs : Transition.Reachable (logistics Q cfg) s) :
    ∀ id row, s.shared.db.outbox.find id = some row → row.payload = some o →
      ∃ order, s.order o = some order := by
  refine hs.invariant (P := fun s => ∀ id row, s.shared.db.outbox.find id = some row →
    row.payload = some o → ∃ order, s.order o = some order) ?_ ?_
  · intro s hinit id row hrow
    rw [hinit.outbox, Table.find_empty] at hrow
    cases hrow
  · intro s a s' hs ih hstep id row hrow hpayload
    cases outbox_step hs hstep with
    | same h =>
        rw [h] at hrow
        exact order_stays hs hstep (ih id row hrow hpayload)
    | created _ horder _ h =>
        rw [h, Table.find_put] at hrow
        split at hrow
        · obtain rfl := Option.some.inj hrow
          obtain rfl := Option.some.inj hpayload
          exact horder
        · exact order_stays hs hstep (ih id row hrow hpayload)
    | @saved i ch row₁ row₀ k _ _ hrow₀ hsame h =>
        rw [h, Table.find_put] at hrow
        split at hrow
        -- a row that is saved again is still about the same order
        · obtain rfl := Option.some.inj hrow
          exact order_stays hs hstep (ih _ row₀ hrow₀ (hsame.payload.symm.trans hpayload))
        · exact order_stays hs hstep (ih id row hrow hpayload)

/-- The order whose job is added is stored. -/
theorem order_of_add {i : ℕ} {call : Call} {data : JobData} {delay : ℕ}
    {k : Except Error JobId → Prog Response} (hs : Transition.Reachable (logistics Q cfg) s)
    (hi : s.threads.lookup i = some ⟨call, .op (.addJob .DISPATCH_QUEUE (.assignDriver o) data
      delay) k⟩) : ∃ row, s.order o = some row := by
  obtain ⟨-, hknown⟩ := guar_of_next hs hi
  -- known as a row, or from an outbox row that names it
  rcases hknown o rfl with hrow | ⟨id, row, hrow, hpayload⟩
  · exact hrow
  · exact order_of_row hs id row hrow hpayload

end LogisticsDispatch
