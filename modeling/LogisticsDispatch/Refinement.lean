/-
The orders of the system lead the lives of the abstract model.

`order_step` says all that one step of the system does to one order: nothing, it
creates it, it marks it as deleted, or it makes one move of its life, in a transaction
that belongs to the call. `ledger` reads off a run what a bookkeeper would have written
down about an order, and `ledger_reachable` shows that it is a ledger of the abstract
model. Every property of all lives is so a property of every order in every run.
-/
import LogisticsDispatch.ProgramSafety

set_option autoImplicit false

namespace LogisticsDispatch

open OrderStatus Lifecycle Resumable

variable {Q : Type} [JobQueue Q JobId JobData] {cfg : DispatchConfig} {s s' : Sys Q} {a : Action}
  {o : OrderId}

/-! ## One step, seen by one order -/

/-- All that a step can do to an order. -/
inductive OrderStep (cfg : DispatchConfig) (s : Sys Q) (a : Action) (s' : Sys Q) (o : OrderId) :
    Prop
  | same (horder : s'.order o = s.order o) (hhistory : s'.history o = s.history o)
  -- the columns of the row, its first history row, and the outbox event next to them
  | created {i : ℕ} {ch : Choice} {dto : CreateOrderDto} {customerId : UserId}
      {key : Option String} {row : Order} (ha : a = .exec i ch)
      (hcall : s.call i = some (.request (.createOrder dto customerId key)))
      (hnone : s.order o = none) (hrow : s'.order o = some row) (hticket : row.ticket = .new)
      (hlive : row.deletedAt = none)
      (hhistory : s'.history o = s.history o ++ [⟨o, none, PENDING, customerId.text⟩])
      (hevent : ∃ id row, s'.shared.db.outbox.find id = some row ∧
        row.eventType = "dispatch.trigger" ∧ row.payload = some o ∧ row.status = .PENDING)
  | deleted {i : ℕ} {ch : Choice} {row : Order} (ha : a = .exec i ch)
      (hcall : s.call i = some (.request (.softDelete o))) (hrow : s.order o = some row)
      (hrow' : s'.order o = some { row with deletedAt := some ch.now, updatedAt := ch.now })
      (hhistory : s'.history o = s.history o)
  -- the move, the transaction it is made in, and all that the transaction knew of the row
  | moved {i : ℕ} {ch : Choice} {call : Call} {t : Transaction} {m : Move DriverId}
      {actor : String} {row : Order} {tk : Ticket DriverId} (ha : a = .exec i ch)
      (hcall : s.call i = some call) (hnext : s.next i = some (.transaction t))
      (hbelongs : t.BelongsTo call) (hmakes : t.Makes o m actor)
      (hoffer : ∀ d, m = .offer d → OfferedTo ch s.shared.db row t d)
      (hchecked : t.Checked s.shared.db)
      (hcopy : ∀ order, t.copy = some order → row.version = order.version)
      (hrow : s.order o = some row) (hlive : row.deletedAt = none)
      (hticket : m.apply cfg.maxDispatchAttempts row.ticket = some tk)
      (hrow' : s'.order o = some { row.withTicket tk with updatedAt := ch.now })
      (hhistory : s'.history o = s.history o ++ [⟨o, some row.orderStatus, tk.status, actor⟩])

/-- Only transactions and soft deletion write orders or history. -/
theorem perform_orders {ch : Choice} {e : Effect} {sh : Shared Q}
    (ht : ∀ t, e ≠ .transaction t) (hd : ∀ o, e ≠ .softDelete o) :
    (perform cfg ch e sh).2.db.orders = sh.db.orders ∧
      (perform cfg ch e sh).2.db.history = sh.db.history := by
  cases e with
  | transaction t => exact absurd rfl (ht t)
  | softDelete o => exact absurd rfl (hd o)
  | updateDriverLocation d lat lng =>
      simp only [perform]
      split <;> exact ⟨rfl, rfl⟩
  | addJob queue j data delay => cases queue <;> exact ⟨rfl, rfl⟩
  | removeJob queue j =>
      simp only [perform]
      split
      · exact ⟨rfl, rfl⟩
      · cases queue <;> exact ⟨rfl, rfl⟩
  | finishJob queue j ok => cases queue <;> exact ⟨rfl, rfl⟩
  | _ => exact ⟨rfl, rfl⟩

/-- A step with another action than going on with a call leaves the database alone. -/
theorem step_db_eq (h : step cfg s a = some s') (ha : ∀ i ch, a ≠ .exec i ch) :
    s'.shared.db = s.shared.db := by
  cases a with
  | invoke i req =>
      obtain ⟨-, hsh, -⟩ := Pool.spawn_eq_some h
      rw [hsh]
  | exec i ch => exact absurd rfl (ha i ch)
  | fail i =>
      simp only [step, Option.ite_none_right_eq_some] at h
      obtain ⟨l, e, k, -, hsh, -⟩ := Pool.interrupt_eq_some h.2
      rw [hsh]
  | deliver i queue jobId =>
      simp only [step] at h
      split at h
      · obtain ⟨-, hsh, -⟩ := Pool.spawn_eq_some h
        rw [hsh, Shared.setQueue_db]
      · cases h
  | promote queue jobId =>
      obtain rfl := Option.some.inj h
      exact Shared.setQueue_db ..
  | evict queue jobId =>
      obtain rfl := Option.some.inj h
      exact Shared.setQueue_db ..
  | expire key =>
      obtain rfl := Option.some.inj h
      rfl

omit [JobQueue Q JobId JobData] in
/-- A step that leads to a database with the same row and the same history. -/
theorem OrderStep.of_db {db : Db} (hdb : s'.shared.db = db)
    (horder : db.orders.find o = s.order o) (hhistory : db.historyOf o = s.history o) :
    OrderStep cfg s a s' o := by
  refine .same ?_ ?_
  · rw [Sys.order, hdb]
    exact horder
  · rw [Sys.history, hdb]
    exact hhistory

/-- What a transaction does to an order. -/
theorem order_step_of_transaction {i : ℕ} {ch : Choice} {call : Call} {t : Transaction}
    {k : Except Error t.Result → Prog Response} (hs : Transition.Reachable (logistics Q cfg) s)
    (hi : s.threads.lookup i = some ⟨call, .op (.transaction t) k⟩)
    (hsh : s'.shared = (perform cfg ch (.transaction t) s.shared).2) (o : OrderId) :
    OrderStep cfg s (.exec i ch) s' o := by
  have hcall := Sys.call_of_lookup hi
  obtain ⟨hbelongs, hchecked⟩ := guar_of_next hs hi
  simp only [perform] at hsh
  split at hsh
  -- a transaction that throws is rolled back
  · exact .of_db (by rw [hsh]) rfl rfl
  next res db' hrun =>
  have hdb : s'.shared.db = db' := by rw [hsh]
  cases Transaction.run_ok hchecked hrun with
  | nothing heq => exact .of_db hdb (by rw [heq]; rfl) (by rw [heq]; rfl)
  | driver driver heq _ => exact .of_db hdb (by rw [heq]; rfl) (by rw [heq]; rfl)
  | created dto c p order ht htx =>
      subst ht
      obtain ⟨key, rfl⟩ := hbelongs
      obtain ⟨hfree, -, -, -, ⟨row, hrow, hticket, hlive, -⟩, hhistory, hother, -, hout⟩ :=
        OrdersService.createOrderTx_ok htx
      -- the new order, or another one
      by_cases ho : o = ch.orderId
      · subst ho
        refine .created rfl hcall hfree ?_ hticket hlive ?_ ?_
        · rw [Sys.order, hdb]
          exact hrow
        · rw [Sys.history, hdb]
          exact hhistory
        · rw [hdb, hout]
          exact ⟨ch.outboxId, _, Table.find_put_self _ _, rfl, rfl, rfl⟩
      · exact .of_db hdb (hother o ho).1 (hother o ho).2
  | moved o₁ m actor hmakes hoffer hcopy hmove =>
      obtain ⟨row, tk, hrow, hlive, hticket, hrow', hhistory, hother, -⟩ := Db.move_spec hmove
      by_cases ho : o = o₁
      · subst ho
        refine .moved rfl hcall (Sys.next_of_lookup hi) hbelongs hmakes
          (fun d hm => hoffer d row hm hrow) hchecked (fun order h => hcopy order row h hrow)
          hrow hlive hticket ?_ ?_
        · rw [Sys.order, hdb]
          exact hrow'
        · rw [Sys.history, hdb]
          exact hhistory
      · exact .of_db hdb (hother o ho).1 (hother o ho).2

/-- What a deletion does to an order. -/
theorem order_step_of_softDelete {i : ℕ} {ch : Choice} {call : Call} {o₁ : OrderId}
    {k : Except Error Unit → Prog Response} (hs : Transition.Reachable (logistics Q cfg) s)
    (hi : s.threads.lookup i = some ⟨call, .op (.softDelete o₁) k⟩)
    (hsh : s'.shared = (perform cfg ch (.softDelete o₁) s.shared).2) (o : OrderId) :
    OrderStep cfg s (.exec i ch) s' o := by
  have hcall := Sys.call_of_lookup hi
  obtain rfl : call = .request (.softDelete o₁) := guar_of_next hs hi
  have hdb : s'.shared.db = OrdersService.softDeleteRow ch o₁ s.shared.db := by rw [hsh]; rfl
  unfold OrdersService.softDeleteRow at hdb
  split at hdb
  -- no row to update
  · exact .of_db hdb rfl rfl
  · next row hrow =>
      have hid : row.id = o₁ := Table.key_of_find hrow
      by_cases ho : o = o₁
      · subst ho
        refine .deleted rfl hcall hrow ?_ ?_
        · rw [Sys.order, hdb]
          exact Table.find_put_of_eq hid
        · rw [Sys.history, hdb]
          rfl
      · refine .of_db hdb (Table.find_put_of_ne ?_) rfl
        intro heq
        exact ho (heq.trans hid)

/-- **All that a step does to an order.** -/
theorem order_step (hs : Transition.Reachable (logistics Q cfg) s) (h : step cfg s a = some s')
    (o : OrderId) : OrderStep cfg s a s' o := by
  by_cases ha : ∀ i ch, a ≠ .exec i ch
  · exact .of_db (step_db_eq h ha) rfl rfl
  obtain ⟨i, ch, rfl⟩ : ∃ i ch, a = .exec i ch := by
    simpa only [ne_eq, not_forall, not_not] using ha
  obtain ⟨call, e, k, hi, hsh, -⟩ := Pool.advance_eq_some h
  have hsh : s'.shared = (perform cfg ch e s.shared).2 := hsh
  by_cases ht : ∃ t, e = .transaction t
  · obtain ⟨t, rfl⟩ := ht
    exact order_step_of_transaction hs hi hsh o
  by_cases hd : ∃ o₁, e = .softDelete o₁
  · obtain ⟨o₁, rfl⟩ := hd
    exact order_step_of_softDelete hs hi hsh o
  -- no other effect writes orders or history
  · obtain ⟨horders, hhistory⟩ : (perform cfg ch e s.shared).2.db.orders = s.shared.db.orders ∧
        (perform cfg ch e s.shared).2.db.history = s.shared.db.history :=
      perform_orders (fun t heq => ht ⟨t, heq⟩) (fun o heq => hd ⟨o, heq⟩)
    rw [← hsh] at horders hhistory
    refine .of_db rfl (by rw [horders]; rfl) ?_
    rw [Db.historyOf, hhistory]
    rfl

/-! ## The books of an order, read off a run -/

/-- The status of an order, if there is one. -/
def Sys.status (s : Sys Q) (o : OrderId) : Option OrderStatus :=
  (s.order o).map Order.orderStatus

/-- The drivers of a round after a step that led from one status to another: an offer
adds its driver, and a new round begins with none. -/
def roundAfter (before after : Option OrderStatus) (driver : Option DriverId)
    (round : List DriverId) : List DriverId :=
  match before, after with
  | some PENDING, some DRIVER_ASSIGNED => driver.toList ++ round
  | none, some _ => []
  | some EXPIRED, some PENDING => []
  | _, _ => round

/-- The offers made and refused in a round after a step that led from one status to
another. -/
def countAfter (before after : Option OrderStatus) (count : ℕ) : ℕ :=
  match before, after with
  | some PENDING, some DRIVER_ASSIGNED => count + 1
  | some DRIVER_ASSIGNED, some PENDING => count + 1
  | some DRIVER_ASSIGNED, some EXPIRED => count + 1
  | none, some _ => 0
  | some EXPIRED, some PENDING => 0
  | _, _ => count

/-- The drivers an order was offered to in the present round of a run, the latest
first: since it was created, or reassigned after it had expired. -/
def offers (o : OrderId) : List (Transition.Move (Sys Q) Action) → List DriverId
  | [] => []
  | m :: tr => roundAfter (m.src.status o) (m.dst.status o)
      ((m.dst.order o).bind Order.assignedDriverId) (offers o tr)

/-- How often an order was assigned, rejected or timed out in the present round of a
run. -/
def turns (o : OrderId) : List (Transition.Move (Sys Q) Action) → ℕ
  | [] => 0
  | m :: tr => countAfter (m.src.status o) (m.dst.status o) (turns o tr)

/-- The books of an order after a run. -/
def ledger (o : OrderId) (tr : List (Transition.Move (Sys Q) Action)) (s : Sys Q) :
    Option (Ledger DriverId) :=
  (s.order o).map fun row => {
    ticket := row.ticket
    trail := (s.history o).map fun r => (r.previousStatus, r.newStatus)
    offers := offers o tr
    turns := turns o tr }

variable {m : Move DriverId} {t t' : Ticket DriverId} {max : ℕ}

/-- Statuses tell which moves made an offer and which one began a round. -/
theorem roundAfter_eq (h : m.apply max t = some t') (round : List DriverId) :
    roundAfter (some t.status) (some t'.status) t'.driver round = m.offersAfter round := by
  -- a refusal leads to `PENDING` or `EXPIRED`, and the round stays in both cases
  have hrefused : ∀ d, m = .timeout d ∨ m = .reject d →
      roundAfter (some t.status) (some t'.status) t'.driver round = m.offersAfter round := by
    intro d hm
    obtain ⟨hs, -, hs', -⟩ := refuse_eq_some hm h
    have hoffers : m.offersAfter round = round := by rcases hm with rfl | rfl <;> rfl
    rw [hs, hs', hoffers]
    split <;> rfl
  cases m with
  | offer d =>
      obtain ⟨hs, -, hs', hd, -⟩ := offer_eq_some h
      rw [hs, hs', hd]
      rfl
  | expire =>
      obtain ⟨hs, hs', -⟩ := expire_eq_some h
      rw [hs, hs']
      rfl
  | timeout d => exact hrefused d (.inl rfl)
  | reject d => exact hrefused d (.inr rfl)
  | accept d =>
      obtain ⟨hs, -, hs', -⟩ := accept_eq_some h
      rw [hs, hs']
      rfl
  | advance newStatus =>
      obtain ⟨hmem, hne, -, hs', -⟩ := advance_eq_some h
      rw [hs']
      show roundAfter (some t.status) (some newStatus) t'.driver round = round
      -- no edge of `ORDER_TRANSITIONS` looks like the beginning of a round
      revert hmem hne
      cases t.status <;> cases newStatus <;> simp [ORDER_TRANSITIONS, roundAfter]
  | reassign =>
      obtain ⟨hs, hs', -⟩ := reassign_eq_some h
      rw [hs, hs']
      rfl

/-- Statuses tell which moves made or refused an offer. -/
theorem countAfter_eq (h : m.apply max t = some t') (count : ℕ) :
    countAfter (some t.status) (some t'.status) count = m.turnsAfter count := by
  have hrefused : ∀ d, m = .timeout d ∨ m = .reject d →
      countAfter (some t.status) (some t'.status) count = m.turnsAfter count := by
    intro d hm
    obtain ⟨hs, -, hs', -⟩ := refuse_eq_some hm h
    have hturns : m.turnsAfter count = count + 1 := by rcases hm with rfl | rfl <;> rfl
    rw [hs, hs', hturns]
    split <;> rfl
  cases m with
  | offer d =>
      obtain ⟨hs, -, hs', -⟩ := offer_eq_some h
      rw [hs, hs']
      rfl
  | expire =>
      obtain ⟨hs, hs', -⟩ := expire_eq_some h
      rw [hs, hs']
      rfl
  | timeout d => exact hrefused d (.inl rfl)
  | reject d => exact hrefused d (.inr rfl)
  | accept d =>
      obtain ⟨hs, -, hs', -⟩ := accept_eq_some h
      rw [hs, hs']
      rfl
  | advance newStatus =>
      obtain ⟨hmem, hne, hne', hs', -⟩ := advance_eq_some h
      rw [hs']
      show countAfter (some t.status) (some newStatus) count = count
      -- the table leads to `DRIVER_ASSIGNED` and `EXPIRED` too, but not for `updateStatus`
      revert hmem hne hne'
      cases t.status <;> cases newStatus <;> simp [ORDER_TRANSITIONS, countAfter]
  | reassign =>
      obtain ⟨hs, hs', -⟩ := reassign_eq_some h
      rw [hs, hs']
      rfl

/-- A step that leaves the status alone leaves the round alone. -/
theorem roundAfter_self (st : Option OrderStatus) (driver : Option DriverId)
    (round : List DriverId) : roundAfter st st driver round = round := by
  rcases st with _ | st
  · rfl
  · cases st <;> rfl

theorem countAfter_self (st : Option OrderStatus) (count : ℕ) :
    countAfter st st count = count := by
  rcases st with _ | st
  · rfl
  · cases st <;> rfl

/-- An order that was not created has no history. -/
theorem history_of_none (hs : Transition.Reachable (logistics Q cfg) s) :
    s.order o = none → s.history o = [] := by
  refine hs.invariant (P := fun s => s.order o = none → s.history o = []) ?_ ?_
  · intro s hinit _
    rw [Sys.history, Db.historyOf, hinit.history]
    rfl
  · intro s a s' hs ih hstep hnone
    cases order_step hs hstep o with
    | same horder hhistory =>
        rw [horder] at hnone
        rw [hhistory]
        exact ih hnone
    | created _ _ _ hrow _ _ _ =>
        rw [hrow] at hnone
        cases hnone
    | deleted _ _ _ hrow' _ =>
        rw [hrow'] at hnone
        cases hnone
    | moved _ _ _ _ _ _ _ _ _ _ _ hrow' _ =>
        rw [hrow'] at hnone
        cases hnone

/-- **Every order leads a life of the abstract model.** -/
theorem ledger_reachable {tr : List (Transition.Move (Sys Q) Action)}
    (run : Transition.Run (logistics Q cfg) tr s) (o : OrderId) :
    Transition.Reachable (life cfg.maxDispatchAttempts) (ledger o tr s) := by
  -- by induction on the run: every step stutters or is a move of the model
  refine run.simulates (V := ledger o) ?_ ?_
  · intro s hinit
    show ledger o [] s = none
    rw [ledger, Sys.order, hinit.orders, Table.find_empty]
    rfl
  · intro tr s a s' run hstep
    have hs : Transition.Reachable (logistics Q cfg) s := run.reachable
    cases order_step hs hstep o with
    | same horder hhistory =>
        left
        have hstatus : s'.status o = s.status o := by rw [Sys.status, horder]; rfl
        simp only [ledger, offers, turns, horder, hhistory, hstatus, roundAfter_self,
          countAfter_self]
    | deleted _ _ hrow hrow' hhistory =>
        left
        have hstatus : s'.status o = s.status o := by rw [Sys.status, Sys.status, hrow, hrow']; rfl
        simp only [ledger, offers, turns, hrow, hrow', hhistory, hstatus, roundAfter_self,
          countAfter_self, Option.map_some]
        rfl
    | created _ _ hnone hrow hticket _ hhistory =>
        right
        refine ⟨none, ?_⟩
        -- the ledger begins with the first history row, so there must be none before it
        have hempty := history_of_none hs hnone
        have hbefore : ledger o tr s = none := by rw [ledger, hnone]; rfl
        have hafter : ledger o (⟨s, a, s'⟩ :: tr) s' = some .new := by
          have hsrc : s.status o = none := by rw [Sys.status, hnone]; rfl
          have hdst : s'.status o = some PENDING := by
            rw [Sys.status, hrow]
            exact congrArg (fun t => some t.status) hticket
          simp only [ledger, offers, turns, hsrc, hdst, hrow, hticket, hhistory, hempty,
            Option.map_some]
          rfl
        rw [hbefore, hafter]
        rfl
    | @moved i ch call t m actor row tk _ _ _ _ _ _ _ _ hrow _ hticket hrow' hhistory =>
        right
        refine ⟨some m, ?_⟩
        -- all four parts of the ledger follow the move
        have hbefore : ∃ l, ledger o tr s = some l ∧ l.ticket = row.ticket ∧
            ledger o (⟨s, a, s'⟩ :: tr) s' = some (l.after m tk) := by
          refine ⟨_, by rw [ledger, hrow]; rfl, rfl, ?_⟩
          have hsrc : s.status o = some row.ticket.status := by rw [Sys.status, hrow]; rfl
          have hdst : s'.status o = some tk.status := by rw [Sys.status, hrow']; rfl
          have hround := roundAfter_eq hticket (offers o tr)
          have hcount := countAfter_eq hticket (turns o tr)
          simp only [ledger, offers, turns, hsrc, hdst, hrow', hhistory, hcount,
            Option.map_some, List.map_append]
          refine congrArg some (Ledger.ext rfl rfl ?_ rfl)
          exact hround
        obtain ⟨l, hl, hlticket, hafter⟩ := hbefore
        rw [hl, hafter]
        show (m.apply cfg.maxDispatchAttempts l.ticket).map _ = _
        rw [hlticket, hticket]
        rfl

/-- The ledger of an order that was created, field by field. -/
theorem books_of_order {tr : List (Transition.Move (Sys Q) Action)} {row : Order}
    (run : Transition.Run (logistics Q cfg) tr s) (hrow : s.order o = some row) :
    ∃ l : Ledger DriverId,
      Transition.Reachable (life cfg.maxDispatchAttempts) (some l) ∧ l.ticket = row.ticket ∧
      l.trail = (s.history o).map (fun r => (r.previousStatus, r.newStatus)) ∧
      l.offers = offers o tr ∧ l.turns = turns o tr := by
  have hreach := ledger_reachable run o
  rw [ledger, hrow] at hreach
  exact ⟨_, hreach, rfl, rfl, rfl, rfl⟩

end LogisticsDispatch
