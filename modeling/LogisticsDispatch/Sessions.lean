/-
Calls at the level of SQL statements.

A call is a program of effects (`Services.lean`), each of them one step. Here its transactions are
opened: `expand` puts their statements in their place, between `startTransaction` and
`commitTransaction` or `rollbackTransaction`. So the statements of several transactions interleave,
with the rows that each of them holds as a part of the state. A statement, and a write outside a
transaction, waits as long as another session holds its row.

`no_deadlock` is about all calls there are: whatever calls are made, no sessions wait for each
other in a circle. Every transaction locks one row before anything else, and after that waits for
no other: it takes drivers with `skip_locked`, and writes only what it holds.
-/
import LogisticsDispatch.System
import LogisticsDispatch.Statements

set_option autoImplicit false

namespace LogisticsDispatch

open OrderStatus Resumable
open RowLocks (Rules Orderly orderly_perform_bind)

/-! ## Operations -/

/-- What a session asks the database, or one of the other stores, for. -/
inductive Op
  | plain (e : Effect)
  | startTransaction
  | statement (s : Statement)
  | commitTransaction (t : Transaction) (result : t.Result)
  | rollbackTransaction

/-- What an operation answers with. -/
@[reducible] def Op.Answer : Op → Type
  | plain e => e.Resp
  | startTransaction => Unit
  | statement s => s.Answer
  | commitTransaction .. => Unit
  | rollbackTransaction => Unit

/-- A program of operations. -/
abbrev SessionProg (α : Type) := Program Op Op.Answer Error α

/-- The statements of a transaction, up to its commit or rollback, and what goes on with its
result. -/
def inside {α : Type} (t : Transaction) :
    TxProg t.Result → (Except Error t.Result → SessionProg α) → SessionProg α
  | .ret a, g => .op (.commitTransaction t a) fun r => g (r.map fun _ => a)
  | .fail err, g => .op .rollbackTransaction fun _ => g (.error err)
  | .op s k, g => .op (.statement s) fun r => inside t (k r) g

/-- An effect as a session performs it. -/
def expandEffect {α : Type} (cfg : DispatchConfig) :
    (e : Effect) → (Except Error e.Resp → SessionProg α) → SessionProg α
  | .transaction t, g =>
      match Manager.body cfg t with
      | none => .op (.plain (.transaction t)) g
      | some p => .op .startTransaction fun
          | .ok _ => inside t p g
          | .error err => g (.error err)
  | e, g => .op (.plain e) g

/-- A call as a session performs it. -/
def expand {α : Type} (cfg : DispatchConfig) : Prog α → SessionProg α
  | .ret a => .ret a
  | .fail err => .fail err
  | .op e k => expandEffect cfg e fun r => expand cfg (k r)

/-- The row that a write outside a transaction waits for. -/
def Effect.waits : Effect → Option Row
  | softDelete orderId => some (.order orderId)
  | saveDriver driver => some (.driver driver.id)
  | updateDriverLocation driverId _ _ => some (.driver driverId)
  | _ => none

/-- The row that an operation waits for. -/
def Op.waits : Op → Option Row
  | plain e => e.waits
  | statement s => s.waits
  | _ => none

/-! ## Sessions -/

/-- A call that is under way: what is left of it, and its transaction. -/
structure Session (α : Type) where
  rest : SessionProg α
  tx : OpenTx

/-- What a session finds: what is committed, and the rows that the others hold. -/
structure World (Q : Type) where
  shared : Shared Q
  locked : List Row

section Sessions

variable {Q : Type} [JobQueue Q JobId JobData]

/-- Perform an operation of a session: the answer, the transaction it leaves, and what it leaves
of the shared state. -/
def Op.perform (cfg : DispatchConfig) (ch : Choice) (w : World Q) :
    (op : Op) → OpenTx → Except Error op.Answer × OpenTx × Shared Q
  | plain e, tx =>
      let res := LogisticsDispatch.perform cfg ch e w.shared
      (res.1, tx, res.2)
  | startTransaction, _ => (.ok (), .begun, w.shared)
  | statement s, tx =>
      let res := s.exec ch w.locked w.shared.db tx
      (.ok res.1, res.2, w.shared)
  | commitTransaction .., tx => (.ok (), .begun, { w.shared with db := tx.writes w.shared.db })
  | rollbackTransaction, _ => (.ok (), .begun, w.shared)

/-- The transaction of a session that loses its connection at an operation: after a statement it
is still to be rolled back, and at either end there is none. -/
def Op.lost : Op → OpenTx → OpenTx
  | plain _, tx => tx
  | statement _, tx => tx
  | _, _ => .begun

variable (Q) in
/-- The shared state, and the sessions by their numbers. -/
structure Sessions where
  shared : Shared Q
  sessions : AList fun _ : ℕ => Session Response

namespace Sessions

/-- The rows that a session holds. -/
def heldBy (s : Sessions Q) (i : ℕ) : List Row :=
  match s.sessions.lookup i with
  | some session => session.tx.held
  | none => []

/-- The rows that the other sessions hold. -/
def lockedBeside (s : Sessions Q) (i : ℕ) : List Row :=
  (s.sessions.entries.filter fun en => en.1 ≠ i).flatMap fun en => en.2.tx.held

/-- What session `i` finds. -/
def world (s : Sessions Q) (i : ℕ) : World Q := ⟨s.shared, s.lockedBeside i⟩

/-- An operation of session `i` waits for another session. -/
def blocked (s : Sessions Q) (i : ℕ) (op : Op) : Bool :=
  op.waits.any fun row => decide (row ∈ s.lockedBeside i)

/-- What is left of session `i`. -/
def restOf (s : Sessions Q) (i : ℕ) : Option (SessionProg Response) :=
  (s.sessions.lookup i).map Session.rest

end Sessions

/-- What happens at the database: a call is made, a session performs its next operation, or loses
its connection. -/
inductive DbAction
  | start (i : ℕ) (p : Prog Response)
  | perform (i : ℕ) (ch : Choice)
  | lose (i : ℕ)

/-- One step. -/
def Sessions.step (cfg : DispatchConfig) (s : Sessions Q) : DbAction → Option (Sessions Q)
  | .start i p =>
      if i ∈ s.sessions then none
      else some { s with sessions := s.sessions.insert i ⟨expand cfg p, .begun⟩ }
  | .perform i ch =>
      match s.sessions.lookup i with
      | some ⟨.op e k, tx⟩ =>
          if s.blocked i e then none
          else
            let res := e.perform cfg ch (s.world i) tx
            some { shared := res.2.2, sessions := s.sessions.insert i ⟨k res.1, res.2.1⟩ }
      | _ => none
  | .lose i =>
      match s.sessions.lookup i with
      | some ⟨.op e k, tx⟩ =>
          some { s with
            sessions := s.sessions.insert i ⟨k (.error .Unavailable), e.lost tx⟩ }
      | _ => none

variable (Q) in
/-- Any calls over any stores. -/
def database (cfg : DispatchConfig) : Transition.System (Sessions Q) DbAction where
  Init s := s.sessions = ∅
  step := Sessions.step cfg

end Sessions

/-! ## The transactions are orderly -/

/-- What statements do to locks. -/
def statementRules : Rules Statement Statement.Answer Error Row where
  waits := Statement.waits
  answers
    | .lockOrder orderId, .ok order => ∀ row ∈ order, row.id = orderId
    | .lockDriver driverId _, .ok driver => ∀ row ∈ driver, row.id = driverId
    | _, _ => True
  after
    | s, .ok a, held => (s.takes a).toList ++ held
    | _, .error _, held => held

/-- What operations do to locks. -/
def operationRules : Rules Op Op.Answer Error Row where
  waits := Op.waits
  answers
    | .statement s, r => statementRules.answers s r
    | _, _ => True
  after
    | .plain _, _, held => held
    | .statement s, r, held => statementRules.after s r held
    | _, _, _ => []

namespace Manager

section Orderly

variable {cfg : DispatchConfig} {orderId : OrderId} {driverId : DriverId} {held : List Row}
  {α : Type} {A : α → List Row → Prop}

/-- A statement that need not wait, and what goes on with its answer. -/
theorem orderly_query_bind {s : Statement} {g : s.Answer → TxProg α}
    (hs : ∀ row, s.waits = some row → held = [] ∨ row ∈ held)
    (hg : ∀ a, statementRules.answers s (.ok a) →
      Orderly statementRules A (g a) ((s.takes a).toList ++ held)) :
    Orderly statementRules A (query s >>= g) held := orderly_perform_bind hs hg

/-- A transaction that locks an order first waits for it holding nothing. -/
theorem orderly_lockOrder {g : Option Order → TxProg α}
    (hnone : Orderly statementRules A (g none) [])
    (hsome : ∀ order, order.id = orderId →
      Orderly statementRules A (g (some order)) [.order order.id]) :
    Orderly statementRules A (query (.lockOrder orderId) >>= g) [] := by
  refine orderly_query_bind (fun _ _ => .inl rfl) fun order horder => ?_
  cases order with
  | none => exact hnone
  | some order =>
      have hid : order.id = orderId := horder order rfl
      have hall := hsome order hid
      rw [hid] at hall
      exact hall

/-- An order that is held is saved without waiting. -/
theorem orderly_saveWithHistory {order : Order} {previousStatus : Option OrderStatus}
    {actorId : String} (hheld : Row.order order.id ∈ held) :
    Orderly statementRules (fun _ _ => True) (saveWithHistory order previousStatus actorId)
      held := by
  refine orderly_query_bind ?_ fun _ _ => ⟨?_, fun r _ => ?_⟩
  · intro row hrow
    obtain rfl := Option.some.inj hrow
    exact .inr hheld
  · intro row hrow
    obtain rfl := Option.some.inj hrow
    exact .inr (List.mem_append_right _ hheld)
  · cases r with
    | ok _ => trivial
    | error _ => trivial

theorem orderly_saveWithHistory_bind {order : Order} {previousStatus : Option OrderStatus}
    {actorId : String} (a : α) (hheld : Row.order order.id ∈ held) :
    Orderly statementRules (fun _ _ => True)
      (saveWithHistory order previousStatus actorId >>= fun _ => pure a) held :=
  (orderly_saveWithHistory hheld).bind fun _ _ _ => trivial

theorem orderly_expireOrder :
    Orderly statementRules (fun _ _ => True) (expireOrder orderId) [] := by
  refine orderly_lockOrder trivial fun order _ => ?_
  dsimp only
  split
  · trivial
  · exact orderly_saveWithHistory List.mem_cons_self

theorem orderly_handleDispatchTimeout :
    Orderly statementRules (fun _ _ => True) (handleDispatchTimeout cfg orderId driverId) [] := by
  refine orderly_lockOrder trivial fun order _ => ?_
  dsimp only
  split
  · trivial
  · split
    · trivial
    · split
      · trivial
      · split
        · exact orderly_saveWithHistory_bind _ List.mem_cons_self
        · exact orderly_saveWithHistory_bind _ List.mem_cons_self

theorem orderly_acceptDispatch :
    Orderly statementRules (fun _ _ => True) (acceptDispatch orderId driverId) [] := by
  refine orderly_lockOrder trivial fun order _ => ?_
  dsimp only
  split
  · trivial
  · split
    · trivial
    · split
      · trivial
      · exact orderly_saveWithHistory_bind _ List.mem_cons_self

theorem orderly_rejectDispatch :
    Orderly statementRules (fun _ _ => True) (rejectDispatch cfg orderId driverId) [] := by
  refine orderly_lockOrder trivial fun order _ => ?_
  dsimp only
  split
  · trivial
  · split
    · trivial
    · split
      · trivial
      · split
        · exact orderly_saveWithHistory_bind _ List.mem_cons_self
        · exact orderly_saveWithHistory_bind _ List.mem_cons_self

/-- **The loop over the candidates never waits**: it takes drivers with `skip_locked`, and writes
the order it holds and the driver it has taken. -/
theorem orderly_tryCandidates {lockedOrder : Order} {attemptedDriverIds : List DriverId}
    {cands : List Driver} (hheld : Row.order lockedOrder.id ∈ held) :
    Orderly statementRules (fun _ _ => True)
      (tryCandidates lockedOrder attemptedDriverIds cands) held := by
  induction cands generalizing held with
  | nil => trivial
  | cons candidate rest ih =>
      rw [tryCandidates]
      split
      · exact ih hheld
      · refine orderly_query_bind (fun row hrow => by cases hrow) fun driver hdriver => ?_
        cases driver with
        | none => exact ih hheld
        | some driver =>
            have hid : driver.id = candidate.id := hdriver driver rfl
            have hdriver : Row.driver driver.id ∈
                ((Statement.lockDriver candidate.id lockedOrder.vehincleType).takes
                  (some driver)).toList := by
              rw [hid]
              exact List.mem_singleton_self _
            refine orderly_query_bind ?_ fun _ _ => orderly_query_bind ?_ fun _ _ =>
              orderly_query_bind ?_ fun _ _ => trivial
            · intro row hrow
              obtain rfl := Option.some.inj hrow
              exact .inr (by simp [hheld])
            · intro row hrow
              obtain rfl := Option.some.inj hrow
              exact .inr (by simp [hdriver])
            · intro row hrow
              obtain rfl := Option.some.inj hrow
              exact .inr (by simp [hheld])

theorem orderly_assignDriverWithLock {cands : List Driver} :
    Orderly statementRules (fun _ _ => True) (assignDriverWithLock orderId cands) [] := by
  refine orderly_lockOrder trivial fun order _ => ?_
  dsimp only
  split
  · trivial
  · exact orderly_tryCandidates List.mem_cons_self

/-- An update that finds no row of its version locks nothing, and is the last statement. -/
theorem orderly_updateVersioned {version : ℕ} {set : Order → Order}
    {history : OrderStatusHistory}
    (hid : history.orderId = orderId) :
    Orderly statementRules (fun _ _ => True) (updateVersioned orderId version set history) [] := by
  refine orderly_query_bind (fun _ _ => .inl rfl) fun affected _ => ?_
  cases affected with
  | false => trivial
  | true =>
      refine orderly_query_bind ?_ fun _ _ => ?_
      · intro row hrow
        obtain rfl := Option.some.inj hrow
        rw [hid]
        exact .inr List.mem_cons_self
      · refine orderly_query_bind (fun row hrow => by cases hrow) fun order _ => ?_
        cases order with
        | none => trivial
        | some order => trivial

theorem orderly_toggleSuspension :
    Orderly statementRules (fun _ _ => True) (toggleSuspension driverId) [] := by
  trivial

/-- Every transaction is orderly. -/
theorem orderly_body {t : Transaction} {p : TxProg t.Result} (h : body cfg t = some p) :
    Orderly statementRules (fun _ _ => True) p [] := by
  cases t with
  | createOrder => cases h
  | promoteToDriver => cases h
  | assignDriverWithLock orderId cands =>
      obtain rfl := Option.some.inj h
      exact orderly_assignDriverWithLock
  | expireOrder orderId =>
      obtain rfl := Option.some.inj h
      exact orderly_expireOrder
  | handleDispatchTimeout orderId driverId =>
      obtain rfl := Option.some.inj h
      exact orderly_handleDispatchTimeout
  | acceptDispatch orderId driverId =>
      obtain rfl := Option.some.inj h
      exact orderly_acceptDispatch
  | rejectDispatch orderId driverId =>
      obtain rfl := Option.some.inj h
      exact orderly_rejectDispatch
  | updateStatus orderId order newStatus user =>
      obtain rfl := Option.some.inj h
      exact orderly_updateVersioned rfl
  | reassignOrder orderId order user =>
      obtain rfl := Option.some.inj h
      exact orderly_updateVersioned rfl
  | toggleSuspension driverId =>
      obtain rfl := Option.some.inj h
      exact orderly_toggleSuspension

end Orderly

end Manager

/-! ## Sessions are orderly -/

section Expanded

variable {cfg : DispatchConfig} {α : Type}

/-- Any answer may be given, and any rows held, at the end. -/
abbrev OrderlySession (p : SessionProg α) (held : List Row) : Prop :=
  Orderly operationRules (fun _ _ => True) p held

/-- A transaction of a session is orderly, and what comes after it holds nothing. -/
theorem orderly_inside {t : Transaction} {p : TxProg t.Result} {held : List Row}
    {g : Except Error t.Result → SessionProg α}
    (hp : Orderly statementRules (fun _ _ => True) p held)
    (hg : ∀ r, OrderlySession (g r) []) : OrderlySession (inside t p g) held := by
  induction p generalizing held with
  | ret a => exact ⟨fun _ hrow => (by cases hrow), fun r _ => hg _⟩
  | fail err => exact ⟨fun _ hrow => (by cases hrow), fun r _ => hg _⟩
  | op s k ih => exact ⟨hp.1, fun r hr => ih r (hp.2 r hr)⟩

theorem orderly_expandEffect {e : Effect} {g : Except Error e.Resp → SessionProg α}
    (hg : ∀ r, OrderlySession (g r) []) : OrderlySession (expandEffect cfg e g) [] := by
  unfold expandEffect
  split
  · next t g =>
      split
      · exact ⟨fun _ _ => .inl rfl, fun r _ => hg r⟩
      · next p hp =>
          refine ⟨fun _ hrow => (by cases hrow), fun r _ => ?_⟩
          cases r with
          | ok _ => exact orderly_inside (Manager.orderly_body hp) hg
          | error err => exact hg _
  · exact ⟨fun _ _ => .inl rfl, fun r _ => hg r⟩

/-- **Every call is orderly**, whatever it does between its transactions. -/
theorem orderly_expand (p : Prog α) : OrderlySession (expand cfg p) [] := by
  induction p with
  | ret a => trivial
  | fail err => trivial
  | op e k ih => exact orderly_expandEffect ih

end Expanded

/-! ## Runs -/

namespace Sessions

section Runs

variable {Q : Type} {cfg : DispatchConfig} {ch : Choice} {s s' : Sessions Q} {i j : ℕ} {row : Row}
  {session : Session Response} {op : Op} {tx : OpenTx}

/-- A session waits for another: its next operation needs a row that the other holds. -/
def WaitsFor (s : Sessions Q) : ℕ → ℕ → Prop :=
  RowLocks.WaitsFor operationRules s.restOf s.heldBy

theorem heldBy_of_lookup (h : s.sessions.lookup i = some session) :
    s.heldBy i = session.tx.held := by
  rw [heldBy, h]

/-- What the others hold. -/
theorem mem_lockedBeside : row ∈ s.lockedBeside i ↔ ∃ j, j ≠ i ∧ row ∈ s.heldBy j := by
  simp only [lockedBeside, List.mem_flatMap, List.mem_filter, decide_eq_true_eq]
  constructor
  · rintro ⟨⟨j, session⟩, ⟨hmem, hne⟩, hrow⟩
    have hlookup := AList.mem_lookup_iff.mpr hmem
    exact ⟨j, hne, by rwa [heldBy_of_lookup hlookup]⟩
  · rintro ⟨j, hne, hrow⟩
    unfold heldBy at hrow
    split at hrow
    · next session hlookup =>
        exact ⟨⟨j, session⟩, ⟨AList.mem_lookup_iff.mp hlookup, hne⟩, hrow⟩
    · cases hrow

/-- What the sessions hold after one of them is put in. -/
theorem heldBy_insert (hs : s'.sessions = s.sessions.insert i session) (j : ℕ) :
    s'.heldBy j = if j = i then session.tx.held else s.heldBy j := by
  unfold heldBy
  rw [hs]
  by_cases hji : j = i
  · rw [if_pos hji, hji, AList.lookup_insert]
  · rw [if_neg hji, AList.lookup_insert_ne hji]

/-- A statement takes a row only from nobody: it has waited for it, or skips what is locked. -/
theorem takes_free {locked : List Row} {db : Db} {st : Statement}
    (hfree : ∀ row, st.waits = some row → row ∉ locked)
    (hrow : st.takes (st.answer locked db) = some row) : row ∉ locked := by
  cases st with
  | lockDriver driverId vehincleType =>
      simp only [Statement.takes, Statement.answer] at hrow
      split at hrow
      · cases hrow
      · next hnot =>
          obtain ⟨_, _, rfl⟩ := Option.map_eq_some_iff.mp hrow
          exact hnot
  | lockOrder orderId =>
      obtain ⟨_, _, rfl⟩ := Option.map_eq_some_iff.mp hrow
      exact hfree _ rfl
  | findOrder orderId => cases hrow
  | updateOrder orderId version set =>
      simp only [Statement.takes] at hrow
      split at hrow
      · exact hfree _ hrow
      · cases hrow
  | saveOrder order => exact hfree _ hrow
  | referenceDriver driverId => exact hfree _ hrow
  | insertHistory history => exact hfree _ hrow
  | saveDriver driver => exact hfree _ hrow

/-- What a statement answers is what it may answer. -/
theorem answers_exec (ch : Choice) (locked : List Row) (db : Db) (st : Statement) (tx : OpenTx) :
    statementRules.answers st (.ok (st.exec ch locked db tx).1) := by
  cases st with
  | lockOrder orderId => exact fun row hrow => Db.id_of_findOrder hrow
  | lockDriver driverId vehincleType =>
      intro row hrow
      simp only [Statement.exec, Statement.answer] at hrow
      split at hrow
      · cases hrow
      · simp only [DispatchService.lockDriver, List.not_mem_nil, if_false] at hrow
        exact Table.key_of_find (Option.filter_eq_some_iff.mp hrow).1
  | _ => trivial

/-- What an operation may answer, and the locks it leaves, are those of the rules. -/
theorem perform_rules [JobQueue Q JobId JobData] (cfg : DispatchConfig) (ch : Choice)
    (w : World Q) (op : Op) (tx : OpenTx) :
    operationRules.answers op (op.perform cfg ch w tx).1 ∧
      (op.perform cfg ch w tx).2.1.held =
        operationRules.after op (op.perform cfg ch w tx).1 tx.held := by
  cases op with
  | plain e => exact ⟨trivial, rfl⟩
  | startTransaction => exact ⟨trivial, rfl⟩
  | statement st => exact ⟨answers_exec ch w.locked w.shared.db st tx, rfl⟩
  | commitTransaction => exact ⟨trivial, rfl⟩
  | rollbackTransaction => exact ⟨trivial, rfl⟩

/-- An operation that loses its connection. -/
theorem lost_rules (op : Op) (tx : OpenTx) (err : Error) :
    operationRules.answers op (.error err) ∧
      (op.lost tx).held = operationRules.after op (.error err) tx.held := by
  cases op with
  | plain e => exact ⟨trivial, rfl⟩
  | startTransaction => exact ⟨trivial, rfl⟩
  | statement st =>
      refine ⟨?_, rfl⟩
      cases st <;> trivial
  | commitTransaction => exact ⟨trivial, rfl⟩
  | rollbackTransaction => exact ⟨trivial, rfl⟩

/-- No two sessions hold a row, and every session is orderly from what it holds. -/
structure Tidy (s : Sessions Q) : Prop where
  exclusive : RowLocks.Exclusive s.heldBy
  orderly : ∀ i session, s.sessions.lookup i = some session →
    OrderlySession session.rest session.tx.held

/-- A session that goes on stays orderly, if what it takes nobody else holds. -/
theorem Tidy.insert (h : s.Tidy) (hs : s'.sessions = s.sessions.insert i session)
    (hrest : OrderlySession session.rest session.tx.held)
    (hheld : ∀ row ∈ session.tx.held, row ∈ s.heldBy i ∨ row ∉ s.lockedBeside i) :
    s'.Tidy := by
  -- what the session holds now, no other session does
  have halone : ∀ j, j ≠ i → ∀ row ∈ session.tx.held, row ∉ s.heldBy j := by
    intro j hji row hrow hother
    rcases hheld row hrow with hown | hfree
    · exact hji (h.exclusive j i row hother hown)
    · exact hfree (mem_lockedBeside.mpr ⟨j, hji, hother⟩)
  constructor
  · intro j k row hj hk
    rw [heldBy_insert hs] at hj hk
    by_cases hji : j = i
    · by_cases hki : k = i
      · rw [hji, hki]
      · rw [if_pos hji] at hj
        rw [if_neg hki] at hk
        exact absurd hk (halone k hki row hj)
    · rw [if_neg hji] at hj
      by_cases hki : k = i
      · rw [if_pos hki] at hk
        exact absurd hj (halone j hji row hk)
      · rw [if_neg hki] at hk
        exact h.exclusive j k row hj hk
  · intro j session' hj
    rw [hs] at hj
    rcases Pool.lookup_insert_cases hj with ⟨rfl, rfl⟩ | ⟨-, hj⟩
    · exact hrest
    · exact h.orderly j session' hj

theorem not_locked_of_not_blocked (h : ¬ s.blocked i op) (hrow : op.waits = some row) :
    row ∉ s.lockedBeside i := by
  intro hlocked
  refine h ?_
  simp [blocked, hrow, hlocked]

/-- What is held after an operation that did not wait was held before, or was free. -/
theorem held_perform [JobQueue Q JobId JobData] (h : ¬ s.blocked i op)
    (hrow : row ∈ (op.perform cfg ch (s.world i) tx).2.1.held) :
    row ∈ tx.held ∨ row ∉ s.lockedBeside i := by
  cases op with
  | plain e => exact .inl hrow
  | startTransaction => cases hrow
  | commitTransaction => cases hrow
  | rollbackTransaction => cases hrow
  | statement st =>
      rcases List.mem_append.mp hrow with htaken | hheld
      · rw [Option.mem_toList] at htaken
        exact .inr (takes_free (fun row hwaits => not_locked_of_not_blocked h hwaits) htaken)
      · exact .inl hheld

theorem held_lost (hrow : row ∈ (op.lost tx).held) : row ∈ tx.held := by
  cases op with
  | plain e => exact hrow
  | statement st => exact hrow
  | startTransaction => cases hrow
  | commitTransaction => cases hrow
  | rollbackTransaction => cases hrow

/-- **The step lemma.** -/
theorem Tidy.step [JobQueue Q JobId JobData] {a : DbAction} (h : s.Tidy)
    (hstep : s.step cfg a = some s') : s'.Tidy := by
  cases a with
  | start i p =>
      simp only [Sessions.step] at hstep
      split at hstep
      · cases hstep
      · obtain rfl := Option.some.inj hstep
        exact h.insert rfl (orderly_expand p) fun row hrow => by cases hrow
  | perform i ch =>
      simp only [Sessions.step] at hstep
      split at hstep
      · next op k tx hlookup =>
          split at hstep
          · cases hstep
          · next hblocked =>
              obtain rfl := Option.some.inj hstep
              obtain ⟨hanswers, hheld⟩ := perform_rules cfg ch (s.world i) op tx
              have horderly := (h.orderly i _ hlookup).2 _ hanswers
              refine h.insert rfl ?_ fun row hrow => ?_
              · rw [← hheld] at horderly
                exact horderly
              · rw [heldBy_of_lookup hlookup]
                exact held_perform hblocked hrow
      · cases hstep
  | lose i =>
      simp only [Sessions.step] at hstep
      split at hstep
      · next op k tx hlookup =>
          obtain rfl := Option.some.inj hstep
          obtain ⟨hanswers, hheld⟩ := lost_rules op tx .Unavailable
          have horderly := (h.orderly i _ hlookup).2 _ hanswers
          refine h.insert rfl ?_ fun row hrow => ?_
          · rw [← hheld] at horderly
            exact horderly
          · rw [heldBy_of_lookup hlookup]
            exact .inl (held_lost hrow)
      · cases hstep

/-- **Every run keeps the locks in order.** -/
theorem tidy_of_reachable [JobQueue Q JobId JobData]
    (hs : Transition.Reachable (database Q cfg) s) : s.Tidy := by
  refine hs.invariant (fun s hinit => ?_) fun s a s' _ htidy hstep => htidy.step hstep
  have hnone : ∀ i, s.sessions.lookup i = none := by
    intro i
    rw [show s.sessions = ∅ from hinit]
    exact AList.lookup_empty i
  constructor
  · intro i j row hrow
    rw [heldBy, hnone i] at hrow
    cases hrow
  · intro i session hlookup
    rw [hnone i] at hlookup
    cases hlookup

end Runs

end Sessions

/-- **Transactions never deadlock.** Whatever calls are made, and however the statements of their
transactions interleave, no session waits, over however many others, for itself. -/
theorem no_deadlock {Q : Type} [JobQueue Q JobId JobData] {cfg : DispatchConfig} {s : Sessions Q}
    (hs : Transition.Reachable (database Q cfg) s) (i : ℕ) :
    ¬ Relation.TransGen s.WaitsFor i i := by
  have htidy := Sessions.tidy_of_reachable hs
  refine RowLocks.not_circular htidy.exclusive (A := fun _ _ => True) (fun j p hrest => ?_) i
  obtain ⟨session, hlookup, rfl⟩ := Option.map_eq_some_iff.mp hrest
  rw [Sessions.heldBy_of_lookup hlookup]
  exact htidy.orderly j session hlookup

/-! ### Two drivers accept a trip -/

/-- Whether a session waits for another. -/
def Sessions.waitsb {Q : Type} (s : Sessions Q) (i j : ℕ) : Bool :=
  match s.sessions.lookup i with
  | some ⟨.op e _, _⟩ => decide (j ≠ i) && e.waits.any fun row => decide (row ∈ s.heldBy j)
  | _ => false

theorem Sessions.waitsFor_of_waitsb {Q : Type} {s : Sessions Q} {i j : ℕ}
    (h : s.waitsb i j = true) : s.WaitsFor i j := by
  unfold Sessions.waitsb at h
  split at h
  · next e k tx hlookup =>
      rw [Bool.and_eq_true, decide_eq_true_eq, Option.any_eq_true] at h
      obtain ⟨hne, row, hwaits, hrow⟩ := h
      refine ⟨e, k, row, ?_, hwaits, hne, of_decide_eq_true hrow⟩
      rw [Sessions.restOf, hlookup]
      rfl
  · cases h

/-- A trip is ordered; then two calls to accept it each begin their transaction, and the first has
locked the order. -/
def twoAccepts : List DbAction :=
  [.start 0 ((Request.createOrder carTrip sampleCustomer none).program (sampleConfig 3)),
    .perform 0 sampleChoice, .start 1 (DispatchService.acceptDispatch sampleOrder sampleDriver),
    .start 2 (DispatchService.acceptDispatch sampleOrder sampleDriver),
    .perform 1 sampleChoice, .perform 2 sampleChoice, .perform 1 sampleChoice]

/-- The second waits for the first, and neither for itself. -/
theorem no_deadlock_of_accepts : ∃ s : Sessions BullQueue,
    s.WaitsFor 2 1 ∧ ∀ i, ¬ Relation.TransGen s.WaitsFor i i := by
  have hexec : ((database BullQueue (sampleConfig 3)).exec
      ⟨(start [carDriver]).shared, ∅⟩ twoAccepts).map (fun s => s.waitsb 2 1) = some true := by
    decide +kernel
  obtain ⟨s, hs, hwaits⟩ := Option.map_eq_some_iff.mp hexec
  have hreach : Transition.Reachable (database BullQueue (sampleConfig 3)) s :=
    (Transition.Reachable.init rfl).exec hs
  exact ⟨s, Sessions.waitsFor_of_waitsb hwaits, no_deadlock hreach⟩

end LogisticsDispatch
