/-
Which driver `handleAssignDriver` assigns, statement by statement.

The drivers are queried and sorted first; then, in a transaction, the order is locked and the
loop goes through the candidates, each time with a query of its own. In between, other sessions
lock and write rows as they like, except those that the transaction holds. Here one session runs
in any such surroundings: a `Turn` is an operation it performs in the `World` it finds, and
`Turn.Leads` a stretch of its turns.

A candidate that is passed over was attempted before, or at its turn was held by another session
or no longer eligible (`Passed`). The loop takes the first that is not passed over
(`tryCandidates_turns`), and the candidates come nearest first, so every candidate that is nearer
than the driver who is assigned was passed over (`nearest_eligible`). The driver is locked when he
is found, and is as he was found when the transaction commits.
-/
import LogisticsDispatch.Duties
import LogisticsDispatch.Sessions

set_option autoImplicit false

namespace LogisticsDispatch

open OrderStatus Resumable

/-! ## Turns -/

/-- A row is the same in two databases. -/
def Row.Same (db db' : Db) : Row → Prop
  | order orderId => db'.orders.find orderId = db.orders.find orderId
  | driver driverId => db'.drivers.find driverId = db.drivers.find driverId

/-- A session that is about to perform an operation, and what it finds. -/
structure Turn (Q α : Type) where
  world : World Q
  session : Session α

namespace Turn

variable {Q α : Type}

/-- The database as it is committed. -/
def db (q : Turn Q α) : Db := q.world.shared.db

/-- The operation it is about. -/
def next (q : Turn Q α) : Option Op :=
  match q.session.rest with
  | .op e _ => some e
  | _ => none

variable [JobQueue Q JobId JobData]

/-- One turn of a session and the next: its operation, which need not wait, was performed, or
failed; and since then others have done what they like, except to the rows the session holds. -/
inductive Then (cfg : DispatchConfig) (q q' : Turn Q α) : Prop
  | answered {e : Op} {k : Except Error e.Answer → SessionProg α} (ch : Choice)
      (hrest : q.session.rest = .op e k)
      (hfree : ∀ row, e.waits = some row → row ∉ q.world.locked)
      (hsession : q'.session = ⟨k (e.perform cfg ch q.world q.session.tx).1,
        (e.perform cfg ch q.world q.session.tx).2.1⟩)
      (hkept : ∀ row ∈ q'.session.tx.held, row ∉ q'.world.locked ∧
        row.Same (e.perform cfg ch q.world q.session.tx).2.2.db q'.db)
  | lost {e : Op} {k : Except Error e.Answer → SessionProg α}
      (hrest : q.session.rest = .op e k)
      (hsession : q'.session = ⟨k (.error .Unavailable), e.lost q.session.tx⟩)
      (hkept : ∀ row ∈ q'.session.tx.held, row ∉ q'.world.locked ∧ row.Same q.db q'.db)

/-- From turn `q` the session comes, over the turns `turns`, to turn `t`. -/
inductive Leads (cfg : DispatchConfig) : Turn Q α → List (Turn Q α) → Turn Q α → Prop
  | here {t : Turn Q α} : Leads cfg t [] t
  | next {q q' t : Turn Q α} {turns : List (Turn Q α)} (h : Then cfg q q')
      (rest : Leads cfg q' turns t) : Leads cfg q (q :: turns) t

end Turn

/-- A call comes, over the turns `turns`, to turn `t`. -/
def Course {Q α : Type} [JobQueue Q JobId JobData] (cfg : DispatchConfig) (p : Prog α)
    (turns : List (Turn Q α)) (t : Turn Q α) : Prop :=
  ∃ w, Turn.Leads cfg ⟨w, ⟨expand cfg p, .begun⟩⟩ turns t

/-! ## Candidates -/

/-- A driver can be dispatched an order of a vehicle type. -/
def Eligible (db : Db) (driverId : DriverId) (vehincleType : VehincleType) : Prop :=
  ∃ driver, db.drivers.find driverId = some driver ∧ driver.onlineStatus = true ∧
    driver.isSuspended = false ∧ driver.vehincleType = vehincleType

/-- A driver is a candidate for an order: eligible, with a position, and not attempted. -/
structure Candidate (db : Db) (order : Order) (driver : Driver) : Prop where
  found : db.drivers.find driver.id = some driver
  online : driver.onlineStatus = true
  notSuspended : driver.isSuspended = false
  vehincleType : driver.vehincleType = order.vehincleType
  latitude : driver.currentLatitude.isSome = true
  longitude : driver.currentLongitude.isSome = true
  notAttempted : driver.id ∉ order.attemptedDriverIds

/-- How far a driver is from where an order is picked up. -/
def pickupDistance (cfg : DispatchConfig) (order : Order) (driver : Driver) : ℚ :=
  cfg.calculateDistance order.pickupLatitude order.pickupLongitude
    (driver.currentLatitude.getD 0) (driver.currentLongitude.getD 0)

/-- A candidate was passed over: it was attempted before, or at its turn it was held by another
session or no longer eligible. -/
def Passed {Q α : Type} (turns : List (Turn Q α)) (order : Order) (driverId : DriverId) : Prop :=
  driverId ∈ order.attemptedDriverIds ∨
    ∃ q ∈ turns, q.next = some (.statement (.lockDriver driverId order.vehincleType)) ∧
      (Row.driver driverId ∈ q.world.locked ∨ ¬ Eligible q.db driverId order.vehincleType)

/-- What is passed over in a stretch of turns is passed over in a longer one. -/
theorem Passed.mono {Q α : Type} {turns turns' : List (Turn Q α)} {order : Order}
    {driverId : DriverId} (h : Passed turns order driverId) (hsub : ∀ q ∈ turns, q ∈ turns') :
    Passed turns' order driverId := by
  rcases h with hattempted | ⟨turn, hturn, haway⟩
  · exact .inl hattempted
  · exact .inr ⟨turn, hsub turn hturn, haway⟩

theorem Passed.cons {Q α : Type} {q : Turn Q α} {turns : List (Turn Q α)} {order : Order}
    {driverId : DriverId} (h : Passed turns order driverId) :
    Passed (q :: turns) order driverId := h.mono fun _ => List.mem_cons_of_mem q

/-- The query that locks a candidate finds it exactly if it is eligible. -/
theorem lockDriver_iff {db : Db} {driverId : DriverId} {vehincleType : VehincleType} :
    Eligible db driverId vehincleType ↔
      (DispatchService.lockDriver db [] driverId vehincleType).isSome := by
  rw [Option.isSome_iff_exists]
  refine exists_congr fun driver => ?_
  simp [DispatchService.lockDriver, Option.filter_eq_some_iff, and_assoc]

/-! ## Stretches of turns -/

theorem Turn.next_of_rest {Q α : Type} {q : Turn Q α} {e : Op}
    {k : Except Error e.Answer → SessionProg α} (h : q.session.rest = .op e k) :
    q.next = some e := by
  rw [Turn.next, h]

section Turns

variable {Q α : Type} [JobQueue Q JobId JobData] {cfg : DispatchConfig} {q q' t : Turn Q α}
  {turns : List (Turn Q α)}

/-- What every operation that is left meets, the operation of a later turn meets. -/
theorem Turn.Leads.of_all {P : Op → Prop} (h : Turn.Leads cfg q turns t)
    (hall : q.session.rest.All P) {e : Op} (he : t.next = some e) : P e := by
  induction h with
  | @here t =>
      unfold Turn.next at he
      split at he
      · next e' k hrest =>
          obtain rfl := Option.some.inj he
          rw [hrest] at hall
          exact hall.1
      · cases he
  | next h _ ih =>
      refine ih ?_ he
      cases h with
      | answered ch hrest hfree hsession =>
          rw [hrest] at hall
          rw [hsession]
          exact hall.2 _
      | lost hrest hsession =>
          rw [hrest] at hall
          rw [hsession]
          exact hall.2 _

/-- A session that has an operation ahead is at it, or goes on from it. -/
theorem Turn.Leads.cases_op (h : Turn.Leads cfg q turns t) :
    turns = [] ∧ t = q ∨
      ∃ q' later, turns = q :: later ∧ Turn.Then cfg q q' ∧ Turn.Leads cfg q' later t := by
  cases h with
  | here => exact .inl ⟨rfl, rfl⟩
  | next h rest => exact .inr ⟨_, _, rfl, h, rest⟩

/-- Performing a statement: the session goes on with its answer, holding what it held and what the
statement has locked; or the connection was lost. -/
theorem Turn.Then.statement {st : Statement} {k : Except Error st.Answer → SessionProg α}
    (h : Turn.Then cfg q q') (hrest : q.session.rest = .op (.statement st) k) :
    (∀ row ∈ q.session.tx.held, row ∈ q'.session.tx.held) ∧
      (∀ row ∈ q'.session.tx.held, row.Same q.db q'.db) ∧
      ((q'.session.rest = k (.ok (st.answer q.world.locked (q.session.tx.writes q.db))) ∧
          q'.session.tx.held =
            (st.takes (st.answer q.world.locked (q.session.tx.writes q.db))).toList ++
              q.session.tx.held ∧
          ∃ ch, q'.session.tx.writes = fun db => st.writes ch (q.session.tx.writes db)) ∨
        q'.session.rest = k (.error .Unavailable)) := by
  cases h with
  | answered ch hrest' hfree hsession hkept =>
      rw [hrest] at hrest'
      cases hrest'
      rw [hsession] at hkept ⊢
      exact ⟨fun row hrow => List.mem_append_right _ hrow, fun row hrow => (hkept row hrow).2,
        .inl ⟨rfl, rfl, ch, rfl⟩⟩
  | lost hrest' hsession hkept =>
      rw [hrest] at hrest'
      cases hrest'
      rw [hsession] at hkept ⊢
      exact ⟨fun row hrow => hrow, fun row hrow => (hkept row hrow).2, .inr rfl⟩

/-- An operation that goes on with one of its answers. -/
theorem Turn.Then.rest {e : Op} {k : Except Error e.Answer → SessionProg α}
    (h : Turn.Then cfg q q') (hrest : q.session.rest = .op e k) : ∃ r, q'.session.rest = k r := by
  cases h with
  | answered ch hrest' hfree hsession hkept =>
      rw [hrest] at hrest'
      cases hrest'
      exact ⟨_, congrArg Session.rest hsession⟩
  | lost hrest' hsession hkept =>
      rw [hrest] at hrest'
      cases hrest'
      exact ⟨_, congrArg Session.rest hsession⟩

end Turns

/-! ## The transaction of an assignment -/

/-- The operation commits no assignment. -/
def Op.NoAssignment : Op → Prop
  | commitTransaction (.assignDriverWithLock ..) _ => False
  | _ => True

section Assignment

variable {Q α : Type} [JobQueue Q JobId JobData] {cfg : DispatchConfig} {q q' t : Turn Q α}
  {turns : List (Turn Q α)} {o o' : OrderId} {cands cands' : List Driver}
  {res : Option DriverId} {g : Except Error (Option DriverId) → SessionProg α}
  (hg : ∀ r, (g r).All Op.NoAssignment)
  (hcommit : t.next = some (.commitTransaction (.assignDriverWithLock o' cands') res))
include hg hcommit

/-- **What a transaction holds stays as it is until it commits.** At its commit it has one of the
results its program returns. -/
theorem kept_until_commit {p : TxProg (Option DriverId)} {P : Option DriverId → Prop}
    (h : Turn.Leads cfg q turns t)
    (hrest : q.session.rest = inside (.assignDriverWithLock o cands) p g) (hp : p.Returns P) :
    (o' = o ∧ cands' = cands ∧ P res) ∧
      ∀ row ∈ q.session.tx.held, row.Same q.db t.db := by
  induction p generalizing q turns with
  | ret a =>
      rcases h.cases_op with ⟨rfl, rfl⟩ | ⟨q', later, rfl, hthen, hleads⟩
      · rw [Turn.next_of_rest hrest] at hcommit
        cases hcommit
        refine ⟨⟨rfl, rfl, hp⟩, fun row _ => ?_⟩
        cases row <;> rfl
      · obtain ⟨r, hr⟩ := hthen.rest hrest
        have hall : q'.session.rest.All Op.NoAssignment := by
          rw [hr]
          exact hg _
        exact (hleads.of_all hall hcommit).elim
  | fail err =>
      rcases h.cases_op with ⟨rfl, rfl⟩ | ⟨q', later, rfl, hthen, hleads⟩
      · rw [Turn.next_of_rest hrest] at hcommit
        cases hcommit
      · obtain ⟨r, hr⟩ := hthen.rest hrest
        have hall : q'.session.rest.All Op.NoAssignment := by
          rw [hr]
          exact hg _
        exact (hleads.of_all hall hcommit).elim
  | op st k ih =>
      rcases h.cases_op with ⟨rfl, rfl⟩ | ⟨q', later, rfl, hthen, hleads⟩
      · rw [Turn.next_of_rest hrest] at hcommit
        cases hcommit
      · obtain ⟨hheld, hsame, -⟩ := hthen.statement hrest
        obtain ⟨r, hr⟩ := hthen.rest hrest
        obtain ⟨hres, hlater⟩ := ih r hleads hr (hp r)
        refine ⟨hres, fun row hrow => ?_⟩
        have h₁ := hsame row (hheld row hrow)
        have h₂ := hlater row (hheld row hrow)
        cases row with
        | order orderId => exact h₂.trans h₁
        | driver driverId => exact h₂.trans h₁

/-- **The loop over the candidates.** It takes none only if it has passed over all; and the one it
takes, it has passed over all before it, and the one is eligible when the transaction commits. -/
theorem tryCandidates_turns {row : Order} (list : List Driver) (h : Turn.Leads cfg q turns t)
    (hrest : q.session.rest = inside (.assignDriverWithLock o cands)
      (Manager.tryCandidates row (DispatchService.attemptedSet row) list) g)
    (hwrites : ∀ db, q.session.tx.writes db = db) :
    (res = none ∧ ∀ c ∈ list, Passed turns row c.id) ∨
      ∃ passed chosen rest, list = passed ++ chosen :: rest ∧ res = some chosen.id ∧
        (∀ c ∈ passed, Passed turns row c.id) ∧ chosen.id ∉ row.attemptedDriverIds ∧
        Eligible t.db chosen.id row.vehincleType := by
  have hattempted : ∀ d, d ∈ DispatchService.attemptedSet row ↔ d ∈ row.attemptedDriverIds := by
    intro d
    rw [DispatchService.attemptedSet_eq, List.mem_eraseDups]
  induction list generalizing q turns with
  | nil =>
      have hreturns : (Manager.tryCandidates row (DispatchService.attemptedSet row) []).Returns
          (fun res => res = none) := rfl
      obtain ⟨⟨-, -, hnone⟩, -⟩ := kept_until_commit hg hcommit h hrest hreturns
      exact .inl ⟨hnone, fun c hc => absurd hc List.not_mem_nil⟩
  | cons candidate rest ih =>
      rw [Manager.tryCandidates] at hrest
      by_cases hatt : candidate.id ∈ DispatchService.attemptedSet row
      · rw [if_pos hatt] at hrest
        have hpassed : Passed turns row candidate.id := .inl ((hattempted _).mp hatt)
        rcases ih h hrest hwrites with ⟨hnone, hall⟩ | ⟨passed, chosen, rest', rfl, hchosen⟩
        · exact .inl ⟨hnone, List.forall_mem_cons.mpr ⟨hpassed, hall⟩⟩
        · exact .inr ⟨candidate :: passed, chosen, rest', rfl, hchosen.1,
            List.forall_mem_cons.mpr ⟨hpassed, hchosen.2.1⟩, hchosen.2.2⟩
      · rw [if_neg hatt, Manager.query, Program.perform_bind] at hrest
        have hasks : q.next = some (.statement (.lockDriver candidate.id row.vehincleType)) :=
          Turn.next_of_rest hrest
        rcases h.cases_op with ⟨rfl, rfl⟩ | ⟨q', later, rfl, hthen, hleads⟩
        · rw [hasks] at hcommit
          cases hcommit
        obtain ⟨-, hsame, ⟨hrest', hheld, ch, htx⟩ | hrest'⟩ := hthen.statement hrest
        · cases hfound : (Statement.lockDriver candidate.id row.vehincleType).answer q.world.locked
              (q.session.tx.writes q.db) with
          | none =>
              rw [hfound] at hrest'
              have hwrites' : ∀ db, q'.session.tx.writes db = db := by
                intro db
                rw [htx]
                exact hwrites db
              -- it was locked, or the query has not found it
              have haway : Passed (q :: later) row candidate.id := by
                refine .inr ⟨q, List.mem_cons_self, hasks, ?_⟩
                by_cases hlocked : Row.driver candidate.id ∈ q.world.locked
                · exact .inl hlocked
                · rw [hwrites, Statement.answer, if_neg hlocked] at hfound
                  exact .inr (by rw [lockDriver_iff, hfound]; simp)
              rcases ih hleads hrest' hwrites' with
                ⟨hnone, hall⟩ | ⟨passed, chosen, rest', rfl, hres, hpassed, hchosen⟩
              · refine .inl ⟨hnone, List.forall_mem_cons.mpr ⟨haway, ?_⟩⟩
                exact fun c hc => (hall c hc).cons
              · refine .inr ⟨candidate :: passed, chosen, rest', rfl, hres, ?_, hchosen⟩
                exact List.forall_mem_cons.mpr ⟨haway, fun c hc => (hpassed c hc).cons⟩
          | some driver =>
              rw [hfound] at hrest' hheld
              obtain ⟨⟨-, -, hres⟩, hkept⟩ :=
                kept_until_commit (P := fun res => res = some driver.id) hg hcommit hleads
                hrest' (Program.returns_perform_bind fun _ =>
                  Program.returns_perform_bind fun _ =>
                    Program.returns_perform_bind fun _ => rfl)
              rw [hwrites, Statement.answer] at hfound
              split at hfound
              · cases hfound
              have heligible := lockDriver_iff.mpr (Option.isSome_of_eq_some hfound)
              obtain ⟨hid, -, -⟩ := DispatchService.lockDriver_eq_some hfound
              -- the driver is held, so he is the same when the transaction commits
              have hdriver : Row.driver candidate.id ∈ q'.session.tx.held := by
                rw [hheld]
                exact List.mem_cons_self
              have hfind : t.db.drivers.find candidate.id = q.db.drivers.find candidate.id :=
                (hkept _ hdriver).trans (hsame _ hdriver)
              refine .inr ⟨[], candidate, rest, rfl, ?_, ?_, ?_, ?_⟩
              · rw [hres, hid]
              · exact fun c hc => absurd hc List.not_mem_nil
              · rwa [← hattempted]
              · rw [Eligible, hfind]
                exact heligible
        -- the connection was lost, and nothing is committed
        · have hreturns : (Program.fail .Unavailable : TxProg (Option DriverId)).Returns
              (fun _ => False) := trivial
          obtain ⟨⟨-, -, hfalse⟩, -⟩ := kept_until_commit hg hcommit hleads hrest' hreturns
          exact hfalse.elim

/-- **The transaction of `assignDriverWithLock`.** At the turn that locks the order, the order is
read; what is said of the candidates and of the driver refers to that reading, which is still the
committed row when the transaction commits. -/
theorem assignDriverWithLock_turns (h : Turn.Leads cfg q turns t)
    (hrest : q.session.rest = inside (.assignDriverWithLock o cands)
      (Manager.assignDriverWithLock o cands) g)
    (hwrites : ∀ db, q.session.tx.writes db = db) :
    (o' = o ∧ cands' = cands) ∧ q ∈ turns ∧ q.next = some (.statement (.lockOrder o)) ∧
      ((res = none ∧ ∀ row, q.db.findOrder o = some row → row.orderStatus = PENDING →
          ∀ c ∈ cands, Passed turns row c.id) ∨
        ∃ row passed chosen rest, t.db.findOrder o = some row ∧
          cands = passed ++ chosen :: rest ∧ res = some chosen.id ∧
          (∀ c ∈ passed, Passed turns row c.id) ∧ chosen.id ∉ row.attemptedDriverIds ∧
          Eligible t.db chosen.id row.vehincleType) := by
  obtain ⟨⟨ho, hcands, -⟩, -⟩ := kept_until_commit hg hcommit h hrest
    (Program.returns_of_forall (fun _ => trivial) _)
  refine ⟨⟨ho, hcands⟩, ?_⟩
  rw [Manager.assignDriverWithLock, Manager.query, Program.perform_bind] at hrest
  have hasks : q.next = some (.statement (.lockOrder o)) := Turn.next_of_rest hrest
  rcases h.cases_op with ⟨rfl, rfl⟩ | ⟨q', later, rfl, hthen, hleads⟩
  · rw [hasks] at hcommit
    cases hcommit
  refine ⟨List.mem_cons_self, hasks, ?_⟩
  obtain ⟨-, hsame, ⟨hrest', hheld, ch, htx⟩ | hrest'⟩ := hthen.statement hrest
  · have hwrites' : ∀ db, q'.session.tx.writes db = db := by
      intro db
      rw [htx]
      exact hwrites db
    rw [hwrites] at hrest' hheld
    cases hfound : q.db.findOrder o with
    | none =>
        rw [Statement.answer, hfound] at hrest'
        obtain ⟨⟨-, -, hres⟩, -⟩ := kept_until_commit (P := fun res => res = none)
          hg hcommit hleads hrest' rfl
        exact .inl ⟨hres, fun row hrow => by cases hrow⟩
    | some row =>
        rw [Statement.answer, hfound] at hrest' hheld
        have hid : row.id = o := Db.id_of_findOrder hfound
        have hlocked : Row.order o ∈ q'.session.tx.held := by
          rw [hheld]
          exact List.mem_cons_self
        have hbody : q'.session.rest = inside (.assignDriverWithLock o cands)
            (if DispatchService.shouldSkipAssignment row then pure none
              else Manager.tryCandidates row (DispatchService.attemptedSet row) cands) g := hrest'
        by_cases hskip : DispatchService.shouldSkipAssignment row = true
        · rw [if_pos hskip] at hbody
          obtain ⟨⟨-, -, hres⟩, -⟩ := kept_until_commit (P := fun res => res = none)
            hg hcommit hleads hbody rfl
          refine .inl ⟨hres, fun row' hrow' hpending => ?_⟩
          obtain rfl := Option.some.inj hrow'
          rw [DispatchService.shouldSkipAssignment_eq_false.mpr hpending] at hskip
          cases hskip
        · rw [if_neg hskip] at hbody
          obtain ⟨-, hkept⟩ := kept_until_commit hg hcommit hleads hbody
            (Program.returns_of_forall (fun _ => trivial) _)
          -- the order is held, so it is the same when the transaction commits
          have hsameOrder : t.db.orders.find o = q.db.orders.find o :=
            (hkept _ hlocked).trans (hsame _ hlocked)
          have hrow : t.db.findOrder o = some row := by
            rw [Db.findOrder, hsameOrder]
            exact hfound
          rcases tryCandidates_turns hg hcommit cands hleads hbody hwrites' with
            ⟨hnone, hall⟩ | ⟨passed, chosen, rest, heq, hres, hpassed, hchosen⟩
          · refine .inl ⟨hnone, fun row' hrow' _ c hc => ?_⟩
            obtain rfl := Option.some.inj hrow'
            exact (hall c hc).cons
          · exact .inr ⟨row, passed, chosen, rest, hrow, heq, hres,
              fun c hc => (hpassed c hc).cons, hchosen⟩
  · have hreturns : (Program.fail .Unavailable : TxProg (Option DriverId)).Returns
        (fun _ => False) := trivial
    obtain ⟨⟨-, -, hfalse⟩, -⟩ := kept_until_commit hg hcommit hleads hrest' hreturns
    exact hfalse.elim

end Assignment

/-! ## Calls without an assignment -/

section NoAssignment

variable {α : Type} {cfg : DispatchConfig}

theorem noAssignment_inside {t : Transaction} (ht : NoAssignment (.transaction t))
    (p : TxProg t.Result) {g : Except Error t.Result → SessionProg α}
    (hg : ∀ r, (g r).All Op.NoAssignment) : (inside t p g).All Op.NoAssignment := by
  induction p with
  | ret a =>
      refine ⟨?_, fun r => hg _⟩
      cases t with
      | assignDriverWithLock => exact ht
      | _ => trivial
  | fail err => exact ⟨trivial, fun r => hg _⟩
  | op st k ih => exact ⟨trivial, ih⟩

/-- A call that asks for no assignment commits none. -/
theorem noAssignment_expand {p : Prog α} (h : p.All NoAssignment) :
    (expand cfg p).All Op.NoAssignment := by
  induction p with
  | ret a => trivial
  | fail err => trivial
  | op e k ih =>
      have hrest := fun r => ih r (h.2 r)
      show (expandEffect cfg e _).All _
      unfold expandEffect
      split
      · next t g =>
          split
          · exact ⟨trivial, hrest⟩
          · refine ⟨trivial, fun r => ?_⟩
            cases r with
            | ok _ => exact noAssignment_inside h.1 _ hrest
            | error err => exact hrest _
      · exact ⟨trivial, hrest⟩

end NoAssignment

/-! ## `handleAssignDriver` -/

section HandleAssignDriver

variable {Q α : Type} [JobQueue Q JobId JobData] {cfg : DispatchConfig} {q q' t : Turn Q α}
  {turns : List (Turn Q α)}

/-- An effect outside a transaction is performed, or fails. -/
theorem Turn.Then.plain {e : Effect} {k : Except Error e.Resp → SessionProg α}
    (h : Turn.Then cfg q q') (hrest : q.session.rest = .op (.plain e) k) :
    q'.session.tx = q.session.tx ∧
      ((∃ ch, q'.session.rest = k (LogisticsDispatch.perform cfg ch e q.world.shared).1) ∨
        q'.session.rest = k (.error .Unavailable)) := by
  cases h with
  | answered ch hrest' hfree hsession hkept =>
      rw [hrest] at hrest'
      cases hrest'
      rw [hsession]
      exact ⟨rfl, .inl ⟨ch, rfl⟩⟩
  | lost hrest' hsession hkept =>
      rw [hrest] at hrest'
      cases hrest'
      rw [hsession]
      exact ⟨rfl, .inr rfl⟩

/-- A transaction is begun, or is not. -/
theorem Turn.Then.begun {k : Except Error Unit → SessionProg α} (h : Turn.Then cfg q q')
    (hrest : q.session.rest = .op .startTransaction k) :
    q'.session.tx = .begun ∧
      (q'.session.rest = k (.ok ()) ∨ q'.session.rest = k (.error .Unavailable)) := by
  cases h with
  | answered ch hrest' hfree hsession hkept =>
      rw [hrest] at hrest'
      cases hrest'
      rw [hsession]
      exact ⟨rfl, .inl rfl⟩
  | lost hrest' hsession hkept =>
      rw [hrest] at hrest'
      cases hrest'
      rw [hsession]
      exact ⟨rfl, .inr rfl⟩

/-- The candidates, as `findNearestEligibleDrivers` returns them from the database it queries. -/
def nearestFirst (cfg : DispatchConfig) (order : Order) (db : Db) : List Driver :=
  let attemptedDriverIds :=
    order.attemptedDriverIds.filter fun driverId => driverId.text.length > 0
  let candidates := db.drivers.toList.filter fun driver =>
    driver.onlineStatus && !driver.isSuspended &&
      decide (driver.vehincleType = order.vehincleType) && driver.currentLatitude.isSome &&
      driver.currentLongitude.isSome && decide (driver.id ∉ attemptedDriverIds)
  let located := candidates.filter fun driver =>
    driver.currentLatitude.isSome && driver.currentLongitude.isSome
  located.insertionSort fun driverA driverB =>
    pickupDistance cfg order driverA ≤ pickupDistance cfg order driverB

/-- A call that asks for no assignment any more does not come to the commit of one. -/
theorem not_leads_of_noAssignment {o : OrderId} {cands : List Driver} {res : Option DriverId}
    (hcommit : t.next = some (.commitTransaction (.assignDriverWithLock o cands) res))
    (h : Turn.Leads cfg q turns t) {p : Prog α} (hrest : q.session.rest = expand cfg p)
    (hp : p.All NoAssignment) : False := by
  have hall : q.session.rest.All Op.NoAssignment := by
    rw [hrest]
    exact noAssignment_expand hp
  exact h.of_all hall hcommit

/-- A call that is about an effect outside a transaction, and comes to a commit, goes on with the
answer or with the error that the connection was lost. -/
theorem Turn.Leads.after_plain {T : Transaction} {res : T.Result} {e : Effect}
    {k : Except Error e.Resp → Prog α} (hcommit : t.next = some (.commitTransaction T res))
    (h : Turn.Leads cfg q turns t) (hrest : q.session.rest = expand cfg (.op e k))
    (he : ∀ g : Except Error e.Resp → SessionProg α, expandEffect cfg e g = .op (.plain e) g) :
    ∃ q' later, turns = q :: later ∧ q.next = some (.plain e) ∧ Turn.Leads cfg q' later t ∧
      q'.session.tx = q.session.tx ∧
      ((∃ ch, q'.session.rest =
          expand cfg (k (LogisticsDispatch.perform cfg ch e q.world.shared).1)) ∨
        q'.session.rest = expand cfg (k (.error .Unavailable))) := by
  rw [expand, he] at hrest
  have hasks : q.next = some (.plain e) := Turn.next_of_rest hrest
  rcases h.cases_op with ⟨rfl, rfl⟩ | ⟨q', later, rfl, hthen, hleads⟩
  · rw [hasks] at hcommit
    cases hcommit
  · obtain ⟨htx, hanswer⟩ := hthen.plain hrest
    exact ⟨q', later, rfl, hasks, hleads, htx, hanswer⟩

end HandleAssignDriver

/-- The turns of a call of `handleAssignDriver` that come to the commit of an assignment: the order
is read, the drivers are queried, and the transaction is begun. -/
theorem handleAssignDriver_turns {Q : Type} [JobQueue Q JobId JobData] {cfg : DispatchConfig}
    {q t : Turn Q Unit} {turns : List (Turn Q Unit)} {o o' : OrderId} {cands : List Driver}
    {res : Option DriverId}
    (hcommit : t.next = some (.commitTransaction (.assignDriverWithLock o' cands) res))
    (h : Turn.Leads cfg q turns t)
    (hrest : q.session.rest = expand cfg (DispatchService.handleAssignDriver cfg o)) :
    ∃ order q₁ q₂ later g, q ∈ turns ∧ q.next = some (.plain (.findOrder o)) ∧
      q.db.findOrder o = some order ∧ q₁ ∈ turns ∧
      (∃ ids, q₁.next = some (.plain (.findDrivers order.vehincleType ids))) ∧
      Turn.Leads cfg q₂ later t ∧ (∀ turn ∈ later, turn ∈ turns) ∧
      q₂.session.rest = inside (.assignDriverWithLock o (nearestFirst cfg order q₁.db))
        (Manager.assignDriverWithLock o (nearestFirst cfg order q₁.db)) g ∧
      q₂.session.tx = .begun ∧ ∀ r, (g r).All Op.NoAssignment := by
  have hthrown : (Program.fail .Unavailable : Prog Unit).All NoAssignment := trivial
  -- the order is read
  rw [DispatchService.handleAssignDriver, ask, Program.perform_bind] at hrest
  obtain ⟨q₁, later₁, rfl, hasks, hleads₁, -, ⟨ch, hrest₁⟩ | hrest₁⟩ :=
    h.after_plain hcommit hrest fun _ => rfl
  case inr => exact (not_leads_of_noAssignment hcommit hleads₁ hrest₁ hthrown).elim
  rw [show (LogisticsDispatch.perform cfg ch (.findOrder o) q.world.shared).1 =
    .ok (q.db.findOrder o) from rfl, Program.orThrow] at hrest₁
  cases hfound : q.db.findOrder o with
  | none =>
      rw [hfound] at hrest₁
      exact (not_leads_of_noAssignment hcommit hleads₁ hrest₁ trivial).elim
  | some order =>
      rw [hfound] at hrest₁
      have hid : order.id = o := Db.id_of_findOrder hfound
      dsimp only at hrest₁
      split at hrest₁
      · exact (not_leads_of_noAssignment hcommit hleads₁ hrest₁ trivial).elim
      split at hrest₁
      · exact (not_leads_of_noAssignment hcommit hleads₁ hrest₁
          (expireAndNotify_noAssignment _)).elim
      -- the drivers are queried
      rw [DispatchService.findNearestEligibleDrivers, ask, Program.perform_bind_bind] at hrest₁
      obtain ⟨q₂, later₂, rfl, hasks₁, hleads₂, htx₂, ⟨ch', hrest₂⟩ | hrest₂⟩ :=
        hleads₁.after_plain hcommit hrest₁ fun _ => rfl
      case inr => exact (not_leads_of_noAssignment hcommit hleads₂ hrest₂ hthrown).elim
      change q₂.session.rest = expand cfg (ite ((nearestFirst cfg order q₁.db).length = 0) _ _)
        at hrest₂
      split at hrest₂
      · exact (not_leads_of_noAssignment hcommit hleads₂ hrest₂
          (expireAndNotify_noAssignment _)).elim
      -- the transaction is begun
      rw [transaction, ask, Program.perform_bind, hid] at hrest₂
      rcases hleads₂.cases_op with ⟨rfl, rfl⟩ | ⟨q₃, later₃, rfl, hthen, hleads₃⟩
      · rw [Turn.next_of_rest hrest₂] at hcommit
        cases hcommit
      obtain ⟨htx₃, hrest₃ | hrest₃⟩ := hthen.begun hrest₂
      · refine ⟨order, q₁, q₃, later₃, _, List.mem_cons_self, hasks, rfl, by simp, ⟨_, hasks₁⟩,
          hleads₃, fun turn hturn => by simp [hturn], hrest₃, htx₃, fun r => ?_⟩
        refine noAssignment_expand ?_
        cases r with
        | error err => trivial
        | ok res =>
            cases res with
            | none => exact expireAndNotify_noAssignment _
            | some driverId =>
                exact .bind (Program.all_perform trivial) fun _ =>
                  .bind (Program.all_perform trivial) fun _ => notify_all trivial
      · exact (not_leads_of_noAssignment hcommit hleads₃ hrest₃ hthrown).elim

/-! ## The driver who is assigned -/

section Nearest

variable {cfg : DispatchConfig} {order : Order} {db : Db} {driver : Driver}

/-- Who is a candidate. -/
theorem mem_nearestFirst : driver ∈ nearestFirst cfg order db ↔ Candidate db order driver := by
  -- no id is empty, so no attempted driver is left out
  have hlength : driver.id.text.length > 0 := by
    rw [gt_iff_lt, Nat.pos_iff_ne_zero, Ne, String.length_eq_zero_iff]
    exact driver.id.nonempty
  unfold nearestFirst
  simp only [List.mem_insertionSort, List.mem_filter, Table.mem_toList, Bool.and_eq_true,
    Bool.not_eq_true', decide_eq_true_eq, hlength, and_true]
  constructor
  · rintro ⟨⟨hfind, ⟨⟨⟨⟨honline, hsuspended⟩, hvehincle⟩, hlat⟩, hlng⟩, hnew⟩, -⟩
    exact ⟨hfind, honline, hsuspended, hvehincle, hlat, hlng, hnew⟩
  · rintro ⟨hfind, honline, hsuspended, hvehincle, hlat, hlng, hnew⟩
    exact ⟨⟨hfind, ⟨⟨⟨⟨honline, hsuspended⟩, hvehincle⟩, hlat⟩, hlng⟩, hnew⟩, hlat, hlng⟩

/-- The candidates come nearest first. -/
theorem pairwise_nearestFirst : (nearestFirst cfg order db).Pairwise fun driverA driverB =>
    pickupDistance cfg order driverA ≤ pickupDistance cfg order driverB := by
  have htotal : Std.Total fun driverA driverB =>
      pickupDistance cfg order driverA ≤ pickupDistance cfg order driverB :=
    ⟨fun _ _ => le_total _ _⟩
  have htrans : IsTrans Driver fun driverA driverB =>
      pickupDistance cfg order driverA ≤ pickupDistance cfg order driverB :=
    ⟨fun _ _ _ hab hbc => hab.trans hbc⟩
  exact List.pairwise_insertionSort _ _

/-- Whoever is nearer than one of the candidates comes before that one. -/
theorem mem_of_nearer {passed rest : List Driver} {chosen : Driver}
    (hcands : nearestFirst cfg order db = passed ++ chosen :: rest)
    (hdriver : Candidate db order driver)
    (hnearer : pickupDistance cfg order driver < pickupDistance cfg order chosen) :
    driver ∈ passed := by
  have hmem : driver ∈ passed ++ chosen :: rest := by
    rw [← hcands]
    exact mem_nearestFirst.mpr hdriver
  have hsorted : (passed ++ chosen :: rest).Pairwise fun driverA driverB =>
      pickupDistance cfg order driverA ≤ pickupDistance cfg order driverB := by
    rw [← hcands]
    exact pairwise_nearestFirst
  rcases List.mem_append.mp hmem with hpassed | hlater
  · exact hpassed
  · rcases List.mem_cons.mp hlater with rfl | hrest
    · exact absurd hnearer (lt_irrefl _)
    · have hle := (List.pairwise_cons.mp (List.pairwise_append.mp hsorted).2.1).1 driver hrest
      exact absurd hnearer hle.not_gt

end Nearest

/-- When `handleAssignDriver` assigns a driver. -/
theorem assigned_nearest {Q : Type} [JobQueue Q JobId JobData] {cfg : DispatchConfig}
    {orderId o : OrderId} {cands : List Driver} {d : DriverId} {turns : List (Turn Q Unit)}
    {t : Turn Q Unit}
    (hcourse : Course cfg (DispatchService.handleAssignDriver cfg orderId) turns t)
    (hcommit : t.next = some (.commitTransaction (.assignDriverWithLock o cands) (some d))) :
    ∃ row, t.db.findOrder orderId = some row ∧ Eligible t.db d row.vehincleType ∧
      d ∉ row.attemptedDriverIds ∧
      ∃ q₀ ∈ turns, ∃ q₁ ∈ turns, ∃ order chosen,
        q₀.next = some (.plain (.findOrder orderId)) ∧ q₀.db.findOrder orderId = some order ∧
        (∃ ids, q₁.next = some (.plain (.findDrivers order.vehincleType ids))) ∧
        Candidate q₁.db order chosen ∧ chosen.id = d ∧
        ∀ c, Candidate q₁.db order c →
          pickupDistance cfg order c < pickupDistance cfg order chosen → Passed turns row c.id := by
  obtain ⟨w, hleads⟩ := hcourse
  obtain ⟨order, q₁, q₂, later, g, hq₀, hasks₀, hfound, hq₁, hasks₁, hleads₂, hlater, hrest, htx,
    hg⟩ := handleAssignDriver_turns hcommit hleads rfl
  have hwrites : ∀ db, q₂.session.tx.writes db = db := by
    intro db
    rw [htx]
    rfl
  obtain ⟨-, -, -, ⟨hnone, -⟩ | ⟨row, passed, chosen, rest, hrow, hcands, hres, hpassed, hnew,
    heligible⟩⟩ := assignDriverWithLock_turns hg hcommit hleads₂ hrest hwrites
  · cases hnone
  · obtain rfl := Option.some.inj hres
    have hmem : chosen ∈ nearestFirst cfg order q₁.db := by
      rw [hcands]
      exact List.mem_append_right _ List.mem_cons_self
    have hchosen : Candidate q₁.db order chosen := mem_nearestFirst.mp hmem
    refine ⟨row, hrow, heligible, hnew, _, hq₀, q₁, hq₁, order, chosen, hasks₀, hfound, hasks₁,
      hchosen, rfl, fun c hc hnearer => ?_⟩
    exact (hpassed c (mem_of_nearer hcands hc hnearer)).mono hlater

/-- When `assignDriverWithLock` returns null. -/
theorem null_passed {Q : Type} [JobQueue Q JobId JobData] {cfg : DispatchConfig}
    {orderId o : OrderId} {cands cands' : List Driver} {turns : List (Turn Q (Option DriverId))}
    {t : Turn Q (Option DriverId)}
    (hcourse : Course cfg (transaction (.assignDriverWithLock orderId cands)) turns t)
    (hcommit : t.next = some (.commitTransaction (.assignDriverWithLock o cands') none)) :
    ∃ q ∈ turns, q.next = some (.statement (.lockOrder orderId)) ∧
      ∀ row, q.db.findOrder orderId = some row → row.orderStatus = PENDING →
        ∀ c ∈ cands, Passed turns row c.id := by
  obtain ⟨w, hleads⟩ := hcourse
  have hlost : (Program.fail .Unavailable : Prog (Option DriverId)).All NoAssignment := trivial
  rcases hleads.cases_op with ⟨rfl, rfl⟩ | ⟨q, later, rfl, hthen, hleads⟩
  · cases hcommit
  obtain ⟨htx, hrest | hrest⟩ := hthen.begun rfl
  · have hwrites : ∀ db, q.session.tx.writes db = db := by
      intro db
      rw [htx]
      rfl
    have hturns := fun hg => assignDriverWithLock_turns hg hcommit hleads hrest hwrites
    -- nothing comes after the transaction
    obtain ⟨-, hq, hasks, ⟨-, hall⟩ | ⟨_, _, _, _, _, _, hsome, _⟩⟩ := hturns fun r => by
      cases r <;> trivial
    · exact ⟨q, List.mem_cons_of_mem _ hq, hasks, fun row hrow hpending c hc =>
        (hall row hrow hpending c hc).cons⟩
    · cases hsome
  · exact (not_leads_of_noAssignment hcommit hleads hrest hlost).elim

/-- **The nearest eligible driver is assigned**, whatever the other sessions lock and write in
between. If `handleAssignDriver` assigns a driver then at the commit the driver is eligible and was
not attempted, and every candidate that was nearer, by the positions that were queried, was passed
over. And `assignDriverWithLock` returns null for an order that it has found pending only if every
candidate was. -/
theorem nearest_eligible {Q : Type} [JobQueue Q JobId JobData] (cfg : DispatchConfig)
    (orderId : OrderId) :
    (∀ (turns : List (Turn Q Unit)) (t : Turn Q Unit) (o : OrderId) (cands : List Driver)
        (d : DriverId),
      Course cfg (DispatchService.handleAssignDriver cfg orderId) turns t →
      t.next = some (.commitTransaction (.assignDriverWithLock o cands) (some d)) →
      ∃ row, t.db.findOrder orderId = some row ∧ Eligible t.db d row.vehincleType ∧
        d ∉ row.attemptedDriverIds ∧
        ∃ q₀ ∈ turns, ∃ q₁ ∈ turns, ∃ order chosen,
          q₀.next = some (.plain (.findOrder orderId)) ∧ q₀.db.findOrder orderId = some order ∧
          (∃ ids, q₁.next = some (.plain (.findDrivers order.vehincleType ids))) ∧
          Candidate q₁.db order chosen ∧ chosen.id = d ∧
          ∀ c, Candidate q₁.db order c →
            pickupDistance cfg order c < pickupDistance cfg order chosen →
              Passed turns row c.id) ∧
    ∀ (cands : List Driver) (turns : List (Turn Q (Option DriverId)))
        (t : Turn Q (Option DriverId)) (o : OrderId) (cands' : List Driver),
      Course cfg (transaction (.assignDriverWithLock orderId cands)) turns t →
      t.next = some (.commitTransaction (.assignDriverWithLock o cands') none) →
      ∃ q ∈ turns, q.next = some (.statement (.lockOrder orderId)) ∧
        ∀ row, q.db.findOrder orderId = some row → row.orderStatus = PENDING →
          ∀ c ∈ cands, Passed turns row c.id :=
  ⟨fun _ _ _ _ _ => assigned_nearest, fun _ _ _ _ _ => null_passed⟩

/-! ### The nearer driver is held elsewhere -/

section Sample

variable {Q α : Type} [JobQueue Q JobId JobData]

/-- The next turn, if nothing else is written and the others then hold `locked`. -/
def Turn.advance (cfg : DispatchConfig) (ch : Choice) (locked : List Row) (q : Turn Q α) :
    Option (Turn Q α) :=
  match q.session.rest with
  | .op e k =>
      let res := e.perform cfg ch q.world q.session.tx
      if (e.waits.all fun row => decide (row ∉ q.world.locked)) ∧ ∀ row ∈ res.2.1.held, row ∉ locked
      then some ⟨⟨res.2.2, locked⟩, ⟨k res.1, res.2.1⟩⟩
      else none
  | _ => none

theorem Turn.then_of_advance {cfg : DispatchConfig} {ch : Choice} {locked : List Row}
    {q q' : Turn Q α} (h : q.advance cfg ch locked = some q') : Turn.Then cfg q q' := by
  unfold Turn.advance at h
  split at h
  · next e k hrest =>
      dsimp only at h
      split at h
      · next hok =>
          obtain rfl := Option.some.inj h
          refine .answered ch hrest (fun row hrow => ?_) rfl fun row hrow => ⟨hok.2 row hrow, ?_⟩
          · have hall := hok.1
            rw [hrow] at hall
            simpa using hall
          · cases row <;> rfl
      · cases h
  · cases h

/-- So many turns on. -/
def Turn.follow (cfg : DispatchConfig) (ch : Choice) (locked : List Row) :
    ℕ → Turn Q α → Option (List (Turn Q α) × Turn Q α)
  | 0, q => some ([], q)
  | n + 1, q =>
      (q.advance cfg ch locked).bind fun q' =>
        (q'.follow cfg ch locked n).map fun res => (q :: res.1, res.2)

theorem Turn.leads_of_follow {cfg : DispatchConfig} {ch : Choice} {locked : List Row} {n : ℕ}
    {q t : Turn Q α} {turns : List (Turn Q α)}
    (h : q.follow cfg ch locked n = some (turns, t)) : Turn.Leads cfg q turns t := by
  induction n generalizing q turns with
  | zero =>
      obtain ⟨rfl, rfl⟩ := Prod.mk.inj (Option.some.inj h)
      exact .here
  | succ n ih =>
      obtain ⟨q', hq', hrest⟩ := Option.bind_eq_some_iff.mp h
      obtain ⟨⟨later, t'⟩, hlater, heq⟩ := Option.map_eq_some_iff.mp hrest
      obtain ⟨rfl, rfl⟩ := Prod.mk.inj heq
      exact .next (Turn.then_of_advance hq') (ih hlater)

end Sample

/-- How far apart two latitudes are. -/
def latitudeConfig : DispatchConfig where
  maxDispatchAttempts := 3
  dispatchTimeoutSeconds := 30
  calculateDistance lat _ lat' _ := |lat' - lat|

/-- A driver with a car, further north. -/
def northDriver : Driver := { carDriver with
  id := ⟨"north-driver", by decide⟩
  userId := ⟨"north-user", by decide⟩
  currentLatitude := some 1 }

/-- The trip is ordered, and both drivers are online. -/
def twoDrivers : Shared BullQueue :=
  let s := (start [carDriver, northDriver]).shared
  match OrdersService.createOrderTx sampleChoice carTrip sampleCustomer 0 s.db with
  | .ok (_, db) => { s with db := db }
  | .error _ => s

/-- The result of the assignment that a turn commits, if it does. -/
def Turn.assignment {Q α : Type} (t : Turn Q α) : Option (Option DriverId) :=
  match t.next with
  | some (.commitTransaction (.assignDriverWithLock _ _) res) => some res
  | _ => none

theorem Turn.next_of_assignment {Q α : Type} {t : Turn Q α} {res : Option DriverId}
    (h : t.assignment = some res) :
    ∃ o cands, t.next = some (.commitTransaction (.assignDriverWithLock o cands) res) := by
  unfold Turn.assignment at h
  split at h
  · next o cands res' hnext =>
      obtain rfl := Option.some.inj h
      exact ⟨o, cands, hnext⟩
  · cases h

/-- A call is made, while another session holds the nearer driver. -/
def nearerLocked {α : Type} (p : Prog α) : Turn BullQueue α :=
  ⟨⟨twoDrivers, [.driver sampleDriver]⟩, ⟨expand latitudeConfig p, .begun⟩⟩

/-- While the nearer driver is held elsewhere, the other one is assigned, and nobody if there is
no other. -/
theorem nearest_eligible_of_trip :
    (∃ (turns : List (Turn BullQueue Unit)) (t : Turn BullQueue Unit) (row : Order),
      t.db.findOrder sampleOrder = some row ∧ Eligible t.db northDriver.id row.vehincleType ∧
        ∃ q₁ ∈ turns, ∃ order chosen, Candidate q₁.db order chosen ∧
          chosen.id = northDriver.id ∧
          ∀ c, Candidate q₁.db order c →
            pickupDistance latitudeConfig order c < pickupDistance latitudeConfig order chosen →
              Passed turns row c.id) ∧
    ∃ turns : List (Turn BullQueue (Option DriverId)), ∃ q ∈ turns,
      q.next = some (.statement (.lockOrder sampleOrder)) ∧
        ∀ row, q.db.findOrder sampleOrder = some row → row.orderStatus = PENDING →
          ∀ c ∈ [carDriver], Passed turns row c.id := by
  constructor
  · have hfollow : ((nearerLocked (DispatchService.handleAssignDriver latitudeConfig
        sampleOrder)).follow latitudeConfig sampleChoice [.driver sampleDriver] 9).map
          (fun res => res.2.assignment) = some (some (some northDriver.id)) := by
      decide +kernel
    obtain ⟨⟨turns, t⟩, hturns, hassigned⟩ := Option.map_eq_some_iff.mp hfollow
    obtain ⟨o, cands, hcommit⟩ := Turn.next_of_assignment hassigned
    obtain ⟨row, hrow, heligible, -, q₀, -, q₁, hq₁, order, chosen, -, -, -, hchosen⟩ :=
      (nearest_eligible latitudeConfig sampleOrder).1 turns t o cands northDriver.id
        ⟨_, Turn.leads_of_follow hturns⟩ hcommit
    exact ⟨turns, t, row, hrow, heligible, q₁, hq₁, order, chosen, hchosen⟩
  · have hfollow : ((nearerLocked (transaction (.assignDriverWithLock sampleOrder
        [carDriver]))).follow latitudeConfig sampleChoice [.driver sampleDriver] 3).map
          (fun res => res.2.assignment) = some (some none) := by
      decide +kernel
    obtain ⟨⟨turns, t⟩, hturns, hassigned⟩ := Option.map_eq_some_iff.mp hfollow
    obtain ⟨o, cands, hcommit⟩ := Turn.next_of_assignment hassigned
    exact ⟨turns, (nearest_eligible latitudeConfig sampleOrder).2 [carDriver] turns t o cands
      ⟨_, Turn.leads_of_follow hturns⟩ hcommit⟩

end LogisticsDispatch
