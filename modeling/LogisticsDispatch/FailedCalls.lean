/-
What a call that throws has changed.

An acceptance, a rejection, a timeout and a reassignment commit a transaction first, and
then go on in Redis and in the queues. Some of what can fail there they catch, and some
they do not. A call that throws has changed nothing if and only if nothing it leaves
uncaught failed after its transaction had committed a change (`failed_unchanged_iff`): the
transaction is rolled back when it throws, and what comes after it throws by nothing but such
a failure (`ThrowsBy`).
-/
import LogisticsDispatch.Publications
import LogisticsDispatch.Tracking

set_option autoImplicit false

namespace LogisticsDispatch

open OrderStatus Lifecycle Resumable Resumable.Program

variable {Q : Type} [JobQueue Q JobId JobData] {cfg : DispatchConfig} {s s' : Sys Q} {a : Action}
  {o : OrderId} {d : DriverId} {i : ℕ} {α : Type} {call : Call}

/-! ## The contract -/

/-- The calls that are to have changed nothing when they throw. -/
def Call.Retryable : Call → Prop
  | .request (.acceptDispatch _ _) => True
  | .request (.rejectDispatch _ _) => True
  | .request (.reassignOrder _ _) => True
  | .request (.process (.DISPATCH_TIMEOUT _ _)) => True
  | .worker _ _ (.DISPATCH_TIMEOUT _ _) => True
  | _ => False

/-- The method of the call has thrown: the request has, or the worker is about to report it. -/
def Call.Threw : Call → Prog Response → Prop
  | .request _, .fail _ => True
  | .worker _ _ _, .op (.finishJob _ _ false) _ => True
  | _, _ => False

/-- What the retryable calls do not catch. The ETA job is cancelled in a `try`, but an
acceptance schedules it outside of one. -/
def Call.LeavesUncaught (call : Call) : Effect → Prop
  | .redisGet (.DISPATCH_TIMEOUT_KEY _) => True
  | .redisGet (.ETA_JOB_KEY _) => ∃ o d, call = .request (.acceptDispatch o d)
  | .redisSet _ _ _ => True
  | .redisDel (.DISPATCH_TIMEOUT_KEY _) => True
  | .getJob .DISPATCH_QUEUE _ => True
  | .addJob _ _ _ _ => True
  | _ => False

/-- Call `i` changes the row or the history of an order in a step. -/
def ChangesOrder (i : ℕ) (m : Transition.Move (Sys Q) Action) : Prop :=
  (∃ ch, m.act = .exec i ch) ∧
    ∃ o, m.dst.order o ≠ m.src.order o ∨ m.dst.history o ≠ m.src.history o

/-- Call `i` has changed an order. -/
def Changed (i : ℕ) (tr : List (Transition.Move (Sys Q) Action)) : Prop :=
  ∃ m ∈ tr, ChangesOrder i m

/-- Call `i` goes on in a step and throws. -/
def Throws (i : ℕ) (m : Transition.Move (Sys Q) Action) : Prop :=
  ((∃ ch, m.act = .exec i ch) ∨ m.act = .fail i) ∧
    ∃ call p, m.dst.threads.lookup i = some ⟨call, p⟩ ∧ call.Threw p

/-- What call `i` is about to perform fails, and the call does not catch it. -/
def FailsUncaught (i : ℕ) (m : Transition.Move (Sys Q) Action) : Prop :=
  m.act = .fail i ∧ ∃ call e, m.src.call i = some call ∧ m.src.next i = some e ∧
    call.LeavesUncaught e

/-- Whenever call `i` throws, it has changed no order. -/
def FailedUnchanged (i : ℕ) (tr : List (Transition.Move (Sys Q) Action)) : Prop :=
  ∀ later m earlier, tr = later ++ m :: earlier → Throws i m → ¬ Changed i (m :: earlier)

/-- Nothing that call `i` leaves uncaught fails once it has changed an order. -/
def SafeOnceChanged (i : ℕ) (tr : List (Transition.Move (Sys Q) Action)) : Prop :=
  ∀ later m earlier, tr = later ++ m :: earlier → FailsUncaught i m → ¬ Changed i earlier

/-! ## By what a method throws -/

/-- After a transaction that has changed an order, the program gets to where `T` holds only by
an effect of `U` that fails. -/
def ThrowsAfter (U : Effect → Prop) (T : Prog α → Prop) :
    (e : Effect) → (Except Error e.Resp → Prog α) → Prop
  | .transaction t, k => ∀ res l, Tells t (.ok res) l → (k (.ok res)).ThrowsBy U T
  | _, _ => True

section Methods

variable {U : Effect → Prop} {T : Prog α → Prop}

theorem throwsAfter_of_noTransaction {p : Prog α} (h : p.All NoTransaction) :
    p.AllNodes (ThrowsAfter U T) := by
  refine h.allNodes fun e k he => ?_
  cases e with
  | transaction t => exact he.elim
  | _ => trivial

theorem ask_bind_throwsBy {β : Type} {e : Effect} {g : e.Resp → Prog β} (h : U e)
    (hg : ∀ a, (g a).ThrowsBy U Failed) : (ask e >>= g).ThrowsBy U Failed :=
  (throwsBy_perform h).bind hg

theorem notify_throwsBy (event : Event) :
    (EventPublisherService.notify event).ThrowsBy call.LeavesUncaught Failed :=
  throwsBy_tryCatch (all_perform id) fun _ => id

theorem cancelDispatchTimeout_throwsBy (o : OrderId) :
    (DispatchService.cancelDispatchTimeout o).ThrowsBy call.LeavesUncaught Failed := by
  refine ask_bind_throwsBy trivial fun jobId => ?_
  split
  · exact id
  · refine ask_bind_throwsBy trivial fun job => ?_
    split
    · exact .bind (throwsBy_tryCatch (all_perform id) fun _ => id) fun _ =>
        throwsBy_perform trivial
    · exact throwsBy_perform trivial

/-- Cancelling the ETA job is caught as a whole. -/
theorem cancelEtaJob_throwsBy (hcall : ∀ o d, call ≠ .request (.acceptDispatch o d))
    (o : OrderId) : (do try TrackingService.cancelEtaJob o catch _ => pure () : Prog Unit).ThrowsBy
      call.LeavesUncaught Failed := by
  refine throwsBy_tryCatch ?_ fun _ => id
  refine cancelEtaJob_all ?_ (fun _ => id) (fun _ => id) id
  rintro ⟨o', d, h⟩
  exact hcall o' d h

theorem triggerDispatch_throwsBy (o : OrderId) :
    (DispatchService.triggerDispatch o).ThrowsBy call.LeavesUncaught Failed :=
  ask_bind_throwsBy trivial fun _ => id

theorem handleDispatchTimeout_throwsAfter (hcall : ∀ o d, call ≠ .request (.acceptDispatch o d))
    (o : OrderId) (d : DriverId) : (DispatchService.handleDispatchTimeout o d).AllNodes
      (ThrowsAfter call.LeavesUncaught Failed) := by
  rw [handleDispatchTimeout_bind]
  refine allNodes_perform_bind ?_ fun res =>
    throwsAfter_of_noTransaction (afterTimeout_noTransaction res)
  intro res l h
  cases h with
  | timedOut _ r =>
      refine ask_bind_throwsBy trivial fun _ => .bind (cancelEtaJob_throwsBy hcall r) fun _ => ?_
      exact .bind (notify_throwsBy _) fun _ => notify_throwsBy _
  | putBack _ r =>
      refine ask_bind_throwsBy trivial fun _ => .bind (notify_throwsBy _) fun _ => ?_
      exact triggerDispatch_throwsBy r

theorem acceptDispatch_throwsAfter (o : OrderId) (d : DriverId) :
    (DispatchService.acceptDispatch o d).AllNodes
      (ThrowsAfter (Call.request (.acceptDispatch o d)).LeavesUncaught Failed) := by
  rw [acceptDispatch_bind]
  refine allNodes_perform_bind ?_ fun res =>
    throwsAfter_of_noTransaction (afterAccept_noTransaction res)
  intro res l h
  cases h with
  | accepted _ r =>
      refine .bind (cancelDispatchTimeout_throwsBy o) fun _ => .bind (notify_throwsBy _)
        fun _ => .bind ?_ fun _ => id
      refine ask_bind_throwsBy ⟨o, d, rfl⟩ fun existing => ?_
      split
      · exact id
      · exact ask_bind_throwsBy trivial fun _ => throwsBy_perform trivial

theorem rejectDispatch_throwsAfter (hcall : ∀ o d, call ≠ .request (.acceptDispatch o d))
    (o : OrderId) (d : DriverId) : (DispatchService.rejectDispatch o d).AllNodes
      (ThrowsAfter call.LeavesUncaught Failed) := by
  rw [rejectDispatch_bind]
  refine allNodes_perform_bind ?_ fun res =>
    throwsAfter_of_noTransaction (afterReject_noTransaction res)
  intro res l h
  cases h with
  | rejected _ r =>
      refine .bind (cancelDispatchTimeout_throwsBy o) fun _ =>
        .bind (cancelEtaJob_throwsBy hcall r) fun _ => ?_
      exact .bind (notify_throwsBy _) fun _ => id
  | declined _ r =>
      exact .bind (cancelDispatchTimeout_throwsBy o) fun _ =>
        .bind (triggerDispatch_throwsBy r) fun _ => id

theorem reassignOrder_throwsAfter (o : OrderId) (user : JwtUser) :
    (OrdersService.reassignOrder o user).AllNodes
      (ThrowsAfter call.LeavesUncaught Failed) := by
  refine allNodes_perform_bind trivial fun found => ?_
  split
  · trivial
  split
  · trivial
  split
  · refine allNodes_perform_bind ?_ fun updated => throwsAfter_of_noTransaction
      (.bind (triggerDispatch_noTransaction o) fun _ => trivial)
    intro res l _
    exact .bind (triggerDispatch_throwsBy o) fun _ => id
  -- an order that waits is not changed
  · exact throwsAfter_of_noTransaction (.bind trivial fun _ =>
      .bind (triggerDispatch_noTransaction o) fun _ => trivial)

/-! ### In a call -/

theorem threw_request {req : Request} : (Call.request req).Threw = Failed := by
  funext p
  cases p <;> rfl

/-- What comes after a method and throws nothing. -/
theorem throwsAfter_bind {β : Type} {p : Prog α} {f : α → Prog β}
    (hp : p.AllNodes (ThrowsAfter U Failed)) (hf : ∀ a, (f a).All fun _ => False)
    (hf' : ∀ a, (f a).ThrowsBy U Failed) : (p >>= f).AllNodes (ThrowsAfter U Failed) := by
  refine hp.bind_of (fun e k h => ?_) fun a =>
    throwsAfter_of_noTransaction ((hf a).mono fun _ => False.elim)
  cases e with
  | transaction t => exact fun res l ht => (h res l ht).bind hf'
  | _ => trivial

/-- The turn of a worker on a handler. -/
def workerOn (queue : QueueName) (jobId : JobId) (handler : Prog Unit) : Prog Response := do
  (do
    let ok ← try (do handler; pure true) catch _ => pure false
    ask (.finishJob queue jobId ok))
  return .void

theorem worker_program (queue : QueueName) (jobId : JobId) (data : JobData) :
    (Call.worker queue jobId data).program cfg = workerOn queue jobId (process cfg data) := rfl

/-- Not a report to the queue. -/
def Unreported : Effect → Prop
  | .finishJob _ _ _ => False
  | _ => True

/-- A worker reports what its handler throws. -/
theorem workerOn_throwsBy {queue : QueueName} {jobId : JobId} {data : JobData}
    {handler : Prog Unit} (hU : ∀ ok, ¬ U (.finishJob queue jobId ok))
    (hall : handler.All Unreported) (h : handler.ThrowsBy U Failed) :
    (workerOn queue jobId handler).ThrowsBy U (Call.worker queue jobId data).Threw := by
  induction handler with
  | ret a => exact ⟨id, fun _ => id, fun err => ⟨fun hU' => absurd hU' (hU true), fun _ => id⟩⟩
  | fail err => exact absurd trivial h
  | op e k ih =>
      obtain ⟨he, hall⟩ := hall
      obtain ⟨-, hok, herr⟩ := h
      refine ⟨?_, fun a => ih _ (hall _) (hok a), fun err => ⟨fun hU' => ?_, fun hU' => ?_⟩⟩
      · cases e with
        | finishJob => exact he.elim
        | _ => exact id
      · have hfailed := (herr err).1 hU'
        show Call.Threw _ (workerOn queue jobId (k (.error err)))
        cases hk : k (.error err) with
        | fail err' => trivial
        | _ =>
            rw [hk] at hfailed
            exact hfailed.elim
      · exact ih _ (hall _) ((herr err).2 hU')

theorem workerOn_throwsAfter {queue : QueueName} {jobId : JobId} {data : JobData}
    {handler : Prog Unit} (hU : ∀ ok, ¬ U (.finishJob queue jobId ok))
    (hall : handler.All Unreported) (h : handler.AllNodes (ThrowsAfter U Failed)) :
    (workerOn queue jobId handler).AllNodes
      (ThrowsAfter U (Call.worker queue jobId data).Threw) := by
  induction handler with
  | ret a =>
      refine ⟨trivial, fun r => ?_⟩
      cases r <;> trivial
  | fail err =>
      refine ⟨trivial, fun r => ?_⟩
      cases r <;> trivial
  | op e k ih =>
      refine ⟨?_, fun r => ih r (hall.2 r) (h.2 r)⟩
      cases e with
      | transaction t => exact fun res l ht => workerOn_throwsBy hU (hall.2 _) (h.1 res l ht)
      | _ => trivial

theorem handleDispatchTimeout_unreported (o : OrderId) (d : DriverId) :
    (DispatchService.handleDispatchTimeout o d).All Unreported := by
  rw [handleDispatchTimeout_bind]
  refine .bind (all_perform trivial) fun res => ?_
  cases res with
  | skip => trivial
  | expired r =>
      refine .bind (all_perform trivial) fun _ => .bind (.tryCatch ?_ fun _ => trivial)
        fun _ => .bind (notify_all trivial) fun _ => notify_all trivial
      exact cancelEtaJob_all trivial (fun _ => trivial) (fun _ => trivial) trivial
  | redispatch r =>
      exact .bind (all_perform trivial) fun _ => .bind (notify_all trivial)
        fun _ => triggerDispatch_all fun _ _ _ => trivial

end Methods

/-- **Once it has changed an order, a retryable call throws only by a failure that it leaves
uncaught.** -/
theorem program_throwsAfter (h : call.Retryable) :
    (call.program cfg).AllNodes (ThrowsAfter call.LeavesUncaught call.Threw) := by
  have hreq : ∀ {req : Request}, (∀ o d, Call.request req ≠ .request (.acceptDispatch o d)) →
      (Call.request req).Retryable → ((Call.request req).program cfg).AllNodes
        (ThrowsAfter (Call.request req).LeavesUncaught Failed) := by
    intro req hne h
    cases req with
    | rejectDispatch o d => exact rejectDispatch_throwsAfter hne o d
    | reassignOrder o user =>
        exact throwsAfter_bind (reassignOrder_throwsAfter o user) (fun _ => trivial) fun _ => id
    | process data =>
        cases data with
        | DISPATCH_TIMEOUT o d =>
            exact throwsAfter_bind (handleDispatchTimeout_throwsAfter hne o d)
              (fun _ => trivial) fun _ => id
        | _ => exact h.elim
    | acceptDispatch o d => exact absurd rfl (hne o d)
    | _ => exact h.elim
  cases call with
  | request req =>
      rw [threw_request]
      by_cases haccept : ∃ o d, req = .acceptDispatch o d
      · obtain ⟨o, d, rfl⟩ := haccept
        exact acceptDispatch_throwsAfter o d
      · refine hreq (fun o d heq => haccept ⟨o, d, ?_⟩) h
        exact Call.request.inj heq
  | worker queue jobId data =>
      cases data with
      | DISPATCH_TIMEOUT o d =>
          have hne : ∀ o' d', Call.worker queue jobId (.DISPATCH_TIMEOUT o d)
              ≠ .request (.acceptDispatch o' d') := fun _ _ h => by cases h
          rw [worker_program]
          exact workerOn_throwsAfter (fun _ => id) (handleDispatchTimeout_unreported o d)
            (handleDispatchTimeout_throwsAfter hne o d)
      | _ => exact h.elim

/-! ## Along a run -/

section Runs

variable {tr : List (Transition.Move (Sys Q) Action)} {m : Transition.Move (Sys Q) Action}

omit [JobQueue Q JobId JobData] in
theorem changed_cons : Changed i (m :: tr) ↔ ChangesOrder i m ∨ Changed i tr := by
  simp [Changed]

omit [JobQueue Q JobId JobData] in
theorem failedUnchanged_cons : FailedUnchanged i (m :: tr) ↔
    FailedUnchanged i tr ∧ (Throws i m → ¬ Changed i (m :: tr)) := by
  constructor
  · intro h
    exact ⟨fun later m' earlier heq => h (m :: later) m' earlier (by rw [heq]; rfl),
      h [] m tr rfl⟩
  · rintro ⟨htr, hm⟩ later m' earlier heq
    cases later with
    | nil =>
        obtain ⟨rfl, rfl⟩ := List.cons.inj heq
        exact hm
    | cons m'' later => exact htr later m' earlier (List.cons.inj heq).2

omit [JobQueue Q JobId JobData] in
theorem safeOnceChanged_cons : SafeOnceChanged i (m :: tr) ↔
    SafeOnceChanged i tr ∧ (FailsUncaught i m → ¬ Changed i tr) := by
  constructor
  · intro h
    exact ⟨fun later m' earlier heq => h (m :: later) m' earlier (by rw [heq]; rfl),
      h [] m tr rfl⟩
  · rintro ⟨htr, hm⟩ later m' earlier heq
    cases later with
    | nil =>
        obtain ⟨rfl, rfl⟩ := List.cons.inj heq
        exact hm
    | cons m'' later => exact htr later m' earlier (List.cons.inj heq).2

/-- A retryable call changes an order by changing its status. -/
theorem changesStatus_of_changes {ch : Choice} (hs : Transition.Reachable (logistics Q cfg) s)
    (hstep : step cfg s (.exec i ch) = some s') (hcall : s.call i = some call)
    (hretry : call.Retryable) (h : ChangesOrder i ⟨s, .exec i ch, s'⟩) :
    ∃ o row row', ChangesStatus ⟨s, .exec i ch, s'⟩ o row row' := by
  obtain ⟨-, o, ho⟩ := h
  have ho : s'.order o ≠ s.order o ∨ s'.history o ≠ s.history o := ho
  -- only `createOrder` and `softDelete` change an order without a move
  cases order_step hs hstep o with
  | same horder hhistory => exact absurd hhistory (ho.resolve_left (not_not.mpr horder))
  | created ha hcall' _ _ _ _ _ =>
      obtain ⟨rfl, -⟩ := Action.exec.inj ha
      rw [hcall] at hcall'
      obtain rfl := Option.some.inj hcall'
      exact hretry.elim
  | deleted ha hcall' _ _ _ =>
      obtain ⟨rfl, -⟩ := Action.exec.inj ha
      rw [hcall] at hcall'
      obtain rfl := Option.some.inj hcall'
      exact hretry.elim
  | moved _ _ _ _ _ _ _ _ hrow _ hticket hrow' _ =>
      exact ⟨o, _, _, hrow, hrow', fun heq => apply_status_ne hticket heq.symm⟩

omit [JobQueue Q JobId JobData] in
/-- A call that has changed no order has broken neither promise. -/
theorem both_of_not_changed (h : ¬ Changed i tr) : FailedUnchanged i tr ∧ SafeOnceChanged i tr := by
  have hmem : ∀ {later m' earlier}, tr = later ++ m' :: earlier →
      ¬ Changed i (m' :: earlier) := by
    rintro later m' earlier rfl ⟨m₁, hm₁, hchanges⟩
    exact h ⟨m₁, List.mem_append_right _ hm₁, hchanges⟩
  refine ⟨fun later m' earlier heq _ => hmem heq, fun later m' earlier heq _ hchanged => ?_⟩
  exact hmem heq (changed_cons.mpr (.inr hchanged))

/-- How it stands with a call after a run: what it has promised goes with what has failed, and
if nothing has failed that it leaves uncaught since it changed an order, it throws only by such
a failure. -/
structure Promised (i : ℕ) (tr : List (Transition.Move (Sys Q) Action)) (call : Call)
    (p : Prog Response) : Prop where
  iff : FailedUnchanged i tr ↔ SafeOnceChanged i tr
  going : SafeOnceChanged i tr → Changed i tr → p.ThrowsBy call.LeavesUncaught call.Threw

omit [JobQueue Q JobId JobData] in
/-- A step that is not one of the call. -/
theorem Promised.other {p : Prog Response} (h : Promised i tr call p)
    (hexec : ∀ ch, m.act ≠ .exec i ch) (hfail : m.act ≠ .fail i) :
    Promised i (m :: tr) call p := by
  have hchanges : ¬ ChangesOrder i m := fun h => h.1.elim hexec
  have hthrows : ¬ Throws i m := fun h => h.1.elim (fun h => h.elim hexec) hfail
  have hfails : ¬ FailsUncaught i m := fun h => hfail h.1
  have hsafe : SafeOnceChanged i (m :: tr) ↔ SafeOnceChanged i tr := by
    rw [safeOnceChanged_cons, and_iff_left fun h => absurd h hfails]
  constructor
  · rw [failedUnchanged_cons, and_iff_left fun h => absurd h hthrows, hsafe]
    exact h.iff
  · intro hsafe' hchanged
    exact h.going (hsafe.mp hsafe') ((changed_cons.mp hchanged).resolve_left hchanges)

omit [JobQueue Q JobId JobData] in
/-- A step in which the call goes on. -/
theorem Promised.went {p p' : Prog Response} {ch : Choice} (h : Promised i tr call p)
    (hact : m.act = .exec i ch) (hi : m.dst.threads.lookup i = some ⟨call, p'⟩)
    (hgoing : p.ThrowsBy call.LeavesUncaught call.Threw →
      p'.ThrowsBy call.LeavesUncaught call.Threw)
    (hchanges : ChangesOrder i m → p'.ThrowsBy call.LeavesUncaught call.Threw) :
    Promised i (m :: tr) call p' := by
  have hfails : ¬ FailsUncaught i m := by
    rintro ⟨hact', -⟩
    rw [hact] at hact'
    cases hact'
  have hsafe : SafeOnceChanged i (m :: tr) ↔ SafeOnceChanged i tr := by
    rw [safeOnceChanged_cons, and_iff_left fun h => absurd h hfails]
  have hthrowsBy : SafeOnceChanged i tr → Changed i (m :: tr) →
      p'.ThrowsBy call.LeavesUncaught call.Threw := by
    intro hsafe' hchanged
    rcases changed_cons.mp hchanged with hm | htr
    · exact hchanges hm
    · exact hgoing (h.going hsafe' htr)
  refine ⟨?_, fun hsafe' => hthrowsBy (hsafe.mp hsafe')⟩
  rw [failedUnchanged_cons, hsafe, h.iff]
  refine ⟨And.left, fun hsafe' => ⟨hsafe', ?_⟩⟩
  -- the call is not where it has thrown
  rintro ⟨-, call', q, hq, hthrew⟩ hchanged
  rw [hi] at hq
  obtain ⟨rfl, rfl⟩ := Thread.mk.inj (Option.some.inj hq)
  exact (hthrowsBy hsafe' hchanged).not_thrown hthrew

omit [JobQueue Q JobId JobData] in
/-- A step in which what the call is about to perform fails. -/
theorem Promised.failed {e : Effect} {k : Except Error e.Resp → Prog Response}
    (h : Promised i tr call (.op e k)) (hact : m.act = .fail i)
    (hsrc : m.src.threads.lookup i = some ⟨call, .op e k⟩)
    (hdst : m.dst.threads.lookup i = some ⟨call, k (.error .Unavailable)⟩) :
    Promised i (m :: tr) call (k (.error .Unavailable)) := by
  have hchanges : ¬ ChangesOrder i m := by
    rintro ⟨⟨ch, hact'⟩, -⟩
    rw [hact] at hact'
    cases hact'
  have hchanged : Changed i (m :: tr) ↔ Changed i tr := by
    rw [changed_cons, or_iff_right hchanges]
  have hthrew : ∀ {T : Prop}, Throws i m → (call.Threw (k (.error .Unavailable)) → T) → T := by
    rintro T ⟨-, call', q, hq, hthrew⟩ hT
    rw [hdst] at hq
    obtain ⟨rfl, rfl⟩ := Thread.mk.inj (Option.some.inj hq)
    exact hT hthrew
  by_cases hU : call.LeavesUncaught e
  -- it throws, and both promises are kept if it has changed nothing
  · have hfails : FailsUncaught i m :=
      ⟨hact, call, e, Sys.call_of_lookup hsrc, Sys.next_of_lookup hsrc, hU⟩
    constructor
    · rw [failedUnchanged_cons, safeOnceChanged_cons, hchanged, h.iff]
      refine and_congr_right fun hsafe => ⟨fun hno _ hch => ?_, fun hno _ => hno hfails⟩
      exact hno ⟨.inr hact, call, _, hdst, ((h.going hsafe hch).2.2 _).1 hU⟩ hch
    · intro hsafe hch
      exact absurd (hchanged.mp hch) ((safeOnceChanged_cons.mp hsafe).2 hfails)
  -- it catches what has failed
  · have hfails : ¬ FailsUncaught i m := by
      rintro ⟨-, call', e', hcall, hnext, hU'⟩
      rw [Sys.call_of_lookup hsrc] at hcall
      rw [Sys.next_of_lookup hsrc] at hnext
      obtain rfl := Option.some.inj hcall
      obtain rfl := Option.some.inj hnext
      exact hU hU'
    have hsafe : SafeOnceChanged i (m :: tr) ↔ SafeOnceChanged i tr := by
      rw [safeOnceChanged_cons, and_iff_left fun h => absurd h hfails]
    have hthrowsBy : SafeOnceChanged i tr → Changed i tr →
        (k (.error .Unavailable)).ThrowsBy call.LeavesUncaught call.Threw :=
      fun hsafe' hch => ((h.going hsafe' hch).2.2 _).2 hU
    constructor
    · rw [failedUnchanged_cons, hsafe, hchanged, h.iff]
      refine ⟨And.left, fun hsafe' => ⟨hsafe', fun hthrows hch => ?_⟩⟩
      exact hthrew hthrows (hthrowsBy hsafe' hch).not_thrown
    · intro hsafe' hch
      exact hthrowsBy (hsafe.mp hsafe') (hchanged.mp hch)

/-- What a call leaves uncaught does not throw by itself. -/
theorem throwsBy_answer {e : Effect} {k : Except Error e.Resp → Prog Response} (ch : Choice)
    (sh : Shared Q) (h : (op e k).ThrowsBy call.LeavesUncaught call.Threw) :
    (k (perform cfg ch e sh).1).ThrowsBy call.LeavesUncaught call.Threw := by
  have hans : Answer e (perform cfg ch e sh).1 := perform_answer ch e sh
  obtain ⟨-, hok, herr⟩ := h
  cases hr : (perform cfg ch e sh).1 with
  | ok a => exact hok a
  | error err =>
      rw [hr] at hans
      refine (herr err).2 fun hU => ?_
      refine not_answer_error ?_ ?_ hans
      · cases e with
        | transaction t => exact hU
        | _ => trivial
      · rintro queue j rfl
        exact hU

/-- What is left of a retryable call that changes an order in a step throws only by a failure
that it leaves uncaught. -/
theorem throwsBy_of_changes {ch : Choice} {e : Effect}
    {k : Except Error e.Resp → Prog Response} (hs : Transition.Reachable (logistics Q cfg) s)
    (hstep : step cfg s (.exec i ch) = some s')
    (hi : s.threads.lookup i = some ⟨call, .op e k⟩) (hretry : call.Retryable)
    (h : ChangesOrder i ⟨s, .exec i ch, s'⟩) :
    (k (perform cfg ch e s.shared).1).ThrowsBy call.LeavesUncaught call.Threw := by
  obtain ⟨o, row, row', hchange⟩ :=
    changesStatus_of_changes hs hstep (Sys.call_of_lookup hi) hretry h
  obtain ⟨i', ch', t, call', k', res, l, ha, hi', -, hth, htells, -⟩ :=
    answer_of_change hs hstep hchange
  obtain ⟨rfl, rfl⟩ := Action.exec.inj ha
  obtain ⟨-, hth'⟩ := exec_eq_some hi hstep
  rw [hi] at hi'
  obtain ⟨rfl, hop⟩ := Thread.mk.inj (Option.some.inj hi')
  obtain ⟨rfl, hk⟩ := op.inj hop
  obtain rfl := eq_of_heq hk
  -- the answer is the one that has told the change
  have hans : k (perform cfg ch (.transaction t) s.shared).1 = k (.ok res) := by
    have hlookup := congrArg (AList.lookup i) (hth'.symm.trans hth)
    rw [AList.lookup_insert, AList.lookup_insert] at hlookup
    exact (Thread.mk.inj (Option.some.inj hlookup)).2
  have hall : Pool.ForallThreads (fun call p => call.Retryable →
      p.AllNodes (ThrowsAfter call.LeavesUncaught call.Threw)) s :=
    forallThreads_of_reachable (fun _ _ _ h r hretry => (h hretry).2 r)
      (fun _ hretry => program_throwsAfter hretry) hs
  rw [hans]
  exact (hall i _ hi hretry).1 res l htells

/-- How it stands with every retryable call of a run. -/
theorem promised_of_run (run : Transition.Run (logistics Q cfg) tr s) :
    ∀ i call p, s.threads.lookup i = some ⟨call, p⟩ → call.Retryable →
      Promised i tr call p := by
  refine run.invariant_trace (P := fun tr s => ∀ i call p,
    s.threads.lookup i = some ⟨call, p⟩ → call.Retryable → Promised i tr call p) ?_ ?_
  · intro s hinit i call p hi
    rw [hinit.threads, AList.lookup_empty] at hi
    cases hi
  intro tr s a s' run ih hstep i call p hi hretry
  by_cases hexec : ∃ ch, a = .exec i ch
  · obtain ⟨ch, rfl⟩ := hexec
    obtain ⟨call₁, e, k, hi₁, -, hth⟩ := Pool.advance_eq_some hstep
    have hi' := hi
    rw [hth, AList.lookup_insert] at hi'
    obtain ⟨rfl, rfl⟩ := Thread.mk.inj (Option.some.inj hi')
    exact (ih i _ _ hi₁ hretry).went rfl hi (throwsBy_answer ch s.shared)
      (throwsBy_of_changes run.reachable hstep hi₁ hretry)
  by_cases hfail : a = .fail i
  · subst hfail
    have hfails : step cfg s (.fail i) = some s' := hstep
    simp only [step, Option.ite_none_right_eq_some] at hfails
    obtain ⟨call₁, e, k, hi₁, -, hth⟩ := Pool.interrupt_eq_some hfails.2
    have hi' := hi
    rw [hth, AList.lookup_insert] at hi'
    obtain ⟨rfl, rfl⟩ := Thread.mk.inj (Option.some.inj hi')
    exact (ih i _ _ hi₁ hretry).failed rfl hi₁ hi
  -- another step: the call was there, or is made
  have hexec' : ∀ ch, a ≠ .exec i ch := fun ch heq => hexec ⟨ch, heq⟩
  have hold : s.threads.lookup i = some ⟨call, p⟩ → Promised i (⟨s, a, s'⟩ :: tr) call p :=
    fun hi₁ => (ih i _ _ hi₁ hretry).other hexec' hfail
  cases call_step hstep with
  | same hth =>
      rw [hth] at hi
      exact hold hi
  | made hfree hth =>
      rw [hth] at hi
      rcases Pool.lookup_insert_cases hi with ⟨rfl, -⟩ | ⟨-, hi⟩
      · have hnone : ¬ Changed i (⟨s, a, s'⟩ :: tr) := by
          rintro ⟨m, hm, ⟨ch, hact⟩, -⟩
          rcases List.mem_cons.mp hm with rfl | hm
          · exact hexec' ch hact
          · exact lookup_of_done run hm hact hfree
        obtain ⟨hunchanged, hsafe⟩ := both_of_not_changed hnone
        exact ⟨iff_of_true hunchanged hsafe, fun _ h => absurd h hnone⟩
      · exact hold hi
  | went ha _ _ hth =>
      rw [hth] at hi
      rcases Pool.lookup_insert_cases hi with ⟨rfl, -⟩ | ⟨-, hi⟩
      · exact absurd ha (hexec' _)
      · exact hold hi
  | failed ha _ _ hth =>
      rw [hth] at hi
      rcases Pool.lookup_insert_cases hi with ⟨rfl, -⟩ | ⟨-, hi⟩
      · exact absurd ha hfail
      · exact hold hi

/-- **A retryable call that throws has changed no order, if and only if nothing that it leaves
uncaught fails once it has changed one**, whatever fails and whatever else goes on. -/
theorem failed_unchanged_iff (run : Transition.Run (logistics Q cfg) tr s)
    (hcall : s.call i = some call) (hretry : call.Retryable) :
    FailedUnchanged i tr ↔ SafeOnceChanged i tr := by
  obtain ⟨⟨_, p⟩, hi, rfl⟩ := Option.map_eq_some_iff.mp hcall
  exact (promised_of_run run i _ p hi hretry).iff

end Runs

/-! ### In the small system -/

/-- The request has thrown, as a computation. -/
def failedb : Prog Response → Bool
  | .fail _ => true
  | _ => false

/-- Call `i` changes the status of an order in the step, as a computation. -/
def changesb (i : ℕ) (o : OrderId) (m : Transition.Move (Sys Q) Action) : Bool :=
  match m.act with
  | .exec j _ => decide (j = i) && decide (m.dst.status o ≠ m.src.status o)
  | _ => false

omit [JobQueue Q JobId JobData] in
theorem changed_of_any {tr : List (Transition.Move (Sys Q) Action)}
    (h : tr.any (changesb i o) = true) : Changed i tr := by
  obtain ⟨m, hm, hchanges⟩ := List.any_eq_true.mp h
  unfold changesb at hchanges
  split at hchanges
  · next j ch hact =>
      simp only [Bool.and_eq_true, decide_eq_true_eq] at hchanges
      obtain ⟨rfl, hne⟩ := hchanges
      refine ⟨m, hm, ⟨ch, hact⟩, o, .inl fun heq => hne ?_⟩
      rw [Sys.status, Sys.status, heq]
  · cases hchanges

/-- The driver rejects the trip, and the queue cannot be reached when the trip is to be
dispatched again: call `3`. -/
def rejectedUntriggered : List Action :=
  orderTrip ++ offerTrip ++ .invoke 3 (.rejectDispatch sampleOrder sampleDriver) ::
    proceed 3 5 sampleChoice

theorem rejectedUntriggered_possible : ((logistics BullQueue (sampleConfig 3)).exec
    (start [carDriver]) rejectedUntriggered).isSome := by
  decide +kernel

theorem rejectedUntriggered_fails : (step (sampleConfig 3) (after _ _ _
    rejectedUntriggered_possible) (.fail 3)).isSome := by
  decide +kernel

/-- A rejection that has put the trip back throws. -/
theorem rejection_throws_changed : ∃ tr s,
    Transition.Run (logistics BullQueue (sampleConfig 3)) tr s ∧
    s.call 3 = some (.request (.rejectDispatch sampleOrder sampleDriver)) ∧
    ¬ FailedUnchanged 3 tr := by
  have hstep : (logistics BullQueue (sampleConfig 3)).step (after _ _ _
      rejectedUntriggered_possible) (.fail 3) = some (Option.get _ rejectedUntriggered_fails) :=
    (Option.some_get _).symm
  refine ⟨_, _, (after_run rejectedUntriggered_possible).snoc hstep, by decide +kernel, ?_⟩
  have hthrew : ((Option.get _ rejectedUntriggered_fails).threads.lookup 3).any
      (fun th => failedb th.prog) = true := by decide +kernel
  have hcall : (Option.get _ rejectedUntriggered_fails).call 3
      = some (.request (.rejectDispatch sampleOrder sampleDriver)) := by decide +kernel
  have hchanged : ((logistics BullQueue (sampleConfig 3)).moves [] (start [carDriver])
      rejectedUntriggered).any (changesb 3 sampleOrder) = true := by decide +kernel
  obtain ⟨⟨call, p⟩, hi, hfailed⟩ := (Option.any_eq_true ..).mp hthrew
  rw [Sys.call_of_lookup hi] at hcall
  obtain rfl := Option.some.inj hcall
  cases p with
  | fail err =>
      intro h
      exact h [] _ _ rfl ⟨.inr rfl, _, _, hi, trivial⟩
        (changed_cons.mpr (.inr (changed_of_any hchanged)))
  | ret a => cases hfailed
  | op e k => cases hfailed

/-- Whether what fails in the step is the removal of a job, as a computation. -/
def failsRemovingb (m : Transition.Move (Sys Q) Action) : Bool :=
  match m.act with
  | .fail i =>
      match m.src.next i with
      | some (.removeJob _ _) => true
      | _ => false
  | _ => true

omit [JobQueue Q JobId JobData] in
theorem safeOnceChanged_of_all {tr : List (Transition.Move (Sys Q) Action)}
    (h : tr.all failsRemovingb = true) : SafeOnceChanged i tr := by
  rintro later m earlier rfl ⟨hact, call, e, -, hnext, hU⟩
  have hm := List.all_eq_true.mp h m (List.mem_append_right _ List.mem_cons_self)
  simp only [failsRemovingb, hact, hnext] at hm
  cases e with
  | removeJob queue j => exact hU.elim
  | _ => cases hm

/-- The driver rejects the trip, and the timeout job cannot be removed: call `3`. -/
def rejectedUnremoved : List Action :=
  orderTrip ++ offerTrip ++ .invoke 3 (.rejectDispatch sampleOrder sampleDriver) ::
    proceed 3 3 sampleChoice ++ .fail 3 :: proceed 3 2 sampleChoice

theorem rejectedUnremoved_possible : ((logistics BullQueue (sampleConfig 3)).exec
    (start [carDriver]) rejectedUnremoved).isSome := by
  decide +kernel

/-- That failure is caught. -/
theorem failed_unchanged_iff_of_trip : FailedUnchanged 3
    ((logistics BullQueue (sampleConfig 3)).moves [] (start [carDriver]) rejectedUnremoved) := by
  have hcall : (after _ _ _ rejectedUnremoved_possible).call 3
      = some (.request (.rejectDispatch sampleOrder sampleDriver)) := by decide +kernel
  exact (failed_unchanged_iff (after_run rejectedUnremoved_possible) hcall trivial).mpr
    (safeOnceChanged_of_all (by decide +kernel))

end LogisticsDispatch
