/-
The Redis key of an order's ETA job, and the job itself.

`ensureEtaJobScheduled`, `cancelEtaJob` and the worker's turns of `handleEtaRecalculation`
update the key and the job in separate steps. While one of them is under way the two may
disagree, but then it still owes the step that settles it (`EtaSettled`): who adds a job sets the
key next, who removes one deletes the key, and a turn that has taken the job deletes the key
or sets it. So they agree whenever no call is under way, in every run in which the key is
only set with a job ahead and only deleted without one (`eta_bookkeeping`). A turn never
sets it with a job ahead: its own job is active, and adding under its id adds nothing.
-/
import LogisticsDispatch.Duties

set_option autoImplicit false

namespace LogisticsDispatch

open Resumable Resumable.Program

/-! ## The system -/

/-- A call: of one of the two methods, or a worker's turn on a job of the tracking queue. -/
inductive EtaCall
  | ensureEtaJobScheduled (orderId : OrderId) (driverProfileId : DriverId)
  | cancelEtaJob (orderId : OrderId)
  | worker (jobId : JobId) (data : JobData)
deriving DecidableEq

/-- The program of a call. -/
def EtaCall.program (cfg : DispatchConfig) : EtaCall → Prog Unit
  | ensureEtaJobScheduled orderId driverProfileId =>
      TrackingService.ensureEtaJobScheduled orderId driverProfileId
  | cancelEtaJob orderId => TrackingService.cancelEtaJob orderId
  | worker jobId data => LogisticsDispatch.worker cfg .TRACKING_QUEUE jobId data

/-- One step. Nothing fails and no key expires. -/
inductive EtaAction
  /-- A method is called. -/
  | ensureEtaJobScheduled (i : ℕ) (orderId : OrderId) (driverProfileId : DriverId)
  | cancelEtaJob (i : ℕ) (orderId : OrderId)
  /-- Call `i` performs its next effect. -/
  | exec (i : ℕ) (ch : Choice)
  /-- A worker takes a waiting job; its turn on it is call `i`. -/
  | deliver (i : ℕ) (jobId : JobId)
  | promote (jobId : JobId)
  | evict (jobId : JobId)
  /-- Whatever else goes on in the database. -/
  | write (db : Db)

/-- The state: what is shared, and the calls. -/
abbrev EtaSys (Q : Type) := Pool (Shared Q) EtaCall Effect Effect.Resp Error Unit

variable {Q : Type} [JobQueue Q JobId JobData] {cfg : DispatchConfig} {s s' : EtaSys Q}
  {a : EtaAction} {o : OrderId} {d : DriverId} {i : ℕ} {call : EtaCall} {α : Type}

/-- Another tracking queue. -/
def EtaSys.setTracking (s : EtaSys Q) (q : Q) : EtaSys Q :=
  { s with shared := { s.shared with trackingQueue := q } }

/-- The successor of a state under an action, if the action can be taken there. -/
def etaStep (cfg : DispatchConfig) (s : EtaSys Q) : EtaAction → Option (EtaSys Q)
  | .ensureEtaJobScheduled i orderId driverProfileId =>
      let call := EtaCall.ensureEtaJobScheduled orderId driverProfileId
      s.spawn i call (call.program cfg)
  | .cancelEtaJob i orderId =>
      let call := EtaCall.cancelEtaJob orderId
      s.spawn i call (call.program cfg)
  | .exec i ch => s.advance (machine cfg) i ch
  | .deliver i jobId =>
      match JobQueue.find s.shared.trackingQueue jobId with
      | some (.waiting, data) =>
          let call := EtaCall.worker jobId data
          (s.setTracking (JobQueue.take s.shared.trackingQueue jobId)).spawn i call
            (call.program cfg)
      | _ => none
  | .promote jobId => some (s.setTracking (JobQueue.promote s.shared.trackingQueue jobId))
  | .evict jobId => some (s.setTracking (JobQueue.evict s.shared.trackingQueue jobId))
  | .write db => some { s with shared := { s.shared with db := db } }

/-- There are no ETA jobs and no keys of such yet, and no calls. -/
structure EtaInitial (s : EtaSys Q) : Prop where
  redis : ∀ o, s.shared.redis.lookup (.ETA_JOB_KEY o) = none
  queue : ∀ jobId, JobQueue.find s.shared.trackingQueue jobId = none
  threads : s.threads = ∅

variable (Q) in
/-- The three methods on one tracking queue. -/
def etaSystem (cfg : DispatchConfig) : Transition.System (EtaSys Q) EtaAction where
  Init := EtaInitial
  step := etaStep cfg

/-! ## The contract -/

/-- The key of the order's ETA job is present. -/
def EtaSys.Keyed (s : EtaSys Q) (o : OrderId) : Prop :=
  (s.shared.redis.lookup (.ETA_JOB_KEY o)).isSome

/-- A recalculation for the order is waiting or delayed. -/
def EtaSys.Scheduled (s : EtaSys Q) (o : OrderId) : Prop :=
  JobQueue.Ahead s.shared.trackingQueue (.recalculateEta o)

instance : Decidable (s.Keyed o) := inferInstanceAs (Decidable (Option.isSome _ = true))

instance : Decidable (s.Scheduled o) := inferInstanceAs (Decidable (JobQueue.Ahead _ _))

/-- The effect call `i` performs next. -/
def EtaSys.next (s : EtaSys Q) (i : ℕ) : Option Effect :=
  match s.threads.lookup i with
  | some ⟨_, .op e _⟩ => some e
  | _ => none

/-- To set the key of an order's ETA job. -/
def SetsEta (o : OrderId) : Effect → Prop
  | .redisSet (.ETA_JOB_KEY o') _ _ => o' = o
  | _ => False

/-- To delete it. -/
def DeletesEta (o : OrderId) : Effect → Prop
  | .redisDel (.ETA_JOB_KEY o') => o' = o
  | _ => False

/-- A step sets a key only with a recalculation ahead, and deletes one only without. -/
def WritesEtaInStep (m : Transition.Move (EtaSys Q) EtaAction) : Prop :=
  ∀ i ch e o, m.act = .exec i ch → m.src.next i = some e →
    (SetsEta o e → m.src.Scheduled o) ∧ (DeletesEta o e → ¬ m.src.Scheduled o)

/-! ## What the methods owe -/

/-- The answers the methods get: a key names the job of its order, and a job is added under its
id. -/
def EtaAnswer : (e : Effect) → Except Error e.Resp → Prop
  | .redisGet (.ETA_JOB_KEY o), r => r = .ok none ∨ r = .ok (some (.recalculateEta o))
  | .addJob _ j _ _, r => r = .ok j
  | e, r => Answer e r

/-- The answers while the key of the order is present. -/
def KeyedAnswer (o : OrderId) : (e : Effect) → Except Error e.Resp → Prop
  | .redisGet (.ETA_JOB_KEY o'), r => r = .ok (some (.recalculateEta o')) ∨ o' ≠ o ∧ r = .ok none
  | e, r => EtaAnswer e r

/-- To ask for something, or to emit an event: neither keys nor jobs are changed. -/
def Asks : Effect → Prop
  | .findOrder _ => True
  | .findDriver _ => True
  | .redisGet _ => True
  | .getJob _ _ => True
  | .emit _ => True
  | _ => False

/-- What a call may perform, and what it owes after it. -/
inductive EtaNode (call : EtaCall) : (e : Effect) → (Except Error e.Resp → Prog α) → Prop
  | asks {e : Effect} {k : Except Error e.Resp → Prog α} (h : Asks e) : EtaNode call e k
  | add (o : OrderId) (d : DriverId) (delay : ℕ) {k : Except Error JobId → Prog α}
      (hwill : (k (.ok (.recalculateEta o))).Will (SetsEta o) EtaAnswer) :
      EtaNode call (.addJob .TRACKING_QUEUE (.recalculateEta o) (.recalculate_eta o d) delay) k
  | set (o : OrderId) (ttl : ℕ) {k : Except Error Unit → Prog α} :
      EtaNode call (.redisSet (.ETA_JOB_KEY o) (.recalculateEta o) ttl) k
  | remove (o : OrderId) {k : Except Error Unit → Prog α}
      (hwill : ∀ r, (k r).Will (DeletesEta o) EtaAnswer) :
      EtaNode call (.removeJob .TRACKING_QUEUE (.recalculateEta o)) k
  | delete (o : OrderId) {k : Except Error Unit → Prog α} :
      EtaNode call (.redisDel (.ETA_JOB_KEY o)) k
  -- the last thing that a worker does in its turn
  | finish (j : JobId) (data : JobData) (ok : Bool) {k : Except Error Unit → Prog α}
      (hcall : call = .worker j data) (hdone : ∀ r, (k r).isDone = true) :
      EtaNode call (.finishJob .TRACKING_QUEUE j ok) k

section Methods

theorem answer_of_etaAnswer {e : Effect} {r : Except Error e.Resp} (h : EtaAnswer e r) :
    Answer e r := by
  unfold EtaAnswer at h
  split at h
  · rcases h with rfl | rfl
    · exact ⟨_, rfl⟩
    · exact ⟨_, rfl⟩
  · exact ⟨_, h⟩
  · exact h

theorem ensureEtaJobScheduled_nodes (o : OrderId) (d : DriverId) :
    (TrackingService.ensureEtaJobScheduled o d).NodesUnder EtaAnswer (EtaNode call) := by
  refine ⟨.asks trivial, fun r hr => ?_⟩
  rcases hr with rfl | rfl
  · refine ⟨.add o d 0 (will_of_next rfl), fun r hr => ?_⟩
    obtain rfl : r = .ok (.recalculateEta o) := hr
    exact ⟨.set o _, fun r _ => by cases r <;> trivial⟩
  · trivial

theorem cancelEtaJob_nodes (o : OrderId) :
    (TrackingService.cancelEtaJob o).NodesUnder EtaAnswer (EtaNode call) := by
  have hdelete : (ask (.redisDel (.ETA_JOB_KEY o))).NodesUnder EtaAnswer
      (EtaNode (α := Unit) call) := ⟨.delete o, fun r _ => by cases r <;> trivial⟩
  refine ⟨.asks trivial, fun r hr => ?_⟩
  rcases hr with rfl | rfl
  · trivial
  -- the job is looked up, and removed if it is there
  refine ⟨.asks trivial, fun r hr => ?_⟩
  obtain ⟨job, rfl⟩ := hr
  cases job with
  | none => exact hdelete
  | some data =>
      refine ⟨.remove o fun r => ?_, fun r _ => ?_⟩
      · cases r <;> exact will_of_next rfl
      · cases r <;> exact hdelete

/-- What a method that is no worker's turn performs, it may perform in the turn. -/
theorem EtaNode.bind {β : Type} {call' : EtaCall} (hcall : ∀ j data, call ≠ .worker j data)
    {e : Effect} {k : Except Error e.Resp → Prog α} (h : EtaNode call e k) (f : α → Prog β) :
    EtaNode call' e fun r => k r >>= f := by
  cases h with
  | asks h => exact .asks h
  | add o d delay hwill => exact .add o d delay hwill.bind
  | set o ttl => exact .set o ttl
  | remove o hwill => exact .remove o fun r => (hwill r).bind
  | delete o => exact .delete o
  | finish j data ok h _ => exact absurd h (hcall j data)

theorem EtaNode.tryCatch {call' : EtaCall} (hcall : ∀ j data, call ≠ .worker j data)
    {e : Effect} {k : Except Error e.Resp → Prog α} (h : EtaNode call e k)
    (g : Error → Prog α) : EtaNode call' e fun r => MonadExcept.tryCatch (k r) g := by
  cases h with
  | asks h => exact .asks h
  | add o d delay hwill => exact .add o d delay hwill.tryCatch
  | set o ttl => exact .set o ttl
  | remove o hwill => exact .remove o fun r => (hwill r).tryCatch
  | delete o => exact .delete o
  | finish j data ok h _ => exact absurd h (hcall j data)

theorem notify_nodes (event : Event) :
    (EventPublisherService.notify event).NodesUnder EtaAnswer (EtaNode call) :=
  ⟨.asks trivial, fun r _ => by cases r <;> trivial⟩

theorem handleEtaRecalculation_nodes (hcall : ∀ j data, call ≠ .worker j data) (o : OrderId)
    (d : DriverId) :
    (TrackingService.handleEtaRecalculation cfg o d).NodesUnder EtaAnswer (EtaNode call) := by
  refine nodesUnder_perform_bind (.asks trivial) fun found _ => ?_
  split
  · exact cancelEtaJob_nodes o
  split
  · exact cancelEtaJob_nodes o
  refine nodesUnder_perform_bind (.asks trivial) fun found _ => ?_
  split
  · exact cancelEtaJob_nodes o
  split
  -- the next recalculation is added, and the key is set
  · refine (notify_nodes _).bind_of (fun e k h => h.bind hcall _) fun _ => ?_
    refine nodesUnder_perform_bind (.add o d _ (will_of_next rfl)) fun j hj => ?_
    obtain rfl := Except.ok.inj hj
    exact ⟨.set o _, fun r _ => by cases r <;> trivial⟩
  · exact cancelEtaJob_nodes o

/-- A worker on a job of the order. -/
theorem worker_nodes (o : OrderId) (d : DriverId) (j : JobId) :
    ((EtaCall.worker j (.recalculate_eta o d)).program cfg).NodesUnder EtaAnswer
      (EtaNode (.worker j (.recalculate_eta o d))) := by
  have hne : ∀ j data, EtaCall.cancelEtaJob o ≠ .worker j data := fun _ _ h => by cases h
  have hhandle : (TrackingService.handleEtaRecalculation cfg o d).NodesUnder EtaAnswer
      (EtaNode (.cancelEtaJob o)) := handleEtaRecalculation_nodes hne o d
  refine .bind_of (NodesUnder.tryCatch_of (hhandle.bind_of (fun e k h => h.bind hne _)
    fun _ => trivial) (fun e k h => h.tryCatch hne _) fun _ => trivial) (fun e k h => h.bind hne _)
    fun ok => ?_
  refine ⟨.finish j _ ok rfl fun r => ?_, fun r _ => ?_⟩
  · cases r <;> rfl
  · cases r <;> trivial

/-- What keeps the key of an order is what `KeyedAnswer` says beyond `EtaAnswer`. -/
theorem etaAnswer_of_keyedAnswer {e : Effect} {r : Except Error e.Resp}
    (h : KeyedAnswer o e r) : EtaAnswer e r := by
  unfold KeyedAnswer at h
  split at h
  · exact h.elim .inr fun h => .inl h.2
  · exact h

theorem not_keyedAnswer_error {e : Effect} {err : Error} (ht : NoTransaction e)
    (hr : ∀ queue j, e ≠ .removeJob queue j) : ¬ KeyedAnswer o e (.error err) :=
  fun h => not_answer_error ht hr (answer_of_etaAnswer (etaAnswer_of_keyedAnswer h))

/-- While the key is present, cancelling deletes it. -/
theorem cancelEtaJob_settles (o : OrderId) : (TrackingService.cancelEtaJob o).Will
    (fun e => SetsEta o e ∨ DeletesEta o e) (KeyedAnswer o) := by
  refine will_perform_bind (fun _ => not_keyedAnswer_error trivial fun _ _ h => by cases h) ?_
  rintro found (h | ⟨hne, -⟩)
  · obtain rfl := Except.ok.inj h
    exact Completes.will_bind (completes_tryCatch fun _ => trivial) fun _ =>
      will_of_next (.inr rfl)
  · exact absurd rfl hne

/-- A worker that takes a job of the order deletes the key or sets it, if it is present. -/
theorem worker_settles (o : OrderId) (d : DriverId) (j : JobId) :
    ((EtaCall.worker j (.recalculate_eta o d)).program cfg).Will
      (fun e => SetsEta o e ∨ DeletesEta o e) (KeyedAnswer o) := by
  refine .bind (.tryCatch (.bind ?_))
  refine will_perform_bind (fun _ => not_keyedAnswer_error trivial fun _ _ h => by cases h)
    fun found _ => ?_
  split
  · exact cancelEtaJob_settles o
  split
  · exact cancelEtaJob_settles o
  refine will_perform_bind (fun _ => not_keyedAnswer_error trivial fun _ _ h => by cases h)
    fun found _ => ?_
  split
  · exact cancelEtaJob_settles o
  split
  · refine Completes.will_bind (completes_tryCatch fun _ => trivial) fun _ => ?_
    refine will_perform_bind (fun _ => not_keyedAnswer_error trivial fun _ _ h => by cases h)
      fun j _ => will_of_next (.inl rfl)
  · exact cancelEtaJob_settles o

/-- A turn on a job of the order sets no other order's key. -/
theorem worker_sets (o : OrderId) (d : DriverId) (j : JobId) :
    ((EtaCall.worker j (.recalculate_eta o d)).program cfg).All
      fun e => ∀ o', SetsEta o' e → o' = o := by
  have hcancel : (TrackingService.cancelEtaJob o).All fun e => ∀ o', SetsEta o' e → o' = o :=
    cancelEtaJob_all (fun _ h => h.elim) (fun _ _ h => h.elim) (fun _ _ h => h.elim)
      fun _ h => h.elim
  refine .bind (.tryCatch (.bind ?_ fun _ => trivial) fun _ => trivial) fun ok =>
    all_perform fun _ h => h.elim
  refine .bind (all_perform fun _ h => h.elim) fun found => ?_
  split
  · exact hcancel
  split
  · exact hcancel
  refine .bind (all_perform fun _ h => h.elim) fun found => ?_
  split
  · exact hcancel
  split
  · refine .bind (notify_all fun _ h => h.elim) fun _ => ?_
    exact .bind (all_perform fun _ h => h.elim) fun _ => all_perform fun _ h => h.symm
  · exact hcancel

end Methods

/-! ## What is kept in every step -/

/-- What performing an effect that a call may perform does to the keys and the jobs. -/
inductive EtaTurn (sh sh' : Shared Q) : Effect → Prop
  | asks {e : Effect} (h : Asks e) (hredis : sh'.redis = sh.redis)
      (hqueue : sh'.trackingQueue = sh.trackingQueue) : EtaTurn sh sh' e
  | add (o : OrderId) (d : DriverId) (delay : ℕ) (hredis : sh'.redis = sh.redis)
      (hqueue : sh'.trackingQueue = JobQueue.add sh.trackingQueue (.recalculateEta o)
        (.recalculate_eta o d) delay) :
      EtaTurn sh sh' (.addJob .TRACKING_QUEUE (.recalculateEta o) (.recalculate_eta o d) delay)
  | set (o : OrderId) (ttl : ℕ)
      (hredis : sh'.redis = sh.redis.insert (.ETA_JOB_KEY o) (.recalculateEta o))
      (hqueue : sh'.trackingQueue = sh.trackingQueue) :
      EtaTurn sh sh' (.redisSet (.ETA_JOB_KEY o) (.recalculateEta o) ttl)
  -- a job that a worker holds stays
  | remove (o : OrderId) (hredis : sh'.redis = sh.redis)
      (hqueue : sh'.trackingQueue = sh.trackingQueue ∨
        sh'.trackingQueue = JobQueue.remove sh.trackingQueue (.recalculateEta o)) :
      EtaTurn sh sh' (.removeJob .TRACKING_QUEUE (.recalculateEta o))
  | delete (o : OrderId) (hredis : sh'.redis = sh.redis.erase (.ETA_JOB_KEY o))
      (hqueue : sh'.trackingQueue = sh.trackingQueue) : EtaTurn sh sh' (.redisDel (.ETA_JOB_KEY o))
  | finish (j : JobId) (ok : Bool) (hredis : sh'.redis = sh.redis)
      (hqueue : sh'.trackingQueue = JobQueue.finish sh.trackingQueue j ok) :
      EtaTurn sh sh' (.finishJob .TRACKING_QUEUE j ok)

theorem etaTurn_of_node {ch : Choice} {sh : Shared Q} {e : Effect}
    {k : Except Error e.Resp → Prog α} (h : EtaNode call e k) :
    EtaTurn sh (perform cfg ch e sh).2 e := by
  cases h with
  | asks h =>
      refine .asks h ?_ ?_
      · cases e <;> first | rfl | exact h.elim
      · cases e <;> first | rfl | exact h.elim
  | add o d delay _ => exact .add o d delay rfl rfl
  | set o ttl => exact .set o ttl rfl rfl
  | remove o _ =>
      refine .remove o ?_ ?_
      · simp only [perform]
        split <;> rfl
      · simp only [perform]
        split
        · exact .inl rfl
        · exact .inr rfl
  | delete o => exact .delete o rfl rfl
  | finish j data ok _ _ => exact .finish j ok rfl rfl

/-- What holds in every reachable state: keys name the jobs of their orders, jobs are about
their orders, the calls go on as they may, and a job is active as long as the worker that has
taken it is under way, who is the only one. -/
structure EtaKept (s : EtaSys Q) : Prop where
  keys : ∀ o v, s.shared.redis.lookup (.ETA_JOB_KEY o) = some v → v = .recalculateEta o
  jobs : ∀ j st data, JobQueue.find s.shared.trackingQueue j = some (st, data) →
    ∃ o d, j = .recalculateEta o ∧ data = .recalculate_eta o d
  nodes : Pool.ForallThreads (fun call p => p.NodesUnder EtaAnswer (EtaNode call)) s
  own : Pool.ForallThreads (fun call p => ∀ j data, call = .worker j data →
    p.All fun e => ∀ o, SetsEta o e → j = .recalculateEta o) s
  active : ∀ i j data p, s.threads.lookup i = some ⟨.worker j data, p⟩ → p.isDone = false →
    JobQueue.Has s.shared.trackingQueue j .active
  alone : ∀ i i' j data data' p p', s.threads.lookup i = some ⟨.worker j data, p⟩ →
    s.threads.lookup i' = some ⟨.worker j data', p'⟩ → p.isDone = false → p'.isDone = false → i = i'

/-- The answers are those the methods get. -/
theorem EtaKept.answer (h : EtaKept s) (ch : Choice) (e : Effect) :
    EtaAnswer e (perform cfg ch e s.shared).1 := by
  unfold EtaAnswer
  split
  · next o =>
      cases hkey : s.shared.redis.lookup (.ETA_JOB_KEY o) with
      | none => exact .inl (congrArg Except.ok hkey)
      | some v =>
          obtain rfl := h.keys o v hkey
          exact .inr (congrArg Except.ok hkey)
  · rfl
  · exact perform_answer ch _ s.shared

/-- Keys go on naming the jobs of their orders. -/
theorem EtaTurn.keys {sh sh' : Shared Q} {e : Effect} (h : EtaTurn sh sh' e)
    (hkeys : ∀ o v, sh.redis.lookup (.ETA_JOB_KEY o) = some v → v = .recalculateEta o) :
    ∀ o v, sh'.redis.lookup (.ETA_JOB_KEY o) = some v → v = .recalculateEta o := by
  cases h with
  | asks _ hredis _ => rwa [hredis]
  | add _ _ _ hredis _ => rwa [hredis]
  | remove _ hredis _ => rwa [hredis]
  | finish _ _ hredis _ => rwa [hredis]
  | set o ttl hredis _ =>
      intro o' v hv
      rw [hredis] at hv
      by_cases ho : RedisKey.ETA_JOB_KEY o' = .ETA_JOB_KEY o
      · obtain rfl := RedisKey.ETA_JOB_KEY.inj ho
        rw [AList.lookup_insert] at hv
        exact (Option.some.inj hv).symm
      · rw [AList.lookup_insert_ne ho] at hv
        exact hkeys o' v hv
  | delete o hredis _ =>
      intro o' v hv
      rw [hredis] at hv
      by_cases ho : RedisKey.ETA_JOB_KEY o' = .ETA_JOB_KEY o
      · obtain rfl := RedisKey.ETA_JOB_KEY.inj ho
        rw [AList.lookup_erase] at hv
        cases hv
      · rw [AList.lookup_erase_ne ho] at hv
        exact hkeys o' v hv

/-- Jobs go on being about their orders. -/
theorem EtaTurn.jobs {sh sh' : Shared Q} {e : Effect} (h : EtaTurn sh sh' e)
    (hjobs : ∀ j st data, JobQueue.find sh.trackingQueue j = some (st, data) →
      ∃ o d, j = .recalculateEta o ∧ data = .recalculate_eta o d) :
    ∀ j st data, JobQueue.find sh'.trackingQueue j = some (st, data) →
      ∃ o d, j = .recalculateEta o ∧ data = .recalculate_eta o d := by
  intro j st data hfind
  cases h with
  | asks _ _ hqueue => exact hjobs j st data (hqueue ▸ hfind)
  | set _ _ _ hqueue => exact hjobs j st data (hqueue ▸ hfind)
  | delete _ _ hqueue => exact hjobs j st data (hqueue ▸ hfind)
  | add o d delay _ hqueue =>
      rw [hqueue] at hfind
      rcases JobQueue.data_of_add hfind with ⟨st', h⟩ | ⟨rfl, rfl⟩
      · exact hjobs j st' data h
      · exact ⟨o, d, rfl, rfl⟩
  | remove o _ hqueue =>
      rcases hqueue with hqueue | hqueue
      · exact hjobs j st data (hqueue ▸ hfind)
      · obtain ⟨st', h⟩ := JobQueue.data_of_remove (hqueue ▸ hfind)
        exact hjobs j st' data h
  | finish j' ok _ hqueue =>
      obtain ⟨st', h⟩ := JobQueue.data_of_finish (hqueue ▸ hfind)
      exact hjobs j st' data h

/-- A job that a worker holds stays active, but for the worker's report. -/
theorem EtaTurn.active {sh sh' : Shared Q} {e : Effect} {j : JobId} (h : EtaTurn sh sh' e)
    (hne : ∀ ok, e ≠ .finishJob .TRACKING_QUEUE j ok)
    (hactive : JobQueue.Has sh.trackingQueue j .active) :
    JobQueue.Has sh'.trackingQueue j .active := by
  cases h with
  | asks _ _ hqueue => rwa [hqueue]
  | set _ _ _ hqueue => rwa [hqueue]
  | delete _ _ hqueue => rwa [hqueue]
  | add o d delay _ hqueue =>
      rw [hqueue]
      exact hactive.add delay
  | remove o _ hqueue =>
      rcases hqueue with hqueue | hqueue
      · rwa [hqueue]
      · rw [hqueue]
        exact hactive.remove_active
  | finish j' ok _ hqueue =>
      rw [hqueue]
      refine hactive.finish_active ok ?_
      rintro rfl
      exact hne ok rfl

/-- A step that leaves the calls alone. -/
theorem EtaKept.same (h : EtaKept s) (hth : s'.threads = s.threads)
    (hredis : s'.shared.redis = s.shared.redis)
    (hjobs : ∀ j st data, JobQueue.find s'.shared.trackingQueue j = some (st, data) →
      ∃ st', JobQueue.find s.shared.trackingQueue j = some (st', data))
    (hactive : ∀ j, JobQueue.Has s.shared.trackingQueue j .active →
      JobQueue.Has s'.shared.trackingQueue j .active) : EtaKept s' where
  keys := by
    rw [hredis]
    exact h.keys
  jobs j st data hfind := by
    obtain ⟨st', hfind'⟩ := hjobs j st data hfind
    exact h.jobs j st' data hfind'
  nodes := h.nodes.same hth
  own := h.own.same hth
  active i j data p hi hp := by
    rw [hth] at hi
    exact hactive j (h.active i j data p hi hp)
  alone := by
    rw [hth]
    exact h.alone

/-- A step in which a call is made; a worker's turn begins with its job active, which it was
not. -/
theorem EtaKept.made {p : Prog Unit} (h : EtaKept s) (hfree : s.threads.lookup i = none)
    (hth : s'.threads = s.threads.insert i ⟨call, p⟩)
    (hredis : s'.shared.redis = s.shared.redis)
    (hjobs : ∀ j st data, JobQueue.find s'.shared.trackingQueue j = some (st, data) →
      ∃ st', JobQueue.find s.shared.trackingQueue j = some (st', data))
    (hactive : ∀ j, JobQueue.Has s.shared.trackingQueue j .active →
      JobQueue.Has s'.shared.trackingQueue j .active)
    (hnodes : p.NodesUnder EtaAnswer (EtaNode call))
    (hown : ∀ j data, call = .worker j data →
      p.All fun e => ∀ o, SetsEta o e → j = .recalculateEta o)
    (hnew : ∀ j data, call = .worker j data → JobQueue.Has s'.shared.trackingQueue j .active ∧
      ¬ JobQueue.Has s.shared.trackingQueue j .active) : EtaKept s' where
  keys := by
    rw [hredis]
    exact h.keys
  jobs j st data hfind := by
    obtain ⟨st', hfind'⟩ := hjobs j st data hfind
    exact h.jobs j st' data hfind'
  nodes := h.nodes.insert hth hnodes
  own := h.own.insert hth hown
  active i₁ j data p₁ hi₁ hp₁ := by
    rw [hth] at hi₁
    rcases Pool.lookup_insert_cases hi₁ with ⟨-, heq⟩ | ⟨-, hi₁⟩
    · obtain ⟨hcall, -⟩ := Thread.mk.inj heq
      exact (hnew j data hcall.symm).1
    · exact hactive j (h.active i₁ j data p₁ hi₁ hp₁)
  alone i₁ i₂ j data data' p₁ p₂ hi₁ hi₂ hp₁ hp₂ := by
    rw [hth] at hi₁ hi₂
    rcases Pool.lookup_insert_cases hi₁ with ⟨rfl, heq⟩ | ⟨-, hold₁⟩
    · rcases Pool.lookup_insert_cases hi₂ with ⟨rfl, -⟩ | ⟨-, hold₂⟩
      · rfl
      · obtain ⟨hcall, -⟩ := Thread.mk.inj heq
        exact absurd (h.active i₂ j data' p₂ hold₂ hp₂) (hnew j data hcall.symm).2
    · rcases Pool.lookup_insert_cases hi₂ with ⟨rfl, heq⟩ | ⟨-, hold₂⟩
      · obtain ⟨hcall, -⟩ := Thread.mk.inj heq
        exact absurd (h.active i₁ j data p₁ hold₁ hp₁) (hnew j data' hcall.symm).2
      · exact h.alone i₁ i₂ j data data' p₁ p₂ hold₁ hold₂ hp₁ hp₂

/-- A step in which a call goes on. -/
theorem EtaKept.went {ch : Choice} {e : Effect} {k : Except Error e.Resp → Prog Unit}
    (h : EtaKept s) (hi : s.threads.lookup i = some ⟨call, .op e k⟩)
    (hsh : s'.shared = (perform cfg ch e s.shared).2)
    (hth : s'.threads = s.threads.insert i ⟨call, k (perform cfg ch e s.shared).1⟩) :
    EtaKept s' := by
  obtain ⟨hnode, hrest⟩ := h.nodes i _ hi
  have hturn : EtaTurn s.shared s'.shared e := by
    rw [hsh]
    exact etaTurn_of_node hnode
  -- a worker that is under way was under way before the step
  have hold : ∀ {i₁ j data p₁}, s'.threads.lookup i₁ = some ⟨.worker j data, p₁⟩ →
      p₁.isDone = false → ∃ p₀, s.threads.lookup i₁ = some ⟨.worker j data, p₀⟩ ∧
        p₀.isDone = false ∧ ∀ ok, e ≠ .finishJob .TRACKING_QUEUE j ok := by
    intro i₁ j data p₁ hi₁ hp₁
    rw [hth] at hi₁
    rcases Pool.lookup_insert_cases hi₁ with ⟨rfl, heq⟩ | ⟨hne, hold₁⟩
    · obtain ⟨rfl, rfl⟩ := Thread.mk.inj heq
      refine ⟨_, hi, rfl, ?_⟩
      rintro ok rfl
      cases hnode with
      | asks hasks => exact hasks
      | finish _ _ _ _ hdone =>
          rw [hdone] at hp₁
          cases hp₁
    · refine ⟨p₁, hold₁, hp₁, ?_⟩
      rintro ok rfl
      cases hnode with
      | asks hasks => exact hasks
      | finish _ data' _ hcall _ =>
          subst hcall
          exact hne (h.alone i₁ i j data data' p₁ _ hold₁ hi hp₁ rfl)
  refine ⟨hturn.keys h.keys, hturn.jobs h.jobs, h.nodes.insert hth (hrest _ (h.answer ch e)),
    h.own.insert hth fun j data hcall => (h.own i _ hi j data hcall).2 _, ?_, ?_⟩
  · intro i₁ j data p₁ hi₁ hp₁
    obtain ⟨p₀, hi₀, hp₀, hne⟩ := hold hi₁ hp₁
    exact hturn.active hne (h.active i₁ j data p₀ hi₀ hp₀)
  · intro i₁ i₂ j data data' p₁ p₂ hi₁ hi₂ hp₁ hp₂
    obtain ⟨q₁, hi₁, hq₁, -⟩ := hold hi₁ hp₁
    obtain ⟨q₂, hi₂, hq₂, -⟩ := hold hi₂ hp₂
    exact h.alone i₁ i₂ j data data' q₁ q₂ hi₁ hi₂ hq₁ hq₂

/-- All that a step can do: a call is made, with its program, a worker takes a job, a call goes
on, or a delay, retention or another part of the system does something that concerns no
call. -/
inductive EtaStep (cfg : DispatchConfig) (s : EtaSys Q) (a : EtaAction) (s' : EtaSys Q) : Prop
  | called {i : ℕ} {call : EtaCall} (hcall : ∀ j data, call ≠ .worker j data)
      (hfree : s.threads.lookup i = none) (hsh : s'.shared = s.shared)
      (hth : s'.threads = s.threads.insert i ⟨call, call.program cfg⟩)
  | taken {i : ℕ} {j : JobId} {data : JobData} (hfree : s.threads.lookup i = none)
      (hfind : JobQueue.find s.shared.trackingQueue j = some (.waiting, data))
      (hredis : s'.shared.redis = s.shared.redis)
      (hqueue : s'.shared.trackingQueue = JobQueue.take s.shared.trackingQueue j)
      (hth : s'.threads = s.threads.insert i ⟨.worker j data,
        (EtaCall.worker j data).program cfg⟩)
  | went {i : ℕ} {ch : Choice} {call : EtaCall} {e : Effect}
      {k : Except Error e.Resp → Prog Unit} (ha : a = .exec i ch)
      (hi : s.threads.lookup i = some ⟨call, .op e k⟩)
      (hsh : s'.shared = (perform cfg ch e s.shared).2)
      (hth : s'.threads = s.threads.insert i ⟨call, k (perform cfg ch e s.shared).1⟩)
  | other (hth : s'.threads = s.threads) (hredis : s'.shared.redis = s.shared.redis)
      (hqueue : (∃ j, s'.shared.trackingQueue = JobQueue.promote s.shared.trackingQueue j) ∨
        (∃ j, s'.shared.trackingQueue = JobQueue.evict s.shared.trackingQueue j) ∨
        s'.shared.trackingQueue = s.shared.trackingQueue)

theorem eta_step (h : etaStep cfg s a = some s') : EtaStep cfg s a s' := by
  cases a with
  | ensureEtaJobScheduled i o d =>
      obtain ⟨hfree, hsh, hth⟩ := Pool.spawn_eq_some h
      exact .called (fun _ _ h => by cases h) hfree hsh hth
  | cancelEtaJob i o =>
      obtain ⟨hfree, hsh, hth⟩ := Pool.spawn_eq_some h
      exact .called (fun _ _ h => by cases h) hfree hsh hth
  | exec i ch =>
      obtain ⟨call, e, k, hi, hsh, hth⟩ := Pool.advance_eq_some h
      exact .went rfl hi hsh hth
  | deliver i j =>
      simp only [etaStep] at h
      split at h
      · next data hfind =>
          obtain ⟨hfree, hsh, hth⟩ := Pool.spawn_eq_some h
          exact .taken hfree hfind (by rw [hsh]; rfl) (by rw [hsh]; rfl) hth
      · cases h
  | promote j =>
      obtain rfl := Option.some.inj h
      exact .other rfl rfl (.inl ⟨j, rfl⟩)
  | evict j =>
      obtain rfl := Option.some.inj h
      exact .other rfl rfl (.inr (.inl ⟨j, rfl⟩))
  | write db =>
      obtain rfl := Option.some.inj h
      exact .other rfl rfl (.inr (.inr rfl))

/-- The programs of the two methods go on as they may. -/
theorem call_nodes (hcall : ∀ j data, call ≠ .worker j data) :
    (call.program cfg).NodesUnder EtaAnswer (EtaNode call) := by
  cases call with
  | ensureEtaJobScheduled o d => exact ensureEtaJobScheduled_nodes o d
  | cancelEtaJob o => exact cancelEtaJob_nodes o
  | worker j data => exact absurd rfl (hcall j data)

theorem EtaKept.step (h : EtaKept s) (hstep : etaStep cfg s a = some s') : EtaKept s' := by
  cases eta_step hstep with
  | called hcall hfree hsh hth =>
      refine h.made hfree hth (by rw [hsh]) (fun j st data hfind => ⟨st, by rwa [hsh] at hfind⟩)
        (fun j hactive => by rwa [hsh]) (call_nodes hcall)
        (fun j data heq => absurd heq (hcall j data)) fun j data heq => absurd heq (hcall j data)
  | @taken i j data hfree hfind hredis hqueue hth =>
      obtain ⟨o, d, rfl, rfl⟩ := h.jobs j _ _ hfind
      refine h.made hfree hth hredis (fun j' st data' hfind' => ?_) (fun j' hactive => ?_)
        (worker_nodes o d _) ?_ ?_
      · rw [hqueue] at hfind'
        exact JobQueue.data_of_take hfind'
      · rw [hqueue]
        exact hactive.take_active
      · rintro j' data' heq
        obtain ⟨rfl, rfl⟩ := EtaCall.worker.inj heq
        refine (worker_sets o d _).mono fun e he o' hsets => ?_
        rw [he o' hsets]
      -- the job was waiting, and is active now
      · rintro j' data' heq
        obtain ⟨rfl, rfl⟩ := EtaCall.worker.inj heq
        constructor
        · refine ⟨.recalculate_eta o d, ?_⟩
          rw [hqueue, JobQueue.find_take, if_pos rfl, hfind]
          rfl
        · rintro ⟨data', hfind'⟩
          rw [hfind] at hfind'
          cases hfind'
  | went _ hi hsh hth => exact h.went hi hsh hth
  | other hth hredis hqueue =>
      rcases hqueue with ⟨j', hqueue⟩ | ⟨j', hqueue⟩ | hqueue
      · refine h.same hth hredis (fun j st data hfind => ?_) fun j hactive => ?_
        · exact JobQueue.data_of_promote (hqueue ▸ hfind)
        · rw [hqueue]
          exact hactive.promote_active
      · refine h.same hth hredis (fun j st data hfind => ?_) fun j hactive => ?_
        · exact JobQueue.data_of_evict (hqueue ▸ hfind)
        · rw [hqueue]
          exact hactive.evict rfl
      · refine h.same hth hredis (fun j st data hfind => ⟨st, hqueue ▸ hfind⟩) fun j hactive => ?_
        rwa [hqueue]

theorem etaKept_of_reachable (hs : Transition.Reachable (etaSystem Q cfg) s) : EtaKept s := by
  refine hs.invariant (P := EtaKept) (fun s hinit => ?_) fun s a s' _ h hstep => h.step hstep
  have hnone : ∀ i, s.threads.lookup i = none := fun i => by
    rw [hinit.threads, AList.lookup_empty]
  constructor
  · intro o v hv
    rw [hinit.redis] at hv
    cases hv
  · intro j st data hfind
    rw [hinit.queue] at hfind
    cases hfind
  · intro i th hi
    rw [hnone] at hi
    cases hi
  · intro i th hi
    rw [hnone] at hi
    cases hi
  · intro i j data p hi
    rw [hnone] at hi
    cases hi
  · intro i i' j data data' p p' hi
    rw [hnone] at hi
    cases hi

/-! ## What is owed -/

/-- A call under way will settle the key of the order: delete it, or set it with a job ahead. -/
def OwesSettling (s : EtaSys Q) (o : OrderId) : Prop :=
  Pool.Owed (fun e => SetsEta o e ∨ DeletesEta o e) (KeyedAnswer o) s

/-- A call under way will set the key of the order. -/
def OwesSetting (s : EtaSys Q) (o : OrderId) : Prop := Pool.Owed (SetsEta o) EtaAnswer s

/-- Where the key of an order and its job disagree, a call owes the step that settles it. -/
structure EtaSettled (s : EtaSys Q) (o : OrderId) : Prop where
  stale : s.Keyed o → ¬ s.Scheduled o → OwesSettling s o
  unkeyed : s.Scheduled o → ¬ s.Keyed o → OwesSetting s o

theorem EtaKept.keyedAnswer (h : EtaKept s) (hkeyed : s.Keyed o) (ch : Choice) (e : Effect) :
    KeyedAnswer o e (perform cfg ch e s.shared).1 := by
  unfold KeyedAnswer
  split
  · next o' =>
      cases hkey : s.shared.redis.lookup (.ETA_JOB_KEY o') with
      | none =>
          refine .inr ⟨?_, congrArg Except.ok hkey⟩
          rintro rfl
          rw [EtaSys.Keyed, hkey] at hkeyed
          cases hkeyed
      | some v =>
          obtain rfl := h.keys o' v hkey
          exact .inl (congrArg Except.ok hkey)
  · exact h.answer ch _

section Went

variable {ch : Choice} {e : Effect} {k : Except Error e.Resp → Prog Unit}
  (hkept : EtaKept s) (h : EtaSettled s o) (hi : s.threads.lookup i = some ⟨call, .op e k⟩)
  (hth : s'.threads = s.threads.insert i ⟨call, k (perform cfg ch e s.shared).1⟩)

include hkept h hi hth

/-- A step that neither sets nor deletes the key of the order leaves what is owed. -/
theorem stale_went (hsets : ¬ SetsEta o e) (hdeletes : ¬ DeletesEta o e)
    (hkeyed : s'.Keyed o → s.Keyed o) (hscheduled : s.Scheduled o → s'.Scheduled o) :
    s'.Keyed o → ¬ s'.Scheduled o → OwesSettling s' o := by
  intro hk hs
  have howed := h.stale (hkeyed hk) fun hs' => hs (hscheduled hs')
  rcases Pool.Owed.advance howed hi hth (hkept.keyedAnswer (hkeyed hk) ch e) with h | h | h
  · exact h.insert hth
  · exact (h.elim hsets hdeletes).elim
  · exact h

theorem unkeyed_went (hsets : ¬ SetsEta o e) (hkeyed : s.Keyed o → s'.Keyed o)
    (hscheduled : s'.Scheduled o → s.Scheduled o) :
    s'.Scheduled o → ¬ s'.Keyed o → OwesSetting s' o := by
  intro hs hk
  have howed := h.unkeyed (hscheduled hs) fun hk' => hk (hkeyed hk')
  rcases Pool.Owed.advance howed hi hth (hkept.answer ch e) with h | h | h
  · exact h.insert hth
  · exact (hsets h).elim
  · exact h

end Went

/-- A step in which a call goes on keeps to it, if it sets no key without a job and deletes none
with one. -/
theorem EtaSettled.went {ch : Choice} {e : Effect} {k : Except Error e.Resp → Prog Unit}
    (h : EtaSettled s o) (hkept : EtaKept s) (hi : s.threads.lookup i = some ⟨call, .op e k⟩)
    (hsh : s'.shared = (perform cfg ch e s.shared).2)
    (hth : s'.threads = s.threads.insert i ⟨call, k (perform cfg ch e s.shared).1⟩)
    (hsets : SetsEta o e → s.Scheduled o) (hdeletes : DeletesEta o e → ¬ s.Scheduled o) :
    EtaSettled s' o := by
  have hnode := (hkept.nodes i _ hi).1
  have hturn : EtaTurn s.shared s'.shared e := by
    rw [hsh]
    exact etaTurn_of_node hnode
  have hneutral : ¬ SetsEta o e → ¬ DeletesEta o e → (s'.Keyed o ↔ s.Keyed o) →
      (s'.Scheduled o ↔ s.Scheduled o) → EtaSettled s' o := fun hset hdel hk hs =>
    ⟨stale_went hkept h hi hth hset hdel hk.mp hs.mpr,
      unkeyed_went hkept h hi hth hset hk.mpr hs.mp⟩
  have hkeyed : s'.shared.redis = s.shared.redis → (s'.Keyed o ↔ s.Keyed o) := by
    intro hredis
    rw [EtaSys.Keyed, hredis]
    exact Iff.rfl
  have hscheduled : s'.shared.trackingQueue = s.shared.trackingQueue →
      (s'.Scheduled o ↔ s.Scheduled o) := by
    intro hqueue
    rw [EtaSys.Scheduled, hqueue]
    exact Iff.rfl
  cases hturn with
  | asks hasks hredis hqueue =>
      refine hneutral (fun h => ?_) (fun h => ?_) (hkeyed hredis) (hscheduled hqueue)
      · cases e <;> first | exact hasks | exact h
      · cases e <;> first | exact hasks | exact h
  | add o₁ d delay hredis hqueue =>
      have hadd : s.Scheduled o → s'.Scheduled o := by
        intro hs
        rw [EtaSys.Scheduled, hqueue]
        exact JobQueue.Ahead.add hs delay
      by_cases ho : o = o₁
      -- the call sets the key next
      · subst ho
        have hwill : (k (.ok (.recalculateEta o))).Will (SetsEta o) EtaAnswer := by
          cases hnode with
          | asks hasks => exact hasks.elim
          | add _ _ _ hwill => exact hwill
        refine ⟨stale_went hkept h hi hth id id (hkeyed hredis).mp hadd, fun _ _ => ?_⟩
        exact Pool.owed_of_insert hth hwill
      · refine hneutral id id (hkeyed hredis) ⟨fun hs => ?_, hadd⟩
        rw [EtaSys.Scheduled, hqueue] at hs
        rcases JobQueue.ahead_of_add hs with hs | ⟨heq, -⟩
        · exact hs
        · exact absurd (JobId.recalculateEta.inj heq) ho
  | set o₁ ttl hredis hqueue =>
      by_cases ho : o₁ = o
      -- the key is set with a job ahead
      · subst ho
        have hs' : s'.Scheduled o₁ := (hscheduled hqueue).mpr (hsets rfl)
        have hk' : s'.Keyed o₁ := by
          rw [EtaSys.Keyed, hredis, AList.lookup_insert]
          rfl
        exact ⟨fun _ hno => absurd hs' hno, fun _ hno => absurd hk' hno⟩
      · refine hneutral ho id ?_ (hscheduled hqueue)
        have hne : RedisKey.ETA_JOB_KEY o ≠ .ETA_JOB_KEY o₁ := fun heq =>
          ho (RedisKey.ETA_JOB_KEY.inj heq).symm
        rw [EtaSys.Keyed, hredis, AList.lookup_insert_ne hne]
        exact Iff.rfl
  | remove o₁ hredis hqueue =>
      have hremove : s'.Scheduled o → s.Scheduled o := by
        intro hs
        rcases hqueue with hqueue | hqueue
        · exact (hscheduled hqueue).mp hs
        · rw [EtaSys.Scheduled, hqueue] at hs
          exact JobQueue.ahead_of_remove hs
      by_cases ho : o = o₁
      -- the call deletes the key next
      · subst ho
        have hwill : ∀ r, (k r).Will (DeletesEta o) EtaAnswer := by
          cases hnode with
          | asks hasks => exact hasks.elim
          | remove _ hwill => exact hwill
        refine ⟨fun _ _ => Pool.owed_of_insert hth ?_,
          unkeyed_went hkept h hi hth id (hkeyed hredis).mpr hremove⟩
        exact (hwill _).mono (fun _ => .inr) fun _ _ => etaAnswer_of_keyedAnswer
      · refine hneutral id id (hkeyed hredis) ⟨hremove, fun hs => ?_⟩
        rcases hqueue with hqueue | hqueue
        · exact (hscheduled hqueue).mpr hs
        · rw [EtaSys.Scheduled, hqueue]
          exact JobQueue.Ahead.remove_of_ne hs fun heq => ho (JobId.recalculateEta.inj heq)
  | delete o₁ hredis hqueue =>
      by_cases ho : o₁ = o
      -- the key is deleted without a job ahead
      · subst ho
        have hs' : ¬ s'.Scheduled o₁ := fun hs => hdeletes rfl ((hscheduled hqueue).mp hs)
        have hk' : ¬ s'.Keyed o₁ := by
          rw [EtaSys.Keyed, hredis, AList.lookup_erase]
          exact Bool.false_ne_true
        exact ⟨fun hk => absurd hk hk', fun hs => absurd hs hs'⟩
      · refine hneutral id ho ?_ (hscheduled hqueue)
        have hne : RedisKey.ETA_JOB_KEY o ≠ .ETA_JOB_KEY o₁ := fun heq =>
          ho (RedisKey.ETA_JOB_KEY.inj heq).symm
        rw [EtaSys.Keyed, hredis, AList.lookup_erase_ne hne]
        exact Iff.rfl
  | finish j ok hredis hqueue =>
      refine hneutral id id (hkeyed hredis) ⟨fun hs => ?_, fun hs => ?_⟩
      · rw [EtaSys.Scheduled, hqueue] at hs
        exact JobQueue.ahead_of_finish hs
      · rw [EtaSys.Scheduled, hqueue]
        exact JobQueue.Ahead.finish hs ok

theorem EtaSettled.step (h : EtaSettled s o) (hkept : EtaKept s)
    (hstep : etaStep cfg s a = some s') (hwrites : WritesEtaInStep ⟨s, a, s'⟩) :
    EtaSettled s' o := by
  cases eta_step hstep with
  | called _ hfree hsh hth =>
      have hkeyed : s'.Keyed o ↔ s.Keyed o := by rw [EtaSys.Keyed, hsh, EtaSys.Keyed]
      have hscheduled : s'.Scheduled o ↔ s.Scheduled o := by
        rw [EtaSys.Scheduled, hsh, EtaSys.Scheduled]
      constructor
      · intro hk hs
        exact Pool.Owed.insert (h.stale (hkeyed.mp hk) fun hs' => hs (hscheduled.mpr hs')) hfree hth
      · intro hs hk
        exact Pool.Owed.insert (h.unkeyed (hscheduled.mp hs) fun hk' => hk (hkeyed.mpr hk'))
          hfree hth
  | @taken i j data hfree hfind hredis hqueue hth =>
      obtain ⟨o₁, d, rfl, rfl⟩ := hkept.jobs j _ _ hfind
      have hkeyed : s'.Keyed o ↔ s.Keyed o := by rw [EtaSys.Keyed, hredis, EtaSys.Keyed]
      have htake : s'.Scheduled o → s.Scheduled o := by
        intro hs
        rw [EtaSys.Scheduled, hqueue] at hs
        exact JobQueue.ahead_of_take hs
      constructor
      · intro hk hs
        by_cases ho : o = o₁
        -- the worker that has taken the job settles its order
        · subst ho
          exact Pool.owed_of_insert hth (worker_settles o d _)
        · refine Pool.Owed.insert (h.stale (hkeyed.mp hk) fun hs' => hs ?_) hfree hth
          rw [EtaSys.Scheduled, hqueue]
          exact JobQueue.Ahead.take_of_ne hs' fun heq => ho (JobId.recalculateEta.inj heq)
      · intro hs hk
        exact Pool.Owed.insert (h.unkeyed (htake hs) fun hk' => hk (hkeyed.mpr hk')) hfree hth
  | @went i ch call e k ha hi hsh hth =>
      subst ha
      have hnext : s.next i = some e := by rw [EtaSys.next, hi]
      exact h.went hkept hi hsh hth (hwrites i ch e o rfl hnext).1 (hwrites i ch e o rfl hnext).2
  | other hth hredis hqueue =>
      have hkeyed : s'.Keyed o ↔ s.Keyed o := by rw [EtaSys.Keyed, hredis, EtaSys.Keyed]
      have hscheduled : s'.Scheduled o ↔ s.Scheduled o := by
        unfold EtaSys.Scheduled
        rcases hqueue with ⟨j, hqueue⟩ | ⟨j, hqueue⟩ | hqueue
        · rw [hqueue]
          exact ⟨JobQueue.ahead_of_promote, JobQueue.Ahead.promote⟩
        · rw [hqueue]
          exact ⟨JobQueue.ahead_of_evict, JobQueue.Ahead.evict⟩
        · rw [hqueue]
      constructor
      · intro hk hs
        exact Pool.Owed.same (h.stale (hkeyed.mp hk) fun hs' => hs (hscheduled.mpr hs')) hth
      · intro hs hk
        exact Pool.Owed.same (h.unkeyed (hscheduled.mp hs) fun hk' => hk (hkeyed.mpr hk')) hth

/-- A turn of a worker that sets the key leaves no recalculation scheduled. -/
theorem not_scheduled_of_turn {j : JobId} {data : JobData} {p : Prog Unit} {e : Effect}
    (hkept : EtaKept s) (hi : s.threads.lookup i = some ⟨.worker j data, p⟩)
    (hnext : s.next i = some e) (hsets : SetsEta o e) : ¬ s.Scheduled o := by
  rw [EtaSys.next, hi] at hnext
  cases p with
  | ret a => cases hnext
  | fail err => cases hnext
  | op e' k =>
      obtain rfl := Option.some.inj hnext
      obtain rfl := (hkept.own i _ hi j data rfl).1 o hsets
      exact (hkept.active i _ data _ hi rfl).not_ahead

/-- **The key of an order's ETA job and the job agree**, whenever no call is under way, in every
run in which the key is set only with a recalculation ahead and deleted only without one. And no
turn of a worker ever sets it with one ahead: a recalculation that broadcasts leaves none
scheduled. -/
theorem eta_bookkeeping {tr : List (Transition.Move (EtaSys Q) EtaAction)}
    (run : Transition.Run (etaSystem Q cfg) tr s) :
    ((∀ m ∈ tr, WritesEtaInStep m) → s.Quiet → ∀ o, s.Keyed o ↔ s.Scheduled o) ∧
    ∀ m ∈ tr, ∀ i ch j data p e o, m.act = .exec i ch →
      m.src.threads.lookup i = some ⟨.worker j data, p⟩ → m.src.next i = some e →
      SetsEta o e → ¬ m.src.Scheduled o := by
  constructor
  · intro hwrites hquiet o
    have hsettled := (run.invariant_of (P := fun s => EtaSettled s o) (C := WritesEtaInStep)
      (fun s hinit => ?_) (fun s a s' hs h hwrites hstep =>
        h.step (etaKept_of_reachable hs) hstep hwrites) hwrites).1
    · constructor
      · intro hk
        by_contra hs
        exact Pool.Owed.not_quiet (hsettled.stale hk hs) hquiet
      · intro hs
        by_contra hk
        exact Pool.Owed.not_quiet (hsettled.unkeyed hs hk) hquiet
    -- at first there is neither
    · constructor
      · intro hk
        rw [EtaSys.Keyed, hinit.redis] at hk
        cases hk
      · intro hs
        obtain ⟨st, data, hfind, -⟩ := JobQueue.ahead_iff.mp hs
        rw [hinit.queue] at hfind
        cases hfind
  · intro m hm i ch j data p e o _ hi hnext hsets
    exact not_scheduled_of_turn (etaKept_of_reachable (run.of_mem hm).1) hi hnext hsets

/-! ### In the small system -/

/-- The trip is offered to the driver; nothing tracks it yet. -/
def etaStart : EtaSys BullQueue where
  shared := {
    db := (after _ _ _ trip_offered).shared.db
    redis := ∅
    dispatchQueue := JobQueue.empty
    trackingQueue := JobQueue.empty
    events := [] }
  threads := ∅

theorem etaStart_initial : EtaInitial etaStart where
  redis _ := AList.lookup_empty _
  queue j := JobQueue.find_empty j
  threads := rfl

/-- The ETA job is scheduled: call `0`. -/
def scheduleEta : List EtaAction :=
  .ensureEtaJobScheduled 0 sampleOrder sampleDriver :: List.replicate 3 (.exec 0 sampleChoice)

/-- A worker takes it, broadcasts, and reports: call `1`. -/
def recalculateOnce : List EtaAction :=
  .deliver 1 (.recalculateEta sampleOrder) :: List.replicate 6 (.exec 1 sampleChoice)

theorem eta_scheduled :
    ((etaSystem BullQueue (sampleConfig 3)).exec etaStart scheduleEta).isSome := by
  decide +kernel

theorem eta_recalculated : ((etaSystem BullQueue (sampleConfig 3)).exec etaStart
    (scheduleEta ++ recalculateOnce)).isSome := by
  decide +kernel

/-- After its first recalculation the ETA job is gone, and its key still names it. -/
theorem recalculation_ends : ∃ tr s, Transition.Run (etaSystem BullQueue (sampleConfig 3)) tr s ∧
    s.Quiet ∧ ¬ (s.Keyed sampleOrder ↔ s.Scheduled sampleOrder) :=
  ⟨_, _, (Transition.Run.init etaStart_initial).exec (Option.some_get eta_recalculated).symm,
    Pool.quiet_of_quietb (by decide +kernel), by decide +kernel⟩

/-- Whether a step sets a key only with a recalculation ahead and deletes one only without, as
a computation. -/
def writesEtaInStepb (m : Transition.Move (EtaSys Q) EtaAction) : Bool :=
  match m.act with
  | .exec i _ =>
      match m.src.next i with
      | some (.redisSet (.ETA_JOB_KEY o) _ _) => decide (m.src.Scheduled o)
      | some (.redisDel (.ETA_JOB_KEY o)) => decide (¬ m.src.Scheduled o)
      | _ => true
  | _ => true

theorem writesEtaInStep_of_writesEtaInStepb {m : Transition.Move (EtaSys Q) EtaAction}
    (h : writesEtaInStepb m = true) : WritesEtaInStep m := by
  intro i ch e o hact hnext
  simp only [writesEtaInStepb, hact, hnext] at h
  refine ⟨fun hsets => ?_, fun hdeletes => ?_⟩
  · cases e with
    | redisSet key val ttl =>
        cases key with
        | ETA_JOB_KEY o' =>
            obtain rfl : o' = o := hsets
            exact of_decide_eq_true h
        | _ => exact hsets.elim
    | _ => exact hsets.elim
  · cases e with
    | redisDel key =>
        cases key with
        | ETA_JOB_KEY o' =>
            obtain rfl : o' = o := hdeletes
            exact of_decide_eq_true h
        | _ => exact hdeletes.elim
    | _ => exact hdeletes.elim

/-- Once scheduled, the ETA job and its key agree. -/
theorem eta_bookkeeping_of_trip : ∃ s : EtaSys BullQueue, s.Keyed sampleOrder ∧
    (s.Keyed sampleOrder ↔ s.Scheduled sampleOrder) := by
  have run := (Transition.Run.init (M := etaSystem BullQueue (sampleConfig 3))
    etaStart_initial).exec (Option.some_get eta_scheduled).symm
  have hall : ((etaSystem BullQueue (sampleConfig 3)).moves [] etaStart scheduleEta).all
      writesEtaInStepb = true := by decide +kernel
  refine ⟨_, ?_, (eta_bookkeeping run).1 (fun m hm => writesEtaInStep_of_writesEtaInStepb
    (List.all_eq_true.mp hall m hm)) (Pool.quiet_of_quietb (by decide +kernel)) sampleOrder⟩
  decide +kernel

end LogisticsDispatch
