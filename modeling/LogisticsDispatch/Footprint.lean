/-
Which calls perform which effects.

Most effects are open to every call. The few that decide whose doing something is belong
to certain calls: only `toggleAvailability` saves a driver, only `createOrder` touches
the idempotency keys, only the dispatch service reports what became of an order, and only
`handleAssignDriver` adds the timeout of an offer. `performs_of_next` says so of every
call of a reachable state.

What a call may do because of an answer it got before (`Earns`) is carried along a run by
`earns_of_run`: what its answers earned it has done.
-/
import LogisticsDispatch.Duties

set_option autoImplicit false

namespace LogisticsDispatch

open Resumable Resumable.Program

variable {cfg : DispatchConfig} {call : Call} {α : Type}

/-- The call creates an order under an idempotency key. -/
def Call.Uses (call : Call) (key : String) : Prop :=
  ∃ dto c idempotencyKey, call = .request (.createOrder dto c (some idempotencyKey)) ∧
    JsString.trim idempotencyKey = key

/-- The call reports what becomes of an order: it is one of the dispatch service's. -/
def Call.Notifies (call : Call) : Prop :=
  (∃ o, call.Handles (.ASSIGN_DRIVER o)) ∨ (∃ o d, call.Handles (.DISPATCH_TIMEOUT o d)) ∨
    (∃ o d, call = .request (.acceptDispatch o d)) ∨
    ∃ o d, call = .request (.rejectDispatch o d)

/-- The effects a call may perform. -/
def Call.Performs (call : Call) : Effect → Prop
  | .saveDriver _ => ∃ user, call = .request (.toggleAvailability user)
  | .redisGet (.IDEMPOTENCY_REDIS_PREFIX key) => call.Uses key
  | .redisSet (.IDEMPOTENCY_REDIS_PREFIX key) _ _ => call.Uses key
  -- nobody takes a response back
  | .redisDel (.IDEMPOTENCY_REDIS_PREFIX _) => False
  | .addJob .DISPATCH_QUEUE (.dispatchTimeout _ _) _ _ => ∃ o, call.Handles (.ASSIGN_DRIVER o)
  -- a position reports no transition
  | .emit (.locationBroadcast _ _ _ _) => True
  | .emit _ => call.Notifies
  | _ => True

/-- Asking for one effect. -/
theorem ask_performs {e : Effect} (h : call.Performs e) : (ask e).All call.Performs :=
  all_perform h

/-- Asking for one effect, and going on. -/
theorem ask_bind_performs {e : Effect} {g : e.Resp → Prog α} (h : call.Performs e)
    (hg : ∀ a, (g a).All call.Performs) : (ask e >>= g).All call.Performs :=
  (ask_performs h).bind hg

theorem notify_performs {event : Event} (h : call.Performs (.emit event)) :
    (EventPublisherService.notify event).All call.Performs :=
  (ask_performs h).tryCatch fun _ => trivial

/-! ## `TrackingService` -/

namespace TrackingService

theorem ensureEtaJobScheduled_performs (o : OrderId) (d : DriverId) :
    (ensureEtaJobScheduled o d).All call.Performs :=
  ensureEtaJobScheduled_all trivial (fun _ _ _ => trivial) fun _ _ => trivial

theorem cancelEtaJob_performs (o : OrderId) : (cancelEtaJob o).All call.Performs :=
  cancelEtaJob_all trivial (fun _ => trivial) (fun _ => trivial) trivial

theorem handleLocationUpdate_performs (d : DriverId) (lat lng : ℚ) :
    (handleLocationUpdate d lat lng).All call.Performs := by
  refine ask_bind_performs trivial fun _ => .bind ?_ fun orderId => ?_
  · refine ask_bind_performs trivial fun cached => ?_
    split
    · trivial
    · refine ask_bind_performs trivial fun active => ?_
      split
      · trivial
      · exact ask_bind_performs trivial fun _ => trivial
  · split
    · trivial
    · exact .bind (notify_performs trivial) fun _ =>
        .bind (ensureEtaJobScheduled_performs _ _) fun _ => trivial

theorem handleEtaRecalculation_performs (o : OrderId) (d : DriverId) :
    (handleEtaRecalculation cfg o d).All call.Performs := by
  refine ask_bind_performs trivial fun order => ?_
  split
  · exact cancelEtaJob_performs o
  split
  · exact cancelEtaJob_performs o
  refine ask_bind_performs trivial fun driver => ?_
  split
  · exact cancelEtaJob_performs o
  split
  · refine .bind (notify_performs trivial) fun _ => ?_
    exact ask_bind_performs trivial fun _ => ask_performs trivial
  · exact cancelEtaJob_performs o

end TrackingService

open TrackingService

/-! ## `DispatchService` -/

namespace DispatchService

theorem triggerDispatch_performs (o : OrderId) : (triggerDispatch o).All call.Performs :=
  ask_bind_performs trivial fun _ => trivial

theorem cancelDispatchTimeout_performs (o : OrderId) :
    (cancelDispatchTimeout o).All call.Performs :=
  cancelDispatchTimeout_all trivial (fun _ => trivial) (fun _ => trivial) trivial

theorem expireAndNotify_performs (hcall : call.Notifies) (o : OrderId) :
    (expireAndNotify o).All call.Performs := by
  refine .bind (ask_bind_performs trivial fun _ => ?_) fun _ => notify_performs hcall
  exact .tryCatch (cancelEtaJob_performs o) fun _ => trivial

theorem handleAssignDriver_performs {o : OrderId} (hcall : call.Handles (.ASSIGN_DRIVER o)) :
    (handleAssignDriver cfg o).All call.Performs := by
  have hnotifies : call.Notifies := .inl ⟨o, hcall⟩
  refine ask_bind_performs trivial fun order => ?_
  split
  · trivial
  split
  · trivial
  split
  · exact expireAndNotify_performs hnotifies _
  refine .bind (ask_bind_performs trivial fun _ => trivial) fun cands => ?_
  split
  · exact expireAndNotify_performs hnotifies _
  refine ask_bind_performs trivial fun driverId => ?_
  split
  · exact expireAndNotify_performs hnotifies _
  · refine ask_bind_performs ⟨o, hcall⟩ fun jobId => ?_
    exact ask_bind_performs trivial fun _ => notify_performs hnotifies

theorem handleDispatchTimeout_performs {o : OrderId} {d : DriverId}
    (hcall : call.Handles (.DISPATCH_TIMEOUT o d)) :
    (handleDispatchTimeout o d).All call.Performs := by
  have hnotifies : call.Notifies := .inr (.inl ⟨o, d, hcall⟩)
  refine ask_bind_performs trivial fun result => ?_
  split
  · trivial
  · refine ask_bind_performs trivial fun _ => ?_
    refine .bind (.tryCatch (cancelEtaJob_performs _) fun _ => trivial) fun _ => ?_
    exact .bind (notify_performs hnotifies) fun _ => notify_performs hnotifies
  · refine ask_bind_performs trivial fun _ => ?_
    exact .bind (notify_performs hnotifies) fun _ => triggerDispatch_performs _

theorem acceptDispatch_performs {o : OrderId} {d : DriverId}
    (hcall : call = .request (.acceptDispatch o d)) :
    (acceptDispatch o d).All call.Performs := by
  have hnotifies : call.Notifies := .inr (.inr (.inl ⟨o, d, hcall⟩))
  refine ask_bind_performs trivial fun result => ?_
  split
  · trivial
  · refine .bind (cancelDispatchTimeout_performs o) fun _ => ?_
    refine .bind (notify_performs hnotifies) fun _ => ?_
    exact .bind (ensureEtaJobScheduled_performs _ _) fun _ => trivial

theorem rejectDispatch_performs {o : OrderId} {d : DriverId}
    (hcall : call = .request (.rejectDispatch o d)) :
    (rejectDispatch o d).All call.Performs := by
  have hnotifies : call.Notifies := .inr (.inr (.inr ⟨o, d, hcall⟩))
  refine ask_bind_performs trivial fun result => ?_
  split
  · trivial
  · refine .bind (cancelDispatchTimeout_performs o) fun _ => ?_
    refine .bind (.tryCatch (cancelEtaJob_performs _) fun _ => trivial) fun _ => ?_
    exact .bind (notify_performs hnotifies) fun _ => trivial
  · refine .bind (cancelDispatchTimeout_performs o) fun _ => ?_
    exact .bind (triggerDispatch_performs _) fun _ => trivial

end DispatchService

open DispatchService

theorem process_performs {data : JobData} (hcall : call.Handles data) :
    (process cfg data).All call.Performs := by
  cases data with
  | ASSIGN_DRIVER o => exact handleAssignDriver_performs hcall
  | DISPATCH_TIMEOUT o d => exact handleDispatchTimeout_performs hcall
  | recalculate_eta o d => exact handleEtaRecalculation_performs o d

/-! ## `OrdersService` and `OutboxWorkerService` -/

namespace OrdersService

/-- The part of `createOrder` after the idempotency key. -/
def placeOrder (cfg : DispatchConfig) (dto : CreateOrderDto) (customerId : UserId)
    (sanitizedKey : Option String) : Prog OrderResponse := do
  Program.ofExcept (validateVehincle dto)
  let distanceKm := cfg.calculateDistance dto.pickupLatitude dto.pickupLongitude
    dto.deliveryLatitude dto.deliveryLongitude
  let price := PRICING dto.vehincleType
  let order ← transaction (.createOrder dto customerId (price.baseFare + price.perKm * distanceKm))
  let response := toOrderResponse order
  match sanitizedKey with
  | none => return response
  | some key => do
      ask (.redisSet (.IDEMPOTENCY_REDIS_PREFIX key) response IDEMPOTENCY_KEY_TTL_SECONDS)
      return response

theorem createOrder_eq (dto : CreateOrderDto) (c : UserId) (key : Option String) :
    createOrder cfg dto c key = sanitizeKey key >>= placeOrder cfg dto c := rfl

theorem placeOrder_performs {dto : CreateOrderDto} {c : UserId} {sanitizedKey : Option String}
    (huses : ∀ key, sanitizedKey = some key → call.Uses key) :
    (placeOrder cfg dto c sanitizedKey).All call.Performs := by
  unfold placeOrder
  cases validateVehincle dto with
  | error err => trivial
  | ok u =>
      refine ask_bind_performs trivial fun order => ?_
      cases sanitizedKey with
      | none => trivial
      | some key => exact ask_bind_performs (huses key rfl) fun _ => trivial

theorem createOrder_performs {dto : CreateOrderDto} {c : UserId} {key : Option String}
    (hcall : call = .request (.createOrder dto c key)) :
    (createOrder cfg dto c key).All call.Performs := by
  rw [createOrder_eq, sanitizeKey]
  split
  · have hnone : ∀ key, (none : Option String) = some key → call.Uses key := nofun
    exact placeOrder_performs hnone
  · next raw hraw =>
      obtain rfl : key = some raw := (Option.filter_eq_some_iff.mp hraw).1
      -- the response is kept under the key it was looked up under
      have huses : call.Uses (JsString.trim raw) := ⟨dto, c, raw, hcall, rfl⟩
      dsimp only
      split
      · trivial
      refine ⟨huses, fun r => ?_⟩
      cases r with
      | error err => trivial
      | ok cached =>
          cases cached with
          | some data => trivial
          | none =>
              refine placeOrder_performs fun key hkey => ?_
              obtain rfl := Option.some.inj hkey
              exact huses

theorem updateStatus_performs (o : OrderId) (newStatus : OrderStatus) (user : JwtUser) :
    (updateStatus o newStatus user).All call.Performs :=
  updateStatus_all trivial (fun _ => trivial) (cancelEtaJob_performs o)

theorem softDelete_performs (o : OrderId) : (softDelete o).All call.Performs := by
  refine ask_bind_performs trivial fun order => ?_
  split
  · trivial
  split
  · trivial
  · exact ask_bind_performs trivial fun _ => trivial

theorem reassignOrder_performs (o : OrderId) (user : JwtUser) :
    (reassignOrder o user).All call.Performs := by
  refine ask_bind_performs trivial fun order => ?_
  split
  · trivial
  split
  · trivial
  split
  · refine ask_bind_performs trivial fun updated => ?_
    exact .bind (triggerDispatch_performs o) fun _ => trivial
  · exact .bind trivial fun updated => .bind (triggerDispatch_performs o) fun _ => trivial

end OrdersService

namespace OutboxWorkerService

theorem triggerRow_performs (row : OutboxEvent) : (triggerRow row).All call.Performs := by
  unfold triggerRow
  split
  · split
    · trivial
    · exact triggerDispatch_performs _
  · trivial

theorem handleRow_performs (row : OutboxEvent) : (handleRow row).All call.Performs := by
  refine .bind (.tryCatch (.bind (triggerRow_performs row) fun _ => trivial) fun _ => trivial)
    fun triggered => ?_
  split
  · exact ask_performs trivial
  · refine ask_bind_performs trivial fun processedAt => ?_
    exact .tryCatch (ask_performs trivial) fun _ => ask_performs trivial

theorem processOutbox_performs : processOutbox.All call.Performs := by
  refine ask_bind_performs trivial fun rows => ?_
  induction rows with
  | nil => trivial
  | cons row rows ih =>
      exact .bind (.tryCatch (handleRow_performs row) fun _ => trivial) fun _ => ih

end OutboxWorkerService

/-! ## `DriversService` -/

namespace DriversService

theorem toggleAvailability_performs {user : JwtUser}
    (hcall : call = .request (.toggleAvailability user)) :
    (toggleAvailability user).All call.Performs := by
  refine ask_bind_performs trivial fun driver => ?_
  split
  · trivial
  split
  · trivial
  · exact ask_bind_performs ⟨user, hcall⟩ fun _ => trivial

theorem updateLocation_performs (user : JwtUser) (lat lng : ℚ) :
    (updateLocation user lat lng).All call.Performs := by
  refine ask_bind_performs trivial fun driver => ?_
  split
  · trivial
  · exact ask_bind_performs trivial fun _ => trivial

end DriversService

/-! ## Every call -/

/-- **Every call performs only what calls of its kind may perform.** -/
theorem program_performs (call : Call) : (call.program cfg).All call.Performs := by
  cases call with
  | worker queue jobId data =>
      refine .bind (.bind (.tryCatch (.bind (process_performs (.inr ⟨queue, jobId, rfl⟩))
        fun _ => trivial) fun _ => trivial) fun ok => ask_performs trivial) fun _ => trivial
  | request req =>
      cases req with
      | createOrder dto c key =>
          exact .bind (OrdersService.createOrder_performs rfl) fun _ => trivial
      | updateStatus o newStatus user =>
          exact .bind (OrdersService.updateStatus_performs o newStatus user) fun _ => trivial
      | cancelOrder o user =>
          exact .bind (OrdersService.updateStatus_performs o .CANCELLED user) fun _ => trivial
      | softDelete o => exact OrdersService.softDelete_performs o
      | reassignOrder o user =>
          exact .bind (OrdersService.reassignOrder_performs o user) fun _ => trivial
      | acceptDispatch o d => exact acceptDispatch_performs rfl
      | rejectDispatch o d => exact rejectDispatch_performs rfl
      | process data => exact .bind (process_performs (.inl rfl)) fun _ => trivial
      | processOutbox =>
          exact .bind OutboxWorkerService.processOutbox_performs fun _ => trivial
      | handleLocationUpdate d lat lng =>
          exact .bind (handleLocationUpdate_performs d lat lng) fun _ => trivial
      | toggleAvailability user => exact DriversService.toggleAvailability_performs rfl
      | updateLocation user lat lng => exact DriversService.updateLocation_performs user lat lng
      | toggleSuspension d => exact ask_bind_performs trivial fun _ => trivial
      | promoteToDriver u v => exact ask_bind_performs trivial fun _ => trivial

/-- What a call of a reachable state performs next, its kind may perform. -/
theorem performs_of_next {Q : Type} [JobQueue Q JobId JobData] {s : Sys Q} {i : ℕ} {e : Effect}
    {k : Except Error e.Resp → Prog Response} (hs : Transition.Reachable (logistics Q cfg) s)
    (hi : s.threads.lookup i = some ⟨call, .op e k⟩) : call.Performs e := by
  have hall : Pool.ForallThreads (fun call p => p.All call.Performs) s :=
    forallThreads_of_reachable (fun _ _ _ h => h.2) program_performs hs
  exact (hall i _ hi).1

/-! ## What a call has done -/

section Earned

variable {Q : Type} [JobQueue Q JobId JobData] {ι : Type}

/-- A step of call `i` in the moves `tr` has done `x`. -/
def DoneBy (D : ι → Transition.Move (Sys Q) Action → Prop) (i : ℕ)
    (tr : List (Transition.Move (Sys Q) Action)) (x : ι) : Prop :=
  ∃ m ∈ tr, (∃ ch, m.act = .exec i ch) ∧ D x m

omit [JobQueue Q JobId JobData] in
theorem DoneBy.cons {D : ι → Transition.Move (Sys Q) Action → Prop} {i : ℕ}
    {tr : List (Transition.Move (Sys Q) Action)} {x : ι} (h : DoneBy D i tr x)
    (m : Transition.Move (Sys Q) Action) : DoneBy D i (m :: tr) x := by
  obtain ⟨m', hm', hi, hx⟩ := h
  exact ⟨m', List.mem_cons_of_mem _ hm', hi, hx⟩

/-- How the answers of the calls and what is done in a run go together, in the steps that
meet `K`: what an answer earns, the step has done. -/
structure Earnings (cfg : DispatchConfig) (B : ι → (e : Effect) → Except Error e.Resp → Prop)
    (C : Call → ι → Effect → Prop) (A : (e : Effect) → Except Error e.Resp → Prop)
    (D : ι → Transition.Move (Sys Q) Action → Prop) (K : Transition.Move (Sys Q) Action → Prop) :
    Prop where
  program : ∀ call : Call, (call.program cfg).Earns B (C call) A fun _ => False
  step : ∀ s i ch s' call e (k : Except Error e.Resp → Prog Response),
    Transition.Reachable (logistics Q cfg) s → step cfg s (.exec i ch) = some s' →
    K ⟨s, .exec i ch, s'⟩ → s.threads.lookup i = some ⟨call, .op e k⟩ →
    A e (perform cfg ch e s.shared).1 ∧
      ∀ x, B x e (perform cfg ch e s.shared).1 → D x ⟨s, .exec i ch, s'⟩
  fail : ∀ e, A e (.error .Unavailable) ∧ ∀ x, ¬ B x e (.error .Unavailable)

/-- **What a call may do along a run**: what it still has to earn, but for what it has
done. -/
theorem earns_of_run {B : ι → (e : Effect) → Except Error e.Resp → Prop}
    {C : Call → ι → Effect → Prop} {A : (e : Effect) → Except Error e.Resp → Prop}
    {D : ι → Transition.Move (Sys Q) Action → Prop} {K : Transition.Move (Sys Q) Action → Prop}
    (hearn : Earnings cfg B C A D K) {tr : List (Transition.Move (Sys Q) Action)} {s : Sys Q}
    (run : Transition.Run (logistics Q cfg) tr s) (hK : ∀ m ∈ tr, K m) :
    ∀ i th, s.threads.lookup i = some th → th.prog.Earns B (C th.call) A (DoneBy D i tr) := by
  refine run.invariant_trace (P := fun tr s => (∀ m ∈ tr, K m) → ∀ i th,
    s.threads.lookup i = some th → th.prog.Earns B (C th.call) A (DoneBy D i tr)) ?_ ?_ hK
  · intro s hinit _ i th hi
    rw [hinit.threads, AList.lookup_empty] at hi
    cases hi
  intro tr s a s' run ih hstep hK
  have ih := ih fun m hm => hK m (List.mem_cons_of_mem _ hm)
  have hold : ∀ i th, s.threads.lookup i = some th →
      th.prog.Earns B (C th.call) A (DoneBy D i (⟨s, a, s'⟩ :: tr)) :=
    fun i th hi => (ih i th hi).mono fun x hx => hx.cons _
  cases call_step hstep with
  | same hth =>
      rw [hth]
      exact hold
  | made _ hth =>
      rw [hth]
      exact Pool.forall_insert
        (T := fun i th => th.prog.Earns B (C th.call) A (DoneBy D i (⟨s, a, s'⟩ :: tr)))
        (fun j th hj _ => hold j th hj) ((hearn.program _).mono fun _ h => h.elim)
  -- what the answer earns, this very step has done
  | @went i ch call e k ha hi _ hth =>
      subst ha
      obtain ⟨hanswer, hdone⟩ :=
        hearn.step s i ch s' call e k run.reachable hstep (hK _ List.mem_cons_self) hi
      rw [hth]
      refine Pool.forall_insert
        (T := fun i th => th.prog.Earns B (C th.call) A (DoneBy D i (⟨s, _, s'⟩ :: tr)))
        (fun j th hj _ => hold j th hj) (((ih i _ hi).2 _ hanswer).mono fun x hx => ?_)
      rcases hx with hx | hx
      · exact hx.cons _
      · exact ⟨_, List.mem_cons_self, ⟨ch, rfl⟩, hdone x hx⟩
  | @failed i call e k ha hi _ hth =>
      rw [hth]
      refine Pool.forall_insert
        (T := fun i th => th.prog.Earns B (C th.call) A (DoneBy D i (⟨s, a, s'⟩ :: tr)))
        (fun j th hj _ => hold j th hj)
        (((ih i _ hi).2 _ (hearn.fail e).1).mono fun x hx => ?_)
      rcases hx with hx | hx
      · exact hx.cons _
      · exact absurd hx ((hearn.fail e).2 x)

end Earned

end LogisticsDispatch
