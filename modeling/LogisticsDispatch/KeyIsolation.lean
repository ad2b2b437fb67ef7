/-
What one customer learns of another through an idempotency key.

The keys of all customers are in one name space, and `createOrder` takes whatever response is
kept under its key for the caller's own. So a key that another customer has used answers with
that customer's order.

What it should be is a desk for each customer, with keys of its own: `Desk` is the state of the
desk of one customer, and the actions move it on without regard to anyone else's calls. As long
as no call of the customer finds another's response under its key, the calls of a run are where
the desk has them (`Matches`). So two runs that differ in the calls of another customer only
show the customer the same, since the desk is the same in both.
-/
import LogisticsDispatch.Idempotency

set_option autoImplicit false

namespace LogisticsDispatch

open OrderStatus Resumable Resumable.Program OrdersService

variable {Q : Type} [JobQueue Q JobId JobData] {cfg : DispatchConfig} {s s' : Sys Q} {a : Action}
  {i : ℕ} {A B : UserId} {k : String} {tr : List (Transition.Move (Sys Q) Action)}

/-! ## Outcomes, up to what is drawn -/

/-- An order response without the id and the dates. -/
def OrderResponse.blank (response : OrderResponse) : OrderResponse :=
  { response with id := ⟨"id", by decide⟩, createdAt := 0, updatedAt := 0 }

/-- An outcome without the id and the dates of the order it shows. -/
def blankOutcome : Except Error Response → Except Error Response
  | .ok (.order data) => .ok (.order data.blank)
  | .error (.DuplicateRequest message data) => .error (.DuplicateRequest message data.blank)
  | res => res

/-- How call `i` has ended, if it has. -/
def outcome (s : Sys Q) (i : ℕ) : Option (Except Error Response) :=
  match s.threads.lookup i with
  | some ⟨_, .ret res⟩ => some (.ok res)
  | some ⟨_, .fail err⟩ => some (.error err)
  | _ => none

/-- The order of an outcome is one of the customer's. -/
def ShowsOwn (c : UserId) (res : Except Error Response) : Prop :=
  ∀ data, res = .ok (.order data) ∨ (∃ message, res = .error (.DuplicateRequest message data)) →
    data.customerId = c

/-! ## Two runs -/

/-- The same action, whatever the clock reads and whichever ids are drawn. -/
inductive Action.Alike : Action → Action → Prop
  | refl (a : Action) : Alike a a
  | exec (i : ℕ) (ch ch' : Choice) : Alike (.exec i ch) (.exec i ch')

/-- The customer whose call makes the move, if the call creates an order. -/
def creator (m : Transition.Move (Sys Q) Action) : Option UserId :=
  match m.act with
  | .invoke _ (.createOrder _ c _) => some c
  | .exec i _ | .fail i =>
      match m.src.call i with
      | some (.request (.createOrder _ c _)) => some c
      | _ => none
  | _ => none

/-- The move is made by a call of the customer that creates an order. -/
def CreatesFor (c : UserId) (m : Transition.Move (Sys Q) Action) : Bool :=
  decide (creator m = some c)

/-- The actions of a run but for those by which the customer creates orders. -/
def others (c : UserId) (tr : List (Transition.Move (Sys Q) Action)) : List Action :=
  (tr.filter fun m => !CreatesFor c m).map Transition.Move.act

/-- The move is made by such a call, or an idempotency key expires in it. -/
def AtDesk (c : UserId) (m : Transition.Move (Sys Q) Action) : Bool :=
  match m.act with
  | .expire (.IDEMPOTENCY_REDIS_PREFIX _) => true
  | _ => CreatesFor c m

/-- The actions by which a customer creates orders, and by which keys expire. -/
def own (c : UserId) (tr : List (Transition.Move (Sys Q) Action)) : List Action :=
  (tr.filter (AtDesk c)).map Transition.Move.act

/-- Two runs differ in the calls by which a customer creates orders, and in whatever comes of
that: the calls by which any other customer creates orders go on alike in both. -/
def DifferOnlyIn (c : UserId) (tr₁ tr₂ : List (Transition.Move (Sys Q) Action)) : Prop :=
  ∀ c', c' ≠ c → List.Forall₂ Action.Alike (own c' tr₁) (own c' tr₂)

/-- The calls by which the customer creates orders have come to the same outcomes in both
states, but for the ids and dates, and they show no order of another customer. -/
structure SameFor (c : UserId) (s₁ s₂ : Sys Q) : Prop where
  outcome : ∀ i dto key, s₁.call i = some (.request (.createOrder dto c key)) →
    (outcome s₁ i).map blankOutcome = (LogisticsDispatch.outcome s₂ i).map blankOutcome
  own : ∀ i dto key res, s₁.call i = some (.request (.createOrder dto c key)) →
    LogisticsDispatch.outcome s₁ i = some res → ShowsOwn c res

/-- Where a call of the customer looks its key up, no response of another customer is kept under
the key. -/
def LooksUpOwn (c : UserId) (m : Transition.Move (Sys Q) Action) : Prop :=
  ∀ i ch dto key k data, m.act = .exec i ch →
    m.src.call i = some (.request (.createOrder dto c key)) →
    m.src.next i = some (.redisGet (.IDEMPOTENCY_REDIS_PREFIX k)) →
    m.src.shared.redis.lookup (.IDEMPOTENCY_REDIS_PREFIX k) = some data → data.customerId = c

/-- The ids that the database draws for an order and its outbox event are new. -/
def DrawsNew (m : Transition.Move (Sys Q) Action) : Prop :=
  ∀ i ch dto c p, m.act = .exec i ch → m.src.next i = some (.transaction (.createOrder dto c p)) →
    m.src.order ch.orderId = none ∧ m.src.shared.db.outbox.find ch.outboxId = none

/-! ## The desk of a customer -/

/-- How far a call of `createOrder` is. -/
inductive Stage
  | lookUp (key : String)
  | place (key : Option String)
  | keep (key : String)
  | done (outcome : Except Error Response)

/-- The calls of a customer that create orders, and what is kept under the customer's keys. -/
structure Desk where
  calls : ℕ → Option (CreateOrderDto × Stage)
  kept : String → Option OrderResponse

/-- The message of the conflict. -/
def duplicateMessage : String := "Duplicate request — original order returned"

/-- The price `createOrder` estimates. -/
def estimatedPrice (cfg : DispatchConfig) (dto : CreateOrderDto) : ℚ :=
  (PRICING dto.vehincleType).baseFare + (PRICING dto.vehincleType).perKm *
    cfg.calculateDistance dto.pickupLatitude dto.pickupLongitude dto.deliveryLatitude
      dto.deliveryLongitude

/-- The response to a new order, without its id and dates. -/
def newResponse (cfg : DispatchConfig) (c : UserId) (dto : CreateOrderDto) : OrderResponse where
  id := ⟨"id", by decide⟩
  customerId := c
  orderType := dto.orderType
  vehincleType := dto.vehincleType
  pickupAddress := dto.pickupAddress
  pickupLatitude := dto.pickupLatitude
  pickupLongitude := dto.pickupLongitude
  deliveryAddress := dto.deliveryAddress
  deliveryLatitude := dto.deliveryLatitude
  deliveryLongitude := dto.deliveryLongitude
  notes := dto.notes
  status := PENDING
  assignedDriverId := none
  estimatedPrice := estimatedPrice cfg dto
  dispatchAttempts := 0
  createdAt := 0
  updatedAt := 0

/-- Past the key, the vehicle is checked. -/
def Stage.checked (dto : CreateOrderDto) (key : Option String) : Stage :=
  match validateVehincle dto with
  | .error err => .done (.error err)
  | .ok () => .place key

/-- What was found under the key decides how a call goes on. -/
def Stage.lookedUp (dto : CreateOrderDto) (key : String) : Option OrderResponse → Stage
  | some data => .done (.error (.DuplicateRequest duplicateMessage data))
  | none => checked dto (some key)

/-- Where a call is that has placed its order. -/
def Stage.placed (cfg : DispatchConfig) (c : UserId) (dto : CreateOrderDto) :
    Option String → Stage
  | none => .done (.ok (.order (newResponse cfg c dto)))
  | some key => .keep key

/-- Where a call begins. -/
def Stage.first (dto : CreateOrderDto) (idempotencyKey : Option String) : Stage :=
  match trimmedKey idempotencyKey with
  | none => checked dto none
  | some key =>
      if JsString.length key = 0 ∨ JsString.length key > 255 then
        .done (.error (.UnprocessableEntityException "Invalid idempotency key"))
      else .lookUp key

namespace Desk

/-- Nothing has happened. -/
def empty : Desk := ⟨fun _ => none, fun _ => none⟩

/-- A call comes to a stage. -/
def put (desk : Desk) (i : ℕ) (dto : CreateOrderDto) (stage : Stage) : Desk :=
  { desk with calls := Function.update desk.calls i (some (dto, stage)) }

/-- A call of the customer `c` goes on. -/
def exec (cfg : DispatchConfig) (c : UserId) (desk : Desk) (i : ℕ) : Desk :=
  match desk.calls i with
  | some (dto, .lookUp key) => desk.put i dto (.lookedUp dto key (desk.kept key))
  | some (dto, .place key) => desk.put i dto (.placed cfg c dto key)
  | some (dto, .keep key) =>
      { desk.put i dto (.done (.ok (.order (newResponse cfg c dto)))) with
        kept := Function.update desk.kept key (some (newResponse cfg c dto)) }
  | _ => desk

/-- What a call of the customer is about to do fails. -/
def fail (desk : Desk) (i : ℕ) : Desk :=
  match desk.calls i with
  | some (_, .done _) => desk
  | some (dto, _) => desk.put i dto (.done (.error .Unavailable))
  | none => desk

/-- One action at the desk. -/
def step (cfg : DispatchConfig) (c : UserId) (desk : Desk) : Action → Desk
  | .invoke i (.createOrder dto c' key) =>
      if c' = c then desk.put i dto (.first dto key) else desk
  | .exec i _ => desk.exec cfg c i
  | .fail i => desk.fail i
  | .expire (.IDEMPOTENCY_REDIS_PREFIX key) =>
      { desk with kept := Function.update desk.kept key none }
  | _ => desk

/-- The desk after some actions, the latest first. -/
def after (cfg : DispatchConfig) (c : UserId) : List Action → Desk
  | [] => empty
  | a :: as => (after cfg c as).step cfg c a

variable {desk : Desk} {dto : CreateOrderDto} {stage : Stage} {j : ℕ}

@[simp] theorem put_calls_self : (desk.put i dto stage).calls i = some (dto, stage) :=
  Function.update_self i _ _

theorem put_calls_of_ne (h : j ≠ i) : (desk.put i dto stage).calls j = desk.calls j :=
  Function.update_of_ne h _ _

/-- The desk does not see what is drawn. -/
theorem after_alike {as bs : List Action} (h : List.Forall₂ Action.Alike as bs) :
    after cfg B as = after cfg B bs := by
  induction h with
  | nil => rfl
  | cons hab _ ih =>
      rw [after, after, ih]
      cases hab with
      | refl a => rfl
      | exec i ch ch' => rfl

end Desk

/-! ### A desk shows a customer the customer's own orders -/

/-- What the desk keeps and has answered is the customer's. -/
structure Desk.Own (c : UserId) (desk : Desk) : Prop where
  kept : ∀ key data, desk.kept key = some data → data.customerId = c
  done : ∀ i dto res, desk.calls i = some (dto, .done res) → ShowsOwn c res

namespace Desk.Own

variable {desk : Desk} {c : UserId} {dto : CreateOrderDto} {stage : Stage}

/-- A call comes to a stage at which it shows nothing of others. -/
theorem put (h : desk.Own c) (hstage : ∀ res, stage = .done res → ShowsOwn c res) :
    (desk.put i dto stage).Own c := by
  refine ⟨h.kept, fun j dto' res hj => ?_⟩
  by_cases hij : j = i
  · subst hij
    rw [put_calls_self] at hj
    exact hstage res (Prod.mk.inj (Option.some.inj hj)).2
  · rw [put_calls_of_ne hij] at hj
    exact h.done j dto' res hj

/-- An error that is not a conflict shows no order. -/
theorem showsOwn_error {err : Error} (h : ∀ message data, err ≠ .DuplicateRequest message data) :
    ShowsOwn c (.error err) := by
  rintro data (hres | ⟨message, hres⟩)
  · cases hres
  · exact absurd (Except.error.inj hres) (h message data)

theorem showsOwn_checked {key : Option String} (res : Except Error Response)
    (h : Stage.checked dto key = .done res) : ShowsOwn c res := by
  unfold Stage.checked at h
  split at h
  · next err hvalid =>
      obtain rfl := Stage.done.inj h
      unfold validateVehincle at hvalid
      split at hvalid
      · obtain rfl := Except.error.inj hvalid
        exact showsOwn_error fun _ _ h => by cases h
      · cases hvalid
  · cases h

theorem showsOwn_first {key : Option String} (res : Except Error Response)
    (h : Stage.first dto key = .done res) : ShowsOwn c res := by
  unfold Stage.first at h
  split at h
  · exact showsOwn_checked res h
  · split at h
    · obtain rfl := Stage.done.inj h
      exact showsOwn_error fun _ _ h => by cases h
    · cases h

theorem showsOwn_new : ShowsOwn c (.ok (.order (newResponse cfg c dto))) := by
  rintro data (hres | ⟨message, hres⟩)
  · obtain rfl := Response.order.inj (Except.ok.inj hres)
    rfl
  · cases hres

/-- A call goes on. -/
theorem exec (h : desk.Own c) : (desk.exec cfg c i).Own c := by
  unfold Desk.exec
  split
  · next dto key hi =>
      refine h.put fun res hres => ?_
      cases hdata : desk.kept key with
      | none =>
          rw [hdata] at hres
          exact showsOwn_checked res hres
      -- the order of the conflict is one that is kept
      | some data =>
          rw [hdata] at hres
          obtain rfl := Stage.done.inj hres
          rintro data' (hdata' | ⟨message, hdata'⟩)
          · cases hdata'
          · obtain ⟨-, rfl⟩ := Error.DuplicateRequest.inj (Except.error.inj hdata')
            exact h.kept key data hdata
  · next dto key hi =>
      refine h.put fun res hres => ?_
      cases key with
      | none => exact Stage.done.inj hres ▸ showsOwn_new
      | some key => cases hres
  · next dto key hi =>
      have hput : (desk.put i dto (.done (.ok (.order (newResponse cfg c dto))))).Own c :=
        h.put fun res hres => Stage.done.inj hres ▸ showsOwn_new
      refine ⟨fun key' data hkey' => ?_, hput.done⟩
      by_cases hkk : key' = key
      · subst hkk
        dsimp only at hkey'
        rw [Function.update_self] at hkey'
        obtain rfl := Option.some.inj hkey'
        rfl
      · dsimp only at hkey'
        rw [Function.update_of_ne hkk] at hkey'
        exact h.kept key' data hkey'
  · exact h

theorem fail (h : desk.Own c) : (desk.fail i).Own c := by
  unfold Desk.fail
  split
  · exact h
  · refine h.put fun res hres => ?_
    obtain rfl := Stage.done.inj hres
    exact showsOwn_error fun _ _ h => by cases h
  · exact h

/-- An action at the desk. -/
theorem step (h : desk.Own c) (a : Action) : (desk.step cfg c a).Own c := by
  unfold Desk.step
  split
  · split
    · exact h.put showsOwn_first
    · exact h
  · exact h.exec
  · exact h.fail
  · next key =>
      refine ⟨fun key' data hkey' => ?_, h.done⟩
      by_cases hkk : key' = key
      · subst hkk
        dsimp only at hkey'
        rw [Function.update_self] at hkey'
        cases hkey'
      · dsimp only at hkey'
        rw [Function.update_of_ne hkk] at hkey'
        exact h.kept key' data hkey'
  · exact h

/-- **The desk of a customer shows no one else's orders**, whatever is done. -/
theorem after (as : List Action) : (Desk.after cfg c as).Own c := by
  induction as with
  | nil => exact ⟨fun _ _ h => (by cases h), fun _ _ _ h => (by cases h)⟩
  | cons a as ih => exact ih.step a

end Desk.Own

/-! ## The calls and the stages they are at -/

/-- `createOrder` past the key. -/
def placing (cfg : DispatchConfig) (c : UserId) (dto : CreateOrderDto) (key : Option String) :
    Prog Response :=
  placeOrder cfg dto c key >>= fun response => pure (.order response)

/-- `createOrder` once it has looked its key up. -/
def lookedUp (cfg : DispatchConfig) (c : UserId) (dto : CreateOrderDto) (key : String) :
    Option OrderResponse → Prog Response
  | some data => .fail (.DuplicateRequest duplicateMessage data)
  | none => placing cfg c dto (some key)

/-- `createOrder` at the look-up of its key. -/
def looking (cfg : DispatchConfig) (c : UserId) (dto : CreateOrderDto) (key : String) :
    Prog Response :=
  .op (.redisGet (.IDEMPOTENCY_REDIS_PREFIX key)) (orThrow (lookedUp cfg c dto key))

/-- `createOrder` where it keeps the response. -/
def keeping (key : String) (response : OrderResponse) : Prog Response :=
  .op (.redisSet (.IDEMPOTENCY_REDIS_PREFIX key) response IDEMPOTENCY_KEY_TTL_SECONDS)
    (orThrow fun _ => .ret (.order response))

/-- `createOrder` once its order is placed. -/
def answered (order : Order) : Option String → Prog Response
  | none => .ret (.order (toOrderResponse order))
  | some key => keeping key (toOrderResponse order)

/-- What is left of a call that is at a stage. -/
def Stage.Of (cfg : DispatchConfig) (c : UserId) (dto : CreateOrderDto) :
    Stage → Prog Response → Prop
  | .lookUp key, p => p = looking cfg c dto key
  | .place key, p => validateVehincle dto = .ok () ∧ p = placing cfg c dto key
  | .keep key, p => ∃ response : OrderResponse, response.blank = newResponse cfg c dto ∧
      p = keeping key response
  | .done out, p => ∃ res, p = Program.ofExcept res ∧ blankOutcome res = out

section Stages

variable {c : UserId} {dto : CreateOrderDto} {key : Option String} {stage : Stage}
  {p : Prog Response}

theorem placing_of_valid (h : validateVehincle dto = .ok ()) :
    placing cfg c dto key = .op (.transaction (.createOrder dto c (estimatedPrice cfg dto)))
      (orThrow fun order => answered order key) := by
  unfold placing placeOrder
  rw [h]
  refine congrArg (Program.op _) (funext fun r => ?_)
  cases r with
  | error err => rfl
  | ok order =>
      cases key with
      | none => rfl
      | some key =>
          refine congrArg (Program.op _) (funext fun r => ?_)
          cases r <;> rfl

/-- Past the key, the call is where its check has it. -/
theorem checked_of : (Stage.checked dto key).Of cfg c dto (placing cfg c dto key) := by
  unfold Stage.checked
  split
  · next err hvalid =>
      refine ⟨.error err, ?_, ?_⟩
      · unfold placing placeOrder
        rw [hvalid]
        rfl
      · unfold validateVehincle at hvalid
        split at hvalid
        · obtain rfl := Except.error.inj hvalid
          rfl
        · cases hvalid
  · next hvalid => exact ⟨hvalid, rfl⟩

/-- A call of `createOrder` begins at its first stage. -/
theorem first_of (raw : Option String) :
    (Stage.first dto raw).Of cfg c dto ((Request.createOrder dto c raw).program cfg) := by
  show (Stage.first dto raw).Of cfg c dto
    (OrdersService.createOrder cfg dto c raw >>= fun response => pure (.order response))
  rw [createOrder_eq, sanitizeKey, Stage.first, trimmedKey]
  cases hraw : raw.filter fun key => key ≠ "" with
  | none =>
      simp only [Option.map_none]
      exact checked_of
  | some text =>
      simp only [Option.map_some]
      split
      · exact ⟨.error (.UnprocessableEntityException "Invalid idempotency key"), rfl, rfl⟩
      · refine congrArg (Program.op _) (funext fun r => ?_)
        cases r with
        | error err => rfl
        | ok cached => cases cached <;> rfl

/-- After the look-up. -/
theorem lookedUp_of (cached : Option OrderResponse) :
    (Stage.lookedUp dto k (cached.map OrderResponse.blank)).Of cfg c dto
      (lookedUp cfg c dto k cached) := by
  cases cached with
  | some data => exact ⟨.error (.DuplicateRequest duplicateMessage data), rfl, rfl⟩
  | none => exact checked_of

/-- What the transaction of `createOrder` answers. -/
theorem perform_create {ch : Choice} {price : ℚ} {sh : Shared Q} :
    (perform cfg ch (.transaction (.createOrder dto c price)) sh).1
      = (createOrderTx ch dto c price sh.db).map Prod.fst := by
  simp only [perform, Transaction.run]
  cases createOrderTx ch dto c price sh.db <;> rfl

/-- The order it answers with, up to what is drawn. -/
theorem blank_of_created {ch : Choice} {db : Db} {created : Order × Db}
    (h : createOrderTx ch dto c (estimatedPrice cfg dto) db = .ok created) :
    (toOrderResponse created.1).blank = newResponse cfg c dto := by
  unfold createOrderTx at h
  split at h
  · cases h
  · cases h
    rfl

/-- After the order is placed. -/
theorem answered_of {order : Order} (h : (toOrderResponse order).blank = newResponse cfg c dto) :
    (Stage.placed cfg c dto key).Of cfg c dto (answered order key) := by
  cases key with
  | none => exact ⟨.ok (.order (toOrderResponse order)), rfl, by rw [← h]; rfl⟩
  | some key => exact ⟨_, h, rfl⟩

/-- A call that is done has no next effect. -/
theorem not_of_done {out : Except Error Response} {e : Effect}
    {kont : Except Error e.Resp → Prog Response} :
    ¬ (Stage.done out).Of cfg c dto (.op e kont) := by
  rintro ⟨res, hp, -⟩
  cases res <;> cases hp

/-- A call whose next effect fails has ended with that. -/
theorem failed_of {e : Effect} {kont : Except Error e.Resp → Prog Response}
    (h : stage.Of cfg c dto (.op e kont)) :
    (Stage.done (.error .Unavailable)).Of cfg c dto (kont (.error .Unavailable)) := by
  cases stage with
  | lookUp key =>
      cases h
      exact ⟨.error .Unavailable, rfl, rfl⟩
  | place key =>
      obtain ⟨hvalid, hp⟩ := h
      rw [placing_of_valid hvalid] at hp
      cases hp
      exact ⟨.error .Unavailable, rfl, rfl⟩
  | keep key =>
      obtain ⟨response, -, hp⟩ := h
      cases hp
      exact ⟨.error .Unavailable, rfl, rfl⟩
  | done out => exact absurd h not_of_done

/-- A call that goes on comes to a stage. -/
theorem went_of {ch : Choice} {e : Effect} {kont : Except Error e.Resp → Prog Response}
    {sh : Shared Q} (h : stage.Of cfg c dto (.op e kont)) :
    ∃ stage' : Stage, stage'.Of cfg c dto (kont (perform cfg ch e sh).1) := by
  cases stage with
  | lookUp key =>
      cases h
      exact ⟨_, lookedUp_of _⟩
  | place key =>
      obtain ⟨hvalid, hp⟩ := h
      rw [placing_of_valid hvalid] at hp
      cases hp
      rw [perform_create]
      cases hrun : createOrderTx ch dto c (estimatedPrice cfg dto) sh.db with
      | error err => exact ⟨.done (blankOutcome (.error err)), .error err, rfl, rfl⟩
      | ok created => exact ⟨_, answered_of (blank_of_created hrun)⟩
  | keep key =>
      obtain ⟨response, -, hp⟩ := h
      cases hp
      exact ⟨.done _, .ok (.order response), rfl, rfl⟩
  | done out => exact absurd h not_of_done

end Stages

/-- All calls that create orders are at a stage. -/
def Staged (cfg : DispatchConfig) (s : Sys Q) : Prop :=
  ∀ i dto c key p, s.threads.lookup i = some ⟨.request (.createOrder dto c key), p⟩ →
    ∃ stage : Stage, stage.Of cfg c dto p

theorem staged_of_reachable (hs : Transition.Reachable (logistics Q cfg) s) : Staged cfg s := by
  refine hs.invariant ?_ ?_
  · intro s hinit i dto c key p hi
    rw [hinit.threads, AList.lookup_empty] at hi
    cases hi
  · intro s a s' _ ih hstep
    -- the call that moves comes to a stage, the others stay where they are
    have hinsert : ∀ {j : ℕ} {call : Call} {q : Prog Response},
        s'.threads = s.threads.insert j ⟨call, q⟩ →
        (∀ dto c key, call = .request (.createOrder dto c key) →
          ∃ stage : Stage, stage.Of cfg c dto q) → Staged cfg s' := by
      intro j call q hth hq i dto c key p hi
      rw [hth] at hi
      rcases Pool.lookup_insert_cases hi with ⟨-, heq⟩ | ⟨-, hi⟩
      · obtain ⟨rfl, rfl⟩ := Thread.mk.inj heq
        exact hq dto c key rfl
      · exact ih i dto c key p hi
    cases call_step hstep with
    | same hth =>
        intro i dto c key p hi
        rw [hth] at hi
        exact ih i dto c key p hi
    | made _ hth =>
        refine hinsert hth ?_
        rintro dto c key rfl
        exact ⟨_, first_of key⟩
    | went _ hi _ hth =>
        refine hinsert hth ?_
        rintro dto c key rfl
        obtain ⟨stage, hstage⟩ := ih _ dto c key _ hi
        exact went_of hstage
    | failed _ hi _ hth =>
        refine hinsert hth ?_
        rintro dto c key rfl
        obtain ⟨stage, hstage⟩ := ih _ dto c key _ hi
        exact ⟨_, failed_of hstage⟩

/-- The response that a call of another customer keeps is not the customer's. -/
theorem stranger_of_set {response : OrderResponse} {ttl : ℕ}
    (hs : Transition.Reachable (logistics Q cfg) s)
    (hnext : s.next i = some (.redisSet (.IDEMPOTENCY_REDIS_PREFIX k) response ttl))
    (hcall : ∀ dto key, s.call i ≠ some (.request (.createOrder dto B key))) :
    response.customerId ≠ B := by
  obtain ⟨call, kont, hi⟩ := Sys.lookup_of_next hnext
  obtain ⟨dto, c, key, rfl, -⟩ : call.Uses k := performs_of_next hs hi
  obtain ⟨stage, hstage⟩ := staged_of_reachable hs i dto c _ _ hi
  have hc : c ≠ B := by
    rintro rfl
    exact hcall _ _ (Sys.call_of_lookup hi)
  cases stage with
  | lookUp key => cases hstage
  | place key =>
      obtain ⟨hvalid, hp⟩ := hstage
      rw [placing_of_valid hvalid] at hp
      cases hp
  | keep key =>
      obtain ⟨response', hblank, hp⟩ := hstage
      cases hp
      have hcustomer : response.customerId = c := congrArg OrderResponse.customerId hblank
      rwa [hcustomer]
  | done out => exact absurd hstage not_of_done

/-! ## The calls of a customer are where the desk has them -/

/-- The calls of the customer are where the desk has them, and what it keeps is what is kept
for the customer. -/
structure Matches (cfg : DispatchConfig) (c : UserId) (s : Sys Q) (desk : Desk) : Prop where
  idle : ∀ i, desk.calls i = none → ∀ dto key, s.call i ≠ some (.request (.createOrder dto c key))
  busy : ∀ i dto stage, desk.calls i = some (dto, stage) → ∃ key p,
    s.threads.lookup i = some ⟨.request (.createOrder dto c key), p⟩ ∧ stage.Of cfg c dto p
  free : ∀ k, s.shared.redis.lookup (.IDEMPOTENCY_REDIS_PREFIX k) = none → desk.kept k = none
  kept : ∀ k data, s.shared.redis.lookup (.IDEMPOTENCY_REDIS_PREFIX k) = some data →
    data.customerId = c → desk.kept k = some data.blank

section Matching

variable {c : UserId} {desk desk' : Desk} {call : Call} {p : Prog Response}

omit [JobQueue Q JobId JobData]

/-- What is found under a key by a call that meets no response of others is what the desk
keeps. -/
theorem Matches.found (h : Matches cfg c s desk)
    (hown : ∀ data, s.shared.redis.lookup (.IDEMPOTENCY_REDIS_PREFIX k) = some data →
      data.customerId = c) :
    desk.kept k
      = (s.shared.redis.lookup (.IDEMPOTENCY_REDIS_PREFIX k)).map OrderResponse.blank := by
  cases hk : s.shared.redis.lookup (.IDEMPOTENCY_REDIS_PREFIX k) with
  | none => exact h.free k hk
  | some data => exact h.kept k data hk (hown data hk)

/-- A call that is made or goes on, if the desk follows it and what is kept matches. -/
theorem Matches.insert (h : Matches cfg c s desk)
    (hth : s'.threads = s.threads.insert i ⟨call, p⟩)
    (hother : ∀ j, j ≠ i → desk'.calls j = desk.calls j)
    (hidle : desk'.calls i = none → ∀ dto key, call ≠ .request (.createOrder dto c key))
    (hbusy : ∀ dto stage, desk'.calls i = some (dto, stage) →
      (∃ key, call = .request (.createOrder dto c key)) ∧ stage.Of cfg c dto p)
    (hfree : ∀ k, s'.shared.redis.lookup (.IDEMPOTENCY_REDIS_PREFIX k) = none →
      desk'.kept k = none)
    (hkept : ∀ k data, s'.shared.redis.lookup (.IDEMPOTENCY_REDIS_PREFIX k) = some data →
      data.customerId = c → desk'.kept k = some data.blank) : Matches cfg c s' desk' := by
  refine ⟨fun j hj dto key hcall => ?_, fun j dto stage hj => ?_, hfree, hkept⟩
  · rw [Sys.call, hth] at hcall
    by_cases hij : j = i
    · subst hij
      rw [AList.lookup_insert] at hcall
      exact hidle hj dto key (Option.some.inj hcall)
    · rw [AList.lookup_insert_ne hij] at hcall
      exact h.idle j ((hother j hij).symm.trans hj) dto key hcall
  · rw [hth]
    by_cases hij : j = i
    · subst hij
      obtain ⟨⟨key, rfl⟩, hstage⟩ := hbusy dto stage hj
      exact ⟨key, p, AList.lookup_insert _, hstage⟩
    · rw [AList.lookup_insert_ne hij]
      exact h.busy j dto stage ((hother j hij).symm.trans hj)

/-- A call of the customer comes to a stage, and the keys are left alone. -/
theorem Matches.put {dto : CreateOrderDto} {stage : Stage} {key : Option String}
    (h : Matches cfg c s desk)
    (hth : s'.threads = s.threads.insert i ⟨.request (.createOrder dto c key), p⟩)
    (hstage : stage.Of cfg c dto p)
    (hredis : ∀ k, s'.shared.redis.lookup (.IDEMPOTENCY_REDIS_PREFIX k)
      = s.shared.redis.lookup (.IDEMPOTENCY_REDIS_PREFIX k)) :
    Matches cfg c s' (desk.put i dto stage) := by
  refine h.insert hth (fun j hj => Desk.put_calls_of_ne hj) ?_ ?_ ?_ ?_
  · intro hnone
    rw [Desk.put_calls_self] at hnone
    cases hnone
  · intro dto' stage' hsome
    rw [Desk.put_calls_self] at hsome
    cases hsome
    exact ⟨⟨key, rfl⟩, hstage⟩
  · intro k hk
    exact h.free k ((hredis k).symm.trans hk)
  · intro k data hk hc
    exact h.kept k data ((hredis k).symm.trans hk) hc

/-- A call that is not one of the customer's is made or goes on. -/
theorem Matches.stranger (h : Matches cfg c s desk)
    (hth : s'.threads = s.threads.insert i ⟨call, p⟩) (hdesk : desk.calls i = none)
    (hcall : ∀ dto key, call ≠ .request (.createOrder dto c key))
    (hredis : ∀ k, s'.shared.redis.lookup (.IDEMPOTENCY_REDIS_PREFIX k)
        = s.shared.redis.lookup (.IDEMPOTENCY_REDIS_PREFIX k) ∨
      ∃ data, s'.shared.redis.lookup (.IDEMPOTENCY_REDIS_PREFIX k) = some data ∧
        data.customerId ≠ c) :
    Matches cfg c s' desk := by
  refine h.insert hth (fun _ _ => rfl) (fun _ => hcall) ?_ ?_ ?_
  · intro dto stage hsome
    rw [hdesk] at hsome
    cases hsome
  · intro k hk
    rcases hredis k with hsame | ⟨data, hdata, -⟩
    · exact h.free k (hsame.symm.trans hk)
    · rw [hdata] at hk
      cases hk
  · intro k data hk hc
    rcases hredis k with hsame | ⟨data', hdata', hne⟩
    · exact h.kept k data (hsame.symm.trans hk) hc
    · rw [hdata'] at hk
      obtain rfl := Option.some.inj hk
      exact absurd hc hne

/-- A call of the customer keeps its response, and is done. -/
theorem Matches.keep {dto : CreateOrderDto} {key : Option String} {response : OrderResponse}
    (h : Matches cfg c s desk)
    (hth : s'.threads = s.threads.insert i
      ⟨.request (.createOrder dto c key), .ret (.order response)⟩)
    (hredis : s'.shared.redis = s.shared.redis.insert (.IDEMPOTENCY_REDIS_PREFIX k) response)
    (hblank : response.blank = newResponse cfg c dto) :
    Matches cfg c s' { desk.put i dto (.done (.ok (.order (newResponse cfg c dto)))) with
      kept := Function.update desk.kept k (some (newResponse cfg c dto)) } := by
  -- the key, and the other keys
  have hlookup : ∀ k', k' ≠ k → s'.shared.redis.lookup (.IDEMPOTENCY_REDIS_PREFIX k')
      = s.shared.redis.lookup (.IDEMPOTENCY_REDIS_PREFIX k') := by
    intro k' hkk
    rw [hredis]
    exact AList.lookup_insert_ne fun h => hkk (RedisKey.IDEMPOTENCY_REDIS_PREFIX.inj h)
  have hself : s'.shared.redis.lookup (.IDEMPOTENCY_REDIS_PREFIX k) = some response := by
    rw [hredis, AList.lookup_insert]
  refine h.insert hth (fun j hj => Desk.put_calls_of_ne hj) ?_ ?_ ?_ ?_
  · intro hnone
    dsimp only at hnone
    rw [Desk.put_calls_self] at hnone
    cases hnone
  · intro dto' stage' hsome
    dsimp only at hsome
    rw [Desk.put_calls_self] at hsome
    cases hsome
    exact ⟨⟨key, rfl⟩, .ok (.order response), rfl, by rw [← hblank]; rfl⟩
  · intro k' hk'
    by_cases hkk : k' = k
    · subst hkk
      rw [hself] at hk'
      cases hk'
    · rw [hlookup k' hkk] at hk'
      exact (Function.update_of_ne hkk _ _).trans (h.free k' hk')
  · intro k' data hk' hc
    by_cases hkk : k' = k
    · subst hkk
      rw [hself] at hk'
      obtain rfl := Option.some.inj hk'
      exact (Function.update_self _ _ _).trans (congrArg some hblank.symm)
    · rw [hlookup k' hkk] at hk'
      exact (Function.update_of_ne hkk _ _).trans (h.kept k' data hk' hc)

end Matching

section Steps

variable {c : UserId} {desk : Desk}

/-- A call that is not one of the customer's keeps no response of the customer's. -/
theorem redis_of_stranger {ch : Choice} (hs : Transition.Reachable (logistics Q cfg) s)
    (hstep : step cfg s (.exec i ch) = some s')
    (hcall : ∀ dto key, s.call i ≠ some (.request (.createOrder dto c key))) (k : String) :
    s'.shared.redis.lookup (.IDEMPOTENCY_REDIS_PREFIX k)
        = s.shared.redis.lookup (.IDEMPOTENCY_REDIS_PREFIX k) ∨
      ∃ data, s'.shared.redis.lookup (.IDEMPOTENCY_REDIS_PREFIX k) = some data ∧
        data.customerId ≠ c := by
  rcases redis_step hstep (.IDEMPOTENCY_REDIS_PREFIX k) with
    hsame | ⟨j, ch', data, ttl, ha, hnext, hset⟩ | ⟨j, ch', -, hnext⟩ | hexpire
  · exact .inl hsame
  · obtain ⟨rfl, rfl⟩ := Action.exec.inj ha
    exact .inr ⟨data, hset, stranger_of_set hs hnext hcall⟩
  · obtain ⟨call, kont, hj⟩ := Sys.lookup_of_next hnext
    exact (performs_of_next hs hj).elim
  · cases hexpire

/-- A transaction leaves Redis alone. -/
theorem perform_transaction_redis {ch : Choice} {t : Transaction} {sh : Shared Q} :
    (perform cfg ch (.transaction t) sh).2.redis = sh.redis := by
  simp only [perform]
  cases t.run cfg ch sh.db <;> rfl

/-- A call goes on. -/
theorem Matches.exec {ch : Choice} (hs : Transition.Reachable (logistics Q cfg) s)
    (hstep : step cfg s (.exec i ch) = some s') (hown : LooksUpOwn c ⟨s, .exec i ch, s'⟩)
    (hnew : DrawsNew ⟨s, .exec i ch, s'⟩) (h : Matches cfg c s desk) :
    Matches cfg c s' (desk.exec cfg c i) := by
  obtain ⟨call, e, kont, hi, hsh, hth⟩ := Pool.advance_eq_some hstep
  have hsh : s'.shared = (perform cfg ch e s.shared).2 := hsh
  have hth : s'.threads = s.threads.insert i ⟨call, kont (perform cfg ch e s.shared).1⟩ := hth
  cases hdesk : desk.calls i with
  | none =>
      have hcall := h.idle i hdesk
      have hexec : desk.exec cfg c i = desk := by
        simp only [Desk.exec, hdesk]
      rw [hexec]
      refine h.stranger hth hdesk (fun dto key heq => ?_) (redis_of_stranger hs hstep hcall)
      exact hcall dto key (heq ▸ Sys.call_of_lookup hi)
  | some entry =>
      obtain ⟨dto, stage⟩ := entry
      obtain ⟨key, p, hi', hstage⟩ := h.busy i dto stage hdesk
      have hnext := Sys.next_of_lookup hi
      have hcall := Sys.call_of_lookup hi
      rw [hi] at hi'
      cases hi'
      cases stage with
      | done out => exact absurd hstage not_of_done
      | lookUp k =>
          have hexec : desk.exec cfg c i = desk.put i dto (.lookedUp dto k (desk.kept k)) := by
            simp only [Desk.exec, hdesk]
          cases hstage
          rw [hexec, h.found (hown i ch dto key k · rfl hcall hnext)]
          refine h.put hth (lookedUp_of _) fun k' => ?_
          rw [hsh]
          rfl
      | place k =>
          have hexec : desk.exec cfg c i = desk.put i dto (.placed cfg c dto k) := by
            simp only [Desk.exec, hdesk]
          obtain ⟨hvalid, hp⟩ := hstage
          rw [placing_of_valid hvalid] at hp
          cases hp
          rw [hexec]
          refine h.put hth ?_ fun k' => by rw [hsh, perform_transaction_redis]
          -- what is drawn is new, so the transaction goes through
          obtain ⟨horder, houtbox⟩ := hnew i ch dto c _ rfl hnext
          have hfree : ¬ ((s.shared.db.orders.find ch.orderId).isSome ∨
              (s.shared.db.outbox.find ch.outboxId).isSome) := by
            rw [Sys.order] at horder
            simp [horder, houtbox]
          rw [perform_create]
          cases hrun : createOrderTx ch dto c (estimatedPrice cfg dto) s.shared.db with
          | error err =>
              unfold createOrderTx at hrun
              rw [if_neg hfree] at hrun
              cases hrun
          | ok created => exact answered_of (blank_of_created hrun)
      | keep k =>
          obtain ⟨response, hblank, hp⟩ := hstage
          cases hp
          have hexec : desk.exec cfg c i =
              { desk.put i dto (.done (.ok (.order (newResponse cfg c dto)))) with
                kept := Function.update desk.kept k (some (newResponse cfg c dto)) } := by
            simp only [Desk.exec, hdesk]
          rw [hexec]
          exact h.keep hth (by rw [hsh]; rfl) hblank

/-- What a call is about to do fails. -/
theorem Matches.fail (hstep : step cfg s (.fail i) = some s') (h : Matches cfg c s desk) :
    Matches cfg c s' (desk.fail i) := by
  simp only [step, Option.ite_none_right_eq_some] at hstep
  obtain ⟨call, e, kont, hi, hsh, hth⟩ := Pool.interrupt_eq_some hstep.2
  cases hdesk : desk.calls i with
  | none =>
      have hfail : desk.fail i = desk := by
        simp only [Desk.fail, hdesk]
      rw [hfail]
      refine h.stranger hth hdesk (fun dto key heq => ?_) fun k => .inl (by rw [hsh])
      exact h.idle i hdesk dto key (heq ▸ Sys.call_of_lookup hi)
  | some entry =>
      obtain ⟨dto, stage⟩ := entry
      obtain ⟨key, p, hi', hstage⟩ := h.busy i dto stage hdesk
      rw [hi] at hi'
      cases hi'
      have hfail : desk.fail i = desk.put i dto (.done (.error .Unavailable)) := by
        cases stage with
        | done out => exact absurd hstage not_of_done
        | _ => simp only [Desk.fail, hdesk]
      rw [hfail]
      exact h.put hth (failed_of hstage) fun k => by rw [hsh]

omit [JobQueue Q JobId JobData] in
/-- A call is made. -/
theorem Matches.made {call : Call} (h : Matches cfg c s desk) (hfree : s.threads.lookup i = none)
    (hth : s'.threads = s.threads.insert i ⟨call, call.program cfg⟩)
    (hredis : s'.shared.redis = s.shared.redis)
    (hcall : ∀ dto key, call ≠ .request (.createOrder dto c key)) : Matches cfg c s' desk := by
  refine h.stranger hth ?_ hcall fun k => .inl (by rw [hredis])
  rw [Option.eq_none_iff_forall_ne_some]
  rintro ⟨dto, stage⟩ hdesk
  obtain ⟨key, p, hi, -⟩ := h.busy i dto stage hdesk
  rw [hi] at hfree
  cases hfree

omit [JobQueue Q JobId JobData] in
/-- No call moves, and the responses that are kept stay. -/
theorem Matches.same (h : Matches cfg c s desk) (hth : s'.threads = s.threads)
    (hredis : ∀ k, s'.shared.redis.lookup (.IDEMPOTENCY_REDIS_PREFIX k)
      = s.shared.redis.lookup (.IDEMPOTENCY_REDIS_PREFIX k)) : Matches cfg c s' desk := by
  refine ⟨fun i hi dto key hcall => ?_, fun i dto stage hi => ?_, fun k hk => ?_,
    fun k data hk hc => ?_⟩
  · rw [Sys.call, hth] at hcall
    exact h.idle i hi dto key hcall
  · rw [hth]
    exact h.busy i dto stage hi
  · exact h.free k ((hredis k).symm.trans hk)
  · exact h.kept k data ((hredis k).symm.trans hk) hc

omit [JobQueue Q JobId JobData] in
/-- A key expires. -/
theorem Matches.expire (h : Matches cfg c s desk) (hth : s'.threads = s.threads)
    (hredis : s'.shared.redis = s.shared.redis.erase (.IDEMPOTENCY_REDIS_PREFIX k)) :
    Matches cfg c s' { desk with kept := Function.update desk.kept k none } := by
  have hne : ∀ {k' : String}, k' ≠ k → s'.shared.redis.lookup (.IDEMPOTENCY_REDIS_PREFIX k')
      = s.shared.redis.lookup (.IDEMPOTENCY_REDIS_PREFIX k') := by
    intro k' hkk
    rw [hredis]
    exact AList.lookup_erase_ne fun h => hkk (RedisKey.IDEMPOTENCY_REDIS_PREFIX.inj h)
  refine ⟨fun i hi dto key hcall => ?_, fun i dto stage hi => ?_, fun k' hk' => ?_,
    fun k' data hk' hc => ?_⟩
  · rw [Sys.call, hth] at hcall
    exact h.idle i hi dto key hcall
  · rw [hth]
    exact h.busy i dto stage hi
  · by_cases hkk : k' = k
    · subst hkk
      exact Function.update_self _ _ _
    · exact (Function.update_of_ne hkk _ _).trans (h.free k' ((hne hkk).symm.trans hk'))
  · by_cases hkk : k' = k
    · subst hkk
      rw [hredis, AList.lookup_erase] at hk'
      cases hk'
    · exact (Function.update_of_ne hkk _ _).trans (h.kept k' data ((hne hkk).symm.trans hk') hc)

/-- **A step, at the desk of a customer whose calls meet no response of others.** -/
theorem Matches.step (hs : Transition.Reachable (logistics Q cfg) s)
    (hstep : LogisticsDispatch.step cfg s a = some s') (hown : LooksUpOwn c ⟨s, a, s'⟩)
    (hnew : DrawsNew ⟨s, a, s'⟩) (h : Matches cfg c s desk) :
    Matches cfg c s' (desk.step cfg c a) := by
  cases a with
  | invoke i req =>
      obtain ⟨hfree, hsh, hth⟩ := Pool.spawn_eq_some hstep
      have hredis : s'.shared.redis = s.shared.redis := by rw [hsh]
      by_cases hreq : ∃ dto key, req = .createOrder dto c key
      · obtain ⟨dto, key, rfl⟩ := hreq
        have hput : desk.step cfg c (.invoke i (.createOrder dto c key))
            = desk.put i dto (.first dto key) := if_pos rfl
        rw [hput]
        exact h.put hth (first_of key) fun k => by rw [hredis]
      · have hsame : desk.step cfg c (.invoke i req) = desk := by
          cases req with
          | createOrder dto c' key => exact if_neg fun hc => hreq ⟨dto, key, by rw [hc]⟩
          | _ => rfl
        rw [hsame]
        refine h.made hfree hth hredis fun dto key heq => hreq ⟨dto, key, ?_⟩
        exact Call.request.inj heq
  | exec i ch => exact h.exec hs hstep hown hnew
  | fail i => exact h.fail hstep
  | deliver i queue jobId =>
      simp only [LogisticsDispatch.step] at hstep
      split at hstep
      · obtain ⟨hfree, hsh, hth⟩ := Pool.spawn_eq_some hstep
        refine h.made hfree hth ?_ fun dto key heq => by cases heq
        rw [hsh]
        exact Shared.setQueue_redis _ _ queue
      · cases hstep
  | promote queue jobId =>
      obtain rfl := Option.some.inj hstep
      exact h.same rfl fun k => congrArg (AList.lookup _) (Shared.setQueue_redis _ _ queue)
  | evict queue jobId =>
      obtain rfl := Option.some.inj hstep
      exact h.same rfl fun k => congrArg (AList.lookup _) (Shared.setQueue_redis _ _ queue)
  | expire key =>
      obtain rfl := Option.some.inj hstep
      cases key with
      | IDEMPOTENCY_REDIS_PREFIX k => exact h.expire rfl rfl
      | _ => exact h.same rfl fun k => AList.lookup_erase_ne fun h => by cases h

/-- **All along a run** in which the calls of the customer meet no response of others. -/
theorem matches_of_run (run : Transition.Run (logistics Q cfg) tr s)
    (hclear : ∀ m ∈ tr, LooksUpOwn c m ∧ DrawsNew m) :
    Matches cfg c s (.after cfg c (tr.map Transition.Move.act)) := by
  refine run.invariant_trace (P := fun tr s => (∀ m ∈ tr, LooksUpOwn c m ∧ DrawsNew m) →
    Matches cfg c s (.after cfg c (tr.map Transition.Move.act))) ?_ ?_ hclear
  · intro s hinit _
    refine ⟨fun i _ dto key hcall => ?_, fun i dto stage hi => (by cases hi), fun k _ => rfl,
      fun k data hk => ?_⟩
    · rw [Sys.call, hinit.threads, AList.lookup_empty] at hcall
      cases hcall
    · rw [hinit.redis, AList.lookup_empty] at hk
      cases hk
  · intro tr s a s' run ih hstep hclear
    obtain ⟨hown, hnew⟩ := hclear _ List.mem_cons_self
    exact (ih fun m hm => hclear m (List.mem_cons_of_mem _ hm)).step run.reachable hstep hown hnew

omit [JobQueue Q JobId JobData] in
/-- What is not done at the desk leaves it alone. -/
theorem Matches.away (h : Matches cfg c s desk)
    (hat : AtDesk c (⟨s, a, s'⟩ : Transition.Move (Sys Q) Action) = false) :
    desk.step cfg c a = desk := by
  have hidle : ∀ i, (∀ dto key, s.call i ≠ some (.request (.createOrder dto c key))) →
      desk.calls i = none := by
    intro i hcall
    rw [Option.eq_none_iff_forall_ne_some]
    rintro ⟨dto, stage⟩ hdesk
    obtain ⟨key, p, hi, -⟩ := h.busy i dto stage hdesk
    exact hcall dto key (Sys.call_of_lookup hi)
  cases a with
  | invoke i req =>
      cases req with
      | createOrder dto c' key =>
          exact if_neg fun hc => of_decide_eq_false hat (congrArg some hc)
      | _ => rfl
  | exec i ch =>
      have hdesk := hidle i fun dto key hcall => by simp [AtDesk, CreatesFor, creator, hcall] at hat
      show desk.exec cfg c i = desk
      simp only [Desk.exec, hdesk]
  | fail i =>
      have hdesk := hidle i fun dto key hcall => by simp [AtDesk, CreatesFor, creator, hcall] at hat
      show desk.fail i = desk
      simp only [Desk.fail, hdesk]
  | expire key =>
      cases key with
      | IDEMPOTENCY_REDIS_PREFIX k => cases hat
      | _ => rfl
  | _ => rfl

/-- The desk is where the actions at it lead: the others do not matter. -/
theorem after_own (run : Transition.Run (logistics Q cfg) tr s)
    (hclear : ∀ m ∈ tr, LooksUpOwn c m ∧ DrawsNew m) :
    Desk.after cfg c (own c tr) = Desk.after cfg c (tr.map Transition.Move.act) := by
  refine run.invariant_trace (P := fun tr s => (∀ m ∈ tr, LooksUpOwn c m ∧ DrawsNew m) →
    Desk.after cfg c (own c tr) = Desk.after cfg c (tr.map Transition.Move.act)) ?_ ?_ hclear
  · intro s _ _
    rfl
  · intro tr s a s' run ih hstep hclear
    have hclear' : ∀ m ∈ tr, LooksUpOwn c m ∧ DrawsNew m :=
      fun m hm => hclear m (List.mem_cons_of_mem _ hm)
    have hmatches := matches_of_run run hclear'
    have ih := ih hclear'
    cases hat : AtDesk c (⟨s, a, s'⟩ : Transition.Move (Sys Q) Action) with
    | true =>
        rw [own, List.filter_cons_of_pos hat]
        show (Desk.after cfg c (own c tr)).step cfg c a = _
        rw [ih]
        rfl
    | false =>
        rw [own, List.filter_cons_of_neg (by rw [hat]; exact Bool.false_ne_true)]
        show Desk.after cfg c (own c tr) = (Desk.after cfg c _).step cfg c a
        rw [ih]
        exact (hmatches.away hat).symm

end Steps

/-! ## What the customer is shown -/

/-- What a call at the stage has answered. -/
def Stage.outcome : Stage → Option (Except Error Response)
  | .done out => some out
  | _ => none

omit [JobQueue Q JobId JobData] in
/-- The outcome of a call, up to what is drawn, is the one of its stage. -/
theorem outcome_of {c : UserId} {dto : CreateOrderDto} {stage : Stage} {call : Call}
    {p : Prog Response} (hi : s.threads.lookup i = some ⟨call, p⟩) (h : stage.Of cfg c dto p) :
    (outcome s i).map blankOutcome = stage.outcome := by
  unfold outcome
  rw [hi]
  cases stage with
  | lookUp key =>
      cases h
      rfl
  | place key =>
      obtain ⟨hvalid, rfl⟩ := h
      rw [placing_of_valid hvalid]
      rfl
  | keep key =>
      obtain ⟨response, -, rfl⟩ := h
      rfl
  | done out =>
      obtain ⟨res, rfl, rfl⟩ := h
      cases res <;> rfl

/-- Of what an outcome shows, only the id and the dates are blanked. -/
theorem showsOwn_of_blank {c : UserId} {res : Except Error Response}
    (h : ShowsOwn c (blankOutcome res)) : ShowsOwn c res := by
  rintro data (rfl | ⟨message, rfl⟩)
  · exact h data.blank (.inl rfl)
  · exact h data.blank (.inr ⟨message, rfl⟩)

/-- **When keys do not leak**: in every two runs that differ in the calls by which another
customer creates orders, the calls of a customer have the same outcomes, as long as no call of
the customer finds a response of another customer under its key. -/
theorem keys_do_not_leak {tr₁ tr₂ : List (Transition.Move (Sys Q) Action)} {s₁ s₂ : Sys Q}
    (hAB : A ≠ B) (run₁ : Transition.Run (logistics Q cfg) tr₁ s₁)
    (run₂ : Transition.Run (logistics Q cfg) tr₂ s₂) (hsame : DifferOnlyIn A tr₁ tr₂)
    (hclear₁ : ∀ m ∈ tr₁, LooksUpOwn B m ∧ DrawsNew m)
    (hclear₂ : ∀ m ∈ tr₂, LooksUpOwn B m ∧ DrawsNew m) : SameFor B s₁ s₂ := by
  -- the desk of `B` is the same after both runs
  have hdesk : Desk.after cfg B (tr₁.map Transition.Move.act)
      = Desk.after cfg B (tr₂.map Transition.Move.act) := by
    calc Desk.after cfg B (tr₁.map Transition.Move.act)
        = Desk.after cfg B (own B tr₁) := (after_own run₁ hclear₁).symm
      _ = Desk.after cfg B (own B tr₂) := Desk.after_alike (hsame B hAB.symm)
      _ = Desk.after cfg B (tr₂.map Transition.Move.act) := after_own run₂ hclear₂
  have hmatches₁ := matches_of_run run₁ hclear₁
  have hmatches₂ := matches_of_run run₂ hclear₂
  have hown := @Desk.Own.after cfg B (tr₁.map Transition.Move.act)
  rw [← hdesk] at hmatches₂
  generalize Desk.after cfg B (tr₁.map Transition.Move.act) = desk at hmatches₁ hmatches₂ hown
  -- and a call of `B` is where the desk has it
  have hbusy : ∀ {i dto key}, s₁.call i = some (.request (.createOrder dto B key)) →
      ∃ dto' stage, desk.calls i = some (dto', stage) := by
    intro i dto key hcall
    cases hi : desk.calls i with
    | none => exact absurd hcall (hmatches₁.idle i hi dto key)
    | some entry => exact ⟨entry.1, entry.2, rfl⟩
  refine ⟨fun i dto key hcall => ?_, fun i dto key res hcall hres => ?_⟩
  · obtain ⟨dto', stage, hi⟩ := hbusy hcall
    obtain ⟨key₁, p₁, hi₁, hof₁⟩ := hmatches₁.busy i dto' stage hi
    obtain ⟨key₂, p₂, hi₂, hof₂⟩ := hmatches₂.busy i dto' stage hi
    rw [outcome_of hi₁ hof₁, outcome_of hi₂ hof₂]
  · obtain ⟨dto', stage, hi⟩ := hbusy hcall
    obtain ⟨key₁, p₁, hi₁, hof₁⟩ := hmatches₁.busy i dto' stage hi
    have hout := outcome_of hi₁ hof₁
    rw [hres] at hout
    cases stage with
    | done out =>
        obtain rfl := Option.some.inj hout
        exact showsOwn_of_blank (hown.done i dto' _ hi)
    | _ => cases hout

/-! ### In the small system -/

/-- Another customer. -/
def otherCustomer : UserId := ⟨"other-customer", by decide⟩

/-- A trip of the other customer's under the same key. -/
def othersTrip : Request := .createOrder carTrip otherCustomer (some "key")

/-- The other customer orders, and looks the key up. -/
def othersLookUp : List Action := [.invoke 1 othersTrip, .exec 1 secondChoice]

/-- A customer orders under a key, and then the other customer does. -/
def keyShared : List Action := .invoke 0 keyedTrip :: proceed 0 3 sampleChoice ++ othersLookUp

/-- The same under keys that differ. -/
def keyUnshared : List Action :=
  .invoke 0 (.createOrder carTrip sampleCustomer (some "another")) :: proceed 0 3 sampleChoice ++
    othersLookUp ++ proceed 1 2 secondChoice

/-- Only the other customer orders. -/
def othersOnly : List Action := othersLookUp ++ proceed 1 2 secondChoice

theorem key_shared : ((logistics BullQueue (sampleConfig 3)).exec (start []) keyShared).isSome := by
  decide +kernel

theorem others_look_up : ((logistics BullQueue (sampleConfig 3)).exec (start [])
    othersLookUp).isSome := by
  decide +kernel

theorem key_unshared : ((logistics BullQueue (sampleConfig 3)).exec (start [])
    keyUnshared).isSome := by
  decide +kernel

theorem others_only : ((logistics BullQueue (sampleConfig 3)).exec (start [])
    othersOnly).isSome := by
  decide +kernel

/-- The customer whose order a call shows, as a computation. -/
def shownCustomer : Except Error Response → Option UserId
  | .ok (.order data) => some data.customerId
  | .error (.DuplicateRequest _ data) => some data.customerId
  | _ => none

theorem not_showsOwn {c c' : UserId} {res : Except Error Response}
    (h : shownCustomer res = some c') (hne : c' ≠ c) : ¬ ShowsOwn c res := by
  unfold shownCustomer at h
  intro hown
  split at h
  · obtain rfl := Option.some.inj h
    exact hne (hown _ (.inl rfl))
  · obtain rfl := Option.some.inj h
    exact hne (hown _ (.inr ⟨_, rfl⟩))
  · cases h

/-- Two runs differ in an order of one customer, and the other is shown that order. -/
theorem key_leaks : ∃ tr₁ s₁ tr₂ s₂,
    Transition.Run (logistics BullQueue (sampleConfig 3)) tr₁ s₁ ∧
    Transition.Run (logistics BullQueue (sampleConfig 3)) tr₂ s₂ ∧
    sampleCustomer ≠ otherCustomer ∧ others sampleCustomer tr₁ = others sampleCustomer tr₂ ∧
    ¬ SameFor otherCustomer s₁ s₂ ∧
    ∃ i dto key res, s₁.call i = some (.request (.createOrder dto otherCustomer key)) ∧
      outcome s₁ i = some res ∧ ¬ ShowsOwn otherCustomer res := by
  have hcall : (after _ _ _ key_shared).call 1 = some (.request othersTrip) := by
    decide +kernel
  have hshown : (outcome (after _ _ _ key_shared) 1).bind shownCustomer = some sampleCustomer := by
    decide +kernel
  obtain ⟨res, hres, hcustomer⟩ := Option.bind_eq_some_iff.mp hshown
  have hleak := not_showsOwn hcustomer (show sampleCustomer ≠ otherCustomer by decide)
  refine ⟨_, _, _, _, after_run key_shared, after_run others_look_up, by decide,
    by decide +kernel, fun h => hleak (h.own 1 _ _ res hcall hres), 1, _, _, res, hcall, hres,
    hleak⟩

omit [JobQueue Q JobId JobData] in
/-- Where only two customers create orders and no key expires, nothing is at the desk of a
third. -/
theorem own_eq_nil {c : UserId} (c₁ c₂ : UserId)
    (h : tr.all (fun m => decide (creator m = some c₁ ∨ creator m = some c₂)) = true)
    (h₁ : c₁ ≠ c) (h₂ : c₂ ≠ c) : own c tr = [] := by
  rw [List.all_eq_true] at h
  rw [own, List.map_eq_nil_iff, List.filter_eq_nil_iff]
  intro m hm hat
  have hcreator := of_decide_eq_true (h m hm)
  unfold AtDesk at hat
  split at hat
  · next k hact => simp [creator, hact] at hcreator
  · rw [of_decide_eq_true hat] at hcreator
    rcases hcreator with hc | hc
    · exact h₁ (Option.some.inj hc).symm
    · exact h₂ (Option.some.inj hc).symm

/-- Whether a step finds nothing under the key it looks up, and draws ids that are new, as a
computation. -/
def findsNothing (m : Transition.Move (Sys Q) Action) : Bool :=
  match m.act with
  | .exec i ch =>
      match m.src.next i with
      | some (.redisGet (.IDEMPOTENCY_REDIS_PREFIX k)) =>
          (m.src.shared.redis.lookup (.IDEMPOTENCY_REDIS_PREFIX k)).isNone
      | some (.transaction (.createOrder _ _ _)) =>
          (m.src.order ch.orderId).isNone && (m.src.shared.db.outbox.find ch.outboxId).isNone
      | _ => true
  | _ => true

omit [JobQueue Q JobId JobData] in
theorem clear_of_findsNothing {c : UserId} {m : Transition.Move (Sys Q) Action}
    (h : findsNothing m = true) : LooksUpOwn c m ∧ DrawsNew m := by
  unfold findsNothing at h
  constructor
  · intro i ch dto key k data hact _ hnext hdata
    simp [hact, hnext, hdata] at h
  · intro i ch dto c p hact hnext
    simpa [hact, hnext] using h

/-- A customer who orders under another key changes nothing for the other. -/
theorem keys_do_not_leak_of_trip :
    SameFor otherCustomer (after _ _ _ key_unshared) (after _ _ _ others_only) := by
  have hclear₁ : ((logistics BullQueue (sampleConfig 3)).moves [] (start [])
      keyUnshared).all findsNothing = true := by decide +kernel
  have hclear₂ : ((logistics BullQueue (sampleConfig 3)).moves [] (start [])
      othersOnly).all findsNothing = true := by decide +kernel
  rw [List.all_eq_true] at hclear₁ hclear₂
  refine keys_do_not_leak (show sampleCustomer ≠ otherCustomer by decide) (after_run key_unshared)
    (after_run others_only) (fun c hc => ?_) (fun m hm => clear_of_findsNothing (hclear₁ m hm))
    fun m hm => clear_of_findsNothing (hclear₂ m hm)
  by_cases hother : c = otherCustomer
  · subst hother
    have hown : own otherCustomer ((logistics BullQueue (sampleConfig 3)).moves [] (start [])
        keyUnshared) = own otherCustomer ((logistics BullQueue (sampleConfig 3)).moves []
        (start []) othersOnly) := by decide +kernel
    rw [hown]
    exact List.forall₂_same.mpr fun a _ => .refl a
  · rw [own_eq_nil sampleCustomer otherCustomer (by decide +kernel) hc.symm (Ne.symm hother),
      own_eq_nil sampleCustomer otherCustomer (by decide +kernel) hc.symm (Ne.symm hother)]
    exact .nil

end LogisticsDispatch
