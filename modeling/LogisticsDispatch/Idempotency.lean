/-
How many orders a customer gets under one idempotency key.

`createOrder` looks the key up in Redis, commits the order, and keeps the response under the
key: three steps, and others may come between any two. Two calls that have both looked the key
up commit two orders, and a call whose response cannot be kept throws, although its order is
committed.

The key does what it is for as long as no call commits while a response is kept under its key
or about to be, and every response is kept (`KeyClear`). After the commit, all a call still does
is to keep its response (`createOrder_keeps`), so a response is kept under the key, or about to
be, from the first commit on.
-/
import LogisticsDispatch.Bookings
import LogisticsDispatch.Footprint

set_option autoImplicit false

namespace LogisticsDispatch

open OrderStatus Resumable Resumable.Program

variable {Q : Type} [JobQueue Q JobId JobData] {cfg : DispatchConfig} {s s' : Sys Q} {a : Action}
  {o : OrderId} {i : ℕ} {c : UserId} {k : String} {tr : List (Transition.Move (Sys Q) Action)}

/-! ## Orders under a key -/

/-- The key a call of `createOrder` is about, if it has one: an empty header is no key. -/
def trimmedKey (idempotencyKey : Option String) : Option String :=
  (idempotencyKey.filter fun key => key ≠ "").map JsString.trim

/-- The call creates an order for a customer, under a key or under none. -/
def Call.Creates (call : Call) (c : UserId) (key : Option String) : Prop :=
  ∃ dto idempotencyKey, call = .request (.createOrder dto c idempotencyKey) ∧
    trimmedKey idempotencyKey = key

/-- In a move, call `i` creates the order. -/
def CreatedIn (i : ℕ) (o : OrderId) (m : Transition.Move (Sys Q) Action) : Prop :=
  (∃ ch, m.act = .exec i ch) ∧ m.src.order o = none ∧ ∃ row, m.dst.order o = some row

/-- Call `i` has thrown. -/
def Thrown (s : Sys Q) (i : ℕ) : Prop :=
  ∃ call err, s.threads.lookup i = some ⟨call, .fail err⟩

/-- Call `i` is about to keep a response under the key. -/
def Keeping (s : Sys Q) (i : ℕ) (k : String) : Prop :=
  ∃ response ttl, s.next i = some (.redisSet (.IDEMPOTENCY_REDIS_PREFIX k) response ttl)

/-- All calls of the customer with the key have created one order at most, and those that have
thrown none, nor has any that had no key and has thrown. -/
structure CreatedOnce (c : UserId) (k : String) (tr : List (Transition.Move (Sys Q) Action))
    (s : Sys Q) : Prop where
  once : ∀ i i' call call' o o', ∀ m ∈ tr, ∀ m' ∈ tr, CreatedIn i o m → CreatedIn i' o' m' →
    m.src.call i = some call → call.Creates c (some k) →
    m'.src.call i' = some call' → call'.Creates c (some k) → o = o'
  thrown : ∀ i call key, s.call i = some call → call.Creates c key →
    key = some k ∨ key = none → Thrown s i → ∀ m ∈ tr, ∀ o, ¬ CreatedIn i o m

/-- When a call of the customer with the key is about to commit, no response is kept under the
key and no other such call is about to keep one; no such call fails to keep its response; and
the key does not expire. -/
structure KeyClear (c : UserId) (k : String) (m : Transition.Move (Sys Q) Action) : Prop where
  fresh : ∀ i ch call t, m.act = .exec i ch → m.src.call i = some call →
    call.Creates c (some k) → m.src.next i = some (.transaction t) →
    m.src.shared.redis.lookup (.IDEMPOTENCY_REDIS_PREFIX k) = none ∧
      ∀ j call', m.src.call j = some call' → call'.Creates c (some k) → ¬ Keeping m.src j k
  stored : ∀ i call, m.act = .fail i → m.src.call i = some call → call.Creates c (some k) →
    ¬ Keeping m.src i k
  kept : m.act ≠ .expire (.IDEMPOTENCY_REDIS_PREFIX k)

/-! ## After the commit -/

/-- All that is left of a program is to return, and before that to keep the response under the
key, if there is one. -/
inductive Keeps {α : Type} : Option String → Prog α → Prop
  | done (res : α) : Keeps none (.ret res)
  | keep (key : String) (response : OrderResponse) (ttl : ℕ) (res : α)
      (kont : Except Error Unit → Prog α) (h : kont (.ok ()) = .ret res) :
      Keeps (some key) (.op (.redisSet (.IDEMPOTENCY_REDIS_PREFIX key) response ttl) kont)

/-- After an order was created, the response is all there is to keep. -/
def CreatesThenKeeps {α : Type} (key : Option String) :
    (e : Effect) → (Except Error e.Resp → Prog α) → Prop
  | .transaction (.createOrder _ _ _), kont => ∀ order, Keeps key (kont (.ok order))
  | _, _ => True

/-- `createOrder` keeps the response of an order it has created under the key it was called
with. -/
theorem createOrder_keeps (dto : CreateOrderDto) (c : UserId) (key : Option String) :
    ((Request.createOrder dto c key).program cfg).AllNodes (CreatesThenKeeps (trimmedKey key)) := by
  show (OrdersService.createOrder cfg dto c key >>= fun response =>
    (pure (.order response) : Prog Response)).AllNodes _
  rw [OrdersService.createOrder_eq, OrdersService.sanitizeKey, trimmedKey]
  -- the commit and what comes after it, with a key and without
  have hplace : ∀ sanitizedKey : Option String,
      (OrdersService.placeOrder cfg dto c sanitizedKey >>= fun response =>
        (pure (.order response) : Prog Response)).AllNodes (CreatesThenKeeps sanitizedKey) := by
    intro sanitizedKey
    unfold OrdersService.placeOrder
    cases OrdersService.validateVehincle dto with
    | error err => trivial
    | ok u =>
        cases sanitizedKey with
        | none => exact ⟨fun order => .done _, fun r => by cases r <;> trivial⟩
        | some key =>
            refine ⟨fun order => .keep key _ _ _ _ rfl, fun r => ?_⟩
            cases r with
            | error err => trivial
            | ok order => exact ⟨trivial, fun r => by cases r <;> trivial⟩
  split
  · next hraw =>
      rw [hraw]
      exact hplace none
  · next raw hraw =>
      rw [hraw]
      dsimp only
      split
      · trivial
      refine ⟨trivial, fun r => ?_⟩
      cases r with
      | error err => trivial
      | ok cached =>
          cases cached with
          | some data => trivial
          | none => exact hplace _

/-- What is left of a call of `createOrder` in a reachable state keeps the response of an order
it creates. -/
theorem keeps_of_creates {call : Call} {key : Option String} {p : Prog Response}
    (hs : Transition.Reachable (logistics Q cfg) s) (hi : s.threads.lookup i = some ⟨call, p⟩)
    (hcall : call.Creates c key) : p.AllNodes (CreatesThenKeeps key) := by
  refine forallThreads_of_reachable (T := fun call p => call.Creates c key →
    p.AllNodes (CreatesThenKeeps key)) (fun call e kont h r hcall => (h hcall).2 r) ?_ hs i _ hi
    hcall
  rintro call ⟨dto, raw, rfl, rfl⟩
  exact createOrder_keeps dto c raw

/-! ## What a step does to orders and keys -/

/-- An order is created by the transaction of `createOrder` only. -/
theorem next_of_created {ch : Choice} (hs : Transition.Reachable (logistics Q cfg) s)
    (hstep : step cfg s (.exec i ch) = some s') (h : CreatedIn i o ⟨s, .exec i ch, s'⟩) :
    ∃ call dto c p order kont, s.threads.lookup i
        = some ⟨call, .op (.transaction (.createOrder dto c p)) kont⟩ ∧
      s'.threads = s.threads.insert i ⟨call, kont (.ok order)⟩ ∧ o = ch.orderId := by
  obtain ⟨-, hnone, row, hrow⟩ := h
  have hnone : s.order o = none := hnone
  have hrow : s'.order o = some row := hrow
  obtain ⟨call, e, kont, hi, hsh, hth⟩ := Pool.advance_eq_some hstep
  have hsh : s'.shared = (perform cfg ch e s.shared).2 := hsh
  have hth : s'.threads = s.threads.insert i ⟨call, kont (perform cfg ch e s.shared).1⟩ := hth
  have hnew : s'.shared.db.orders ≠ s.shared.db.orders := by
    intro heq
    rw [Sys.order, heq] at hrow
    cases hnone.symm.trans hrow
  by_cases ht : ∃ t, e = .transaction t
  · obtain ⟨t, rfl⟩ := ht
    obtain ⟨-, hchecked⟩ := guar_of_next hs hi
    simp only [perform] at hsh hth
    split at hsh
    · exact absurd (by rw [hsh]) hnew
    next res db' hrun =>
    have hdb : s'.shared.db = db' := by rw [hsh]
    rw [hrun] at hth
    cases Transaction.run_ok hchecked hrun with
    | nothing heq => exact absurd (by rw [hdb, heq]) hnew
    | driver driver heq _ => exact absurd (by rw [hdb, heq]; rfl) hnew
    | created dto c p order ht htx =>
        subst ht
        refine ⟨call, dto, c, p, res, kont, hi, hth, ?_⟩
        by_contra hne
        obtain ⟨-, -, -, -, -, -, hother, -⟩ := OrdersService.createOrderTx_ok htx
        rw [Sys.order, hdb, (hother o hne).1] at hrow
        cases hnone.symm.trans hrow
    | moved o₁ m actor _ _ _ hmove =>
        -- a move is made of an order that is there
        obtain ⟨row₁, tk, hrow₁, -, -, -, -, hother, -⟩ := Db.move_spec hmove
        rw [Sys.order, hdb] at hrow
        by_cases ho : o = o₁
        · subst ho
          cases hnone.symm.trans hrow₁
        · rw [(hother o ho).1] at hrow
          cases hnone.symm.trans hrow
  · by_cases hd : ∃ o₁, e = .softDelete o₁
    · obtain ⟨o₁, rfl⟩ := hd
      have hcall : call = .request (.softDelete o₁) := guar_of_next hs hi
      cases order_step hs hstep o with
      | same horder _ => cases hnone.symm.trans (horder.symm.trans hrow)
      | created ha hcall' _ _ _ _ _ _ =>
          obtain ⟨rfl, rfl⟩ := Action.exec.inj ha
          rw [Sys.call_of_lookup hi, hcall] at hcall'
          cases hcall'
      | deleted _ _ hrow₁ _ _ => cases hnone.symm.trans hrow₁
      | moved _ _ _ _ _ _ _ _ hrow₁ _ _ _ _ => cases hnone.symm.trans hrow₁
    · refine absurd ?_ hnew
      rw [hsh]
      exact (perform_orders (fun t h => ht ⟨t, h⟩) fun o h => hd ⟨o, h⟩).1

omit [JobQueue Q JobId JobData] in
/-- The keys do not depend on the queues. -/
theorem lookup_setQueue {sh : Shared Q} {q : Q} {queue : QueueName} (key : RedisKey) :
    (sh.setQueue q queue).redis.lookup key = sh.redis.lookup key := by
  rw [Shared.setQueue_redis]

/-- All that a step does to a key: it is set, deleted or expires, or stays. -/
theorem redis_step (hstep : step cfg s a = some s') (key : RedisKey) :
    s'.shared.redis.lookup key = s.shared.redis.lookup key ∨
      (∃ i ch val ttl, a = .exec i ch ∧ s.next i = some (.redisSet key val ttl) ∧
        s'.shared.redis.lookup key = some val) ∨
      (∃ i ch, a = .exec i ch ∧ s.next i = some (.redisDel key)) ∨ a = .expire key := by
  cases a with
  | invoke i req =>
      obtain ⟨-, hsh, -⟩ := Pool.spawn_eq_some hstep
      exact .inl (by rw [hsh])
  | fail i =>
      simp only [step, Option.ite_none_right_eq_some] at hstep
      obtain ⟨l, e, k, -, hsh, -⟩ := Pool.interrupt_eq_some hstep.2
      exact .inl (by rw [hsh])
  | deliver i queue jobId =>
      simp only [step] at hstep
      split at hstep
      · obtain ⟨-, hsh, -⟩ := Pool.spawn_eq_some hstep
        exact .inl (by rw [hsh]; exact lookup_setQueue key)
      · cases hstep
  | promote queue jobId =>
      obtain rfl := Option.some.inj hstep
      exact .inl (lookup_setQueue key)
  | evict queue jobId =>
      obtain rfl := Option.some.inj hstep
      exact .inl (lookup_setQueue key)
  | expire key' =>
      obtain rfl := Option.some.inj hstep
      by_cases hkey : key' = key
      · exact .inr (.inr (.inr (by rw [hkey])))
      · exact .inl (AList.lookup_erase_ne fun h => hkey h.symm)
  | exec i ch =>
      obtain ⟨call, e, kont, hi, hsh, -⟩ := Pool.advance_eq_some hstep
      have hnext := Sys.next_of_lookup hi
      have hsh : s'.shared = (perform cfg ch e s.shared).2 := hsh
      cases e with
      | redisSet key' val ttl =>
          by_cases hkey : key' = key
          · subst hkey
            refine .inr (.inl ⟨i, ch, val, ttl, rfl, hnext, ?_⟩)
            rw [hsh]
            exact AList.lookup_insert _
          · exact .inl (by rw [hsh]; exact AList.lookup_insert_ne fun h => hkey h.symm)
      | redisDel key' =>
          by_cases hkey : key' = key
          · subst hkey
            exact .inr (.inr (.inl ⟨i, ch, rfl, hnext⟩))
          · exact .inl (by rw [hsh]; exact AList.lookup_erase_ne fun h => hkey h.symm)
      | addJob queue j data delay =>
          exact .inl (by rw [hsh]; exact lookup_setQueue key)
      | finishJob queue j ok =>
          exact .inl (by rw [hsh]; exact lookup_setQueue key)
      | removeJob queue j =>
          simp only [perform] at hsh
          split at hsh
          · exact .inl (by rw [hsh])
          · exact .inl (by rw [hsh]; exact lookup_setQueue key)
      | transaction t =>
          simp only [perform] at hsh
          split at hsh <;> exact .inl (by rw [hsh])
      | updateDriverLocation d lat lng =>
          simp only [perform] at hsh
          split at hsh <;> exact .inl (by rw [hsh])
      | _ => exact .inl (by rw [hsh]; rfl)

/-- A response that is kept stays, unless its key expires. -/
theorem response_stays (hs : Transition.Reachable (logistics Q cfg) s)
    (hstep : step cfg s a = some s') (ha : a ≠ .expire (.IDEMPOTENCY_REDIS_PREFIX k))
    (h : s.shared.redis.lookup (.IDEMPOTENCY_REDIS_PREFIX k) ≠ none) :
    s'.shared.redis.lookup (.IDEMPOTENCY_REDIS_PREFIX k) ≠ none := by
  rcases redis_step hstep (.IDEMPOTENCY_REDIS_PREFIX k) with
    hsame | ⟨_, _, val, _, -, -, hset⟩ | ⟨i, ch, -, hnext⟩ | hexpire
  · rwa [hsame]
  · rw [hset]
    exact Option.some_ne_none _
  -- no call deletes it
  · obtain ⟨call, kont, hi⟩ := Sys.lookup_of_next hnext
    exact (performs_of_next hs hi).elim
  · exact absurd hexpire ha

/-! ## From the commit on -/

/-- Call `i`, which has created an order, has its response kept under the key, or will keep
it, and then returns; or it has no key, and has returned. -/
def Settled (c : UserId) (k : String) (s : Sys Q) (i : ℕ) (call : Call) : Prop :=
  ∃ p, s.threads.lookup i = some ⟨call, p⟩ ∧
    ∀ key, call.Creates c key → key = some k ∨ key = none →
      Keeps key p ∨ (∃ res, p = .ret res) ∧
        s.shared.redis.lookup (.IDEMPOTENCY_REDIS_PREFIX k) ≠ none

/-- A call that has created an order stays settled, as long as its response is kept. -/
theorem Settled.step {call : Call} (hs : Transition.Reachable (logistics Q cfg) s)
    (hstep : LogisticsDispatch.step cfg s a = some s') (hclear : KeyClear c k ⟨s, a, s'⟩)
    (h : Settled c k s i call) : Settled c k s' i call := by
  obtain ⟨p, hi, hkept⟩ := h
  have hstays := response_stays hs hstep hclear.kept
  have hsame : s'.threads.lookup i = some ⟨call, p⟩ → Settled c k s' i call := by
    intro hi'
    refine ⟨p, hi', fun key hcall hkey => ?_⟩
    rcases hkept key hcall hkey with hkeeps | ⟨hret, hresponse⟩
    · exact .inl hkeeps
    · exact .inr ⟨hret, hstays hresponse⟩
  cases call_step hstep with
  | same hth => exact hsame (by rw [hth]; exact hi)
  | @made j call' hfree hth =>
      have hij : i ≠ j := by
        rintro rfl
        rw [hi] at hfree
        cases hfree
      exact hsame (by rw [hth, AList.lookup_insert_ne hij]; exact hi)
  | @went j ch call' e kont ha hj hsh hth =>
      by_cases hij : i = j
      · subst hij
        rw [hi] at hj
        cases hj
        refine ⟨_, by rw [hth, AList.lookup_insert], fun key hcall hkey => ?_⟩
        rcases hkept key hcall hkey with hkeeps | ⟨⟨res, hret⟩, -⟩
        · cases hkeeps with
          | keep key response ttl res kont hres =>
              -- the response is kept now
              refine .inr ⟨⟨res, hres⟩, ?_⟩
              obtain rfl : key = k := by simpa using hkey
              rw [hsh]
              simp only [perform, AList.lookup_insert]
              exact Option.some_ne_none _
        · cases hret
      · exact hsame (by rw [hth, AList.lookup_insert_ne hij]; exact hi)
  | @failed j call' e kont ha hj hsh hth =>
      by_cases hij : i = j
      · subst hij
        rw [hi] at hj
        cases hj
        refine ⟨_, by rw [hth, AList.lookup_insert], fun key hcall hkey => ?_⟩
        rcases hkept key hcall hkey with hkeeps | ⟨⟨res, hret⟩, -⟩
        · cases hkeeps with
          | keep key response ttl res kont hres =>
              obtain rfl : key = k := by simpa using hkey
              exact absurd ⟨response, ttl, Sys.next_of_lookup hi⟩
                (hclear.stored i call ha (Sys.call_of_lookup hi) hcall)
        · cases hret
      · exact hsame (by rw [hth, AList.lookup_insert_ne hij]; exact hi)

/-- A call that creates an order is settled by the same step. -/
theorem settled_of_created (hs : Transition.Reachable (logistics Q cfg) s)
    (hstep : step cfg s a = some s') (h : CreatedIn i o ⟨s, a, s'⟩) :
    ∃ call, s.call i = some call ∧ Settled c k s' i call := by
  obtain ⟨ch, rfl⟩ : ∃ ch, a = .exec i ch := h.1
  obtain ⟨call, dto, c', p, order, kont, hi, hth, -⟩ := next_of_created hs hstep h
  refine ⟨call, Sys.call_of_lookup hi, _, by rw [hth, AList.lookup_insert], fun key hcall _ => ?_⟩
  exact .inl ((keeps_of_creates hs hi hcall).1 order)

/-- All along a run in which responses are kept, the calls that have created an order are
settled. -/
theorem settled_of_run (run : Transition.Run (logistics Q cfg) tr s)
    (hclear : ∀ m ∈ tr, KeyClear c k m) :
    ∀ i o, ∀ m ∈ tr, CreatedIn i o m → ∃ call, m.src.call i = some call ∧ Settled c k s i call := by
  refine run.invariant_trace (P := fun tr s => (∀ m ∈ tr, KeyClear c k m) → ∀ i o, ∀ m ∈ tr,
    CreatedIn i o m → ∃ call, m.src.call i = some call ∧ Settled c k s i call) ?_ ?_ hclear
  · rintro s - - i o m hm
    cases hm
  · intro tr s a s' run ih hstep hclear i o m hm hcreated
    rcases List.mem_cons.mp hm with rfl | hm
    · exact settled_of_created run.reachable hstep hcreated
    · obtain ⟨call, hcall, hsettled⟩ :=
        ih (fun m hm => hclear m (List.mem_cons_of_mem _ hm)) i o m hm hcreated
      exact ⟨call, hcall, hsettled.step run.reachable hstep (hclear _ List.mem_cons_self)⟩

/-- Where a call of the customer with the key creates an order, none has before. -/
theorem first_of_created {earlier : List (Transition.Move (Sys Q) Action)}
    {m m' : Transition.Move (Sys Q) Action} {i' : ℕ} {o' : OrderId} {call call' : Call}
    (run : Transition.Run (logistics Q cfg) earlier m.src)
    (hstep : step cfg m.src m.act = some m.dst) (hclear : ∀ m ∈ earlier, KeyClear c k m)
    (hlast : KeyClear c k m) (hcreated : CreatedIn i o m) (hcall : m.src.call i = some call)
    (hcreates : call.Creates c (some k)) (hm' : m' ∈ earlier) (hcreated' : CreatedIn i' o' m')
    (hcall' : m'.src.call i' = some call') : ¬ call'.Creates c (some k) := by
  intro hcreates'
  obtain ⟨ch, ha⟩ := hcreated.1
  have hstep' : step cfg m.src (.exec i ch) = some m.dst := ha ▸ hstep
  obtain ⟨_, dto, c', p, order, kont, hi, -, -⟩ := next_of_created run.reachable hstep'
    ⟨⟨ch, rfl⟩, hcreated.2⟩
  obtain ⟨hnone, hnot⟩ := hlast.fresh i ch call _ ha hcall hcreates (Sys.next_of_lookup hi)
  obtain ⟨call₁, hcall₁, p', hi', hkept⟩ := settled_of_run run hclear i' o' m' hm' hcreated'
  rw [hcall'] at hcall₁
  obtain rfl := Option.some.inj hcall₁
  -- its response is kept by now, or about to be
  rcases hkept _ hcreates' (.inl rfl) with hkeeps | ⟨-, hresponse⟩
  · cases hkeeps with
    | keep key response ttl res kont hres =>
        exact hnot i' call' (Sys.call_of_lookup hi') hcreates'
          ⟨response, ttl, Sys.next_of_lookup hi'⟩
  · exact hresponse hnone

/-- **When a customer gets one order under a key**: in every run in which no call of the two
commits while a response is kept under the key or about to be, all their responses are kept,
and the key does not expire. -/
theorem created_once (run : Transition.Run (logistics Q cfg) tr s)
    (hclear : ∀ m ∈ tr, KeyClear c k m) : CreatedOnce c k tr s := by
  constructor
  · have hbefore : ∀ {later earlier m}, tr = later ++ m :: earlier → ∀ {m' i i' o o' call call'},
        m' ∈ earlier → CreatedIn i o m → m.src.call i = some call → call.Creates c (some k) →
        CreatedIn i' o' m' → m'.src.call i' = some call' → ¬ call'.Creates c (some k) := by
      intro later earlier m htr m' i i' o o' call call' hm' hcreated hcall hcreates hcreated' hcall'
      have run' := run
      rw [htr] at run'
      obtain ⟨run₁, hstep, -⟩ := run'.of_suffix
      refine first_of_created run₁ hstep (fun m hm => hclear m ?_) (hclear m ?_) hcreated hcall
        hcreates hm' hcreated' hcall'
      · rw [htr]
        exact List.mem_append_right _ (List.mem_cons_of_mem _ hm)
      · rw [htr]
        exact List.mem_append_right _ List.mem_cons_self
    intro i i' call call' o o' m hm m' hm' hcreated hcreated' hcall hcreates hcall' hcreates'
    obtain ⟨later, earlier, htr⟩ := List.append_of_mem hm
    rw [htr, List.mem_append, List.mem_cons] at hm'
    -- the two moves are one, or one of them comes first
    rcases hm' with hm' | rfl | hm'
    · obtain ⟨later', earlier', rfl⟩ := List.append_of_mem hm'
      have hmem : m ∈ earlier' ++ m :: earlier := List.mem_append_right _ List.mem_cons_self
      exact absurd hcreates (hbefore (by rw [htr, List.append_assoc]; rfl) hmem hcreated' hcall'
        hcreates' hcreated hcall)
    · obtain ⟨ch, ha⟩ := hcreated.1
      obtain ⟨ch', ha'⟩ := hcreated'.1
      obtain ⟨rfl, rfl⟩ := Action.exec.inj (ha.symm.trans ha')
      have run' := run
      rw [htr] at run'
      obtain ⟨run₁, hstep, -⟩ := run'.of_suffix
      have hstep : step cfg m'.src (.exec i ch) = some m'.dst := ha ▸ hstep
      obtain ⟨_, _, _, _, _, _, -, -, ho⟩ := next_of_created run₁.reachable hstep
        ⟨⟨ch, rfl⟩, hcreated.2⟩
      obtain ⟨_, _, _, _, _, _, -, -, ho'⟩ := next_of_created run₁.reachable hstep
        ⟨⟨ch, rfl⟩, hcreated'.2⟩
      rw [ho, ho']
    · exact absurd hcreates' (hbefore htr hm' hcreated hcall hcreates hcreated' hcall')
  · rintro i call key hcall hcreates hkey ⟨call', err, hi⟩ m hm o hcreated
    obtain ⟨call₁, -, p, hi', hkept⟩ := settled_of_run run hclear i o m hm hcreated
    rw [hi] at hi'
    cases hi'
    rw [Sys.call_of_lookup hi] at hcall
    obtain rfl := Option.some.inj hcall
    -- a call that is settled does not throw
    rcases hkept key hcreates hkey with hkeeps | ⟨⟨res, hret⟩, -⟩
    · cases hkeeps
    · cases hret

/-! ### In the small system -/

/-- The trip, ordered under a key. -/
def keyedTrip : Request := .createOrder carTrip sampleCustomer (some "key")

/-- Two requests with the key: each looks it up before the other commits. -/
def keyedTwice : List Action :=
  [.invoke 0 keyedTrip, .exec 0 sampleChoice, .invoke 1 keyedTrip, .exec 1 sampleChoice,
    .exec 0 sampleChoice, .exec 1 secondChoice]

/-- A request whose response cannot be kept. -/
def keyedUnkept : List Action :=
  [.invoke 0 keyedTrip, .exec 0 sampleChoice, .exec 0 sampleChoice, .fail 0]

/-- A request, and the same once more. -/
def keyedAgain : List Action :=
  [.invoke 0 keyedTrip, .exec 0 sampleChoice, .exec 0 sampleChoice, .exec 0 sampleChoice,
    .invoke 1 keyedTrip, .exec 1 sampleChoice]

theorem keyed_twice : ((logistics BullQueue (sampleConfig 3)).exec (start [])
    keyedTwice).isSome := by
  decide +kernel

theorem keyed_unkept : ((logistics BullQueue (sampleConfig 3)).exec (start [])
    keyedUnkept).isSome := by
  decide +kernel

theorem keyed_again : ((logistics BullQueue (sampleConfig 3)).exec (start [])
    keyedAgain).isSome := by
  decide +kernel

/-- The customer and the key a call creates an order for, as a computation. -/
def Call.creates : Call → Option (UserId × Option String)
  | .request (.createOrder _ c key) => some (c, trimmedKey key)
  | _ => none

theorem Call.creates_eq_some {call : Call} {key : Option String}
    (h : call.creates = some (c, key)) : call.Creates c key := by
  unfold Call.creates at h
  split at h
  · next dto c' raw =>
      obtain ⟨rfl, rfl⟩ := Prod.mk.inj (Option.some.inj h)
      exact ⟨dto, raw, rfl, rfl⟩
  · cases h

/-- The call that creates an order in a move, with its customer and key, as a computation. -/
def createdBy (o : OrderId) (m : Transition.Move (Sys Q) Action) :
    Option (ℕ × UserId × Option String) :=
  match m.act with
  | .exec i _ =>
      if (m.src.order o).isNone && (m.dst.order o).isSome then
        ((m.src.call i).bind Call.creates).map fun x => (i, x)
      else none
  | _ => none

omit [JobQueue Q JobId JobData] in
theorem createdBy_eq_some {m : Transition.Move (Sys Q) Action} {key : Option String}
    (h : createdBy o m = some (i, c, key)) :
    CreatedIn i o m ∧ ∃ call, m.src.call i = some call ∧ call.Creates c key := by
  unfold createdBy at h
  split at h
  · next i' ch hact =>
      split at h
      · next hnew =>
          obtain ⟨x, hx, heq⟩ := Option.map_eq_some_iff.mp h
          obtain ⟨rfl, rfl⟩ := Prod.mk.inj heq
          obtain ⟨call, hcall, hcreates⟩ := Option.bind_eq_some_iff.mp hx
          rw [Bool.and_eq_true, Option.isNone_iff_eq_none, Option.isSome_iff_exists] at hnew
          exact ⟨⟨⟨ch, hact⟩, hnew⟩, call, hcall, Call.creates_eq_some hcreates⟩
      · cases h
  · cases h

/-- Two requests under one key create two orders, and a request that has thrown has created
one. -/
theorem key_used_twice :
    (∃ tr s, Transition.Run (logistics BullQueue (sampleConfig 3)) tr s ∧
      ¬ CreatedOnce sampleCustomer "key" tr s) ∧
    ∃ tr s, Transition.Run (logistics BullQueue (sampleConfig 3)) tr s ∧ Thrown s 0 ∧
      ∃ m ∈ tr, CreatedIn 0 sampleOrder m := by
  constructor
  · let moves := (logistics BullQueue (sampleConfig 3)).moves [] (start []) keyedTwice
    have hsecond : moves.head?.bind (createdBy secondOrder)
        = some (1, sampleCustomer, some "key") := by decide +kernel
    have hfirst : moves.tail.head?.bind (createdBy sampleOrder)
        = some (0, sampleCustomer, some "key") := by decide +kernel
    obtain ⟨m, hm, hcreated⟩ := Option.bind_eq_some_iff.mp hsecond
    obtain ⟨m', hm', hcreated'⟩ := Option.bind_eq_some_iff.mp hfirst
    obtain ⟨hnew, call, hcall, hcreates⟩ := createdBy_eq_some hcreated
    obtain ⟨hnew', call', hcall', hcreates'⟩ := createdBy_eq_some hcreated'
    refine ⟨moves, _, after_run keyed_twice, fun h => ?_⟩
    have heq := h.once 1 0 call call' _ _ m (List.mem_of_mem_head? hm) m'
      (List.mem_of_mem_tail (List.mem_of_mem_head? hm')) hnew hnew' hcall hcreates hcall' hcreates'
    exact absurd heq (by decide)
  · let moves := (logistics BullQueue (sampleConfig 3)).moves [] (start []) keyedUnkept
    have hcreated : moves.tail.head?.bind (createdBy sampleOrder)
        = some (0, sampleCustomer, some "key") := by decide +kernel
    have hthrown : ((after _ _ _ keyed_unkept).threads.lookup 0).map (fun th =>
        match th.prog with | .ret _ => false | .fail _ => true | .op _ _ => false) = some true := by
      decide +kernel
    obtain ⟨m, hm, hcreated⟩ := Option.bind_eq_some_iff.mp hcreated
    obtain ⟨⟨call, p⟩, hi, hfail⟩ := Option.map_eq_some_iff.mp hthrown
    refine ⟨moves, _, after_run keyed_unkept, ?_, m,
      List.mem_of_mem_tail (List.mem_of_mem_head? hm), (createdBy_eq_some hcreated).1⟩
    cases p with
    | fail err => exact ⟨call, err, hi⟩
    | ret res => cases hfail
    | op e kont => cases hfail

/-- Whether no response is kept or about to be where a step runs a transaction, and nothing
fails or expires, as a computation. -/
def responsesKept (k : String) (m : Transition.Move (Sys Q) Action) : Bool :=
  match m.act with
  | .exec i _ =>
      match m.src.next i with
      | some (.transaction _) =>
          (m.src.shared.redis.lookup (.IDEMPOTENCY_REDIS_PREFIX k)).isNone &&
            m.src.threads.entries.all fun en =>
              match en.2.prog with
              | .op (.redisSet _ _ _) _ => false
              | _ => true
      | _ => true
  | .fail _ => false
  | .expire _ => false
  | _ => true

omit [JobQueue Q JobId JobData] in
theorem keyClear_of_responsesKept {m : Transition.Move (Sys Q) Action}
    (h : responsesKept k m = true) : KeyClear c k m := by
  unfold responsesKept at h
  refine ⟨?_, ?_, ?_⟩
  · intro i ch call t hact hcall hcreates hnext
    simp only [hact, hnext, Bool.and_eq_true, List.all_eq_true, Option.isNone_iff_eq_none] at h
    refine ⟨h.1, ?_⟩
    rintro j call' - - ⟨response, ttl, hj⟩
    obtain ⟨call₁, kont, hlookup⟩ := Sys.lookup_of_next hj
    have hnot := h.2 _ (AList.mem_lookup_iff.mp hlookup)
    cases hnot
  · intro i call hact
    simp [hact] at h
  · intro hact
    simp [hact] at h

/-- A trip that is ordered again under its key is ordered once. -/
theorem created_once_of_trip :
    CreatedOnce sampleCustomer "key" ((logistics BullQueue (sampleConfig 3)).moves [] (start [])
      keyedAgain) (after _ _ _ keyed_again) := by
  have hall : ((logistics BullQueue (sampleConfig 3)).moves [] (start [])
      keyedAgain).all (responsesKept "key") = true := by decide +kernel
  rw [List.all_eq_true] at hall
  exact created_once (after_run keyed_again) fun m hm => keyClear_of_responsesKept (hall m hm)

end LogisticsDispatch
