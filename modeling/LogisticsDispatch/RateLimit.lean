/-
What a caller relies on the rate limiter for.

The count key and the block key of a call are a counter in fixed windows (`view`), and the script
is a hit of it (`script_spec`); calls under other keys leave it alone (`increment_frame`). So a run
shows a run of the counter (`view_run`), and what is proved of that is what the storage keeps:
`rate_limited`, for the calls under one key while calls under others come in between.
-/
import LogisticsDispatch.Lib.FixedWindow
import LogisticsDispatch.Throttler

set_option autoImplicit false

namespace LogisticsDispatch

open Transition RedisThrottlerStorage

variable {req : Increment} {s s' : Throttling} {a : ThrottleAction}
  {tr : List (Move Throttling ThrottleAction)}

/-! ## The contract -/

/-- The step is a call that counts under the same key. -/
def CallsWith (req : Increment) (m : Move Throttling ThrottleAction) : Prop :=
  ∃ call, m.act = .increment call ∧ call.countKey = req.countKey

instance (m : Move Throttling ThrottleAction) : Decidable (CallsWith req m) :=
  match h : m.act with
  | .increment call =>
      if hkey : call.countKey = req.countKey then .isTrue ⟨call, h, hkey⟩
      else .isFalse (by
        rintro ⟨call', hact, hkey'⟩
        rw [h] at hact
        obtain rfl := ThrottleAction.increment.inj hact
        exact hkey hkey')
  | .pass _ => .isFalse (by
      rintro ⟨call', hact, -⟩
      rw [h] at hact
      cases hact)
  | .scriptFlush => .isFalse (by
      rintro ⟨call', hact, -⟩
      rw [h] at hact
      cases hact)

/-- What a call has returned. -/
def returned (m : Move Throttling ThrottleAction) : Option ThrottlerStorageRecord :=
  match m.act with
  | .increment call => (increment call m.src).map Prod.fst
  | _ => none

/-- The call creates the count key. -/
structure Creates (req : Increment) (m : Move Throttling ThrottleAction) : Prop where
  calls : CallsWith req m
  count : m.src.redis.entry req.countKey = none
  block : m.src.redis.entry req.blockKey = none

/-- The calls before a time. -/
def callsBefore (req : Increment) (t : ℕ) (tr : List (Move Throttling ThrottleAction)) : ℕ :=
  tr.countP fun m => decide (CallsWith req m) && decide (m.src.redis.now < t)

/-- The calls before a time that were not blocked. -/
def passedBefore (req : Increment) (t : ℕ) (tr : List (Move Throttling ThrottleAction)) : ℕ :=
  tr.countP fun m => decide (CallsWith req m) && decide (m.src.redis.now < t) &&
    (returned m).any fun record => !record.isBlocked

/-- What a caller relies on the storage for, with the limits of its calls. -/
structure RateLimited (req : Increment) (tr : List (Move Throttling ThrottleAction)) : Prop where
  /-- From the call that creates the count key until the key expires, no more calls than the limit
  are let through. -/
  window : ∀ later m earlier, tr = later ++ m :: earlier → Creates req m →
    passedBefore req (m.src.redis.now + req.ttl) (later ++ [m]) ≤ req.limit
  /-- It expires when the time to live is over, and no later call changes that. -/
  expires : ∀ later m earlier, tr = later ++ m :: earlier → Creates req m →
    ∀ m' ∈ later ++ [m], CallsWith req m' → m'.src.redis.now < m.src.redis.now + req.ttl →
      ∃ count, m'.dst.redis.keys req.countKey = some ⟨count, some (m.src.redis.now + req.ttl)⟩
  /-- A call that exceeds the limit while no block is live blocks the calls in the time of a
  block, and they neither count nor prolong it. -/
  blocks : ∀ later m earlier record, tr = later ++ m :: earlier → CallsWith req m →
    m.src.redis.entry req.blockKey = none → returned m = some record →
    req.limit < record.totalHits →
    ∀ m' ∈ later, CallsWith req m' → m'.src.redis.now < m.src.redis.now + req.blockDuration →
      (∃ record', returned m' = some record' ∧ record'.isBlocked = true) ∧
        m'.dst.redis.keys = m'.src.redis.keys
  /-- A call is blocked exactly if its hits exceed the limit. -/
  blocked_iff : ∀ m ∈ tr, CallsWith req m →
    ∃ record, returned m = some record ∧ (record.isBlocked = true ↔ req.limit < record.totalHits)
  /-- A client that makes no more calls than the limit in each window is never blocked. -/
  moderate : (∀ later m earlier, tr = later ++ m :: earlier → Creates req m →
      callsBefore req (m.src.redis.now + req.ttl) (later ++ [m]) ≤ req.limit) →
    ∀ m ∈ tr, CallsWith req m →
      ∃ record, returned m = some record ∧ record.isBlocked = false

/-- The times and the limit of a call are positive. -/
structure Increment.Positive (req : Increment) : Prop where
  ttl : 0 < req.ttl
  limit : 0 < req.limit
  blockDuration : 0 < req.blockDuration

/-- All calls under the key are made with the same limits. -/
def SameLimits (req : Increment) (tr : List (Move Throttling ThrottleAction)) : Prop :=
  ∀ m ∈ tr, ∀ call, m.act = .increment call → call.countKey = req.countKey →
    call.ttl = req.ttl ∧ call.limit = req.limit ∧ call.blockDuration = req.blockDuration

/-! ## The counter -/

/-- The limits of a call. -/
def Increment.limits (req : Increment) : FixedWindow.Limits where
  ttl := req.ttl
  limit := req.limit
  block := req.blockDuration

/-- The counter that the two keys are. -/
def view (req : Increment) (s : Throttling) : FixedWindow.State where
  now := s.redis.now
  window := (s.redis.keys req.countKey).bind fun e => e.expiresAt.map fun t => ⟨e.value, t⟩
  blockedUntil := (s.redis.keys req.blockKey).bind Expiring.Entry.expiresAt

/-- The two keys expire, and what is counted is not zero. -/
def Tidy (req : Increment) (s : Throttling) : Prop :=
  ∀ key e, key = req.countKey ∨ key = req.blockKey → s.redis.keys key = some e →
    e.expiresAt.isSome ∧ 0 < e.value

/-- The step of the counter that a step is, if it is one. -/
def viewMove (req : Increment) (m : Move Throttling ThrottleAction) :
    Option (Move FixedWindow.State FixedWindow.Action) :=
  match m.act with
  | .increment call =>
      if call.countKey = req.countKey then some ⟨view req m.src, .hit, view req m.dst⟩ else none
  | .pass ms => some ⟨view req m.src, .pass ms, view req m.dst⟩
  | .scriptFlush => none

/-- The window that is open is what the count key holds. -/
theorem current_view (h : Tidy req s) : (view req s).current =
    (s.redis.entry req.countKey).bind fun e => e.expiresAt.map fun t => ⟨e.value, t⟩ := by
  rw [FixedWindow.State.current, view, Expiring.entry]
  cases hkey : s.redis.keys req.countKey with
  | none => rfl
  | some e =>
      obtain ⟨value, expiresAt⟩ := e
      have hsome := (h _ _ (.inl rfl) hkey).1
      obtain ⟨t, rfl⟩ := Option.isSome_iff_exists.mp hsome
      simp only [Option.bind_some, Option.map_some, Option.filter_some, Option.all_some,
        decide_eq_true_eq]
      split <;> rfl

/-- A block is live exactly if the block key has time left. -/
theorem blocked_view (h : Tidy req s) :
    (view req s).blocked = true ↔ s.redis.pttl req.blockKey > 0 := by
  rw [FixedWindow.blocked_iff, Expiring.pttl, Expiring.entry]
  simp only [view]
  cases hkey : s.redis.keys req.blockKey with
  | none =>
      simp
  | some e =>
      obtain ⟨value, expiresAt⟩ := e
      have hsome := (h _ _ (.inr rfl) hkey).1
      obtain ⟨t, rfl⟩ := Option.isSome_iff_exists.mp hsome
      simp only [Option.bind_some, Option.filter_some, Option.all_some, decide_eq_true_eq]
      by_cases hlt : s.redis.now < t
      · simp [hlt]
      · simp [hlt]

/-- A block is live exactly if there is a block key. -/
theorem blocked_view_iff_entry (h : Tidy req s) :
    (view req s).blocked = false ↔ s.redis.entry req.blockKey = none := by
  rw [Bool.eq_false_iff, ne_eq, FixedWindow.blocked_iff, Expiring.entry]
  simp only [view]
  cases hkey : s.redis.keys req.blockKey with
  | none => simp
  | some e =>
      obtain ⟨value, expiresAt⟩ := e
      have hsome := (h _ _ (.inr rfl) hkey).1
      obtain ⟨t, rfl⟩ := Option.isSome_iff_exists.mp hsome
      simp [Option.filter_some]

theorem view_put_count (req : Increment) (s : Throttling) (value t : ℕ) :
    view req { s with redis := s.redis.put req.countKey ⟨value, some t⟩ }
      = { view req s with window := some ⟨value, t⟩ } := by
  simp only [view, Expiring.put_keys_self,
    Expiring.put_keys_of_ne (countKey_ne_blockKey req req).symm]
  rfl

theorem view_put_block_count (req : Increment) (s : Throttling) (value t value' t' : ℕ) :
    view req { s with redis :=
      (s.redis.put req.countKey ⟨value, some t⟩).put req.blockKey ⟨value', some t'⟩ }
      = { view req s with window := some ⟨value, t⟩, blockedUntil := some t' } := by
  simp only [view, Expiring.put_keys_self,
    Expiring.put_keys_of_ne (countKey_ne_blockKey req req)]
  rfl

theorem Tidy.put (h : Tidy req s) {key : String} {value t : ℕ} (hvalue : 0 < value) :
    Tidy req { s with redis := s.redis.put key ⟨value, some t⟩ } := by
  intro key' e hkey' he
  by_cases hne : key' = key
  · subst hne
    rw [Expiring.put_keys_self] at he
    obtain rfl := Option.some.inj he
    exact ⟨rfl, hvalue⟩
  · rw [Expiring.put_keys_of_ne hne] at he
    exact h key' e hkey' he

/-- What counting a call leaves of Redis: the window the call is counted in, and all other keys as
they were. -/
theorem countCall_spec (h : Tidy req s) (hpos : 0 < req.ttl) :
    ∃ countPttl, countCall req.countKey req.ttl s.redis
      = ((((view req s).counted req.limits).count, countPttl), s.redis.put req.countKey
          ⟨((view req s).counted req.limits).count,
            some ((view req s).counted req.limits).closes⟩) := by
  have hcurrent := current_view h
  rw [countCall]
  cases hentry : s.redis.entry req.countKey with
  | none =>
      rw [hentry, Option.bind_none] at hcurrent
      rw [FixedWindow.counted_of_none hcurrent, Expiring.incr_of_none hentry]
      -- the key is new, and is given its deadline
      have hlive : (none : Option ℕ).all (fun t => decide (s.redis.now < t)) = true := rfl
      have hpttl : (s.redis.put req.countKey ⟨1, some (s.redis.now + req.ttl)⟩).pttl req.countKey
          = ((s.redis.now + req.ttl : ℕ) : ℤ) - s.redis.now :=
        Expiring.pttl_put (by omega)
      dsimp only
      rw [if_pos rfl, Expiring.pexpire_put hlive, hpttl, if_neg (by omega)]
      exact ⟨_, rfl⟩
  | some e =>
      obtain ⟨hkey, hlive⟩ := Option.filter_eq_some_iff.mp hentry
      obtain ⟨hsome, hvalue⟩ := h _ e (.inl rfl) hkey
      obtain ⟨value, expiresAt⟩ := e
      obtain ⟨t, rfl⟩ := Option.isSome_iff_exists.mp hsome
      have hlt : s.redis.now < t := of_decide_eq_true hlive
      rw [hentry] at hcurrent
      have hcurrent : (view req s).current = some ⟨value, t⟩ := hcurrent
      rw [FixedWindow.counted_of_current hcurrent, Expiring.incr_of_some hentry]
      -- the key has its deadline already
      have hpttl : (s.redis.put req.countKey ⟨value + 1, some t⟩).pttl req.countKey
          = (t : ℤ) - s.redis.now := Expiring.pttl_put hlt
      have hvalue : value + 1 ≠ 1 := by
        have : 0 < value := hvalue
        omega
      dsimp only
      rw [if_neg hvalue, hpttl, if_neg (by omega)]
      exact ⟨_, rfl⟩

/-- **The script is a hit** of the counter its two keys are. -/
theorem script_spec (h : Tidy req s) (hpos : 0 < req.ttl) :
    ∃ timeToExpire timeToBlockExpire redis,
      script req.countKey req.blockKey req.ttl req.limit req.blockDuration s.redis
        = (((FixedWindow.hit req.limits (view req s)).1.hits, timeToExpire,
            if (FixedWindow.hit req.limits (view req s)).1.blocked then 1 else 0,
            timeToBlockExpire), redis) ∧
      view req { s with redis } = (FixedWindow.hit req.limits (view req s)).2 ∧
      Tidy req { s with redis } := by
  have hhit := FixedWindow.hit_step req.limits (view req s)
  generalize FixedWindow.hit req.limits (view req s) = res at hhit ⊢
  rw [script]
  cases hhit with
  | refused hblocked =>
      have hpttl := (blocked_view h).mp hblocked
      have hcurrent := current_view h
      have hget : s.redis.get req.countKey
          = ((view req s).current.map FixedWindow.Window.count) := by
        rw [hcurrent, Expiring.get]
        cases hentry : s.redis.entry req.countKey with
        | none => rfl
        | some e =>
            obtain ⟨hkey, -⟩ := Option.filter_eq_some_iff.mp hentry
            obtain ⟨value, expiresAt⟩ := e
            obtain ⟨t, rfl⟩ := Option.isSome_iff_exists.mp (h _ _ (.inl rfl) hkey).1
            rfl
      dsimp only
      rw [if_pos hpttl, hget]
      exact ⟨_, _, _, rfl, rfl, h⟩
  | exceeds hfree hcount =>
      have hpttl : ¬ s.redis.pttl req.blockKey > 0 := by
        rw [← blocked_view h, hfree]
        exact Bool.false_ne_true
      have hcount : ((view req s).counted req.limits).count > req.limit := hcount
      obtain ⟨countPttl, heq⟩ := countCall_spec h hpos
      dsimp only
      rw [if_neg hpttl, heq]
      dsimp only
      rw [if_pos hcount]
      exact ⟨_, _, _, rfl, view_put_block_count req s _ _ _ _,
        (h.put (FixedWindow.counted_pos req.limits (view req s))).put Nat.one_pos⟩
  | admitted hfree hcount =>
      have hpttl : ¬ s.redis.pttl req.blockKey > 0 := by
        rw [← blocked_view h, hfree]
        exact Bool.false_ne_true
      have hcount : ¬ ((view req s).counted req.limits).count > req.limit := not_lt.mpr hcount
      obtain ⟨countPttl, heq⟩ := countCall_spec h hpos
      dsimp only
      rw [if_neg hpttl, heq]
      dsimp only
      rw [if_neg hcount]
      exact ⟨_, _, _, rfl, view_put_count req s _ _,
        h.put (FixedWindow.counted_pos req.limits (view req s))⟩

/-- **A call is a hit** of the counter its keys are, whatever it does about the script. -/
theorem increment_spec (h : Tidy req s) (hpos : 0 < req.ttl) :
    ∃ record s', increment req s = some (record, s') ∧
      record.totalHits = (FixedWindow.hit req.limits (view req s)).1.hits ∧
      record.isBlocked = (FixedWindow.hit req.limits (view req s)).1.blocked ∧
      view req s' = (FixedWindow.hit req.limits (view req s)).2 ∧ Tidy req s' := by
  obtain ⟨loaded, scriptShaByName, heq⟩ := evalIncrementScript_eq req s
  obtain ⟨timeToExpire, timeToBlockExpire, redis, hscript, hview, htidy⟩ := script_spec h hpos
  rw [hscript] at heq
  rw [increment, heq]
  refine ⟨_, _, rfl, rfl, ?_, hview, htidy⟩
  dsimp only
  cases (FixedWindow.hit req.limits (view req s)).1.blocked <;> rfl

/-- A call under other keys leaves the counter alone. -/
theorem increment_frame {call : Increment} {record : ThrottlerStorageRecord}
    (hkey : call.countKey ≠ req.countKey) (h : increment call s = some (record, s')) :
    s'.redis.keys req.countKey = s.redis.keys req.countKey ∧
      s'.redis.keys req.blockKey = s.redis.keys req.blockKey ∧
      s'.redis.now = s.redis.now := by
  obtain ⟨loaded, scriptShaByName, heq⟩ := evalIncrementScript_eq call s
  rw [increment, heq] at h
  obtain ⟨-, rfl⟩ := Prod.mk.inj (Option.some.inj h)
  refine ⟨script_frame hkey.symm (countKey_ne_blockKey req call),
    script_frame (countKey_ne_blockKey call req).symm ?_, script_now⟩
  rw [ne_eq, ← countKey_eq_iff]
  exact hkey.symm

/-- Calls under the same keys see the same counter. -/
theorem view_of_countKey_eq {call : Increment} (hkey : call.countKey = req.countKey)
    (s : Throttling) : view call s = view req s := by
  rw [view, view, hkey, (countKey_eq_iff call req).mp hkey]

theorem tidy_of_countKey_eq {call : Increment} (hkey : call.countKey = req.countKey) :
    Tidy call s ↔ Tidy req s := by
  rw [Tidy, Tidy, hkey, (countKey_eq_iff call req).mp hkey]

/-- What a call under the keys does to the counter. -/
theorem call_view {call : Increment} (h : Tidy req s) (hkey : call.countKey = req.countKey)
    (hlimits : call.limits = req.limits) (hpos : 0 < req.ttl) :
    ∃ record s', increment call s = some (record, s') ∧
      record.totalHits = (FixedWindow.hit req.limits (view req s)).1.hits ∧
      record.isBlocked = (FixedWindow.hit req.limits (view req s)).1.blocked ∧
      view req s' = (FixedWindow.hit req.limits (view req s)).2 ∧ Tidy req s' := by
  have hpos : 0 < call.limits.ttl := by
    rw [hlimits]
    exact hpos
  obtain ⟨record, s', heq, hhits, hblocked, hview, htidy⟩ :=
    increment_spec ((tidy_of_countKey_eq hkey).mpr h) hpos
  rw [view_of_countKey_eq hkey, hlimits] at hhits hblocked hview
  rw [view_of_countKey_eq hkey] at hview
  exact ⟨record, s', heq, hhits, hblocked, hview, (tidy_of_countKey_eq hkey).mp htidy⟩

/-! ## Runs -/

/-- The steps of the counter in a run. -/
def viewTrace (req : Increment) (tr : List (Move Throttling ThrottleAction)) :
    List (Move FixedWindow.State FixedWindow.Action) :=
  tr.filterMap (viewMove req)

/-- **A run is a run of the counter.** -/
theorem view_run (hpos : 0 < req.ttl) (run : Run throttler tr s) (hsame : SameLimits req tr) :
    Tidy req s ∧ Run (FixedWindow.counter req.limits) (viewTrace req tr) (view req s) := by
  induction run with
  | @init s h =>
      have hcount : s.redis.keys req.countKey = none := h _
      have hblock : s.redis.keys req.blockKey = none := h _
      refine ⟨fun key e _ he => ?_, .init ⟨?_, ?_⟩⟩
      · rw [h key] at he
        cases he
      · simp only [view, hcount, Option.bind_none]
      · simp only [view, hblock, Option.bind_none]
  | @snoc tr s s' a run hstep ih =>
      obtain ⟨htidy, hrun⟩ := ih fun m hm => hsame m (List.mem_cons_of_mem _ hm)
      cases a with
      | increment call =>
          obtain ⟨⟨record, s''⟩, hincr, rfl⟩ := Option.map_eq_some_iff.mp hstep
          by_cases hkey : call.countKey = req.countKey
          · obtain ⟨httl, hlimit, hblock⟩ := hsame _ List.mem_cons_self call rfl hkey
            have hlimits : call.limits = req.limits := by
              rw [Increment.limits, Increment.limits, httl, hlimit, hblock]
            obtain ⟨record', s₁, heq, -, -, hview, htidy'⟩ := call_view htidy hkey hlimits hpos
            rw [hincr] at heq
            obtain ⟨-, rfl⟩ := Prod.mk.inj (Option.some.inj heq)
            have hmove : viewMove req ⟨s, .increment call, s''⟩
                = some ⟨view req s, .hit, view req s''⟩ := if_pos hkey
            rw [viewTrace, List.filterMap_cons_some hmove]
            refine ⟨htidy', hrun.snoc ?_⟩
            rw [hview]
            rfl
          · obtain ⟨hcount, hblock, hnow⟩ := increment_frame hkey hincr
            have hmove : viewMove req ⟨s, .increment call, s''⟩ = none := if_neg hkey
            have hview : view req s'' = view req s := by
              rw [view, view, hcount, hblock, hnow]
            rw [viewTrace, List.filterMap_cons_none hmove]
            show _ ∧ Run _ _ (view req s'')
            rw [hview]
            refine ⟨fun key e hkeys he => ?_, hrun⟩
            rcases hkeys with rfl | rfl
            · rw [hcount] at he
              exact htidy _ e (.inl rfl) he
            · rw [hblock] at he
              exact htidy _ e (.inr rfl) he
      | pass ms =>
          obtain rfl := Option.some.inj hstep
          exact ⟨htidy, hrun.snoc rfl⟩
      | scriptFlush =>
          obtain rfl := Option.some.inj hstep
          exact ⟨htidy, hrun⟩

/-- A call of a run under the keys is a hit, and is answered as the counter answers. -/
structure Answered (req : Increment) (m : Move Throttling ThrottleAction) : Prop where
  tidy : Tidy req m.src
  move : viewMove req m = some ⟨view req m.src, .hit, view req m.dst⟩
  answer : ∃ record, returned m = some record ∧
    record.totalHits = (FixedWindow.hit req.limits (view req m.src)).1.hits ∧
    record.isBlocked = (FixedWindow.hit req.limits (view req m.src)).1.blocked

theorem answered_of_run (hpos : req.Positive) (run : Run throttler tr s)
    (hsame : SameLimits req tr) {m : Move Throttling ThrottleAction} (hmem : m ∈ tr)
    (hm : CallsWith req m) : Answered req m := by
  obtain ⟨later, earlier, rfl⟩ := List.append_of_mem hmem
  have htidy := (view_run hpos.ttl run.split.1 fun m' hm' =>
    hsame m' (List.mem_append_right _ (List.mem_cons_of_mem _ hm'))).1
  obtain ⟨call, hact, hkey⟩ := hm
  obtain ⟨httl, hlimit, hblock⟩ := hsame m hmem call hact hkey
  have hlimits : call.limits = req.limits := by
    rw [Increment.limits, Increment.limits, httl, hlimit, hblock]
  obtain ⟨record, s₁, heq, hhits, hblocked, -, -⟩ := call_view htidy hkey hlimits hpos.ttl
  refine ⟨htidy, ?_, record, ?_, hhits, hblocked⟩
  · rw [viewMove, hact]
    exact if_pos hkey
  · rw [returned, hact]
    dsimp only
    rw [heq]
    rfl

/-- A call shows its hit in the trace of the counter. -/
theorem Answered.mem {m : Move Throttling ThrottleAction} (h : Answered req m) (hm : m ∈ tr) :
    (⟨view req m.src, .hit, view req m.dst⟩ : Move _ _) ∈ viewTrace req tr :=
  List.mem_filterMap.mpr ⟨m, hm, h.move⟩

/-- A step that is not a call under the keys shows no hit. -/
theorem viewMove_not_hit {m : Move Throttling ThrottleAction}
    {v : Move FixedWindow.State FixedWindow.Action} (hm : ¬ CallsWith req m)
    (h : viewMove req m = some v) : ¬ FixedWindow.IsHit v := by
  unfold viewMove at h
  split at h
  · next call hact =>
      split at h
      · next hkey => exact absurd ⟨call, hact, hkey⟩ hm
      · cases h
  · obtain rfl := Option.some.inj h
    intro hhit
    cases hhit
  · cases h

/-- A step that shows a hit is a call under the keys. -/
theorem callsWith_of_hit {m : Move Throttling ThrottleAction}
    {v : Move FixedWindow.State FixedWindow.Action} (h : viewMove req m = some v)
    (hv : FixedWindow.IsHit v) :
    CallsWith req m ∧ v = ⟨view req m.src, .hit, view req m.dst⟩ := by
  have hm : CallsWith req m := by
    by_contra hm
    exact viewMove_not_hit hm h hv
  refine ⟨hm, ?_⟩
  obtain ⟨call, hact, hkey⟩ := hm
  rw [viewMove, hact] at h
  dsimp only at h
  rw [if_pos hkey] at h
  exact (Option.some.inj h).symm

/-- The calls of a stretch are the hits of the counter. -/
theorem callsBefore_eq (req : Increment) (t : ℕ) (tr : List (Move Throttling ThrottleAction)) :
    callsBefore req t tr = FixedWindow.hitsBefore t (viewTrace req tr) := by
  rw [callsBefore, FixedWindow.hitsBefore, viewTrace, List.countP_filterMap]
  refine List.countP_congr fun m _ => ?_
  by_cases hm : CallsWith req m
  · obtain ⟨call, hact, hkey⟩ := hm
    have hmove : viewMove req m = some ⟨view req m.src, .hit, view req m.dst⟩ := by
      rw [viewMove, hact]
      exact if_pos hkey
    have hcalls : CallsWith req m := ⟨call, hact, hkey⟩
    rw [hmove]
    simp [hcalls, FixedWindow.IsHit, view]
  · cases hv : viewMove req m with
    | none => simp [hm]
    | some v =>
        have hno := viewMove_not_hit hm hv
        simp [hm, hno]

/-- The calls let through in a stretch are the hits the counter admits. -/
theorem passedBefore_eq {t : ℕ} {tr : List (Move Throttling ThrottleAction)}
    (hreturned : ∀ m ∈ tr, CallsWith req m → ∃ record, returned m = some record ∧
      record.isBlocked = (FixedWindow.hit req.limits (view req m.src)).1.blocked) :
    passedBefore req t tr = FixedWindow.admittedBefore req.limits t (viewTrace req tr) := by
  rw [passedBefore, FixedWindow.admittedBefore, viewTrace, List.countP_filterMap]
  refine List.countP_congr fun m hmem => ?_
  by_cases hm : CallsWith req m
  · obtain ⟨record, hrecord, hblocked⟩ := hreturned m hmem hm
    obtain ⟨call, hact, hkey⟩ := hm
    have hmove : viewMove req m = some ⟨view req m.src, .hit, view req m.dst⟩ := by
      rw [viewMove, hact]
      exact if_pos hkey
    have hcalls : CallsWith req m := ⟨call, hact, hkey⟩
    rw [hmove, hrecord]
    simp [hcalls, FixedWindow.IsHit, view, hblocked]
  · cases hv : viewMove req m with
    | none => simp [hm]
    | some v =>
        have hno := viewMove_not_hit hm hv
        simp [hm, hno]

/-- The call that creates the count key opens a window. -/
theorem opens_iff_creates {m : Move Throttling ThrottleAction} (htidy : Tidy req m.src)
    (hm : CallsWith req m) :
    FixedWindow.Opens ⟨view req m.src, .hit, view req m.dst⟩ ↔ Creates req m := by
  have hcurrent : (view req m.src).current = none ↔ m.src.redis.entry req.countKey = none := by
    rw [current_view htidy]
    cases hentry : m.src.redis.entry req.countKey with
    | none => simp
    | some e =>
        obtain ⟨hkey, -⟩ := Option.filter_eq_some_iff.mp hentry
        obtain ⟨value, expiresAt⟩ := e
        obtain ⟨t, rfl⟩ := Option.isSome_iff_exists.mp (htidy _ _ (.inl rfl) hkey).1
        simp
  constructor
  · intro h
    exact ⟨hm, hcurrent.mp h.closed, (blocked_view_iff_entry htidy).mp h.free⟩
  · intro h
    exact ⟨rfl, hcurrent.mpr h.count, (blocked_view_iff_entry htidy).mpr h.block⟩

/-- The trace of the counter, cut at a call. -/
theorem Answered.split {m : Move Throttling ThrottleAction} (h : Answered req m)
    (later earlier : List (Move Throttling ThrottleAction)) :
    viewTrace req (later ++ m :: earlier) = viewTrace req later ++
        ⟨view req m.src, .hit, view req m.dst⟩ :: viewTrace req earlier ∧
      viewTrace req (later ++ [m])
        = viewTrace req later ++ [⟨view req m.src, .hit, view req m.dst⟩] := by
  constructor
  · rw [viewTrace, List.filterMap_append, List.filterMap_cons_some h.move]
    rfl
  · rw [viewTrace, List.filterMap_append, List.filterMap_cons_some h.move, List.filterMap_nil]
    rfl

/-- The window that is seen is what is under the count key. -/
theorem keys_of_window {count t : ℕ} (h : (view req s).window = some ⟨count, t⟩) :
    s.redis.keys req.countKey = some ⟨count, some t⟩ := by
  obtain ⟨e, hkey, he⟩ := Option.bind_eq_some_iff.mp h
  obtain ⟨t', ht', hw⟩ := Option.map_eq_some_iff.mp he
  obtain ⟨rfl, rfl⟩ := FixedWindow.Window.mk.inj hw
  rw [hkey, ← ht']

/-- A call in the time of a block leaves Redis as it is. -/
theorem increment_blocked {call : Increment} {record : ThrottlerStorageRecord}
    (h : s.redis.pttl call.blockKey > 0) (heq : increment call s = some (record, s')) :
    s'.redis.keys = s.redis.keys := by
  obtain ⟨loaded, scriptShaByName, hrun⟩ := evalIncrementScript_eq call s
  rw [increment, hrun] at heq
  obtain ⟨-, rfl⟩ := Prod.mk.inj (Option.some.inj heq)
  dsimp only
  rw [script]
  exact congrArg (fun res : (ℕ × ℤ × ℕ × ℤ) × Expiring String ℕ => res.2.keys) (if_pos h)

section RateLimited

variable {later earlier : List (Move Throttling ThrottleAction)}
  {m : Move Throttling ThrottleAction} {record : ThrottlerStorageRecord}

theorem mem_of_window {m' : Move Throttling ThrottleAction} (hm' : m' ∈ later ++ [m]) :
    m' ∈ later ++ m :: earlier := by
  rcases List.mem_append.mp hm' with h | h
  · exact List.mem_append_left _ h
  · rw [List.mem_singleton.mp h]
    exact List.mem_append_right _ List.mem_cons_self

/-- In the window a call opens, no more calls than the limit are let through. -/
theorem passed_of_run (hpos : req.Positive) (run : Run throttler (later ++ m :: earlier) s)
    (hsame : SameLimits req (later ++ m :: earlier)) (hm : Creates req m) :
    passedBefore req (m.src.redis.now + req.ttl) (later ++ [m]) ≤ req.limit := by
  have hanswered := answered_of_run hpos run hsame (List.mem_append_right _ List.mem_cons_self)
    hm.calls
  obtain ⟨hsplit, hwindow⟩ := hanswered.split later earlier
  have hle := (FixedWindow.contract_of_run hpos.limit (view_run hpos.ttl run hsame).2).window
    _ _ _ hsplit ((opens_iff_creates hanswered.tidy hm.calls).mpr hm)
  rw [passedBefore_eq, hwindow]
  · exact hle
  · intro m' hm' hcall
    obtain ⟨record, hrecord, -, hblocked⟩ :=
      (answered_of_run hpos run hsame (mem_of_window hm') hcall).answer
    exact ⟨record, hrecord, hblocked⟩

/-- In the window a call opens, no call moves the end of the window. -/
theorem expires_of_run (hpos : req.Positive) (run : Run throttler (later ++ m :: earlier) s)
    (hsame : SameLimits req (later ++ m :: earlier)) (hm : Creates req m)
    {m' : Move Throttling ThrottleAction} (hm' : m' ∈ later ++ [m]) (hcall : CallsWith req m')
    (hlt : m'.src.redis.now < m.src.redis.now + req.ttl) :
    ∃ count, m'.dst.redis.keys req.countKey
      = some ⟨count, some (m.src.redis.now + req.ttl)⟩ := by
  have hanswered := answered_of_run hpos run hsame (List.mem_append_right _ List.mem_cons_self)
    hm.calls
  obtain ⟨hsplit, hwindow⟩ := hanswered.split later earlier
  have hvmem := (answered_of_run hpos run hsame (mem_of_window hm') hcall).mem hm'
  rw [hwindow] at hvmem
  obtain ⟨count, hcount⟩ := (FixedWindow.contract_of_run hpos.limit
    (view_run hpos.ttl run hsame).2).closes _ _ _ hsplit
    ((opens_iff_creates hanswered.tidy hm.calls).mpr hm) _ hvmem hlt
  exact ⟨count, keys_of_window hcount⟩

/-- In the time of a block, calls are blocked and leave Redis as it is. -/
theorem blocks_of_run (hpos : req.Positive) (run : Run throttler (later ++ m :: earlier) s)
    (hsame : SameLimits req (later ++ m :: earlier)) (hm : CallsWith req m)
    (hfree : m.src.redis.entry req.blockKey = none) (hrecord : returned m = some record)
    (hexceeds : req.limit < record.totalHits) {m' : Move Throttling ThrottleAction}
    (hm' : m' ∈ later) (hcall : CallsWith req m')
    (hlt : m'.src.redis.now < m.src.redis.now + req.blockDuration) :
    (∃ record', returned m' = some record' ∧ record'.isBlocked = true) ∧
      m'.dst.redis.keys = m'.src.redis.keys := by
  have hanswered := answered_of_run hpos run hsame (List.mem_append_right _ List.mem_cons_self) hm
  have hanswered' := answered_of_run hpos run hsame (List.mem_append_left _ hm') hcall
  obtain ⟨record₁, hrecord₁, hhits, -⟩ := hanswered.answer
  obtain ⟨record', hrecord', -, hblocked'⟩ := hanswered'.answer
  rw [hrecord] at hrecord₁
  obtain rfl := Option.some.inj hrecord₁
  rw [hhits] at hexceeds
  obtain ⟨hlive, hrefused, -⟩ := (FixedWindow.contract_of_run hpos.limit
    (view_run hpos.ttl run hsame).2).block _ _ _ (hanswered.split later earlier).1 rfl
    ((blocked_view_iff_entry hanswered.tidy).mpr hfree) hexceeds _ (hanswered'.mem hm') rfl hlt
  refine ⟨⟨record', hrecord', hblocked'.trans hrefused⟩, ?_⟩
  -- the block key has time left, so the script only reads
  obtain ⟨call, hact, hkey⟩ := hcall
  have hpttl := (blocked_view hanswered'.tidy).mp hlive
  rw [← (countKey_eq_iff call req).mp hkey] at hpttl
  have hstep := (run.of_mem (List.mem_append_left _ hm')).2
  rw [hact] at hstep
  obtain ⟨⟨record'', s''⟩, hincr, hdst⟩ := Option.map_eq_some_iff.mp hstep
  rw [← hdst]
  exact increment_blocked hpttl hincr

/-- Calls that keep to the limit in each window are hits that do. -/
theorem moderate_view (hpos : req.Positive) (run : Run throttler tr s) (hsame : SameLimits req tr)
    (hmoderate : ∀ later m earlier, tr = later ++ m :: earlier → Creates req m →
      callsBefore req (m.src.redis.now + req.ttl) (later ++ [m]) ≤ req.limit) :
    FixedWindow.Moderate req.limits (viewTrace req tr) := by
  intro vlater v vearlier hsplit hopens
  -- a window of the counter is one of the storage, with steps in it that show nothing
  obtain ⟨l₁, l₂, rfl, hl₁, hl₂⟩ := List.filterMap_eq_append_iff.mp hsplit
  obtain ⟨others, m, earlier, rfl, hothers, hv, -⟩ := List.filterMap_eq_cons_iff.mp hl₂
  obtain ⟨hcall, rfl⟩ := callsWith_of_hit hv hopens.hit
  have hmem : m ∈ l₁ ++ (others ++ m :: earlier) :=
    List.mem_append_right _ (List.mem_append_right _ List.mem_cons_self)
  have hanswered := answered_of_run hpos run hsame hmem hcall
  have hle := hmoderate (l₁ ++ others) m earlier (by rw [List.append_assoc])
    ((opens_iff_creates hanswered.tidy hcall).mp hopens)
  have hnone : others.filterMap (viewMove req) = [] := List.filterMap_eq_nil_iff.mpr hothers
  rw [callsBefore_eq, (hanswered.split (l₁ ++ others) earlier).2, viewTrace,
    List.filterMap_append, hnone, List.append_nil, hl₁] at hle
  exact hle

/-- **The rate limiter.** In every run in which the calls under a key are made with the same
positive limits, they are limited as they are to be. -/
theorem rate_limited (hpos : req.Positive) (run : Run throttler tr s)
    (hsame : SameLimits req tr) : RateLimited req tr where
  window later m earlier htr hm := passed_of_run hpos (htr ▸ run) (htr ▸ hsame) hm
  expires later m earlier htr hm m' hm' hcall hlt :=
    expires_of_run hpos (htr ▸ run) (htr ▸ hsame) hm hm' hcall hlt
  blocks later m earlier record htr hm hfree hrecord hexceeds m' hm' hcall hlt :=
    blocks_of_run hpos (htr ▸ run) (htr ▸ hsame) hm hfree hrecord hexceeds hm' hcall hlt
  blocked_iff m hm hcall := by
    have hanswered := answered_of_run hpos run hsame hm hcall
    obtain ⟨record, hrecord, hhits, hblocked⟩ := hanswered.answer
    refine ⟨record, hrecord, ?_⟩
    rw [hblocked, hhits]
    exact (FixedWindow.contract_of_run hpos.limit (view_run hpos.ttl run hsame).2).refused _
      (hanswered.mem hm) rfl
  moderate hmoderate m hm hcall := by
    have hanswered := answered_of_run hpos run hsame hm hcall
    obtain ⟨record, hrecord, -, hblocked⟩ := hanswered.answer
    refine ⟨record, hrecord, hblocked.trans ?_⟩
    exact (FixedWindow.contract_of_run hpos.limit (view_run hpos.ttl run hsame).2).kept
      (moderate_view hpos run hsame hmoderate) _ (hanswered.mem hm) rfl

end RateLimited

/-! ### Three calls -/

/-- One call a second, and half a second's block for who makes more. -/
def sampleIncrement : Increment := ⟨"ip", 1000, 1, 500, "login"⟩

/-- Redis without keys. -/
def emptyThrottling : Throttling := ⟨⟨0, fun _ => none⟩, false, []⟩

/-- Two calls at once, and one after the block has ended but not the window. -/
def threeCalls : List ThrottleAction :=
  [.increment sampleIncrement, .increment sampleIncrement, .pass 500, .increment sampleIncrement]

theorem threeCalls_possible : (throttler.exec emptyThrottling threeCalls).isSome := rfl

/-- Three calls are limited so. -/
theorem rate_limited_three :
    RateLimited sampleIncrement (throttler.moves [] emptyThrottling threeCalls) :=
  rate_limited ⟨by decide, by decide, by decide⟩
    ((Run.init fun _ => rfl).exec (Option.some_get threeCalls_possible).symm)
    (by
      intro m hm call hact _
      rcases System.act_mem_of_moves hm with h | h
      · cases h
      -- all calls of the three are the same
      · rw [hact] at h
        obtain rfl : call = sampleIncrement := by simpa [threeCalls] using h
        exact ⟨rfl, rfl, rfl⟩)

end LogisticsDispatch
