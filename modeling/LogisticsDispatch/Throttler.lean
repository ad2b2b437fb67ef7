/-
The rate limiter: `RedisThrottlerStorage`.

A call counts under `throttle:{key}:{throttlerName}:count` and blocks under
`throttle:{key}:{throttlerName}:block`, two keys of Redis that expire on their own. Both are read
and written by one script, which Redis runs as one step. The storage keeps the digest it has
loaded the script under, by the throttler's name, and loads the script again where Redis does not
have it any more.

The last part says which keys the script writes to.
-/
import LogisticsDispatch.Lib.Expiring
import LogisticsDispatch.Lib.Transition

set_option autoImplicit false

namespace LogisticsDispatch

open Transition

/-! ## The storage -/

/-- What `increment` is called with. -/
structure Increment where
  key : String
  ttl : ℕ
  limit : ℕ
  blockDuration : ℕ
  throttlerName : String
deriving DecidableEq

/-- The key calls are counted under. -/
def Increment.countKey (req : Increment) : String :=
  s!"throttle:{req.key}:{req.throttlerName}:count"

/-- The key a block is kept under. -/
def Increment.blockKey (req : Increment) : String :=
  s!"throttle:{req.key}:{req.throttlerName}:block"

/-- `ThrottlerStorageRecord`. -/
structure ThrottlerStorageRecord where
  totalHits : ℕ
  timeToExpire : ℤ
  isBlocked : Bool
  timeToBlockExpire : ℤ
deriving DecidableEq

/-- Redis, whether it has the script, and the names of the throttlers whose script digest the
storage knows. -/
structure Throttling where
  redis : Expiring String ℕ
  loaded : Bool
  scriptShaByName : List String

namespace RedisThrottlerStorage

/-- `math.ceil(ms / 1000)`. -/
def ceilSeconds (ms : ℤ) : ℤ := (ms + 999) / 1000

/-- The part of the script that counts a call: the count, and the time its key has left. -/
def countCall (countKey : String) (ttlMs : ℕ) (redis : Expiring String ℕ) :
    (ℕ × ℤ) × Expiring String ℕ :=
  let (count, redis) := redis.incr countKey
  let redis := if count = 1 then redis.pexpire countKey ttlMs else redis
  let countPttl := redis.pttl countKey
  -- a count without a deadline is given one
  if countPttl < 0 then ((count, ttlMs), redis.pexpire countKey ttlMs)
  else ((count, countPttl), redis)

/-- The script. It returns the hits, the seconds the window has left, `1` for blocked, and the
seconds the block has left. -/
def script (countKey blockKey : String) (ttlMs limit blockDurationMs : ℕ)
    (redis : Expiring String ℕ) :
    (ℕ × ℤ × ℕ × ℤ) × Expiring String ℕ :=
  let blockPttl := redis.pttl blockKey
  if blockPttl > 0 then
    let count := (redis.get countKey).getD (limit + 1)
    ((count, ceilSeconds blockPttl, 1, ceilSeconds blockPttl), redis)
  else
    let ((count, countPttl), redis) := countCall countKey ttlMs redis
    if count > limit then
      ((count, ceilSeconds countPttl, 1, ceilSeconds blockDurationMs),
        redis.setPX blockKey 1 blockDurationMs)
    else ((count, ceilSeconds countPttl, 0, 0), redis)

/-- `evalsha` of the script: nothing, where Redis does not have it. -/
def evalsha (req : Increment) (s : Throttling) : Option ((ℕ × ℤ × ℕ × ℤ) × Throttling) :=
  if s.loaded then
    let (result, redis) :=
      script req.countKey req.blockKey req.ttl req.limit req.blockDuration s.redis
    some (result, { s with redis })
  else none

/-- `evalIncrementScript`. -/
def evalIncrementScript (req : Increment) (s : Throttling) :
    Option ((ℕ × ℤ × ℕ × ℤ) × Throttling) :=
  let known := if req.throttlerName ∈ s.scriptShaByName then evalsha req s else none
  match known with
  | some result => some result
  -- the digest is not known, or Redis has forgotten the script
  | none =>
      evalsha req { s with
        loaded := true, scriptShaByName := req.throttlerName :: s.scriptShaByName }

/-- `increment`. -/
def increment (req : Increment) (s : Throttling) : Option (ThrottlerStorageRecord × Throttling) :=
  (evalIncrementScript req s).map fun
    ((totalHits, timeToExpireSeconds, isBlocked, timeToBlockExpireSeconds), s) =>
      ({ totalHits
         timeToExpire := timeToExpireSeconds
         isBlocked := decide (isBlocked = 1)
         timeToBlockExpire := timeToBlockExpireSeconds }, s)

end RedisThrottlerStorage

open RedisThrottlerStorage

/-- One step: a call, time that passes, or Redis forgetting its scripts. -/
inductive ThrottleAction
  | increment (req : Increment)
  | pass (ms : ℕ)
  | scriptFlush
deriving DecidableEq

/-- **The calls of `increment`**, one after the other at any times. -/
def throttler : System Throttling ThrottleAction where
  Init s := ∀ key, s.redis.keys key = none
  step s
    | .increment req => (increment req s).map Prod.snd
    | .pass ms => some { s with redis := s.redis.pass ms }
    | .scriptFlush => some { s with loaded := false }

/-! ## Keys -/

theorem countKey_toList (req : Increment) : req.countKey.toList =
    "throttle:".toList ++ (req.key.toList ++ ":".toList ++ req.throttlerName.toList) ++
      ":count".toList := by
  simp [Increment.countKey, toString, String.toList_append]

theorem blockKey_toList (req : Increment) : req.blockKey.toList =
    "throttle:".toList ++ (req.key.toList ++ ":".toList ++ req.throttlerName.toList) ++
      ":block".toList := by
  simp [Increment.blockKey, toString, String.toList_append]

/-- A count key is no block key. -/
theorem countKey_ne_blockKey (req req' : Increment) : req.countKey ≠ req'.blockKey := by
  intro h
  have hcount : req.countKey.toList.getLast? = some 't' := by
    rw [countKey_toList, List.getLast?_append]
    rfl
  have hblock : req'.blockKey.toList.getLast? = some 'k' := by
    rw [blockKey_toList, List.getLast?_append]
    rfl
  rw [h, hblock] at hcount
  cases hcount

/-- Two calls count under one key exactly if they block under one key. -/
theorem countKey_eq_iff (req req' : Increment) :
    req.countKey = req'.countKey ↔ req.blockKey = req'.blockKey := by
  rw [← String.toList_inj, ← String.toList_inj, countKey_toList, countKey_toList,
    blockKey_toList, blockKey_toList, List.append_left_inj, List.append_left_inj]

/-! ## What the script changes -/

theorem touches_countCall (countKey : String) (ttlMs : ℕ) (redis : Expiring String ℕ) :
    Expiring.Touches countKey redis (countCall countKey ttlMs redis).2 := by
  rw [countCall]
  have hincr := Expiring.touches_incr redis countKey
  generalize redis.incr countKey = res at hincr ⊢
  obtain ⟨count, redis'⟩ := res
  dsimp only at hincr ⊢
  have hnew : Expiring.Touches countKey redis
      (if count = 1 then redis'.pexpire countKey ttlMs else redis') := by
    split
    · exact hincr.trans (Expiring.touches_pexpire redis' countKey ttlMs)
    · exact hincr
  generalize (if count = 1 then redis'.pexpire countKey ttlMs else redis') = redis'' at hnew ⊢
  split
  · exact hnew.trans (Expiring.touches_pexpire _ countKey ttlMs)
  · exact hnew

/-- The script leaves all keys but its two alone. -/
theorem script_frame {countKey blockKey key : String} {ttlMs limit blockDurationMs : ℕ}
    {redis : Expiring String ℕ} (hcount : key ≠ countKey) (hblock : key ≠ blockKey) :
    (script countKey blockKey ttlMs limit blockDurationMs redis).2.keys key = redis.keys key := by
  rw [script]
  dsimp only
  split
  · rfl
  · have hcounted := (touches_countCall countKey ttlMs redis).keys key hcount
    split
    · exact (Expiring.put_keys_of_ne hblock _).trans hcounted
    · exact hcounted

/-- The clock stands still during a call. -/
theorem script_now {countKey blockKey : String} {ttlMs limit blockDurationMs : ℕ}
    {redis : Expiring String ℕ} :
    (script countKey blockKey ttlMs limit blockDurationMs redis).2.now = redis.now := by
  rw [script]
  dsimp only
  split
  · rfl
  · have hcounted := (touches_countCall countKey ttlMs redis).now
    split
    · exact hcounted
    · exact hcounted

/-- However it does with the digest, a call runs the script once. -/
theorem evalIncrementScript_eq (req : Increment) (s : Throttling) :
    ∃ loaded scriptShaByName, evalIncrementScript req s
      = some ((script req.countKey req.blockKey req.ttl req.limit req.blockDuration s.redis).1,
        { redis := (script req.countKey req.blockKey req.ttl req.limit req.blockDuration
            s.redis).2, loaded, scriptShaByName }) := by
  rw [evalIncrementScript]
  split
  · next result hknown =>
      split at hknown
      · rw [evalsha] at hknown
        split at hknown
        · exact ⟨s.loaded, s.scriptShaByName, hknown.symm⟩
        · cases hknown
      · cases hknown
  · exact ⟨true, _, rfl⟩

end LogisticsDispatch
