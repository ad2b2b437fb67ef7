/-
The refresh tokens of `TokenService`.

A refresh token is the id of its user, a dot, and what `randomBytes` has drawn. Its hash is kept
in Redis under `refresh:{id}`, for a week. `verifyRefreshToken` gets the hash, has it compared
with the token, and deletes the key: three steps, and other calls may come between any two.

Hashing and signing are `Crypto`, with the laws of a hash that are used. Time passes by steps
of its own, and keys expire by it; `randomBytes` never draws what it has drawn before.
-/
import LogisticsDispatch.Lib.OneTime
import LogisticsDispatch.Lib.Pool
import LogisticsDispatch.Lib.Transition
import LogisticsDispatch.Entities

set_option autoImplicit false

namespace LogisticsDispatch

open Resumable

/-- `JwtPayload`. -/
structure JwtPayload where
  sub : UserId
  email : String
  role : UserRole
  driverProfileId : Option DriverId
deriving DecidableEq

/-- `argon2` and the signing of access tokens. A hash is salted. -/
structure Crypto where
  Hash : String → String → String
  verifyHash : String → String → Bool
  sign : JwtPayload → String
  verify_hash : ∀ salt x y, verifyHash (Hash salt x) y = true ↔ x = y
  hash_ne : ∀ salt x, Hash salt x ≠ ""

/-- A hash one can read, for the examples. -/
def sampleCrypto : Crypto where
  Hash _ x := String.ofList ('#' :: x.toList)
  verifyHash hash x := decide (hash.toList = '#' :: x.toList)
  sign payload := payload.email
  verify_hash _ x y := by
    rw [decide_eq_true_eq, String.toList_ofList, List.cons.injEq, String.toList_inj]
    exact and_iff_right rfl
  hash_ne _ x h := by
    have hlist := congrArg String.toList h
    rw [String.toList_ofList] at hlist
    cases hlist

/-! ## Effects -/

/-- One call of `TokenService` to the outside. -/
inductive TokenEffect
  | findDriverProfile (userId : UserId)
  | signAsync (payload : JwtPayload)
  | randomBytes (size : ℕ)
  | Hash (password : String)
  | verifyHash (hash password : String)
  -- the keys of Redis are `refresh:{userId}`
  | redisGet (userId : String)
  | redisSet (userId value : String) (ttlInSeconds : ℕ)
  | redisDel (userId : String)
deriving DecidableEq

/-- What an effect answers with. -/
@[reducible] def TokenEffect.Resp : TokenEffect → Type
  | findDriverProfile _ => Option DriverId
  | signAsync _ => String
  | randomBytes _ => String
  | Hash _ => String
  | verifyHash _ _ => Bool
  | redisGet _ => Option String
  | redisSet _ _ _ => Unit
  | redisDel _ => Unit

/-- What `TokenService` throws: an `UnauthorizedException`, or what the outside throws. -/
inductive TokenError
  | UnauthorizedException (message : String)
  | Unavailable
deriving DecidableEq

/-- A program of `TokenService`. -/
abbrev TokenProg (α : Type) := Program TokenEffect TokenEffect.Resp TokenError α

/-- A value in Redis, and the seconds it has left. -/
structure RedisEntry where
  value : String
  ttl : ℕ
deriving DecidableEq

/-- What the calls share: the keys of Redis, and what was drawn so far. -/
structure TokenStore where
  redis : String → Option RedisEntry
  drawn : List String

/-- What a step leaves open: the bytes and the salt that are drawn, and the driver profile that
the database finds. -/
structure TokenChoice where
  hex : String
  salt : String
  driverProfileId : Option DriverId
deriving DecidableEq

/-- Perform one effect. -/
def TokenStore.perform (crypto : Crypto) (ch : TokenChoice) :
    (e : TokenEffect) → TokenStore → Except TokenError e.Resp × TokenStore
  | .findDriverProfile _, s => (.ok ch.driverProfileId, s)
  | .signAsync payload, s => (.ok (crypto.sign payload), s)
  | .randomBytes _, s => (.ok ch.hex, { s with drawn := ch.hex :: s.drawn })
  | .Hash password, s => (.ok (crypto.Hash ch.salt password), s)
  | .verifyHash hash password, s => (.ok (crypto.verifyHash hash password), s)
  | .redisGet userId, s => (.ok ((s.redis userId).map RedisEntry.value), s)
  | .redisSet userId value ttl, s =>
      (.ok (), { s with redis := Function.update s.redis userId (some ⟨value, ttl⟩) })
  | .redisDel userId, s => (.ok (), { s with redis := Function.update s.redis userId none })

/-- The machine the calls run on. -/
def tokenMachine (crypto : Crypto) :
    Machine TokenEffect TokenEffect.Resp TokenError TokenStore TokenChoice where
  exec := TokenStore.perform crypto

/-- Some seconds pass: the keys that are too old by then expire. -/
def TokenStore.pass (seconds : ℕ) (s : TokenStore) : TokenStore :=
  { s with redis := fun userId => (s.redis userId).bind fun kept =>
      if kept.ttl ≤ seconds then none else some { kept with ttl := kept.ttl - seconds } }

/-! ## The methods -/

namespace TokenService

/-- Ask for one effect. -/
def ask (e : TokenEffect) : TokenProg e.Resp := Program.perform e

def REFRESH_TTL : ℕ := 60 * 60 * 24 * 7

/-- The columns of a user that `generateTokens` reads. -/
structure User where
  id : UserId
  email : String
  role : UserRole
deriving DecidableEq

/-- A pair of tokens. -/
structure Tokens where
  accessToken : String
  refreshToken : String
deriving DecidableEq

/-- `resolveDriverProfileId`. -/
def resolveDriverProfileId (userId : UserId) (userRole : UserRole) :
    TokenProg (Option DriverId) :=
  if userRole ≠ .DRIVER then return none
  else ask (.findDriverProfile userId)

/-- A refresh token: `${user.id}.${hex}`. -/
def refreshTokenOf (userId : UserId) (hex : String) : String := userId.text ++ "." ++ hex

/-- `generateTokens`. -/
def generateTokens (user : User) : TokenProg Tokens := do
  let driverProfileId ← resolveDriverProfileId user.id user.role
  let accessToken ← ask (.signAsync ⟨user.id, user.email, user.role, driverProfileId⟩)
  let hex ← ask (.randomBytes 64)
  let refreshToken := refreshTokenOf user.id hex
  let hashedToken ← ask (.Hash refreshToken)
  ask (.redisSet user.id.text hashedToken REFRESH_TTL)
  return { accessToken, refreshToken }

/-- The parts of a token before and after its first dot: the owner's id and the secret. -/
def splitToken (token : String) : String × String :=
  (String.ofList (token.toList.takeWhile (· ≠ '.')),
    String.ofList (token.toList.dropWhile (· ≠ '.')).tail)

/-- `verifyRefreshToken`. -/
def verifyRefreshToken (incomingRefreshToken : String) : TokenProg String := do
  let (tokenOwnerUserId, tokenSecretPart) := splitToken incomingRefreshToken
  if tokenOwnerUserId = "" ∨ tokenSecretPart = "" then
    throw (.UnauthorizedException "Malformed refresh token")
  else
    match (← ask (.redisGet tokenOwnerUserId)).filter fun hash => hash ≠ "" with
    | none => throw (.UnauthorizedException "Refresh token expired or revoked")
    | some storedRefreshTokenHash => do
        let doesTokenMatchStoredHash ←
          ask (.verifyHash storedRefreshTokenHash incomingRefreshToken)
        if !doesTokenMatchStoredHash then
          throw (.UnauthorizedException "Invalid refresh token")
        else do
          -- the key may by now hold another token's hash
          ask (.redisDel tokenOwnerUserId)
          return tokenOwnerUserId

/-- `revokeRefreshToken`. -/
def revokeRefreshToken (userId : UserId) : TokenProg Unit := ask (.redisDel userId.text)

end TokenService

open TokenService

/-! ## The system -/

/-- A call of `TokenService`. -/
inductive TokenCall
  | generateTokens (user : TokenService.User)
  | verifyRefreshToken (incomingRefreshToken : String)
  | revokeRefreshToken (userId : UserId)
deriving DecidableEq

/-- What a call returns. -/
inductive TokenResult
  | tokens (tokens : Tokens)
  | userId (userId : String)
  | void
deriving DecidableEq

/-- The program of a call. -/
def TokenCall.program : TokenCall → TokenProg TokenResult
  | generateTokens user => do return .tokens (← TokenService.generateTokens user)
  | verifyRefreshToken token => do return .userId (← TokenService.verifyRefreshToken token)
  | revokeRefreshToken userId => do
      TokenService.revokeRefreshToken userId
      return .void

/-- The state: what the calls share, and the calls. -/
abbrev TokenSys :=
  Pool TokenStore TokenCall TokenEffect TokenEffect.Resp TokenError TokenResult

/-- One step. -/
inductive TokenAction
  /-- Call `i` is made. -/
  | invoke (i : ℕ) (call : TokenCall)
  /-- Call `i` performs its next effect. -/
  | exec (i : ℕ) (ch : TokenChoice)
  /-- The next effect of call `i` fails. -/
  | fail (i : ℕ)
  /-- Time passes. -/
  | pass (seconds : ℕ)
deriving DecidableEq

namespace TokenSys

/-- The effect call `i` performs next. -/
def next (s : TokenSys) (i : ℕ) : Option TokenEffect :=
  match s.threads.lookup i with
  | some ⟨_, .op e _⟩ => some e
  | _ => none

/-- The call number `i`. -/
def call (s : TokenSys) (i : ℕ) : Option TokenCall := (s.threads.lookup i).map Thread.call

end TokenSys

/-- What `randomBytes` draws is new, and is hexadecimal: it has no dot and is not empty. -/
def TokenStore.Draws (s : TokenStore) (hex : String) : Prop :=
  hex ∉ s.drawn ∧ '.' ∉ hex.toList ∧ hex ≠ ""

instance (s : TokenStore) (hex : String) : Decidable (s.Draws hex) :=
  inferInstanceAs (Decidable (_ ∧ _ ∧ _))

/-- The successor of a state under an action. -/
def tokenStep (crypto : Crypto) (s : TokenSys) : TokenAction → Option TokenSys
  | .invoke i call => s.spawn i call call.program
  | .exec i ch =>
      match s.next i with
      | some (.randomBytes _) =>
          if s.shared.Draws ch.hex then s.advance (tokenMachine crypto) i ch else none
      | _ => s.advance (tokenMachine crypto) i ch
  | .fail i => s.interrupt .Unavailable i
  | .pass seconds => some { s with shared := s.shared.pass seconds }

/-- No token was ever drawn or kept, and no call made. -/
structure TokenSys.Initial (s : TokenSys) : Prop where
  redis : ∀ userId, s.shared.redis userId = none
  drawn : s.shared.drawn = []
  threads : s.threads = ∅

/-- **The calls of `TokenService`**, in any order. -/
def tokenSystem (crypto : Crypto) : Transition.System TokenSys TokenAction where
  Init := TokenSys.Initial
  step := tokenStep crypto

end LogisticsDispatch
