/-
Signing in: `login`, `loginWithGoogle` and `refreshTokens` of `AuthService`, beside the methods that
write to `users`, and the system of all these calls made one at a time.

The three end in `generateTokens` of `TokenService`. Of the guard in front of `refreshTokens`
nothing is taken for granted: it may hand over any user. What is kept in Redis is only written
here, so that it expires does not matter.
-/
import LogisticsDispatch.Lib.OneAtATime
import LogisticsDispatch.AccountServices

set_option autoImplicit false

namespace LogisticsDispatch

open Accounts Resumable

/-! ## Effects -/

/-- One call of the services to the outside. -/
inductive AuthEffect
  | account (e : AccountEffect)
  | token (e : TokenEffect)
  -- `findOneBy({ googleId })`, and `createQueryBuilder('user')` with `addSelect`, by an email
  | findOneByGoogleId (googleId : String)
  | getOneByEmail (email : String) (addSelect : List Column)
deriving DecidableEq

/-- What an effect answers with. -/
@[reducible] def AuthEffect.Resp : AuthEffect → Type
  | account e => e.Resp
  | token e => e.Resp
  | findOneByGoogleId _ => Option User
  | getOneByEmail _ _ => Option User

/-- A program of the services. -/
abbrev AuthProg (α : Type) := Program AuthEffect AuthEffect.Resp AccountError α

/-- What the calls share: the tables and the clock, and what is kept in Redis. -/
structure AuthStore where
  accounts : AccountStore
  tokens : TokenStore

/-- What `TokenService` throws, as its caller throws it. -/
def TokenError.thrown : TokenError → AccountError
  | UnauthorizedException message => .UnauthorizedException message
  | Unavailable => .Unavailable

/-- Perform one effect. -/
def AuthStore.perform (pl : Platform) (ch : AccountChoice) :
    (e : AuthEffect) → AuthStore → Except AccountError e.Resp × AuthStore
  | .account e, s =>
      let res := AccountStore.perform pl ch e s.accounts
      (res.1, { s with accounts := res.2 })
  | .token (.findDriverProfile userId), s =>
      (.ok ((s.accounts.drivers.toList.find? fun profile => decide (profile.userId = userId)).map
        fun profile => profile.id), s)
  | .token e, s =>
      let res := TokenStore.perform pl.crypto ⟨ch.hex, ch.salt, none⟩ e s.tokens
      (res.1.mapError TokenError.thrown, { s with tokens := res.2 })
  | .findOneByGoogleId googleId, s =>
      (.ok ((s.accounts.users.toList.find? fun row =>
        decide (row.googleId = some googleId)).map (UserRow.load [])), s)
  | .getOneByEmail email addSelect, s =>
      (.ok ((s.accounts.users.toList.find? fun row =>
        decide (row.email = email)).map (UserRow.load addSelect)), s)

/-- The machine the calls run on. -/
def authMachine (pl : Platform) :
    Machine AuthEffect AuthEffect.Resp AccountError AuthStore AccountChoice where
  exec := AuthStore.perform pl

/-! ## The methods -/

/-- `LoginDto`. -/
structure LoginDto where
  email : String
  password : String
deriving DecidableEq

/-- `GoogleAuthUser`. -/
structure GoogleAuthUser where
  googleId : String
  email : String
  name : String
  emailVerified : Bool
deriving DecidableEq

namespace SignIn.AuthService

open Accounts.AuthService

variable (pl : Platform)

/-- Ask for one effect. -/
def request (e : AuthEffect) : AuthProg e.Resp := Program.perform e

/-- A program of the account side. -/
def ofAccounts {α : Type} (p : AccountProg α) : AuthProg α :=
  p.lift .account (fun _ r => r) id

/-- A program of `TokenService`. -/
def ofTokens {α : Type} (p : TokenProg α) : AuthProg α :=
  p.lift .token (fun _ r => r.mapError fun _ => .Unavailable) TokenError.thrown

/-- What the three methods end in: `generateTokens`, and the response with the tokens. -/
def tokensFor (user : User) : AuthProg AuthResponse := do
  let tokens ← ofTokens (TokenService.generateTokens ⟨user.id, user.email, user.role⟩)
  return { user := sanitizeUser user, accessToken := some tokens.accessToken
           refreshToken := some tokens.refreshToken, emailVerificationRequired := none }

/-- `login`. -/
def login (dto : LoginDto) : AuthProg AuthResponse := do
  let normalizedEmail := pl.normalise dto.email
  match ← request (.getOneByEmail normalizedEmail [.passwordHash]) with
  | none => throw (.UnauthorizedException "Invalid email or password")
  | some user =>
    match user.passwordHash.join.filter (· ≠ "") with
    | none => throw (.UnauthorizedException "Invalid email or password")
    | some passwordHash =>
      if user.provider ≠ .LOCAL then
        throw (.UnauthorizedException "Invalid email or password")
      else if !(← request (.account (.verifyHash passwordHash dto.password))) then
        throw (.UnauthorizedException "Invalid email or password")
      else if !user.isEmailVerified then
        throw (.UnauthorizedException "Please verify your email first")
      else tokensFor user

/-- The user with the email of a Google user whose Google id no user has, linked to it, or a new
user. -/
def linkedUser (googleUser : GoogleAuthUser) : AuthProg User := do
  match ← ofAccounts (UsersService.findByEmail pl googleUser.email) with
  | some existingUserByEmail =>
      if existingUserByEmail.provider = .LOCAL then
        throw (.ConflictException "Email is already registered with password login")
      else do
        let emailVerifiedAt ← match existingUserByEmail.emailVerifiedAt with
          | some verifiedAt => pure (some verifiedAt)
          | none => do
              let now ← request (.account .now)
              pure (some now)
        request (.account (.save { existingUserByEmail with
          googleId := some googleUser.googleId
          provider := .GOOGLE
          name := if googleUser.name = "" then existingUserByEmail.name else googleUser.name
          isEmailVerified := true
          emailVerifiedAt }))
  | none => do
      let now ← request (.account .now)
      request (.account (.insert
        { name := googleUser.name, email := pl.normalise googleUser.email, passwordHash := none
          googleId := some googleUser.googleId, role := .CUSTOMER, provider := .GOOGLE
          isEmailVerified := true, emailVerifiedAt := some now }))

/-- `loginWithGoogle`. -/
def loginWithGoogle (googleUser : GoogleAuthUser) : AuthProg AuthResponse := do
  if !googleUser.emailVerified then
    throw (.UnauthorizedException "Google email is not verified")
  else
    match ← request (.findOneByGoogleId googleUser.googleId) with
    | some user => tokensFor user
    | none => do
        let user ← linkedUser pl googleUser
        tokensFor user

/-- `refreshTokens`. -/
def refreshTokens (user : JwtUser) : AuthProg AuthResponse := do
  match ← request (.account (.findOneBy user.userId)) with
  | none => throw (.UnauthorizedException "User no longer exists")
  | some dbUser =>
      if !dbUser.isEmailVerified then
        throw (.UnauthorizedException "Email verification required")
      else tokensFor dbUser

end SignIn.AuthService

/-! ## The system -/

open SignIn.AuthService

/-- A call. -/
inductive AuthCall
  | account (call : AccountCall)
  | login (dto : LoginDto)
  | loginWithGoogle (googleUser : GoogleAuthUser)
  | refreshTokens (user : JwtUser)
deriving DecidableEq

/-- The program of a call. -/
def AuthCall.program (pl : Platform) : AuthCall → AuthProg AccountResult
  | account call => ofAccounts (call.program pl)
  | login dto => return .auth (← SignIn.AuthService.login pl dto)
  | loginWithGoogle googleUser =>
      return .auth (← SignIn.AuthService.loginWithGoogle pl googleUser)
  | refreshTokens user => return .auth (← SignIn.AuthService.refreshTokens user)

/-- The state: what the calls share, and the calls. -/
abbrev AuthSys :=
  Pool AuthStore AuthCall AuthEffect AuthEffect.Resp AccountError AccountResult

/-- One step. -/
inductive AuthAction
  /-- Call `i` is made, where no other is under way. -/
  | invoke (i : ℕ) (call : AuthCall)
  /-- The call under way performs its next effect. -/
  | exec (i : ℕ) (ch : AccountChoice)
  /-- Its next effect fails. -/
  | fail (i : ℕ)
  /-- Time passes. -/
  | pass (ms : ℕ)
deriving DecidableEq

namespace AuthSys

/-- The effect call `i` performs next. -/
def next (s : AuthSys) (i : ℕ) : Option AuthEffect :=
  match s.threads.lookup i with
  | some ⟨_, .op e _⟩ => some e
  | _ => none

/-- The call number `i`. -/
def call (s : AuthSys) (i : ℕ) : Option AuthCall := (s.threads.lookup i).map Thread.call

/-- A row of `users`. -/
def user (s : AuthSys) (id : UserId) : Option UserRow := s.shared.accounts.users.find id

/-- Call `i` has returned a result. -/
def Returned (s : AuthSys) (i : ℕ) (call : AuthCall) (result : AccountResult) : Prop :=
  s.threads.lookup i = some ⟨call, .ret result⟩

end AuthSys

/-- The successor of a state under an action. -/
def authStep (pl : Platform) (s : AuthSys) : AuthAction → Option AuthSys
  | .invoke i call => if s.quietb then s.spawn i call (call.program pl) else none
  | .exec i ch => s.advance (authMachine pl) i ch
  | .fail i => s.interrupt .Unavailable i
  | .pass ms => some { s with shared := { s.shared with accounts :=
      { s.shared.accounts with clock := s.shared.accounts.clock + ms } } }

/-- There is no user yet, and no call was made. -/
structure AuthSys.Initial (s : AuthSys) : Prop where
  users : ∀ id, s.user id = none
  threads : s.threads = ∅

/-- **The calls of the services**, one at a time. -/
def signIns (pl : Platform) : Transition.System AuthSys AuthAction where
  Init := AuthSys.Initial
  step := authStep pl

end LogisticsDispatch
