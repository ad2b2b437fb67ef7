/-
The HTTP side: what becomes of a request.

A request is routed, its guards run one after the other, the pipes check its parameters and its
body, and then the method of the controller is entered, which calls a service. The guards and the
services ask for effects, so other requests may come between any two of them: `JwtAuthGuard` reads
the user's row anew each time it runs.

Entering a method is an effect too, one that does nothing. Behind the methods of `AuthController`
and `UsersController` are the services of `SignIn.lean`; what `OrdersController`,
`DriversController` and `findAll` of `UsersController` call is elsewhere in the model.

A token is verified where it is the signature of a payload that was signed here, unless it has
expired. Who comes back from Google is left open.
-/
import LogisticsDispatch.Endpoints
import LogisticsDispatch.SignIn

set_option autoImplicit false

namespace LogisticsDispatch

open Accounts SignIn Resumable

/-! ## Requests -/

/-- A body that the `ValidationPipe` has accepted, as what it was transformed to. -/
inductive Dto
  | register (dto : RegisterDto)
  | login (dto : LoginDto)
  | verifyEmail (token : String)
  | email (email : String)
  | resetPassword (dto : ResetPasswordDto)
  | updateUser (name : String)
  | promoteToDriver (dto : PromoteToDriverDto)
deriving DecidableEq

/-- A request. -/
structure HttpRequest where
  /-- Requests are numbered as they come in. -/
  number : ℕ
  method : String
  path : String
  /-- The header `authorization`. -/
  authorization : Option String
  /-- `cookies?.refreshToken`. -/
  cookie : Option String
  body : Option Json
  /-- What the `ValidationPipe` makes of the body, if it accepts it. -/
  dto : Option Dto
  /-- `token` of the query. -/
  queryToken : Option String

/-- What is left to Express: `decodeURIComponent`. -/
structure Express where
  decode : String → Option String
  /-- A text without a per cent sign decodes to itself. -/
  decode_plain : ∀ text, '%' ∉ text.toList → decode text = some text

namespace HttpRequest

variable (req : HttpRequest)

def target : Target := ⟨req.method, pathSegments req.path⟩

/-- The words of a header. -/
def words (header : String) : List String :=
  ((header.toList.splitOnP isWhiteSpace).filter fun word => decide (word ≠ [])).map String.ofList

/-- `ExtractJwt.fromAuthHeaderAsBearerToken`. -/
def bearerToken : Option String :=
  match req.authorization.map words with
  | some (scheme :: token :: _) => if foldCase scheme = "bearer".toList then some token else none
  | _ => none

/-- What `RefreshStrategy` takes from the header. -/
def bearerOfRefresh : Option String :=
  req.authorization.bind fun header =>
    if "Bearer ".toList.isPrefixOf header.toList then some (String.ofList (header.toList.drop 7))
    else none

/-- `req.cookies?.refreshToken ?? req.body?.refresh_token ?? bearerToken`. -/
def refreshToken : Option Json :=
  ((req.cookie.map Json.str).or
    ((req.body.bind (Json.get "refresh_token")).filter fun value => !(value matches .null))).or
      (req.bearerOfRefresh.map Json.str)

end HttpRequest

/-- A profile that Google hands over. -/
structure GoogleProfile where
  id : String
  displayName : String
  /-- The emails, each with whether it is verified. -/
  emails : List (String × Bool)
  /-- `_json.email_verified`. -/
  emailVerified : Bool
deriving DecidableEq

/-- `request.user`. -/
inductive RequestUser
  | jwt (user : JwtUser)
  | google (user : GoogleAuthUser)
deriving DecidableEq

/-! ## Effects -/

/-- What a request ends with, where it fails. -/
inductive HttpError
  | NotFoundException
  | BadRequestException
  | UnauthorizedException (message : String)
  | ForbiddenException
  | ThrottlerException
  | TypeError
  /-- What a service has thrown. -/
  | thrown (err : AccountError)
deriving DecidableEq

/-- What a service is told, where an effect of it fails. -/
def HttpError.inService : HttpError → AccountError
  | thrown err => err
  | _ => .Unavailable

/-- One call to the outside. -/
inductive ApiEffect
  | auth (e : AuthEffect)
  /-- `ThrottlerGuard` counts the request, and says whether it is within the limit. -/
  | throttle
  | verifyJwt (token : String)
  | googleProfile
  /-- The method of the controller is called, with the parameters of the path and the user. -/
  | enter (handler : Handler) (params : List String) (user : Option RequestUser)
deriving DecidableEq

/-- What an effect answers with. -/
@[reducible] def ApiEffect.Resp : ApiEffect → Type
  | auth e => e.Resp
  | throttle => Bool
  | verifyJwt _ => Option JwtPayload
  | googleProfile => Option GoogleProfile
  | enter _ _ _ => Unit

/-- What becomes of a request. -/
abbrev ApiProg (α : Type) := Program ApiEffect ApiEffect.Resp HttpError α

/-- What the requests share: the tables, Redis and the clock, and the payloads that were
signed. -/
structure ApiStore where
  auth : AuthStore
  signed : List JwtPayload

/-- What a step leaves open. -/
structure ApiChoice extends AccountChoice where
  withinLimit : Bool
  payload : Option JwtPayload
  profile : Option GoogleProfile
deriving DecidableEq

/-- What is signed, if anything is. -/
def AuthEffect.signs : AuthEffect → Option JwtPayload
  | token (.signAsync payload) => some payload
  | _ => none

/-- Perform one effect. -/
def ApiStore.perform (pl : Platform) (ch : ApiChoice) :
    (e : ApiEffect) → ApiStore → Except HttpError e.Resp × ApiStore
  | .auth e, s =>
      let res := AuthStore.perform pl ch.toAccountChoice e s.auth
      (res.1.mapError .thrown, { auth := res.2, signed := e.signs.toList ++ s.signed })
  | .throttle, s => (.ok ch.withinLimit, s)
  | .verifyJwt token, s =>
      (.ok (ch.payload.filter fun payload =>
        decide (payload ∈ s.signed) && decide (pl.crypto.sign payload = token)), s)
  | .googleProfile, s => (.ok ch.profile, s)
  | .enter _ _ _, s => (.ok (), s)

/-- The machine the requests run on. -/
def apiMachine (pl : Platform) :
    Machine ApiEffect ApiEffect.Resp HttpError ApiStore ApiChoice where
  exec := ApiStore.perform pl

/-- Ask for one effect. -/
def demand (e : ApiEffect) : ApiProg e.Resp := Program.perform e

/-- A program of the services. -/
def ofServices {α : Type} (p : AuthProg α) : ApiProg α :=
  p.lift .auth (fun _ r => r.mapError HttpError.inService) HttpError.thrown

/-! ## Strategies -/

/-- `JwtStrategy.validate`. -/
def JwtStrategy.validate (payload : JwtPayload) : ApiProg JwtUser := do
  match ← demand (.auth (.account (.findOneBy payload.sub))) with
  | none => throw (.UnauthorizedException "Invalid User")
  | some user =>
      if !user.isEmailVerified then
        throw (.UnauthorizedException "Please verify your email first")
      else return ⟨user.id, user.role, payload.driverProfileId⟩

/-- `RefreshStrategy.validate`, of the token that was found. -/
def RefreshStrategy.validateToken (pl : Platform) (refreshToken : String) : ApiProg JwtUser := do
  let userId ← ofServices (AuthService.ofTokens (TokenService.verifyRefreshToken refreshToken))
  match pl.toUuid userId with
  | none => throw (.thrown .QueryFailedError)
  | some id =>
      match ← demand (.auth (.account (.findOneBy id))) with
      | none => throw (.UnauthorizedException "User does not exists!")
      | some user =>
          if !user.isEmailVerified then
            throw (.UnauthorizedException "Please verify your email first")
          else do
            let driverProfileId ← ofServices (AuthService.ofTokens
              (TokenService.resolveDriverProfileId user.id user.role))
            return ⟨user.id, user.role, driverProfileId⟩

/-- `RefreshStrategy.validate`. -/
def RefreshStrategy.validate (pl : Platform) (req : HttpRequest) : ApiProg JwtUser :=
  match req.refreshToken with
  | none => throw (.UnauthorizedException "Refresh token not found")
  | some (.str token) =>
      if token = "" then throw (.UnauthorizedException "Refresh token not found")
      else RefreshStrategy.validateToken pl token
  | some value =>
      if value.falsy then throw (.UnauthorizedException "Refresh token not found")
      else throw .TypeError

/-- `GoogleStrategy.validate`. -/
def GoogleStrategy.validate (pl : Platform) (profile : GoogleProfile) :
    Except HttpError GoogleAuthUser :=
  match (profile.emails.head?.map fun email => pl.normalise email.1).filter (· ≠ "") with
  | none => .error (.UnauthorizedException "Google account has no email")
  | some email =>
      .ok { googleId := profile.id, email
            name := if profile.displayName = "" then splitFirst '@' email else profile.displayName
            emailVerified := profile.emailVerified ||
              (profile.emails.head?.map fun email => email.2).getD false }

/-! ## Guards -/

/-- `canActivate` of `RolesGuard`. -/
def RolesGuard.canActivate (roles : Option (List UserRole)) (user : Option RequestUser) : Bool :=
  match roles with
  | none | some [] => true
  | some roles =>
      match user with
      | some (.jwt user) => decide (user.role ∈ roles)
      | _ => false

/-- A guard in front of a handler: it lets the request pass, maybe with another user, or throws. -/
def Guard.check (pl : Platform) (e : Endpoint) (req : HttpRequest) (user : Option RequestUser) :
    Guard → ApiProg (Option RequestUser)
  | ThrottlerGuard => do
      if ← demand .throttle then return user else throw .ThrottlerException
  | JwtAuthGuard => do
      if e.isPublic then return user
      else
        match req.bearerToken with
        | none => throw (.UnauthorizedException "Unauthorized")
        | some token =>
            match ← demand (.verifyJwt token) with
            | none => throw (.UnauthorizedException "Unauthorized")
            | some payload => return some (.jwt (← JwtStrategy.validate payload))
  | RolesGuard => do
      if RolesGuard.canActivate e.roles user then return user else throw .ForbiddenException
  | RefreshAuthGuard => return some (.jwt (← RefreshStrategy.validate pl req))
  | GoogleAuthGuard => do
      match ← demand .googleProfile with
      -- the browser is sent to Google, or comes back without a profile
      | none => throw (.UnauthorizedException "Unauthorized")
      | some profile =>
          return some (.google (← Program.ofExcept (GoogleStrategy.validate pl profile)))

/-! ## Handlers -/

/-- What a handler has answered. -/
inductive ApiResult
  | account (result : AccountResult)
  | message (message : String)
  | hello (message docs : String)
  /-- What the order side or a listing answers. -/
  | other
deriving DecidableEq

/-- `AuthService.logout`. -/
def AuthService.logout (user : JwtUser) : AuthProg String := do
  SignIn.AuthService.ofTokens (TokenService.revokeRefreshToken user.userId)
  return "Logged out successfully"

/-- `UsersService.getUserProfile`. -/
def UsersService.getUserProfile (id : UserId) : AuthProg UserResponse := do
  match ← SignIn.AuthService.request (.account (.findOneBy id)) with
  | none => throw (.NotFoundException "User not found")
  | some user => return toUserResponse user

/-- A call of a service, and what it returns. -/
def serving (pl : Platform) (call : AuthCall) : ApiProg ApiResult := do
  return .account (← ofServices (call.program pl))

/-- The method of a controller, called with a user and with the parameters that have passed the
pipes. A body that is not the one it takes was refused by the `ValidationPipe`. -/
def handle (pl : Platform) (req : HttpRequest) (params : List String)
    (user : Option RequestUser) (handler : Handler) : ApiProg ApiResult :=
  let enter : ApiProg Unit := demand (.enter handler params user)
  match handler with
  | .app .getHello => do
      enter
      return .hello "Hello World!" "/docs"
  | .auth .register =>
      match req.dto with
      | some (.register dto) => do
          enter
          serving pl (.account (.register dto))
      | _ => throw .BadRequestException
  | .auth .login =>
      match req.dto with
      | some (.login dto) => do
          enter
          serving pl (.login dto)
      | _ => throw .BadRequestException
  | .auth .verifyEmail =>
      match req.dto with
      | some (.verifyEmail token) => do
          enter
          serving pl (.account (.verifyEmail token))
      | _ => throw .BadRequestException
  | .auth .verifyEmailFromLink => do
      enter
      serving pl (.account (.verifyEmail (req.queryToken.getD "")))
  | .auth .resendVerificationEmail =>
      match req.dto with
      | some (.email email) => do
          enter
          serving pl (.account (.resendVerificationEmail email))
      | _ => throw .BadRequestException
  | .auth .forgotPassword =>
      match req.dto with
      | some (.email email) => do
          enter
          serving pl (.account (.forgotPassword email))
      | _ => throw .BadRequestException
  | .auth .resetPassword =>
      match req.dto with
      | some (.resetPassword dto) => do
          enter
          serving pl (.account (.resetPassword dto))
      | _ => throw .BadRequestException
  | .auth .googleLogin => do
      enter
      return .message "Redirecting to Google login"
  | .auth .googleCallback =>
      match user with
      | some (.google googleUser) => do
          enter
          serving pl (.loginWithGoogle googleUser)
      | _ => throw .TypeError
  | .auth .refresh =>
      match user with
      | some (.jwt user) => do
          enter
          serving pl (.refreshTokens user)
      | _ => throw .TypeError
  | .auth .logout =>
      match user with
      | some (.jwt user) => do
          enter
          return .message (← ofServices (AuthService.logout user))
      | _ => throw .TypeError
  | .auth .adminPing => do
      enter
      return .message "Admin access granted"
  | .users .findById => do
      enter
      match params.head?.bind pl.toUuid with
      | none => throw (.thrown .QueryFailedError)
      | some id => return .account (.user (← ofServices (UsersService.getUserProfile id)))
  | .users .getUserProfile =>
      match user with
      | some (.jwt user) => do
          enter
          return .account (.user (← ofServices (UsersService.getUserProfile user.userId)))
      | _ => throw .TypeError
  | .users .updateUsername =>
      match user with
      | some (.jwt user) =>
          match req.dto with
          | some (.updateUser name) => do
              enter
              serving pl (.account (.updateUserName user.userId name))
          | _ => throw .BadRequestException
      | _ => throw .TypeError
  | .users .promoteToDriver =>
      match req.dto with
      | some (.promoteToDriver dto) => do
          enter
          match params.head?.bind pl.toUuid with
          | none => throw (.thrown .QueryFailedError)
          | some id => serving pl (.account (.promoteToDriver id dto))
      | _ => throw .BadRequestException
  | .users .findAll | .drivers _ | .orders _ => do
      enter
      return .other

/-! ## Requests from end to end -/

/-- The segments that the parameters of a template stand for. -/
def paramsOf : List (Routing.Segment String) → List String → List String
  | .param _ :: segs, x :: xs => x :: paramsOf segs xs
  | .literal _ :: segs, _ :: xs => paramsOf segs xs
  | _, _ => []

/-- What `ParseUUIDPipe` accepts: hexadecimal digits in groups of 8, 4, 4, 4 and 12. -/
def isUUID (text : String) : Bool :=
  let groups := text.toList.splitOn '-'
  decide (groups.map List.length = [8, 4, 4, 4, 12]) &&
    groups.all fun group => group.all fun c =>
      c.isDigit || decide (c.toLower.toNat ∈ List.range' 'a'.toNat 6)

/-- The guards of a handler, in their order. -/
def runGuards (pl : Platform) (e : Endpoint) (req : HttpRequest) :
    List Guard → Option RequestUser → ApiProg (Option RequestUser)
  | [], user => return user
  | guard :: guards, user => do
      let user ← guard.check pl e req user
      runGuards pl e req guards user

/-- What becomes of a request. -/
def serve (pl : Platform) (ex : Express) (req : HttpRequest) : ApiProg ApiResult :=
  match handlerOf req.target with
  | none => throw .NotFoundException
  | some e =>
      match (paramsOf e.template req.target.path).mapM ex.decode with
      | none => throw .BadRequestException
      | some params => do
          let user ← runGuards pl e req e.guards none
          if params.all isUUID then handle pl req params user e.handler
          else throw .BadRequestException

/-! ## The system -/

/-- The state: what the requests share, and the requests. -/
abbrev ApiSys :=
  Pool ApiStore HttpRequest ApiEffect ApiEffect.Resp HttpError ApiResult

/-- One step. -/
inductive ApiAction
  /-- A request comes in. -/
  | invoke (req : HttpRequest)
  /-- Request `i` performs its next effect. -/
  | exec (i : ℕ) (ch : ApiChoice)
  /-- The next effect of request `i` fails. -/
  | fail (i : ℕ) (err : HttpError)
  /-- Time passes. -/
  | pass (ms : ℕ)
  /-- A key of Redis expires. -/
  | expire (key : String)

namespace ApiSys

/-- The effect request `i` performs next. -/
def next (s : ApiSys) (i : ℕ) : Option ApiEffect :=
  match s.threads.lookup i with
  | some ⟨_, .op e _⟩ => some e
  | _ => none

/-- The request number `i`. -/
def call (s : ApiSys) (i : ℕ) : Option HttpRequest := (s.threads.lookup i).map Thread.call

/-- A row of `users`. -/
def user (s : ApiSys) (id : UserId) : Option UserRow := s.shared.auth.accounts.users.find id

end ApiSys

/-- Some time passes. -/
def ApiStore.pass (ms : ℕ) (s : ApiStore) : ApiStore :=
  { s with auth := { s.auth with accounts :=
      { s.auth.accounts with clock := s.auth.accounts.clock + ms } } }

/-- A key of Redis expires. -/
def ApiStore.expire (key : String) (s : ApiStore) : ApiStore :=
  { s with auth := { s.auth with tokens :=
      { s.auth.tokens with redis := Function.update s.auth.tokens.redis key none } } }

/-- The successor of a state under an action. -/
def apiStep (pl : Platform) (ex : Express) (s : ApiSys) : ApiAction → Option ApiSys
  | .invoke req => s.spawn req.number req (serve pl ex req)
  | .exec i ch => s.advance (apiMachine pl) i ch
  | .fail i err => s.interrupt err i
  | .pass ms => some { s with shared := s.shared.pass ms }
  | .expire key => some { s with shared := s.shared.expire key }

/-- Whatever users and driver profiles there are. Nothing was signed yet, nothing is kept in
Redis, and no request has come in. -/
structure ApiSys.Initial (s : ApiSys) : Prop where
  redis : ∀ key, s.shared.auth.tokens.redis key = none
  signed : s.shared.signed = []
  threads : s.threads = ∅

/-- **The requests to the API**, in any order. -/
def api (pl : Platform) (ex : Express) : Transition.System ApiSys ApiAction where
  Init := ApiSys.Initial
  step := apiStep pl ex

end LogisticsDispatch
