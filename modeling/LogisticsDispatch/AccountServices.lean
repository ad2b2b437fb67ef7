/-
The methods of `AuthService` and `UsersService` that write to `users`, statement by statement,
and the system of their calls. (`promoteToDriver` is in the order side of the model too, as far
as the driver profile goes.)

Loading an entity and saving it are effects of their own, and so are hashing, drawing and
sending mail: other calls may come between any two. Log lines are left out.
-/
import LogisticsDispatch.Lib.Transition
import LogisticsDispatch.Accounts

set_option autoImplicit false

namespace LogisticsDispatch

open Resumable

/-- Ask for one effect. -/
def askFor (e : AccountEffect) : AccountProg e.Resp := Program.perform e

/-! ## Requests and answers -/

/-- `RegisterDto`. -/
structure RegisterDto where
  name : String
  email : String
  password : String
deriving DecidableEq

/-- `ResetPasswordDto`. -/
structure ResetPasswordDto where
  token : String
  password : String
deriving DecidableEq

/-- `UserResponse`. -/
structure UserResponse where
  id : UserId
  name : String
  email : String
  role : UserRole
  provider : AuthProvider
  verified : Bool
  createdAt : ℕ
  updatedAt : ℕ
deriving DecidableEq

/-- `toUserResponse`. -/
def toUserResponse (user : User) : UserResponse where
  id := user.id
  name := user.name
  email := user.email
  role := user.role
  provider := user.provider
  verified := user.isEmailVerified
  createdAt := user.createdAt
  updatedAt := user.updatedAt

/-- What `sanitizeUser` leaves of a user. -/
structure SanitizedUser where
  id : UserId
  name : String
  email : String
  role : UserRole
  provider : AuthProvider
  isEmailVerified : Bool
  emailVerifiedAt : Option ℕ
deriving DecidableEq

/-- `AuthResponse`. -/
structure AuthResponse where
  user : SanitizedUser
  accessToken : Option String
  refreshToken : Option String
  emailVerificationRequired : Option Bool
deriving DecidableEq

/-! ## `AuthService` -/

namespace Accounts.UsersService

/-- `findByEmail`. -/
def findByEmail (pl : Platform) (email : String) : AccountProg (Option User) :=
  askFor (.findOneByEmail (pl.normalise email))

end Accounts.UsersService

namespace Accounts.AuthService

open Accounts.UsersService

variable (pl : Platform)

def EMAIL_VERIFICATION_TTL_MS : ℕ := 1000 * 60 * 10

def PASSWORD_RESET_TTL_MS : ℕ := 1000 * 60 * 10

/-- `sanitizeUser`. -/
def sanitizeUser (user : User) : SanitizedUser where
  id := user.id
  name := user.name
  email := user.email
  role := user.role
  provider := user.provider
  isEmailVerified := user.isEmailVerified
  emailVerifiedAt := user.emailVerifiedAt

/-- `this.configService.get<string>('APP_BASE_URL') || 'http://localhost:3000'`. -/
def appBaseUrl : String := (pl.APP_BASE_URL.filter (· ≠ "")).getD "http://localhost:3000"

/-- `sendVerificationEmail`. -/
def sendVerificationEmail (email name verificationToken : String) : AccountProg Bool :=
  askFor (.sendMail (.emailVerification email name
    (appBaseUrl pl ++ "/auth/verify-email?token=" ++ verificationToken)))

/-- `sendPasswordResetEmail`. -/
def sendPasswordResetEmail (email name resetToken : String) : AccountProg Bool :=
  askFor (.sendMail (.passwordReset email name
    (appBaseUrl pl ++ "/auth/reset-password?token=" ++ resetToken)))

/-- A mail is sent, and what goes wrong is only logged. -/
def sendLogged (send : AccountProg Bool) : AccountProg Unit :=
  try discard send catch _ => pure ()

/-- A token of a user: `${user.id}.${hex}`. -/
def tokenOf (user : User) (hex : String) : String := user.id.text ++ "." ++ hex

/-- Both methods that create a token: it is drawn, and its hash and the date it expires at are
saved, each in its columns. The entity is edited and returned with the token. -/
def createToken (edit : User → String → ℕ → User) (ttl : ℕ) (user : User) :
    AccountProg (String × User) := do
  let rawToken := tokenOf user (← askFor (.randomBytes 32))
  let hashedToken ← askFor (.Hash rawToken)
  let now ← askFor .now
  let user ← askFor (.save (edit user hashedToken (now + ttl)))
  return (rawToken, user)

/-- `createEmailVerificationToken`. -/
def createEmailVerificationToken (user : User) : AccountProg (String × User) :=
  createToken (fun user hashedVerificationToken expiresAt => { user with
    emailVerificationTokenHash := some (some hashedVerificationToken)
    emailVerificationExpiresAt := some expiresAt }) EMAIL_VERIFICATION_TTL_MS user

/-- `createPasswordResetToken`. -/
def createPasswordResetToken (user : User) : AccountProg (String × User) :=
  createToken (fun user hashedResetToken expiresAt => { user with
    passwordResetTokenHash := some (some hashedResetToken)
    passwordResetExpiresAt := some expiresAt }) PASSWORD_RESET_TTL_MS user

/-- `register`. -/
def register (dto : RegisterDto) : AccountProg AuthResponse := do
  let email := pl.normalise dto.email
  let existingUser ← findByEmail pl email
  if existingUser.isSome then
    throw (.ConflictException "Email already in use")
  else do
    let passwordHash ← askFor (.Hash dto.password)
    let user ← askFor (.insert
      { name := dto.name, email, passwordHash := some passwordHash, googleId := none
        role := .CUSTOMER, provider := .LOCAL, isEmailVerified := false
        emailVerifiedAt := none })
    let (verificationToken, user) ← createEmailVerificationToken user
    sendLogged (sendVerificationEmail pl user.email user.name verificationToken)
    return { user := sanitizeUser user, accessToken := none, refreshToken := none
             emailVerificationRequired := some true }

/-- The id that a token begins with: `rawToken.split('.', 1)`. -/
def ownerOf (rawToken : String) : String :=
  String.ofList (rawToken.toList.takeWhile (· ≠ '.'))

/-- `verifyEmail`. -/
def verifyEmail (token : String) : AccountProg String := do
  let rawToken := trim token
  let tokenOwnerUserId := ownerOf rawToken
  if rawToken = "" ∨ tokenOwnerUserId = "" then
    throw (.UnauthorizedException "Invalid verification token")
  else
    match ← askFor (.getOne tokenOwnerUserId [.emailVerificationTokenHash]) with
    | none => throw (.UnauthorizedException "Invalid verification token")
    | some user =>
      if user.isEmailVerified then return "Email is already verified"
      else
        match user.emailVerificationTokenHash.join.filter (· ≠ ""),
            user.emailVerificationExpiresAt with
        | some hash, some expiresAt => do
            if expiresAt < (← askFor .now) then
              throw (.UnauthorizedException "Verification token has expired")
            else if !(← askFor (.verifyHash hash rawToken)) then
              throw (.UnauthorizedException "Invalid verification token")
            else do
              let now ← askFor .now
              let _ ← askFor (.save { user with
                isEmailVerified := true
                emailVerifiedAt := some now
                emailVerificationTokenHash := some none
                emailVerificationExpiresAt := none })
              return "Email verified successfully"
        | _, _ => throw (.UnauthorizedException "Invalid verification token")

/-- `resendVerificationEmail`. -/
def resendVerificationEmail (email : String) : AccountProg String := do
  let genericResponseMessage :=
    "If an account exists for this email, a verification email has been sent."
  match (← findByEmail pl (pl.normalise email)).filter fun user => !user.isEmailVerified with
  | none => return genericResponseMessage
  | some user => do
      let (verificationToken, user) ← createEmailVerificationToken user
      sendLogged (sendVerificationEmail pl user.email user.name verificationToken)
      return genericResponseMessage

/-- `forgotPassword`. -/
def forgotPassword (email : String) : AccountProg String := do
  let genericResponseMessage :=
    "If an account exists for this email, a password reset email has been sent."
  match (← findByEmail pl email).filter fun user => user.provider = .LOCAL with
  | none => return genericResponseMessage
  | some user => do
      let (resetToken, user) ← createPasswordResetToken user
      sendLogged (sendPasswordResetEmail pl user.email user.name resetToken)
      return genericResponseMessage

/-- `resetPassword`. -/
def resetPassword (dto : ResetPasswordDto) : AccountProg String := do
  let rawToken := trim dto.token
  let tokenOwnerUserId := ownerOf rawToken
  if rawToken = "" ∨ tokenOwnerUserId = "" then
    throw (.UnauthorizedException "Invalid reset token")
  else
    match ← askFor (.getOne tokenOwnerUserId [.passwordResetTokenHash, .passwordHash]) with
    | none => throw (.UnauthorizedException "Invalid reset token")
    | some user =>
      match user.passwordResetTokenHash.join.filter (· ≠ ""), user.passwordResetExpiresAt with
      | some hash, some expiresAt => do
          if expiresAt < (← askFor .now) then
            throw (.UnauthorizedException "Reset token has expired")
          else if !(← askFor (.verifyHash hash rawToken)) then
            throw (.UnauthorizedException "Invalid reset token")
          else do
            let passwordHash ← askFor (.Hash dto.password)
            let _ ← askFor (.save { user with
              passwordHash := some (some passwordHash)
              passwordResetTokenHash := some none
              passwordResetExpiresAt := none })
            return "Password reset successfully"
      | _, _ => throw (.UnauthorizedException "Invalid reset token")

end Accounts.AuthService

/-! ## `UsersService` -/

namespace Accounts.UsersService

/-- `updateUserName`. -/
def updateUserName (id : UserId) (name : String) : AccountProg UserResponse := do
  match ← askFor (.findOneBy id) with
  | none => throw (.NotFoundException "User not found")
  | some user => do
      let updated ← askFor (.save { user with name })
      return toUserResponse updated

/-- `promoteToDriver`. -/
def promoteToDriver (userId : UserId) (dto : PromoteToDriverDto) : AccountProg UserResponse := do
  match ← askFor (.findOneBy userId) with
  | none => throw (.NotFoundException "User not found")
  | some user =>
      if user.role = .DRIVER then throw (.ConflictException "User is already a driver")
      else if user.role = .ADMIN then
        throw (.UnprocessableEntityException "Cannot promote an admin to driver")
      else
        match ← askFor (.promotion userId dto) with
        -- `updated!`
        | none => throw .TypeError
        | some updated => return toUserResponse updated

end Accounts.UsersService

/-! ## The system -/

open Accounts

/-- A call of one of the two services. -/
inductive AccountCall
  | register (dto : RegisterDto)
  | verifyEmail (token : String)
  | resendVerificationEmail (email : String)
  | forgotPassword (email : String)
  | resetPassword (dto : ResetPasswordDto)
  | updateUserName (id : UserId) (name : String)
  | promoteToDriver (userId : UserId) (dto : PromoteToDriverDto)
deriving DecidableEq

/-- What a call returns. -/
inductive AccountResult
  | auth (response : AuthResponse)
  | message (message : String)
  | user (response : UserResponse)
deriving DecidableEq

/-- The program of a call. -/
def AccountCall.program (pl : Platform) : AccountCall → AccountProg AccountResult
  | register dto => return .auth (← AuthService.register pl dto)
  | verifyEmail token => return .message (← AuthService.verifyEmail token)
  | resendVerificationEmail email =>
      return .message (← AuthService.resendVerificationEmail pl email)
  | forgotPassword email => return .message (← AuthService.forgotPassword pl email)
  | resetPassword dto => return .message (← AuthService.resetPassword dto)
  | updateUserName id name => return .user (← Accounts.UsersService.updateUserName id name)
  | promoteToDriver userId dto => return .user (← Accounts.UsersService.promoteToDriver userId dto)

/-- The state: what the calls share, and the calls. -/
abbrev AccountSys :=
  Pool AccountStore AccountCall AccountEffect AccountEffect.Resp AccountError AccountResult

/-- One step. -/
inductive AccountAction
  /-- Call `i` is made. -/
  | invoke (i : ℕ) (call : AccountCall)
  /-- Call `i` performs its next effect. -/
  | exec (i : ℕ) (ch : AccountChoice)
  /-- The next effect of call `i` fails. -/
  | fail (i : ℕ)
  /-- Time passes. -/
  | pass (ms : ℕ)
deriving DecidableEq

namespace AccountSys

/-- The effect call `i` performs next. -/
def next (s : AccountSys) (i : ℕ) : Option AccountEffect :=
  match s.threads.lookup i with
  | some ⟨_, .op e _⟩ => some e
  | _ => none

/-- The call number `i`. -/
def call (s : AccountSys) (i : ℕ) : Option AccountCall := (s.threads.lookup i).map Thread.call

/-- A row of `users`. -/
def user (s : AccountSys) (id : UserId) : Option UserRow := s.shared.users.find id

/-- The user has a driver profile. -/
def HasProfile (s : AccountSys) (id : UserId) : Prop :=
  ∃ profile ∈ s.shared.drivers.toList, profile.userId = id

end AccountSys

/-- The successor of a state under an action. -/
def accountStep (pl : Platform) (s : AccountSys) : AccountAction → Option AccountSys
  | .invoke i call => s.spawn i call (call.program pl)
  | .exec i ch => s.advance (accountMachine pl) i ch
  | .fail i => s.interrupt .Unavailable i
  | .pass ms => some { s with shared := { s.shared with clock := s.shared.clock + ms } }

/-- Emails are in their normal form, a driver profile belongs to a user, and a user who is no
admin is a driver exactly where there is one. -/
structure AccountStore.InOrder (pl : Platform) (s : AccountStore) : Prop where
  email : ∀ id row, s.users.find id = some row → pl.normalise row.email = row.email
  owner : ∀ profile ∈ s.drivers.toList, (s.users.find profile.userId).isSome
  drivers : ∀ id row, s.users.find id = some row → row.role ≠ .ADMIN →
    (row.role = .DRIVER ↔ ∃ profile ∈ s.drivers.toList, profile.userId = id)

/-- Whatever users there are, with their tables in order; no call was made. -/
structure AccountSys.Initial (pl : Platform) (s : AccountSys) : Prop where
  inOrder : s.shared.InOrder pl
  threads : s.threads = ∅

/-- **The calls of the two services**, in any order. -/
def accounts (pl : Platform) : Transition.System AccountSys AccountAction where
  Init := AccountSys.Initial pl
  step := accountStep pl

end LogisticsDispatch
