/-
The accounts of users: `AuthService` and `UsersService`, as far as they write to `users`.

Every method but `promoteToDriver` writes in one way: it loads an entity, edits a few of its
columns, and hands the entity to `Repository.save`, which writes each column that was loaded and
differs from the row as it is by then. A column with `select: false` is loaded only where
`addSelect` asks for it. `promoteToDriver` writes in a transaction; the row of the user is locked
in it from its first statement on, so the transaction is one step.

`argon2` is `Crypto`; what else is left to Node and to Postgres is `Platform`. No user is ever
deleted.
-/
import Mathlib.Data.List.DropRight
import LogisticsDispatch.Lib.Columns
import LogisticsDispatch.Tokens

set_option autoImplicit false

namespace LogisticsDispatch

open Resumable

/-! ## Users -/

/-- `AuthProvider`. -/
inductive AuthProvider
  | LOCAL | GOOGLE
deriving DecidableEq

/-- A row of `users`. -/
structure UserRow where
  id : UserId
  name : String
  email : String
  passwordHash : Option String
  role : UserRole
  googleId : Option String
  provider : AuthProvider
  isEmailVerified : Bool
  emailVerificationTokenHash : Option String
  emailVerificationExpiresAt : Option ℕ
  emailVerifiedAt : Option ℕ
  passwordResetTokenHash : Option String
  passwordResetExpiresAt : Option ℕ
  createdAt : ℕ
  updatedAt : ℕ
deriving DecidableEq

/-- A column of `users`, but for the key. -/
inductive Column
  | name | email | passwordHash | role | googleId | provider | isEmailVerified
  | emailVerificationTokenHash | emailVerificationExpiresAt | emailVerifiedAt
  | passwordResetTokenHash | passwordResetExpiresAt | createdAt | updatedAt
deriving DecidableEq

/-- What a column has for values. -/
@[reducible] def Column.Value : Column → Type
  | name | email => String
  | passwordHash | googleId | emailVerificationTokenHash | passwordResetTokenHash => Option String
  | role => UserRole
  | provider => AuthProvider
  | isEmailVerified => Bool
  | emailVerificationExpiresAt | emailVerifiedAt | passwordResetExpiresAt => Option ℕ
  | createdAt | updatedAt => ℕ

/-- The columns with `select: false`. -/
def Column.hidden : List Column :=
  [passwordHash, emailVerificationTokenHash, passwordResetTokenHash]

/-- The value in a column. -/
def UserRow.get (row : UserRow) : (c : Column) → c.Value
  | .name => row.name
  | .email => row.email
  | .passwordHash => row.passwordHash
  | .role => row.role
  | .googleId => row.googleId
  | .provider => row.provider
  | .isEmailVerified => row.isEmailVerified
  | .emailVerificationTokenHash => row.emailVerificationTokenHash
  | .emailVerificationExpiresAt => row.emailVerificationExpiresAt
  | .emailVerifiedAt => row.emailVerifiedAt
  | .passwordResetTokenHash => row.passwordResetTokenHash
  | .passwordResetExpiresAt => row.passwordResetExpiresAt
  | .createdAt => row.createdAt
  | .updatedAt => row.updatedAt

/-- The entity `User`. A column with `select: false` is `none` where it was not selected. -/
structure User where
  id : UserId
  name : String
  email : String
  passwordHash : Option (Option String)
  role : UserRole
  googleId : Option String
  provider : AuthProvider
  isEmailVerified : Bool
  emailVerificationTokenHash : Option (Option String)
  emailVerificationExpiresAt : Option ℕ
  emailVerifiedAt : Option ℕ
  passwordResetTokenHash : Option (Option String)
  passwordResetExpiresAt : Option ℕ
  createdAt : ℕ
  updatedAt : ℕ
deriving DecidableEq

/-- The value of a column, where the column was loaded. -/
def User.get (user : User) : Columns.Copy Column.Value
  | .name => some user.name
  | .email => some user.email
  | .passwordHash => user.passwordHash
  | .role => some user.role
  | .googleId => some user.googleId
  | .provider => some user.provider
  | .isEmailVerified => some user.isEmailVerified
  | .emailVerificationTokenHash => user.emailVerificationTokenHash
  | .emailVerificationExpiresAt => some user.emailVerificationExpiresAt
  | .emailVerifiedAt => some user.emailVerifiedAt
  | .passwordResetTokenHash => user.passwordResetTokenHash
  | .passwordResetExpiresAt => some user.passwordResetExpiresAt
  | .createdAt => some user.createdAt
  | .updatedAt => some user.updatedAt

/-- The entity that is loaded from a row. -/
def UserRow.load (addSelect : List Column) (row : UserRow) : User where
  id := row.id
  name := row.name
  email := row.email
  passwordHash := if .passwordHash ∈ addSelect then some row.passwordHash else none
  role := row.role
  googleId := row.googleId
  provider := row.provider
  isEmailVerified := row.isEmailVerified
  emailVerificationTokenHash :=
    if .emailVerificationTokenHash ∈ addSelect then some row.emailVerificationTokenHash else none
  emailVerificationExpiresAt := row.emailVerificationExpiresAt
  emailVerifiedAt := row.emailVerifiedAt
  passwordResetTokenHash :=
    if .passwordResetTokenHash ∈ addSelect then some row.passwordResetTokenHash else none
  passwordResetExpiresAt := row.passwordResetExpiresAt
  createdAt := row.createdAt
  updatedAt := row.updatedAt

/-- The row with the columns of the entity that were loaded. -/
def UserRow.merge (row : UserRow) (user : User) : UserRow where
  id := row.id
  name := user.name
  email := user.email
  passwordHash := user.passwordHash.getD row.passwordHash
  role := user.role
  googleId := user.googleId
  provider := user.provider
  isEmailVerified := user.isEmailVerified
  emailVerificationTokenHash := user.emailVerificationTokenHash.getD row.emailVerificationTokenHash
  emailVerificationExpiresAt := user.emailVerificationExpiresAt
  emailVerifiedAt := user.emailVerifiedAt
  passwordResetTokenHash := user.passwordResetTokenHash.getD row.passwordResetTokenHash
  passwordResetExpiresAt := user.passwordResetExpiresAt
  createdAt := user.createdAt
  updatedAt := user.updatedAt

theorem UserRow.get_merge (row : UserRow) (user : User) (c : Column) :
    (row.merge user).get c = Columns.save user.get row.get c := by
  cases c <;> rfl

/-- What `userRepo.create` is given. -/
structure NewUser where
  name : String
  email : String
  passwordHash : Option String
  googleId : Option String
  role : UserRole
  provider : AuthProvider
  isEmailVerified : Bool
  emailVerifiedAt : Option ℕ
deriving DecidableEq

/-- A row of `drivers`, with the columns that only a promotion writes. -/
structure DriverProfile extends Driver where
  licenseNumber : String
  rating : ℚ
deriving DecidableEq

/-! ## Node and Postgres -/

/-- A character that `trim` removes: white space or the end of a line. -/
def isWhiteSpace (c : Char) : Bool :=
  c.toNat ∈ [0x09, 0x0a, 0x0b, 0x0c, 0x0d, 0x20, 0xa0, 0x1680, 0x2028, 0x2029, 0x202f, 0x205f,
    0x3000, 0xfeff] || (0x2000 ≤ c.toNat && c.toNat ≤ 0x200a)

/-- `trim`. -/
def trim (s : String) : String :=
  String.ofList ((s.toList.dropWhile isWhiteSpace).rdropWhile isWhiteSpace)

/-- What is left to Node, to Postgres and to the configuration. -/
structure Platform where
  crypto : Crypto
  /-- `toLowerCase`. Its table is left open: a part of what is in lower case is in lower case. -/
  toLowerCase : String → String
  lower_part : ∀ x part, part <:+: (toLowerCase x).toList →
    toLowerCase (String.ofList part) = String.ofList part
  /-- The uuid that Postgres takes a query parameter for, if it takes it for one. -/
  toUuid : String → Option UserId
  APP_BASE_URL : Option String

/-- `email.toLowerCase().trim()`. -/
def Platform.normalise (pl : Platform) (email : String) : String := trim (pl.toLowerCase email)

theorem trim_part (s : String) : (trim s).toList <:+: s.toList := by
  rw [trim, String.toList_ofList]
  exact (List.rdropWhile_prefix isWhiteSpace _).isInfix.trans (List.dropWhile_suffix _).isInfix

/-- Trimming once is enough. -/
theorem trim_trim (s : String) : trim (trim s) = trim s := by
  rw [trim, trim, String.toList_ofList]
  congr 1
  have hl := List.dropWhile_idempotent isWhiteSpace s.toList
  generalize s.toList.dropWhile isWhiteSpace = l at hl ⊢
  -- what is left begins as `l` does, with no white space
  have hfront : (l.rdropWhile isWhiteSpace).dropWhile isWhiteSpace
      = l.rdropWhile isWhiteSpace := by
    obtain ⟨rest, hrest⟩ := List.rdropWhile_prefix isWhiteSpace l
    cases hkept : l.rdropWhile isWhiteSpace with
    | nil => rfl
    | cons c kept =>
        rw [hkept] at hrest
        rw [← hrest, List.cons_append, List.dropWhile_eq_self_iff] at hl
        have hc : ¬ isWhiteSpace c = true := hl (Nat.succ_pos _)
        exact List.dropWhile_cons_of_neg hc
  rw [hfront]
  exact List.rdropWhile_idempotent isWhiteSpace l

/-- An email that was normalised is in its normal form. -/
theorem Platform.normalise_normalise (pl : Platform) (email : String) :
    pl.normalise (pl.normalise email) = pl.normalise email := by
  have hlower := pl.lower_part email _ (trim_part (pl.toLowerCase email))
  rw [String.ofList_toList] at hlower
  rw [normalise, normalise, hlower, trim_trim]

/-! ## Effects -/

/-- What a call of the two services throws. -/
inductive AccountError
  | ConflictException (message : String)
  | UnauthorizedException (message : String)
  | NotFoundException (message : String)
  | UnprocessableEntityException (message : String)
  | QueryFailedError
  | TypeError
  | Unavailable
deriving DecidableEq

/-- A mail that is sent. -/
inductive Mail
  | emailVerification (email name verificationUrl : String)
  | passwordReset (email name resetUrl : String)
deriving DecidableEq

/-- `PromoteToDriverDto`. -/
structure PromoteToDriverDto where
  vehincleType : VehincleType
  licenseNumber : String
deriving DecidableEq

/-- One call of the two services to the outside. -/
inductive AccountEffect
  -- `findOneBy({ email })` and `findOneBy({ id })`
  | findOneByEmail (email : String)
  | findOneBy (id : UserId)
  -- `createQueryBuilder('user')` with `addSelect`, by an id from a token
  | getOne (id : String) (addSelect : List Column)
  -- `save` of an entity that `create` has made, and of one that was loaded
  | insert (user : NewUser)
  | save (user : User)
  -- the transaction of `promoteToDriver`
  | promotion (userId : UserId) (dto : PromoteToDriverDto)
  | Hash (password : String)
  | verifyHash (hash password : String)
  | randomBytes (size : ℕ)
  | now
  | sendMail (mail : Mail)
deriving DecidableEq

/-- What an effect answers with. -/
@[reducible] def AccountEffect.Resp : AccountEffect → Type
  | findOneByEmail _ => Option User
  | findOneBy _ => Option User
  | getOne _ _ => Option User
  | insert _ => User
  | save _ => User
  | promotion _ _ => Option User
  | Hash _ => String
  | verifyHash _ _ => Bool
  | randomBytes _ => String
  | now => ℕ
  | sendMail _ => Bool

/-- A program of the two services. -/
abbrev AccountProg (α : Type) := Program AccountEffect AccountEffect.Resp AccountError α

/-- What the calls share: the tables, the clock, and what was drawn so far. -/
structure AccountStore where
  users : Table UserRow.id
  drivers : Table fun profile : DriverProfile => profile.id
  clock : ℕ
  drawn : List String

/-- What a step leaves open: the uuids, the bytes and the salt that are drawn, and whether a mail
is sent. -/
structure AccountChoice where
  userId : UserId
  driverId : DriverId
  hex : String
  salt : String
  sent : Bool
deriving DecidableEq

namespace AccountStore

/-- Whether another user has the email or the Google id: both columns are unique. -/
def taken (s : AccountStore) (row : UserRow) : Bool :=
  s.users.toList.any fun other => decide (other.id ≠ row.id) &&
    (decide (other.email = row.email) ||
      row.googleId.isSome && decide (other.googleId = row.googleId))

/-- The row of a new user. -/
def newRow (pl : Platform) (user : NewUser) (id : UserId) (clock : ℕ) : UserRow where
  id := id
  name := user.name
  email := pl.normalise user.email
  passwordHash := user.passwordHash
  role := user.role
  googleId := user.googleId
  provider := user.provider
  isEmailVerified := user.isEmailVerified
  emailVerificationTokenHash := none
  emailVerificationExpiresAt := none
  emailVerifiedAt := user.emailVerifiedAt
  passwordResetTokenHash := none
  passwordResetExpiresAt := none
  createdAt := clock
  updatedAt := clock

/-- `save` of a new entity. Afterwards the entity has every column. -/
def insert (pl : Platform) (user : NewUser) (id : UserId) (s : AccountStore) :
    Except AccountError User × AccountStore :=
  let row := newRow pl user id s.clock
  if (s.users.find id).isSome || s.taken row then (.error .QueryFailedError, s)
  else (.ok (row.load Column.hidden), { s with users := s.users.put row })

/-- `save` of an entity that was loaded. `@BeforeUpdate` normalises the email; `updated_at` is set
where something is written, unless the entity's own differs from the row's. -/
def save (pl : Platform) (user : User) (s : AccountStore) :
    Except AccountError User × AccountStore :=
  match s.users.find user.id with
  -- users are never deleted
  | none => (.error .QueryFailedError, s)
  | some row =>
      let user := { user with email := pl.normalise user.email }
      let saved := row.merge user
      if s.taken saved then (.error .QueryFailedError, s)
      else if saved = row then (.ok user, s)
      else
        let updatedAt := if user.updatedAt = row.updatedAt then s.clock else user.updatedAt
        (.ok { user with updatedAt }, { s with users := s.users.put { saved with updatedAt } })

/-- The transaction of `promoteToDriver`. What it throws rolls it back. -/
def promotion (userId : UserId) (dto : PromoteToDriverDto) (driverId : DriverId)
    (s : AccountStore) : Except AccountError (Option User) × AccountStore :=
  let users := match s.users.find userId with
    | none => s.users
    | some row => s.users.put { row with role := .DRIVER, updatedAt := s.clock }
  if s.drivers.toList.any fun profile => decide (profile.userId = userId) then
    (.error (.ConflictException "Driver profile already exists"), s)
  -- the keys of `drivers`: the id, the unique licence number, and the user it refers to
  else if (s.drivers.find driverId).isSome ||
      (s.drivers.toList.any fun profile => decide (profile.licenseNumber = dto.licenseNumber)) ||
      (s.users.find userId).isNone then
    (.error .QueryFailedError, s)
  else
    let driver : DriverProfile :=
      { id := driverId, userId, vehincleType := dto.vehincleType, onlineStatus := false
        currentLatitude := none, currentLongitude := none, isSuspended := false
        licenseNumber := dto.licenseNumber, rating := 5 }
    (.ok ((users.find userId).map (UserRow.load [])),
      { s with users, drivers := s.drivers.put driver })

/-- Perform one effect. -/
def perform (pl : Platform) (ch : AccountChoice) :
    (e : AccountEffect) → AccountStore → Except AccountError e.Resp × AccountStore
  | .findOneByEmail email, s =>
      (.ok ((s.users.toList.find? fun row => decide (row.email = email)).map (UserRow.load [])), s)
  | .findOneBy id, s => (.ok ((s.users.find id).map (UserRow.load [])), s)
  | .getOne id addSelect, s =>
      match pl.toUuid id with
      | none => (.error .QueryFailedError, s)
      | some id => (.ok ((s.users.find id).map (UserRow.load addSelect)), s)
  | .insert user, s => s.insert pl user ch.userId
  | .save user, s => s.save pl user
  | .promotion userId dto, s => s.promotion userId dto ch.driverId
  | .Hash password, s => (.ok (pl.crypto.Hash ch.salt password), s)
  | .verifyHash hash password, s => (.ok (pl.crypto.verifyHash hash password), s)
  | .randomBytes _, s => (.ok ch.hex, { s with drawn := ch.hex :: s.drawn })
  | .now, s => (.ok s.clock, s)
  | .sendMail _, s => (.ok ch.sent, s)

end AccountStore

/-- The machine the calls run on. -/
def accountMachine (pl : Platform) :
    Machine AccountEffect AccountEffect.Resp AccountError AccountStore AccountChoice where
  exec := AccountStore.perform pl

end LogisticsDispatch
