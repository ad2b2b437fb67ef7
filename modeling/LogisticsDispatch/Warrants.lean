/-
Who a value in `users` goes back to.

`Warrant` says, for each column, what may be found in it: what was there at first, what a
registration or a first login with Google puts there, what a user with an access token asks for, an
admin's promotion, what someone asks for who has the token from a mail. It speaks of the `Facts` of
a run, and of nothing that a single call knows.

The methods of the services keep to it: as long as what they load is warranted, what they save is
(`*_meets`). This holds whatever other requests do between their effects, since a fact stays.
-/
import LogisticsDispatch.Lib.Assume
import LogisticsDispatch.Api
import LogisticsDispatch.LoginMethods

set_option autoImplicit false

namespace LogisticsDispatch

open Accounts SignIn Resumable Resumable.Program

/-! ## Facts -/

/-- What has come about in a run. -/
structure Facts where
  /-- The users there were at first. -/
  first : UserId → Option UserRow
  /-- The rows there were in `users` at some time. -/
  rows : UserRow → Prop
  /-- The rows that a request has found by their id. -/
  found : HttpRequest → UserRow → Prop
  /-- The rows that a login has found by their email. -/
  read : HttpRequest → UserRow → Prop
  called : HttpRequest → Prop
  signed : JwtPayload → Prop
  /-- What was drawn for a request. -/
  drew : HttpRequest → String → Prop
  /-- The times a request was told when it asked for the time. -/
  timed : HttpRequest → ℕ → Prop
  /-- The users whose row a request has changed, and when. -/
  wrote : HttpRequest → UserId → ℕ → Prop
  /-- Who has come back from Google with a request. -/
  google : HttpRequest → GoogleProfile → Prop
  /-- The driver profiles, and their users. -/
  owns : DriverId → UserId → Prop
  /-- The hashes there were in Redis at some time, and the users under whose key. -/
  kept : String → String → Prop

namespace HttpRequest

/-- The handler a request is for. -/
def handler (req : HttpRequest) : Option Handler := (handlerOf req.target).map Endpoint.handler

/-- A request for a handler, with a body for it. -/
def Asks (req : HttpRequest) (handler : Handler) (dto : Dto) : Prop :=
  req.handler = some handler ∧ req.dto = some dto

/-- A request after which a verification token is mailed to an email, if a user has it. -/
def AsksToVerify (pl : Platform) (req : HttpRequest) (email : String) : Prop :=
  (∃ dto, req.Asks (.auth .register) (.register dto) ∧ email = pl.normalise dto.email) ∨
    ∃ given, req.Asks (.auth .resendVerificationEmail) (.email given) ∧ email = pl.normalise given

/-- A request after which a reset token is mailed to an email, if a user has it. -/
def AsksToReset (pl : Platform) (req : HttpRequest) (email : String) : Prop :=
  ∃ given, req.Asks (.auth .forgotPassword) (.email given) ∧ email = pl.normalise given

/-- A request with a verification token. -/
def Presents (req : HttpRequest) (token : String) : Prop :=
  req.Asks (.auth .verifyEmail) (.verifyEmail token) ∨
    req.handler = some (.auth .verifyEmailFromLink) ∧ token = req.queryToken.getD ""

/-- A request with a new password: of a new user, or one that is reset. -/
def SetsTo (req : HttpRequest) (password : String) : Prop :=
  (∃ dto, req.Asks (.auth .register) (.register dto) ∧ password = dto.password) ∨
    ∃ dto, req.Asks (.auth .resetPassword) (.resetPassword dto) ∧ password = dto.password

/-- What is saved as the password of a user is the one in the request, if it has one, and nothing
if it has none. -/
def Stores (pl : Platform) (req : HttpRequest) (passwordHash : Option (Option String)) : Prop :=
  (∃ salt password, req.SetsTo password ∧
    passwordHash = some (some (pl.crypto.Hash salt password))) ∨
      (∀ password, ¬ req.SetsTo password) ∧ passwordHash = none

/-- The user that the path of a request names. -/
def userParam (pl : Platform) (ex : Express) (req : HttpRequest) : Option UserId :=
  (handlerOf req.target).bind fun e =>
    ((paramsOf e.template req.target.path).mapM ex.decode).bind fun params =>
      params.head?.bind pl.toUuid

end HttpRequest

namespace Facts

variable (pl : Platform) (F : Facts)

/-- A request with an access token: the payload that was signed names a user, whom the request has
found verified. The role is the user's, the driver profile the payload's. -/
def Authenticates (req : HttpRequest) (user : JwtUser) : Prop :=
  ∃ payload row, F.signed payload ∧ req.bearerToken = some (pl.crypto.sign payload) ∧
    F.found req row ∧ row.id = payload.sub ∧ row.isEmailVerified = true ∧
      user = ⟨row.id, row.role, payload.driverProfileId⟩

/-- A request with which someone comes back from Google. -/
def Returns (req : HttpRequest) (user : GoogleAuthUser) : Prop :=
  F.called req ∧ req.handler = some (.auth .googleCallback) ∧
    ∃ profile, F.google req profile ∧ GoogleStrategy.validate pl profile = .ok user

/-- A login with Google, for a user who has the email. -/
structure Links (req : HttpRequest) (googleUser : GoogleAuthUser) (id : UserId) : Prop where
  comes : F.Returns pl req googleUser
  verified : googleUser.emailVerified = true
  email : ∃ row, F.rows row ∧ row.id = id ∧ row.email = pl.normalise googleUser.email

/-- A request for a mail to a user, for which a token was drawn. -/
def Mails (asks : HttpRequest → String → Prop) (req : HttpRequest) (id : UserId) (hex : String) :
    Prop :=
  ∃ row, F.called req ∧ asks req row.email ∧ F.rows row ∧ row.id = id ∧ F.drew req hex

/-- A request with a refresh token: it matches a hash that was kept for a user, whom the request
has found verified. -/
def Refreshes (req : HttpRequest) (user : JwtUser) : Prop :=
  ∃ token key hash row, req.refreshToken = some (.str token) ∧
    pl.toUuid key = some user.userId ∧ F.kept key hash ∧
      pl.crypto.verifyHash hash token = true ∧ F.found req row ∧ row.id = user.userId ∧
        row.isEmailVerified = true ∧ row.role = user.role ∧
          ∀ d, user.driverProfileId = some d → F.owns d user.userId

/-- A payload that is true: it names a user with the user's email and role, and no driver profile
but the user's own. -/
def Honest (payload : JwtPayload) : Prop :=
  (∃ row, F.rows row ∧ row.id = payload.sub ∧ row.email = payload.email ∧
    row.role = payload.role) ∧
      ∀ d, payload.driverProfileId = some d → F.owns d payload.sub

end Facts

/-! ## Warrants -/

/-- What the columns of a user become when an email is verified. -/
inductive Column.Verified (now : ℕ) : (c : Column) → c.Value → Prop
  | isEmailVerified : Verified now .isEmailVerified true
  | emailVerifiedAt : Verified now .emailVerifiedAt (some now)
  | emailVerificationTokenHash : Verified now .emailVerificationTokenHash none
  | emailVerificationExpiresAt : Verified now .emailVerificationExpiresAt none

/-- What the columns of a user become when a password is reset. -/
inductive Column.Reset (passwordHash : String) : (c : Column) → c.Value → Prop
  | passwordHash : Reset passwordHash .passwordHash (some passwordHash)
  | passwordResetTokenHash : Reset passwordHash .passwordResetTokenHash none
  | passwordResetExpiresAt : Reset passwordHash .passwordResetExpiresAt none

/-- What the columns of a user become when a Google user is linked. -/
inductive Column.Linked (googleUser : GoogleAuthUser) : (c : Column) → c.Value → Prop
  | googleId : Linked googleUser .googleId (some googleUser.googleId)
  | provider : Linked googleUser .provider .GOOGLE
  | name : Linked googleUser .name googleUser.name
  | isEmailVerified : Linked googleUser .isEmailVerified true

/-- The account that a registration asks for. -/
def newAccount (pl : Platform) (dto : RegisterDto) (passwordHash : String) : NewUser :=
  { name := dto.name, email := pl.normalise dto.email, passwordHash := some passwordHash
    googleId := none, role := .CUSTOMER, provider := .LOCAL, isEmailVerified := false
    emailVerifiedAt := none }

/-- The account that a first login with Google makes. -/
def googleAccount (pl : Platform) (googleUser : GoogleAuthUser) (now : ℕ) : NewUser :=
  { name := googleUser.name, email := pl.normalise googleUser.email, passwordHash := none
    googleId := some googleUser.googleId, role := .CUSTOMER, provider := .GOOGLE
    isEmailVerified := true, emailVerifiedAt := some now }

/-- What may be found in a column of a user. -/
inductive Warrant (pl : Platform) (ex : Express) (F : Facts) (id : UserId) :
    (c : Column) → c.Value → Prop
  | first {row : UserRow} (hfirst : F.first id = some row) (c : Column) :
      Warrant pl ex F id c (row.get c)
  | registered {req : HttpRequest} {dto : RegisterDto} {clock : ℕ} (salt : String)
      (hnew : F.first id = none) (hcalled : F.called req)
      (hasks : req.Asks (.auth .register) (.register dto)) (hwrote : F.wrote req id clock)
      (c : Column) :
      Warrant pl ex F id c ((AccountStore.newRow pl
        (newAccount pl dto (pl.crypto.Hash salt dto.password)) id clock).get c)
  | signedUp {req : HttpRequest} {googleUser : GoogleAuthUser} {now clock : ℕ}
      (hnew : F.first id = none) (hreturns : F.Returns pl req googleUser)
      (hverified : googleUser.emailVerified = true) (hnow : F.timed req now)
      (hwrote : F.wrote req id clock) (c : Column) :
      Warrant pl ex F id c ((AccountStore.newRow pl
        (googleAccount pl googleUser now) id clock).get c)
  | normalised {email : String} (h : Warrant pl ex F id .email email) :
      Warrant pl ex F id .email (pl.normalise email)
  -- `updated_at` is when a request changed the row
  | touched {req : HttpRequest} {clock : ℕ} (hwrote : F.wrote req id clock) :
      Warrant pl ex F id .updatedAt clock
  | renamed {req : HttpRequest} {user : JwtUser} {name : String} (hcalled : F.called req)
      (hasks : req.Asks (.users .updateUsername) (.updateUser name))
      (hself : F.Authenticates pl req user) (hid : user.userId = id) :
      Warrant pl ex F id .name name
  | promoted {req : HttpRequest} {user : JwtUser} {dto : PromoteToDriverDto}
      (hcalled : F.called req)
      (hasks : req.Asks (.users .promoteToDriver) (.promoteToDriver dto))
      (hparam : req.userParam pl ex = some id) (hauth : F.Authenticates pl req user)
      (hadmin : user.role = .ADMIN) : Warrant pl ex F id .role .DRIVER
  | verificationHash {req : HttpRequest} {hex : String} (salt : String)
      (hmails : F.Mails (HttpRequest.AsksToVerify pl) req id hex) :
      Warrant pl ex F id .emailVerificationTokenHash
        (some (pl.crypto.Hash salt (id.text ++ "." ++ hex)))
  | verificationExpiry {req : HttpRequest} {hex : String} {now : ℕ}
      (hmails : F.Mails (HttpRequest.AsksToVerify pl) req id hex) (hnow : F.timed req now) :
      Warrant pl ex F id .emailVerificationExpiresAt
        (some (now + Accounts.AuthService.EMAIL_VERIFICATION_TTL_MS))
  | resetHash {req : HttpRequest} {hex : String} (salt : String)
      (hmails : F.Mails (HttpRequest.AsksToReset pl) req id hex) :
      Warrant pl ex F id .passwordResetTokenHash
        (some (pl.crypto.Hash salt (id.text ++ "." ++ hex)))
  | resetExpiry {req : HttpRequest} {hex : String} {now : ℕ}
      (hmails : F.Mails (HttpRequest.AsksToReset pl) req id hex) (hnow : F.timed req now) :
      Warrant pl ex F id .passwordResetExpiresAt
        (some (now + Accounts.AuthService.PASSWORD_RESET_TTL_MS))
  | verified {req : HttpRequest} {token hash : String} {now : ℕ} {c : Column} {v : c.Value}
      (hcalled : F.called req) (hpresents : req.Presents token)
      (hhash : Warrant pl ex F id .emailVerificationTokenHash (some hash))
      (hmatches : pl.crypto.verifyHash hash (trim token) = true) (hnow : F.timed req now)
      (hcolumn : c.Verified now v) : Warrant pl ex F id c v
  | reset {req : HttpRequest} {dto : ResetPasswordDto} {hash : String} {c : Column} {v : c.Value}
      (salt : String) (hcalled : F.called req)
      (hasks : req.Asks (.auth .resetPassword) (.resetPassword dto))
      (hhash : Warrant pl ex F id .passwordResetTokenHash (some hash))
      (hmatches : pl.crypto.verifyHash hash (trim dto.token) = true)
      (hcolumn : c.Reset (pl.crypto.Hash salt dto.password) v) : Warrant pl ex F id c v
  | linked {req : HttpRequest} {googleUser : GoogleAuthUser} {c : Column} {v : c.Value}
      (hlinks : F.Links pl req googleUser id) (hcolumn : c.Linked googleUser v) :
      Warrant pl ex F id c v
  | linkedAt {req : HttpRequest} {googleUser : GoogleAuthUser} {now : ℕ}
      (hlinks : F.Links pl req googleUser id) (hnow : F.timed req now) :
      Warrant pl ex F id .emailVerifiedAt (some now)

/-- A row lets in whoever has its password. -/
structure UserRow.LetsIn (pl : Platform) (row : UserRow) (dto : LoginDto) : Prop where
  email : row.email = pl.normalise dto.email
  provider : row.provider = .LOCAL
  verified : row.isEmailVerified = true
  password : ∃ hash, row.passwordHash = some hash ∧
    pl.crypto.verifyHash hash dto.password = true

/-- A user logs in: with the password, or as who comes back from Google. -/
def Facts.LogsIn (pl : Platform) (ex : Express) (F : Facts) (id : UserId) : Prop :=
  (∃ req dto row, F.called req ∧ req.Asks (.auth .login) (.login dto) ∧ F.read req row ∧
    row.id = id ∧ row.LetsIn pl dto) ∨
    ∃ req googleUser, F.Returns pl req googleUser ∧ googleUser.emailVerified = true ∧
      Warrant pl ex F id .googleId (some googleUser.googleId)

/-- Why tokens may be issued for a user: a login of someone in `users`, or a refresh token. Before
that, tokens were issued for whoever's id Postgres reads as the user's. -/
inductive Grant (pl : Platform) (ex : Express) (F : Facts) : UserId → Prop
  | login {id : UserId} (hseen : ∃ row, F.rows row ∧ row.id = id) (h : F.LogsIn pl ex id) :
      Grant pl ex F id
  | refreshToken {req : HttpRequest} {user : JwtUser} {before : UserId} (hcalled : F.called req)
      (hhandler : req.handler = some (.auth .refresh)) (hrefreshes : F.Refreshes pl req user)
      (hbefore : Grant pl ex F before) (hreads : pl.toUuid before.text = some user.userId) :
      Grant pl ex F user.userId

/-- The hash of a refresh token that was issued: it was drawn for a user who was granted it. -/
def Facts.Issued (pl : Platform) (ex : Express) (F : Facts) (key hash : String) : Prop :=
  ∃ id salt hex, Grant pl ex F id ∧ key = id.text ∧ (∃ req, F.called req ∧ F.drew req hex) ∧
    hash = pl.crypto.Hash salt (TokenService.refreshTokenOf id hex)

/-- Tokens were issued for whoever's id Postgres reads as the user's. -/
def Facts.WasGranted (pl : Platform) (ex : Express) (F : Facts) (id : UserId) : Prop :=
  ∃ before, Grant pl ex F before ∧ pl.toUuid before.text = some id

/-- Every column of a row is warranted. -/
def UserRow.Warranted (pl : Platform) (ex : Express) (F : Facts) (row : UserRow) : Prop :=
  ∀ c, Warrant pl ex F row.id c (row.get c)

/-- Every column of an entity that was loaded or edited is warranted. -/
def User.Warranted (pl : Platform) (ex : Express) (F : Facts) (user : User) : Prop :=
  ∀ c v, user.get c = some v → Warrant pl ex F user.id c v

/-- An entity has the id, the email, the role and the Google id of a warranted row. -/
structure Facts.StandsFor (pl : Platform) (ex : Express) (F : Facts) (row : UserRow)
    (user : User) : Prop where
  seen : F.rows row
  warranted : row.Warranted pl ex F
  id : row.id = user.id
  email : row.email = user.email
  role : row.role = user.role
  googleId : row.googleId = user.googleId

/-! ## What effects answer, and which are warranted -/

section Effects

variable (pl : Platform) (ex : Express) (F : Facts) (req : HttpRequest)

/-- An entity was loaded from a row that is warranted. -/
def Facts.Loads (addSelect : List Column) (row : UserRow) (user : User) : Prop :=
  F.rows row ∧ row.Warranted pl ex F ∧ user = row.load addSelect

/-- What an effect of the account side tells. -/
def AccountEffect.Told : (e : AccountEffect) → e.Resp → Prop
  | findOneByEmail email, found => ∀ user, found = some user →
      ∃ row, F.Loads pl ex [] row user ∧ row.email = email
  | findOneBy id, found => ∀ user, found = some user →
      ∃ row, F.Loads pl ex [] row user ∧ row.id = id ∧ F.found req row
  | getOne _ addSelect, found => ∀ user, found = some user →
      ∃ row, F.Loads pl ex addSelect row user
  | insert new, user =>
      ∃ row, F.Loads pl ex Column.hidden row user ∧ row.email = pl.normalise new.email ∧
        row.googleId = new.googleId ∧ row.passwordHash = new.passwordHash
  | save saved, user => (∃ row, F.StandsFor pl ex row user) ∧ user.googleId = saved.googleId
  | promotion _ _, _ => True
  | Hash password, hash => ∃ salt, hash = pl.crypto.Hash salt password
  | verifyHash hash password, matched => matched = pl.crypto.verifyHash hash password
  | randomBytes _, hex => F.drew req hex
  | now, time => F.timed req time
  | sendMail _, _ => True

/-- What an effect of `TokenService` tells. -/
def TokenEffect.Told : (e : TokenEffect) → e.Resp → Prop
  | findDriverProfile userId, found => ∀ d, found = some d → F.owns d userId
  | randomBytes _, hex => F.drew req hex
  | Hash password, hash => ∃ salt, hash = pl.crypto.Hash salt password
  | verifyHash hash password, matched => matched = pl.crypto.verifyHash hash password
  | redisGet userId, value => ∀ hash, value = some hash →
      F.kept userId hash ∧ F.Issued pl ex userId hash
  | _, _ => True

/-- What an effect of the services tells. -/
def AuthEffect.Told : (e : AuthEffect) → e.Resp → Prop
  | account e, a => e.Told pl ex F req a
  | token e, a => e.Told pl ex F req a
  | findOneByGoogleId googleId, found => ∀ user, found = some user →
      ∃ row, F.Loads pl ex [] row user ∧ row.googleId = some googleId
  | getOneByEmail email addSelect, found => ∀ user, found = some user →
      ∃ row, F.Loads pl ex addSelect row user ∧ row.email = email ∧ F.read req row

/-- What is written is warranted, and a password is the one in the request. -/
def AccountEffect.Warranted : AccountEffect → Prop
  | insert new => (∀ id clock, F.first id = none → F.wrote req id clock →
      (AccountStore.newRow pl new id clock).Warranted pl ex F) ∧
        req.Stores pl (new.passwordHash.map some)
  | save user => user.Warranted pl ex F ∧ req.Stores pl user.passwordHash
  | promotion id _ => Warrant pl ex F id .role .DRIVER ∧ ∀ password, ¬ req.SetsTo password
  | _ => True

/-- What is signed is true and granted, and what is kept in Redis was issued. -/
def TokenEffect.Warranted : TokenEffect → Prop
  | signAsync payload => F.Honest payload ∧ Grant pl ex F payload.sub
  | redisSet key hash _ => F.Issued pl ex key hash
  | _ => True

/-- An effect of the services is warranted. -/
def AuthEffect.Warranted : AuthEffect → Prop
  | account e => e.Warranted pl ex F req
  | token e => e.Warranted pl ex F
  | _ => True

end Effects

variable {pl : Platform} {ex : Express} {F : Facts} {req : HttpRequest}

theorem Facts.Loads.id {addSelect : List Column} {row : UserRow} {user : User}
    (h : F.Loads pl ex addSelect row user) : row.id = user.id := by
  rw [h.2.2]
  rfl

theorem Facts.Loads.standsFor {addSelect : List Column} {row : UserRow} {user : User}
    (h : F.Loads pl ex addSelect row user) : F.StandsFor pl ex row user := by
  obtain ⟨hrow, hwarranted, rfl⟩ := h
  exact ⟨hrow, hwarranted, rfl, rfl, rfl, rfl⟩

/-- What is loaded from a warranted row is warranted. -/
theorem Facts.Loads.warranted {addSelect : List Column} {row : UserRow} {user : User}
    (h : F.Loads pl ex addSelect row user) : user.Warranted pl ex F := by
  obtain ⟨-, hrow, rfl⟩ := h
  intro c v hv
  rw [← current_load (fun _ => False) row addSelect c (fun h => h) v hv]
  exact hrow c

/-- A password that was not selected is not saved either. -/
theorem Facts.Loads.stores {addSelect : List Column} {row : UserRow} {user : User}
    (h : F.Loads pl ex addSelect row user) (hselect : .passwordHash ∉ addSelect)
    (hreq : ∀ password, ¬ req.SetsTo password) : req.Stores pl user.passwordHash := by
  refine .inr ⟨hreq, ?_⟩
  rw [h.2.2]
  exact if_neg hselect

/-- Only requests of two handlers have a new password. -/
theorem HttpRequest.not_setsTo {handler : Handler} (hhandler : req.handler = some handler)
    (hregister : handler ≠ .auth .register) (hreset : handler ≠ .auth .resetPassword)
    (password : String) : ¬ req.SetsTo password := by
  rintro (⟨dto, ⟨hreq, -⟩, -⟩ | ⟨dto, ⟨hreq, -⟩, -⟩)
  · exact hregister (Option.some.inj (hhandler.symm.trans hreq))
  · exact hreset (Option.some.inj (hhandler.symm.trans hreq))

/-- A request with a verification token has none. -/
theorem HttpRequest.Presents.not_setsTo {token : String} (h : req.Presents token)
    (password : String) : ¬ req.SetsTo password := by
  rcases h with ⟨hhandler, -⟩ | ⟨hhandler, -⟩
  · exact HttpRequest.not_setsTo hhandler (by decide) (by decide) password
  · exact HttpRequest.not_setsTo hhandler (by decide) (by decide) password

/-! ## The account side -/

/-- A program of the account side keeps to the warrants. -/
abbrev AccountMeets {α : Type} (pl : Platform) (ex : Express) (F : Facts) (req : HttpRequest)
    (p : AccountProg α) : Prop :=
  p.Meets (AccountEffect.Told pl ex F req) (AccountEffect.Warranted pl ex F req) fun _ => True

theorem sendLogged_meets (mail : Mail) :
    AccountMeets pl ex F req (AuthService.sendLogged (askFor (.sendMail mail))) := by
  refine Meets.tryCatch ?_ fun _ => trivial
  exact meets_perform_bind trivial fun _ _ => trivial

/-- A token that is created: what is saved has its hash, and when it expires. -/
theorem createToken_meets {edit : User → String → ℕ → User} {ttl : ℕ} {user : User}
    (hedit : ∀ salt hex now, F.drew req hex → F.timed req now →
      (edit user (pl.crypto.Hash salt (user.id.text ++ "." ++ hex)) (now + ttl)).Warranted pl ex F)
    (hpassword : ∀ hash time, req.Stores pl (edit user hash time).passwordHash) :
    AccountMeets pl ex F req (AuthService.createToken edit ttl user) := by
  refine meets_perform_bind trivial fun hex hdrew => ?_
  refine meets_perform_bind trivial fun hash hhash => ?_
  obtain ⟨salt, rfl⟩ := hhash
  refine meets_perform_bind trivial fun now hnow => ?_
  exact meets_perform_bind ⟨hedit salt hex now hdrew hnow, hpassword _ _⟩ fun _ _ => trivial

/-- A verification token that is created for a user who asked for it. -/
theorem createEmailVerificationToken_meets {user : User} (huser : user.Warranted pl ex F)
    (hpassword : req.Stores pl user.passwordHash)
    (hmails : ∀ hex, F.drew req hex → F.Mails (HttpRequest.AsksToVerify pl) req user.id hex) :
    AccountMeets pl ex F req (AuthService.createEmailVerificationToken user) := by
  refine createToken_meets (fun salt hex now hdrew hnow c v hv => ?_) fun _ _ => hpassword
  cases c with
  | emailVerificationTokenHash =>
      obtain rfl := Option.some.inj hv
      exact .verificationHash salt (hmails hex hdrew)
  | emailVerificationExpiresAt =>
      obtain rfl := Option.some.inj hv
      exact .verificationExpiry (hmails hex hdrew) hnow
  | _ => exact huser _ v hv

/-- A reset token that is created for a user who asked for it. -/
theorem createPasswordResetToken_meets {user : User} (huser : user.Warranted pl ex F)
    (hpassword : req.Stores pl user.passwordHash)
    (hmails : ∀ hex, F.drew req hex → F.Mails (HttpRequest.AsksToReset pl) req user.id hex) :
    AccountMeets pl ex F req (AuthService.createPasswordResetToken user) := by
  refine createToken_meets (fun salt hex now hdrew hnow c v hv => ?_) fun _ _ => hpassword
  cases c with
  | passwordResetTokenHash =>
      obtain rfl := Option.some.inj hv
      exact .resetHash salt (hmails hex hdrew)
  | passwordResetExpiresAt =>
      obtain rfl := Option.some.inj hv
      exact .resetExpiry (hmails hex hdrew) hnow
  | _ => exact huser _ v hv

theorem findByEmail_meets {email : String} {Q : Option User → Prop}
    (hQ : ∀ found, (∀ user, found = some user →
      ∃ row, F.Loads pl ex [] row user ∧ row.email = pl.normalise email) → Q found) :
    (UsersService.findByEmail pl email).Meets (AccountEffect.Told pl ex F req)
      (AccountEffect.Warranted pl ex F req) Q :=
  meets_perform trivial hQ

theorem register_meets {dto : RegisterDto} (hcalled : F.called req)
    (hasks : req.Asks (.auth .register) (.register dto)) :
    AccountMeets pl ex F req (AuthService.register pl dto) := by
  refine Meets.bind (Q := fun _ => True) (findByEmail_meets fun _ _ => trivial) fun found _ => ?_
  by_cases hfound : found.isSome = true
  · rw [if_pos hfound]
    trivial
  · rw [if_neg hfound]
    refine meets_perform_bind trivial fun hash hhash => ?_
    obtain ⟨salt, rfl⟩ := hhash
    have hstores : req.Stores pl (some (some (pl.crypto.Hash salt dto.password))) :=
      .inl ⟨salt, dto.password, .inl ⟨dto, hasks, rfl⟩, rfl⟩
    refine meets_perform_bind ?_ fun user huser => ?_
    · refine ⟨?_, hstores⟩
      intro id clock hnew hwrote c
      exact .registered salt hnew hcalled hasks hwrote c
    · obtain ⟨row, hload, hemail, -, hpassword⟩ := huser
      rw [Platform.normalise_normalise] at hemail
      refine Meets.bind (createEmailVerificationToken_meets hload.warranted ?_ fun hex hdrew => ?_)
        fun _ _ => Meets.bind (sendLogged_meets _) fun _ _ => trivial
      · have huser : user.passwordHash = some row.passwordHash := by
          rw [hload.2.2]
          rfl
        rw [huser, hpassword]
        exact hstores
      exact ⟨row, hcalled, .inl ⟨dto, hasks, hemail⟩, hload.1, hload.id, hdrew⟩

/-- A column that is read where it was selected and is not empty. -/
theorem eq_of_join_filter {column : Option (Option String)} {p : String → Bool} {hash : String}
    (h : column.join.filter p = some hash) : column = some (some hash) := by
  rw [Option.filter_eq_some_iff, Option.join_eq_some_iff] at h
  exact h.1

theorem verifyEmail_meets {token : String} (hcalled : F.called req)
    (hpresents : req.Presents token) :
    AccountMeets pl ex F req (AuthService.verifyEmail token) := by
  rw [AuthService.verifyEmail]
  split
  · trivial
  refine meets_perform_bind trivial fun found hfound => ?_
  cases found with
  | none => trivial
  | some user =>
      obtain ⟨row, hload⟩ := hfound user rfl
      have huser := hload.warranted
      dsimp only
      split
      · trivial
      split
      · next hash expiresAt hhash _ =>
          have hstored := huser .emailVerificationTokenHash _ (eq_of_join_filter hhash)
          refine meets_perform_bind trivial fun now _ => ?_
          split
          · trivial
          refine meets_perform_bind trivial fun matched hmatched => ?_
          split
          · trivial
          next hmatches =>
          rw [hmatched, Bool.not_eq_true', Bool.not_eq_false] at hmatches
          refine meets_perform_bind trivial fun now hnow => ?_
          refine meets_perform_bind ⟨?_, hload.stores (by decide) hpresents.not_setsTo⟩
            fun _ _ => trivial
          have hverified : ∀ {c : Column} {v : c.Value}, c.Verified now v →
              Warrant pl ex F user.id c v := .verified hcalled hpresents hstored hmatches hnow
          intro c v hv
          cases c with
          | isEmailVerified =>
              obtain rfl := Option.some.inj hv
              exact hverified .isEmailVerified
          | emailVerifiedAt =>
              obtain rfl := Option.some.inj hv
              exact hverified .emailVerifiedAt
          | emailVerificationTokenHash =>
              obtain rfl := Option.some.inj hv
              exact hverified .emailVerificationTokenHash
          | emailVerificationExpiresAt =>
              obtain rfl := Option.some.inj hv
              exact hverified .emailVerificationExpiresAt
          | _ => exact huser _ v hv
      · trivial

theorem resendVerificationEmail_meets {email : String} (hcalled : F.called req)
    (hasks : req.Asks (.auth .resendVerificationEmail) (.email email)) :
    AccountMeets pl ex F req (AuthService.resendVerificationEmail pl email) := by
  refine Meets.bind (findByEmail_meets fun found h => h) fun found hfound => ?_
  split
  · trivial
  · next user hsome =>
      obtain ⟨row, hload, hemail⟩ := hfound user (Option.filter_eq_some_iff.mp hsome).1
      rw [Platform.normalise_normalise] at hemail
      refine Meets.bind (createEmailVerificationToken_meets hload.warranted ?_ fun hex hdrew => ?_)
        fun _ _ => Meets.bind (sendLogged_meets _) fun _ _ => trivial
      · exact hload.stores (by decide) (HttpRequest.not_setsTo hasks.1 (by decide) (by decide))
      exact ⟨row, hcalled, .inr ⟨email, hasks, hemail⟩, hload.1, hload.id, hdrew⟩

theorem forgotPassword_meets {email : String} (hcalled : F.called req)
    (hasks : req.Asks (.auth .forgotPassword) (.email email)) :
    AccountMeets pl ex F req (AuthService.forgotPassword pl email) := by
  refine Meets.bind (findByEmail_meets fun found h => h) fun found hfound => ?_
  split
  · trivial
  · next user hsome =>
      obtain ⟨row, hload, hemail⟩ := hfound user (Option.filter_eq_some_iff.mp hsome).1
      refine Meets.bind (createPasswordResetToken_meets hload.warranted ?_ fun hex hdrew => ?_)
        fun _ _ => Meets.bind (sendLogged_meets _) fun _ _ => trivial
      · exact hload.stores (by decide) (HttpRequest.not_setsTo hasks.1 (by decide) (by decide))
      exact ⟨row, hcalled, ⟨email, hasks, hemail⟩, hload.1, hload.id, hdrew⟩

theorem resetPassword_meets {dto : ResetPasswordDto} (hcalled : F.called req)
    (hasks : req.Asks (.auth .resetPassword) (.resetPassword dto)) :
    AccountMeets pl ex F req (AuthService.resetPassword dto) := by
  rw [AuthService.resetPassword]
  split
  · trivial
  refine meets_perform_bind trivial fun found hfound => ?_
  cases found with
  | none => trivial
  | some user =>
      obtain ⟨row, hload⟩ := hfound user rfl
      have huser := hload.warranted
      dsimp only
      split
      · next hash expiresAt hhash _ =>
          have hstored := huser .passwordResetTokenHash _ (eq_of_join_filter hhash)
          refine meets_perform_bind trivial fun now _ => ?_
          split
          · trivial
          refine meets_perform_bind trivial fun matched hmatched => ?_
          split
          · trivial
          next hmatches =>
          rw [hmatched, Bool.not_eq_true', Bool.not_eq_false] at hmatches
          refine meets_perform_bind trivial fun passwordHash hpassword => ?_
          obtain ⟨salt, rfl⟩ := hpassword
          have hstores : req.Stores pl (some (some (pl.crypto.Hash salt dto.password))) :=
            .inl ⟨salt, dto.password, .inr ⟨dto, hasks, rfl⟩, rfl⟩
          refine meets_perform_bind ⟨?_, hstores⟩ fun _ _ => trivial
          have hreset : ∀ {c : Column} {v : c.Value},
              c.Reset (pl.crypto.Hash salt dto.password) v → Warrant pl ex F user.id c v :=
            .reset salt hcalled hasks hstored hmatches
          intro c v hv
          cases c with
          | passwordHash =>
              obtain rfl := Option.some.inj hv
              exact hreset .passwordHash
          | passwordResetTokenHash =>
              obtain rfl := Option.some.inj hv
              exact hreset .passwordResetTokenHash
          | passwordResetExpiresAt =>
              obtain rfl := Option.some.inj hv
              exact hreset .passwordResetExpiresAt
          | _ => exact huser _ v hv
      · trivial

theorem updateUserName_meets {user : JwtUser} {name : String} (hcalled : F.called req)
    (hasks : req.Asks (.users .updateUsername) (.updateUser name))
    (hself : F.Authenticates pl req user) :
    AccountMeets pl ex F req (Accounts.UsersService.updateUserName user.userId name) := by
  refine meets_perform_bind trivial fun found hfound => ?_
  cases found with
  | none => trivial
  | some loaded =>
      obtain ⟨row, hload, hid, -⟩ := hfound loaded rfl
      have huser := hload.warranted
      have hreq := HttpRequest.not_setsTo hasks.1 (by decide) (by decide)
      refine meets_perform_bind ⟨?_, hload.stores (by decide) hreq⟩ fun _ _ => trivial
      intro c v hv
      cases c with
      | name =>
          obtain rfl := Option.some.inj hv
          exact .renamed hcalled hasks hself (hid.symm.trans hload.id)
      | _ => exact huser _ v hv

theorem promoteToDriver_meets {id : UserId} {dto : PromoteToDriverDto}
    (hpromoted : Warrant pl ex F id .role .DRIVER) (hreq : ∀ password, ¬ req.SetsTo password) :
    AccountMeets pl ex F req (Accounts.UsersService.promoteToDriver id dto) := by
  refine meets_perform_bind trivial fun found _ => ?_
  cases found with
  | none => trivial
  | some user =>
      dsimp only
      split
      · trivial
      split
      · trivial
      refine meets_perform_bind ⟨hpromoted, hreq⟩ fun updated _ => ?_
      cases updated <;> trivial

/-! ## Signing in -/

section SignIn

variable {α : Type}

/-- A program of the services keeps to the warrants, and returns what meets `Q`. -/
abbrev AuthMeets (pl : Platform) (ex : Express) (F : Facts) (req : HttpRequest)
    (p : AuthProg α) (Q : α → Prop) : Prop :=
  p.Meets (AuthEffect.Told pl ex F req) (AuthEffect.Warranted pl ex F req) Q

theorem ofAccounts_meets {p : AccountProg α} {Q : α → Prop}
    (h : p.Meets (AccountEffect.Told pl ex F req) (AccountEffect.Warranted pl ex F req) Q) :
    AuthMeets pl ex F req (SignIn.AuthService.ofAccounts p) Q :=
  h.lift (fun _ he => he) (fun _ a ha => ⟨a, rfl, ha⟩) fun _ err => ⟨err, rfl⟩

theorem ofTokens_meets {p : TokenProg α} {Q : α → Prop}
    (h : p.Meets (TokenEffect.Told pl ex F req) (TokenEffect.Warranted pl ex F) Q) :
    AuthMeets pl ex F req (SignIn.AuthService.ofTokens p) Q :=
  h.lift (fun _ he => he) (fun _ a ha => ⟨a, rfl, ha⟩) fun _ _ => ⟨.Unavailable, rfl⟩

/-- The driver profile that is found is the user's own. -/
theorem resolveDriverProfileId_meets (userId : UserId) (userRole : UserRole) :
    (TokenService.resolveDriverProfileId userId userRole).Meets (TokenEffect.Told pl ex F req)
      (TokenEffect.Warranted pl ex F) fun found => ∀ d, found = some d → F.owns d userId := by
  rw [TokenService.resolveDriverProfileId]
  split
  · rintro d h
    cases h
  · exact meets_perform trivial fun _ h => h

theorem generateTokens_meets {row : UserRow} {user : User} (hcalled : F.called req)
    (huser : F.StandsFor pl ex row user) (hgrant : Grant pl ex F user.id) :
    (TokenService.generateTokens ⟨user.id, user.email, user.role⟩).Meets
      (TokenEffect.Told pl ex F req) (TokenEffect.Warranted pl ex F) fun _ => True := by
  refine (resolveDriverProfileId_meets user.id user.role).bind fun driverProfileId howns => ?_
  refine meets_perform_bind ?_ fun accessToken _ => ?_
  · exact ⟨⟨⟨row, huser.seen, huser.id, huser.email, huser.role⟩, howns⟩, hgrant⟩
  refine meets_perform_bind trivial fun hex hdrew => ?_
  refine meets_perform_bind trivial fun hash hhash => ?_
  obtain ⟨salt, rfl⟩ := hhash
  exact meets_perform_bind ⟨user.id, salt, hex, hgrant, rfl, ⟨req, hcalled, hdrew⟩, rfl⟩
    fun _ _ => trivial

/-- A refresh token that is accepted matches a hash that was kept, and issued. -/
theorem verifyRefreshToken_meets (token : String) :
    (TokenService.verifyRefreshToken token).Meets (TokenEffect.Told pl ex F req)
      (TokenEffect.Warranted pl ex F) fun key => ∃ hash, F.kept key hash ∧
        F.Issued pl ex key hash ∧ pl.crypto.verifyHash hash token = true := by
  rw [TokenService.verifyRefreshToken]
  split
  split
  · trivial
  refine meets_perform_bind trivial fun found hfound => ?_
  split
  · trivial
  · next hash hhash =>
      refine meets_perform_bind trivial fun matched hmatched => ?_
      split
      · trivial
      next hmatches =>
      rw [hmatched, Bool.not_eq_true', Bool.not_eq_false] at hmatches
      refine meets_perform_bind trivial fun _ _ => ?_
      obtain ⟨hkept, hissued⟩ := hfound hash (Option.filter_eq_some_iff.mp hhash).1
      exact ⟨hash, hkept, hissued, hmatches⟩

theorem tokensFor_meets {row : UserRow} {user : User} (hcalled : F.called req)
    (huser : F.StandsFor pl ex row user) (hgrant : Grant pl ex F user.id) :
    AuthMeets pl ex F req (SignIn.AuthService.tokensFor user) fun _ => True :=
  (ofTokens_meets (generateTokens_meets hcalled huser hgrant)).bind fun _ _ => trivial

theorem login_meets {dto : LoginDto} (hcalled : F.called req)
    (hasks : req.Asks (.auth .login) (.login dto)) :
    AuthMeets pl ex F req (SignIn.AuthService.login pl dto) fun _ => True := by
  refine meets_perform_bind trivial fun found hfound => ?_
  cases found with
  | none => trivial
  | some user =>
      obtain ⟨row, hload, hemail, hread⟩ := hfound user rfl
      dsimp only
      split
      · trivial
      · next hash hhash =>
          split
          · trivial
          next hprovider =>
          refine meets_perform_bind trivial fun matched hmatched => ?_
          split
          · trivial
          next hmatches =>
          rw [hmatched, Bool.not_eq_true', Bool.not_eq_false] at hmatches
          split
          · trivial
          next hverified =>
          rw [Bool.not_eq_true', Bool.not_eq_false] at hverified
          have hstored := eq_of_join_filter hhash
          have huser := hload.2.2
          have hlets : row.LetsIn pl dto := by
            rw [huser] at hprovider hverified hstored
            exact ⟨hemail, not_not.mp hprovider, hverified, hash,
              (load_passwordHash hstored).symm, hmatches⟩
          exact tokensFor_meets hcalled hload.standsFor
            (.login ⟨row, hload.1, hload.id⟩
              (.inl ⟨req, dto, row, hcalled, hasks, hread, hload.id, hlets⟩))

/-- Who is linked to a Google user, or made for one, has the Google id. -/
theorem linkedUser_meets {googleUser : GoogleAuthUser} (hreturns : F.Returns pl req googleUser)
    (hverified : googleUser.emailVerified = true) :
    AuthMeets pl ex F req (SignIn.AuthService.linkedUser pl googleUser) fun user =>
      (∃ row, F.StandsFor pl ex row user) ∧ user.googleId = some googleUser.googleId := by
  have hreq : ∀ password, ¬ req.SetsTo password :=
    HttpRequest.not_setsTo hreturns.2.1 (by decide) (by decide)
  refine (ofAccounts_meets (findByEmail_meets fun found h => h)).bind fun found hfound => ?_
  cases found with
  | none =>
      refine meets_perform_bind trivial fun now hnow => ?_
      refine meets_perform ?_ ?_
      · refine ⟨?_, .inr ⟨hreq, rfl⟩⟩
        intro id clock hnew hwrote c
        exact .signedUp hnew hreturns hverified hnow hwrote c
      · rintro user ⟨row, hload, -, hgoogleId, -⟩
        exact ⟨⟨row, hload.standsFor⟩, hload.standsFor.googleId ▸ hgoogleId⟩
  | some existing =>
      obtain ⟨row, hload, hemail⟩ := hfound existing rfl
      have hlinks : F.Links pl req googleUser existing.id :=
        ⟨hreturns, hverified, row, hload.1, hload.id, hemail⟩
      have hsaved : ∀ emailVerifiedAt, Warrant pl ex F existing.id .emailVerifiedAt emailVerifiedAt →
          User.Warranted pl ex F { existing with
            googleId := some googleUser.googleId, provider := .GOOGLE
            name := if googleUser.name = "" then existing.name else googleUser.name
            isEmailVerified := true, emailVerifiedAt } := by
        intro emailVerifiedAt hat c v hv
        cases c with
        | googleId =>
            obtain rfl := Option.some.inj hv
            exact .linked hlinks .googleId
        | provider =>
            obtain rfl := Option.some.inj hv
            exact .linked hlinks .provider
        | name =>
            obtain rfl := Option.some.inj hv
            split
            · exact hload.warranted .name _ rfl
            · exact .linked hlinks .name
        | isEmailVerified =>
            obtain rfl := Option.some.inj hv
            exact .linked hlinks .isEmailVerified
        | emailVerifiedAt =>
            obtain rfl := Option.some.inj hv
            exact hat
        | _ => exact hload.warranted _ v hv
      have hpassword : req.Stores pl existing.passwordHash := hload.stores (by decide) hreq
      dsimp only
      split
      · trivial
      split
      · next verifiedAt hverifiedAt =>
          have hat := hload.warranted .emailVerifiedAt _ rfl
          rw [hverifiedAt] at hat
          exact meets_perform ⟨hsaved _ hat, hpassword⟩ fun user h => h
      · refine meets_perform_bind trivial fun now hnow => ?_
        exact meets_perform ⟨hsaved _ (.linkedAt hlinks hnow), hpassword⟩ fun user h => h

theorem loginWithGoogle_meets {googleUser : GoogleAuthUser}
    (hreturns : F.Returns pl req googleUser) :
    AuthMeets pl ex F req (SignIn.AuthService.loginWithGoogle pl googleUser) fun _ => True := by
  rw [SignIn.AuthService.loginWithGoogle]
  split
  · trivial
  next hverified =>
  rw [Bool.not_eq_true', Bool.not_eq_false] at hverified
  -- whoever has the Google id is granted tokens
  have htokens : ∀ row user, F.StandsFor pl ex row user →
      user.googleId = some googleUser.googleId →
        AuthMeets pl ex F req (SignIn.AuthService.tokensFor user) fun _ => True := by
    intro row user huser hgoogleId
    have hwarrant := huser.warranted .googleId
    rw [UserRow.get, huser.googleId, hgoogleId, huser.id] at hwarrant
    exact tokensFor_meets hreturns.1 huser
      (.login ⟨row, huser.seen, huser.id⟩ (.inr ⟨req, googleUser, hreturns, hverified, hwarrant⟩))
  refine meets_perform_bind trivial fun found hfound => ?_
  cases found with
  | some user =>
      obtain ⟨row, hload, hgoogleId⟩ := hfound user rfl
      exact htokens row user hload.standsFor (hload.standsFor.googleId ▸ hgoogleId)
  | none =>
      refine (linkedUser_meets hreturns hverified).bind fun user huser => ?_
      obtain ⟨⟨row, hrow⟩, hgoogleId⟩ := huser
      exact htokens row user hrow hgoogleId

theorem refreshTokens_meets {user : JwtUser} (hcalled : F.called req)
    (hhandler : req.handler = some (.auth .refresh)) (hrefreshes : F.Refreshes pl req user)
    (hgranted : F.WasGranted pl ex user.userId) :
    AuthMeets pl ex F req (SignIn.AuthService.refreshTokens user) fun _ => True := by
  refine meets_perform_bind trivial fun found hfound => ?_
  cases found with
  | none => trivial
  | some dbUser =>
      obtain ⟨row, hload, hid, -⟩ := hfound dbUser rfl
      dsimp only
      split
      · trivial
      · have hsame : user.userId = dbUser.id := hid.symm.trans hload.id
        obtain ⟨before, hbefore, hreads⟩ := hgranted
        exact tokensFor_meets hcalled hload.standsFor
          (hsame ▸ .refreshToken hcalled hhandler hrefreshes hbefore hreads)

end SignIn

end LogisticsDispatch
