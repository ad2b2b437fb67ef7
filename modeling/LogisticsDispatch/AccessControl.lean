/-
Who a handler is for.

`Access` is the policy. The decorators of the controllers and the global guards amount to it
(`endpoints_access`): the guards of a handler let a request go on only with a user the handler is
for (`runGuards_meets`). So what becomes of a request, from its routing to the service behind its
handler, keeps to the warrants (`serve_meets`).
-/
import LogisticsDispatch.Warrants

set_option autoImplicit false

namespace LogisticsDispatch

open Accounts SignIn Resumable Resumable.Program

/-! ## The policy -/

/-- Who a handler is for. -/
inductive Access
  | anyone
  /-- Who comes back from Google. -/
  | google
  /-- Who has a refresh token. -/
  | refreshToken
  /-- Who has an access token. -/
  | signedIn
  /-- Who has an access token and one of the roles. -/
  | only (roles : List UserRole)
deriving DecidableEq

/-- The policy. -/
def Handler.access : Handler → Access
  | .app .getHello => .anyone
  | .auth .googleLogin | .auth .googleCallback => .google
  | .auth .refresh => .refreshToken
  | .auth .logout => .signedIn
  | .auth .adminPing => .only [.ADMIN]
  | .auth _ => .anyone
  | .users .getUserProfile | .users .updateUsername => .only [.CUSTOMER, .DRIVER, .ADMIN]
  | .users _ => .only [.ADMIN]
  | .drivers .findAll | .drivers .findById | .drivers .toggleSuspension => .only [.ADMIN]
  | .drivers _ => .only [.DRIVER]
  | .orders .createOrder => .only [.CUSTOMER]
  | .orders .findById => .only [.CUSTOMER, .ADMIN, .DRIVER]
  | .orders .findAll | .orders .cancelOrder => .only [.CUSTOMER, .ADMIN]
  | .orders .updateStatus => .only [.DRIVER, .ADMIN]
  | .orders .reassignOrder | .orders .softDelete => .only [.ADMIN]

namespace Access

/-- The guards that see to it. -/
def guards : Access → List Guard
  | anyone => [.ThrottlerGuard, .JwtAuthGuard]
  | google => [.ThrottlerGuard, .JwtAuthGuard, .GoogleAuthGuard]
  | refreshToken => [.ThrottlerGuard, .JwtAuthGuard, .RefreshAuthGuard]
  | signedIn => [.ThrottlerGuard, .JwtAuthGuard, .JwtAuthGuard]
  | only _ => [.ThrottlerGuard, .JwtAuthGuard, .JwtAuthGuard, .RolesGuard]

/-- Whether `JwtAuthGuard` lets everyone pass. -/
def isPublic : Access → Bool
  | signedIn | only _ => false
  | _ => true

/-- The roles `RolesGuard` asks for. -/
def roles : Access → Option (List UserRole)
  | only roles => some roles
  | _ => none

end Access

/-- **The decorators amount to the policy.** -/
theorem endpoints_access : ∀ e ∈ endpoints, e.guards = e.handler.access.guards ∧
    e.isPublic = e.handler.access.isPublic ∧ e.roles = e.handler.access.roles := by
  decide +kernel

/-- No handler is for nobody: `RolesGuard` would let everyone pass. -/
theorem access_ne_only_nil : ∀ e ∈ endpoints, e.handler.access ≠ .only [] := by
  decide +kernel

/-- The user a request may go on with, by who the handler is for. -/
def Facts.Admits (pl : Platform) (ex : Express) (F : Facts) (req : HttpRequest) :
    Access → Option RequestUser → Prop
  | .anyone, user => user = none
  | .google, user => ∃ googleUser, user = some (.google googleUser) ∧
      ∃ profile, F.google req profile ∧ GoogleStrategy.validate pl profile = .ok googleUser
  | .refreshToken, user => ∃ jwtUser, user = some (.jwt jwtUser) ∧
      F.Refreshes pl req jwtUser ∧ F.WasGranted pl ex jwtUser.userId
  | .signedIn, user => ∃ jwtUser, user = some (.jwt jwtUser) ∧ F.Authenticates pl req jwtUser
  | .only roles, user => ∃ jwtUser, user = some (.jwt jwtUser) ∧
      F.Authenticates pl req jwtUser ∧ jwtUser.role ∈ roles

/-! ## Guards -/

section Effects

variable (pl : Platform) (ex : Express) (F : Facts) (req : HttpRequest)

/-- What an effect tells. -/
def ApiEffect.Told : (e : ApiEffect) → e.Resp → Prop
  | auth e, a => e.Told pl ex F req a
  | verifyJwt token, found => ∀ payload, found = some payload →
      F.signed payload ∧ pl.crypto.sign payload = token
  | googleProfile, found => ∀ profile, found = some profile → F.google req profile
  | throttle, _ => True
  | enter _ _ _, _ => True

/-- What is written is warranted, and a handler is entered by whom it is for. -/
def ApiEffect.Warranted : ApiEffect → Prop
  | auth e => e.Warranted pl ex F req
  | enter handler _ user => req.handler = some handler ∧ F.Admits pl ex req handler.access user
  | _ => True

end Effects

/-- What becomes of a request keeps to the warrants, and ends with what meets `Q`. -/
abbrev ApiMeets {α : Type} (pl : Platform) (ex : Express) (F : Facts) (req : HttpRequest)
    (p : ApiProg α) (Q : α → Prop) : Prop :=
  p.Meets (ApiEffect.Told pl ex F req) (ApiEffect.Warranted pl ex F req) Q

variable {pl : Platform} {ex : Express} {F : Facts} {req : HttpRequest} {e : Endpoint}
  {user : Option RequestUser}

theorem ofServices_meets {α : Type} {p : AuthProg α} {Q : α → Prop}
    (h : AuthMeets pl ex F req p Q) : ApiMeets pl ex F req (ofServices p) Q :=
  h.lift (fun _ he => he) (fun _ a ha => ⟨a, rfl, ha⟩) fun _ err => ⟨err.inService, rfl⟩

/-- `JwtStrategy` finds the verified user that a payload names. -/
theorem validate_meets {payload : JwtPayload} (hsigned : F.signed payload)
    (htoken : req.bearerToken = some (pl.crypto.sign payload)) :
    ApiMeets pl ex F req (JwtStrategy.validate payload) fun user =>
      F.Authenticates pl req user := by
  refine meets_perform_bind trivial fun found hfound => ?_
  cases found with
  | none => trivial
  | some user =>
      obtain ⟨row, ⟨-, -, rfl⟩, hid, hrow⟩ := hfound user rfl
      dsimp only
      split
      · trivial
      · next hverified =>
          rw [Bool.not_eq_true', Bool.not_eq_false] at hverified
          exact ⟨payload, row, hsigned, htoken, hrow, hid, hverified, rfl⟩

/-- `JwtAuthGuard`, where the handler is not public. -/
theorem jwtAuthGuard_meets (hpublic : e.isPublic = false) :
    ApiMeets pl ex F req (Guard.check pl e req user .JwtAuthGuard) fun user =>
      ∃ jwtUser, user = some (.jwt jwtUser) ∧ F.Authenticates pl req jwtUser := by
  rw [Guard.check, if_neg (by rw [hpublic]; exact Bool.false_ne_true)]
  split
  · trivial
  · next token htoken =>
      refine meets_perform_bind trivial fun found hfound => ?_
      cases found with
      | none => trivial
      | some payload =>
          obtain ⟨hsigned, rfl⟩ := hfound payload rfl
          exact (validate_meets hsigned htoken).bind fun user huser => ⟨user, rfl, huser⟩

/-- `JwtAuthGuard`, where it is. -/
theorem jwtAuthGuard_public (hpublic : e.isPublic = true) :
    ApiMeets pl ex F req (Guard.check pl e req user .JwtAuthGuard) fun user' => user' = user := by
  rw [Guard.check, if_pos hpublic]
  rfl

theorem throttlerGuard_meets :
    ApiMeets pl ex F req (Guard.check pl e req user .ThrottlerGuard) fun user' =>
      user' = user := by
  refine meets_perform_bind trivial fun within _ => ?_
  cases within
  · trivial
  · rfl

theorem rolesGuard_meets {roles : List UserRole} (hroles : e.roles = some roles) {jwtUser : JwtUser}
    (hne : roles ≠ []) : ApiMeets pl ex F req
      (Guard.check pl e req (some (.jwt jwtUser)) .RolesGuard) fun user =>
        user = some (.jwt jwtUser) ∧ jwtUser.role ∈ roles := by
  rw [Guard.check, hroles]
  by_cases hrole : jwtUser.role ∈ roles
  · have hactive : RolesGuard.canActivate (some roles) (some (.jwt jwtUser)) = true := by
      cases roles with
      | nil => exact absurd rfl hne
      | cons role roles => exact decide_eq_true hrole
    rw [if_pos hactive]
    exact ⟨rfl, hrole⟩
  · have hactive : RolesGuard.canActivate (some roles) (some (.jwt jwtUser)) ≠ true := by
      cases roles with
      | nil => exact absurd rfl hne
      | cons role roles =>
          intro h
          exact hrole (of_decide_eq_true h)
    rw [if_neg hactive]
    trivial

/-- `RefreshStrategy` finds the verified user whose refresh token was kept. -/
theorem refreshAuthGuard_meets :
    ApiMeets pl ex F req (Guard.check pl e req user .RefreshAuthGuard) fun user =>
      ∃ jwtUser, user = some (.jwt jwtUser) ∧ F.Refreshes pl req jwtUser ∧
        F.WasGranted pl ex jwtUser.userId := by
  suffices h : ApiMeets pl ex F req (RefreshStrategy.validate pl req) fun jwtUser =>
      F.Refreshes pl req jwtUser ∧ F.WasGranted pl ex jwtUser.userId from
    h.bind fun jwtUser hjwt => ⟨jwtUser, rfl, hjwt⟩
  rw [RefreshStrategy.validate]
  split
  · trivial
  · next token htoken =>
      split
      · trivial
      refine (ofServices_meets (ofTokens_meets (verifyRefreshToken_meets token))).bind
        fun key hkey => ?_
      obtain ⟨hash, hkept, hissued, hmatches⟩ := hkey
      split
      · trivial
      · next id hid =>
          refine meets_perform_bind trivial fun found hfound => ?_
          cases found with
          | none => trivial
          | some user =>
              obtain ⟨row, hload, hrowId, hrow⟩ := hfound user rfl
              dsimp only
              split
              · trivial
              · next hverified =>
                  rw [Bool.not_eq_true', Bool.not_eq_false] at hverified
                  refine (ofServices_meets (ofTokens_meets
                    (resolveDriverProfileId_meets user.id user.role))).bind fun d hd => ?_
                  have hid' : user.id = id := hload.id.symm.trans hrowId
                  obtain ⟨-, -, rfl⟩ := hload
                  refine ⟨⟨token, key, hash, row, htoken, hid'.symm ▸ hid, hkept, hmatches, hrow,
                    rfl, hverified, rfl, hd⟩, ?_⟩
                  obtain ⟨before, salt, hex, hgrant, rfl, -⟩ := hissued
                  exact ⟨before, hgrant, hid'.symm ▸ hid⟩
  · split <;> trivial

theorem googleAuthGuard_meets :
    ApiMeets pl ex F req (Guard.check pl e req user .GoogleAuthGuard) fun user =>
      ∃ googleUser, user = some (.google googleUser) ∧ ∃ profile, F.google req profile ∧
        GoogleStrategy.validate pl profile = .ok googleUser := by
  refine meets_perform_bind trivial fun found hfound => ?_
  cases found with
  | none => trivial
  | some profile =>
      cases hvalid : GoogleStrategy.validate pl profile with
      | error err =>
          dsimp only
          rw [hvalid]
          trivial
      | ok googleUser =>
          dsimp only
          rw [hvalid]
          exact ⟨googleUser, rfl, profile, hfound profile rfl, hvalid⟩

/-- The guards run one after the other. -/
theorem runGuards_cons {guard : Guard} {guards : List Guard} {Q Q' : Option RequestUser → Prop}
    (hguard : ApiMeets pl ex F req (guard.check pl e req user) Q)
    (hguards : ∀ user, Q user → ApiMeets pl ex F req (runGuards pl e req guards user) Q') :
    ApiMeets pl ex F req (runGuards pl e req (guard :: guards) user) Q' :=
  hguard.bind hguards

theorem runGuards_singleton {guard : Guard} {Q : Option RequestUser → Prop}
    (hguard : ApiMeets pl ex F req (guard.check pl e req user) Q) :
    ApiMeets pl ex F req (runGuards pl e req [guard] user) Q :=
  runGuards_cons hguard fun _ h => h

/-- **The guards of a handler let those pass that it is for.** -/
theorem runGuards_meets (he : e ∈ endpoints) :
    ApiMeets pl ex F req (runGuards pl e req e.guards none)
      (F.Admits pl ex req e.handler.access) := by
  obtain ⟨hguards, hpublic, hroles⟩ := endpoints_access e he
  have hnonempty := access_ne_only_nil e he
  rw [hguards]
  generalize e.handler.access = access at hpublic hroles hnonempty
  cases access with
  | anyone =>
      refine runGuards_cons throttlerGuard_meets ?_
      rintro user rfl
      exact runGuards_singleton (jwtAuthGuard_public hpublic)
  | google =>
      refine runGuards_cons throttlerGuard_meets fun user _ => ?_
      refine runGuards_cons (jwtAuthGuard_public hpublic) fun user _ => ?_
      exact runGuards_singleton googleAuthGuard_meets
  | refreshToken =>
      refine runGuards_cons throttlerGuard_meets fun user _ => ?_
      refine runGuards_cons (jwtAuthGuard_public hpublic) fun user _ => ?_
      exact runGuards_singleton refreshAuthGuard_meets
  | signedIn =>
      refine runGuards_cons throttlerGuard_meets fun user _ => ?_
      refine runGuards_cons (jwtAuthGuard_meets hpublic) fun user _ => ?_
      exact runGuards_singleton (jwtAuthGuard_meets hpublic)
  | only roles =>
      refine runGuards_cons throttlerGuard_meets fun user _ => ?_
      refine runGuards_cons (jwtAuthGuard_meets hpublic) fun user _ => ?_
      refine runGuards_cons (jwtAuthGuard_meets hpublic) ?_
      rintro user ⟨jwtUser, rfl, hauth⟩
      have hne : roles ≠ [] := by
        rintro rfl
        exact hnonempty rfl
      refine runGuards_singleton ((rolesGuard_meets hroles hne).mono ?_)
      rintro user ⟨rfl, hrole⟩
      exact ⟨jwtUser, rfl, hauth, hrole⟩

/-! ## Handlers -/

theorem serving_meets {call : AuthCall}
    (h : AuthMeets pl ex F req (call.program pl) fun _ => True) :
    ApiMeets pl ex F req (serving pl call) fun _ => True :=
  (ofServices_meets h).bind fun _ _ => trivial

/-- A call of the account side, behind a handler. -/
theorem serving_account_meets {call : AccountCall}
    (h : AccountMeets pl ex F req (call.program pl)) :
    ApiMeets pl ex F req (serving pl (.account call)) fun _ => True :=
  serving_meets (ofAccounts_meets h)

theorem getUserProfile_meets (id : UserId) :
    AuthMeets pl ex F req (UsersService.getUserProfile id) fun _ => True := by
  refine meets_perform_bind trivial fun found _ => ?_
  cases found <;> trivial

theorem logout_meets (jwtUser : JwtUser) :
    AuthMeets pl ex F req (AuthService.logout jwtUser) fun _ => True := by
  have hrevoke : (TokenService.revokeRefreshToken jwtUser.userId).Meets
      (TokenEffect.Told pl ex F req) (TokenEffect.Warranted pl ex F) fun _ => True :=
    meets_perform (by trivial) fun _ _ => trivial
  exact (ofTokens_meets hrevoke).bind fun _ _ => trivial

/-- Entering a handler, and what comes after. -/
theorem enter_meets {handler : Handler} {params : List String} {p : ApiProg ApiResult}
    (hhandler : req.handler = some handler) (hadmits : F.Admits pl ex req handler.access user)
    (h : ApiMeets pl ex F req p fun _ => True) :
    ApiMeets pl ex F req (demand (.enter handler params user) >>= fun _ => p) fun _ => True :=
  meets_perform_bind ⟨hhandler, hadmits⟩ fun _ _ => h

-- the methods as they are called, not as they go
attribute [local irreducible] Accounts.AuthService.register Accounts.AuthService.verifyEmail
  Accounts.AuthService.resendVerificationEmail Accounts.AuthService.forgotPassword
  Accounts.AuthService.resetPassword SignIn.AuthService.login SignIn.AuthService.loginWithGoogle
  SignIn.AuthService.refreshTokens in
/-- The handlers of `AuthController`. -/
theorem handle_auth_meets {params : List String} (hcalled : F.called req) {method : AuthHandler}
    (hhandler : req.handler = some (.auth method))
    (hadmits : F.Admits pl ex req (Handler.auth method).access user) :
    ApiMeets pl ex F req (handle pl req params user (.auth method)) fun _ => True := by
  cases method with
  | register =>
      rw [handle]
      split
      · next dto hdto =>
          refine enter_meets hhandler hadmits (serving_account_meets ?_)
          exact (register_meets hcalled ⟨hhandler, hdto⟩).bind fun _ _ => trivial
      · trivial
  | login =>
      rw [handle]
      split
      · next dto hdto =>
          refine enter_meets hhandler hadmits (serving_meets ?_)
          exact (login_meets hcalled ⟨hhandler, hdto⟩).bind fun _ _ => trivial
      · trivial
  | verifyEmail =>
      rw [handle]
      split
      · next token hdto =>
          refine enter_meets hhandler hadmits (serving_account_meets ?_)
          exact (verifyEmail_meets hcalled (.inl ⟨hhandler, hdto⟩)).bind fun _ _ => trivial
      · trivial
  | verifyEmailFromLink =>
      refine enter_meets hhandler hadmits (serving_account_meets ?_)
      exact (verifyEmail_meets hcalled (.inr ⟨hhandler, rfl⟩)).bind fun _ _ => trivial
  | resendVerificationEmail =>
      rw [handle]
      split
      · next email hdto =>
          refine enter_meets hhandler hadmits (serving_account_meets ?_)
          exact (resendVerificationEmail_meets hcalled ⟨hhandler, hdto⟩).bind fun _ _ => trivial
      · trivial
  | forgotPassword =>
      rw [handle]
      split
      · next email hdto =>
          refine enter_meets hhandler hadmits (serving_account_meets ?_)
          exact (forgotPassword_meets hcalled ⟨hhandler, hdto⟩).bind fun _ _ => trivial
      · trivial
  | resetPassword =>
      rw [handle]
      split
      · next dto hdto =>
          refine enter_meets hhandler hadmits (serving_account_meets ?_)
          exact (resetPassword_meets hcalled ⟨hhandler, hdto⟩).bind fun _ _ => trivial
      · trivial
  | googleLogin => exact enter_meets hhandler hadmits trivial
  | googleCallback =>
      obtain ⟨googleUser, rfl, hprofile⟩ := hadmits
      refine enter_meets hhandler ⟨googleUser, rfl, hprofile⟩ (serving_meets ?_)
      exact (loginWithGoogle_meets ⟨hcalled, hhandler, hprofile⟩).bind fun _ _ => trivial
  | refresh =>
      obtain ⟨jwtUser, rfl, hrefreshes, hgranted⟩ := hadmits
      refine enter_meets hhandler ⟨jwtUser, rfl, hrefreshes, hgranted⟩ (serving_meets ?_)
      exact (refreshTokens_meets hcalled hhandler hrefreshes hgranted).bind fun _ _ => trivial
  | logout =>
      obtain ⟨jwtUser, rfl, hauth⟩ := hadmits
      refine enter_meets hhandler ⟨jwtUser, rfl, hauth⟩ ?_
      exact (ofServices_meets (logout_meets jwtUser)).bind fun _ _ => trivial
  | adminPing => exact enter_meets hhandler hadmits trivial

/-- The handlers of `UsersController`. -/
theorem handle_users_meets {params : List String} (hcalled : F.called req)
    {method : UsersHandler} (hhandler : req.handler = some (.users method))
    (hadmits : F.Admits pl ex req (Handler.users method).access user)
    (hparams : req.userParam pl ex = params.head?.bind pl.toUuid) :
    ApiMeets pl ex F req (handle pl req params user (.users method)) fun _ => True := by
  cases method with
  | findAll => exact enter_meets hhandler hadmits trivial
  | findById =>
      refine enter_meets hhandler hadmits ?_
      split
      · trivial
      · exact (ofServices_meets (getUserProfile_meets _)).bind fun _ _ => trivial
  | getUserProfile =>
      obtain ⟨jwtUser, rfl, hauth⟩ := hadmits
      refine enter_meets hhandler ⟨jwtUser, rfl, hauth⟩ ?_
      exact (ofServices_meets (getUserProfile_meets _)).bind fun _ _ => trivial
  | updateUsername =>
      obtain ⟨jwtUser, rfl, hauth⟩ := hadmits
      rw [handle]
      split
      · next name hdto =>
          refine enter_meets hhandler ⟨jwtUser, rfl, hauth⟩ (serving_account_meets ?_)
          exact (updateUserName_meets hcalled ⟨hhandler, hdto⟩ hauth.1).bind fun _ _ => trivial
      · trivial
  | promoteToDriver =>
      obtain ⟨jwtUser, rfl, hauth, hrole⟩ := hadmits
      rw [handle]
      split
      · next dto hdto =>
          refine enter_meets hhandler ⟨jwtUser, rfl, hauth, hrole⟩ ?_
          split
          · trivial
          · next id hid =>
              have hadmin : jwtUser.role = .ADMIN := List.mem_singleton.mp hrole
              have hpromoted : Warrant pl ex F id .role .DRIVER :=
                .promoted hcalled ⟨hhandler, hdto⟩ (hparams.trans hid) hauth hadmin
              refine serving_account_meets ?_
              have hreq := HttpRequest.not_setsTo hhandler (by decide) (by decide)
              exact (promoteToDriver_meets hpromoted hreq).bind fun _ _ => trivial
      · trivial

/-- **A handler that is entered by whom it is for keeps to the warrants.** -/
theorem handle_meets {params : List String} (hcalled : F.called req) {handler : Handler}
    (hhandler : req.handler = some handler) (hadmits : F.Admits pl ex req handler.access user)
    (hparams : req.userParam pl ex = params.head?.bind pl.toUuid) :
    ApiMeets pl ex F req (handle pl req params user handler) fun _ => True := by
  cases handler with
  | app method => cases method; exact enter_meets hhandler hadmits trivial
  | auth method => exact handle_auth_meets hcalled hhandler hadmits
  | users method => exact handle_users_meets hcalled hhandler hadmits hparams
  | drivers method => exact enter_meets hhandler hadmits trivial
  | orders method => exact enter_meets hhandler hadmits trivial

/-- **What becomes of a request keeps to the warrants.** -/
theorem serve_meets (hcalled : F.called req) :
    ApiMeets pl ex F req (serve pl ex req) fun _ => True := by
  rw [serve]
  split
  · trivial
  · next e he =>
      have hmem : e ∈ endpoints := Routing.mem_of_dispatch he
      have hhandler : req.handler = some e.handler := by
        rw [HttpRequest.handler, he]
        rfl
      split
      · trivial
      · next params hparams =>
          refine (runGuards_meets hmem).bind fun user hadmits => ?_
          split
          · refine handle_meets hcalled hhandler hadmits ?_
            rw [HttpRequest.userParam, he, Option.bind_some, hparams, Option.bind_some]
          · trivial

end LogisticsDispatch
