/-
The handlers of the controllers: their routes, their guards and who they are for.

Nest registers the handlers of a controller in the order they are written in, under the global
prefix, and Express hands a request to the first that answers it: literals are compared without
regard to case, a parameter stands for one segment that is not empty, and one slash may follow.

`dispatch_exact` says which requests a handler gets. Two pairs of handlers have templates that
meet. `drivers/me` comes before `drivers/:id`, and takes its requests. `users/:id` comes before
`users/me`, which gets none.
-/
import LogisticsDispatch.Lib.Routing
import LogisticsDispatch.ThrottleKey

set_option autoImplicit false

namespace LogisticsDispatch

open Routing

/-! ## Handlers -/

/-- The methods of `AppController`. -/
inductive AppHandler
  | getHello
deriving DecidableEq

/-- The methods of `AuthController`. -/
inductive AuthHandler
  | register | login | verifyEmail | verifyEmailFromLink | resendVerificationEmail
  | forgotPassword | resetPassword | googleLogin | googleCallback | refresh | logout | adminPing
deriving DecidableEq

/-- The methods of `UsersController`. -/
inductive UsersHandler
  | findAll | findById | getUserProfile | updateUsername | promoteToDriver
deriving DecidableEq

/-- The methods of `DriversController`. -/
inductive DriversHandler
  | getMyProfile | toggleAvailability | updateLocation | acceptOrderDispatch
  | rejectOrderDispatch | findAll | findById | toggleSuspension
deriving DecidableEq

/-- The methods of `OrdersController`. -/
inductive OrdersHandler
  | createOrder | findById | findAll | updateStatus | reassignOrder | cancelOrder | softDelete
deriving DecidableEq

/-- A method of a controller. -/
inductive Handler
  | app (method : AppHandler)
  | auth (method : AuthHandler)
  | users (method : UsersHandler)
  | drivers (method : DriversHandler)
  | orders (method : OrdersHandler)
deriving DecidableEq

/-- What `@UseGuards` and `APP_GUARD` name. `AuthGuard('google')` is `GoogleAuthGuard`. -/
inductive Guard
  | ThrottlerGuard | JwtAuthGuard | RolesGuard | RefreshAuthGuard | GoogleAuthGuard
deriving DecidableEq

/-- The decorators of a class or of a method that the guards are about. -/
structure Decorators where
  isPublic : Option Bool
  roles : Option (List UserRole)
  useGuards : List Guard
deriving DecidableEq

/-- A handler with its decorators, and those of its class. -/
structure Endpoint where
  handler : Handler
  method : String
  /-- The path of the controller, and then the handler's. -/
  path : List String
  controller : Decorators
  decorators : Decorators
deriving DecidableEq

namespace Decorators

def none : Decorators := ⟨.none, .none, []⟩

/-- `@Public()`. -/
def Public : Decorators := ⟨some true, .none, []⟩

/-- `@Roles(...)`. -/
def Roles (roles : List UserRole) : Decorators := ⟨.none, some roles, []⟩

/-- `@UseGuards(...)`. -/
def UseGuards (guards : List Guard) : Decorators := ⟨.none, .none, guards⟩

end Decorators

/-! ## The controllers -/

open Decorators

/-- A handler of `AuthController`. -/
def AuthHandler.endpoint (h : AuthHandler) (method : String) (path : List String)
    (decorators : Decorators) : Endpoint :=
  ⟨.auth h, method, "auth" :: path, Decorators.none, decorators⟩

/-- A handler of a class with `@UseGuards(JwtAuthGuard, RolesGuard)`. -/
def guarded (h : Handler) (method : String) (path : List String) (roles : List UserRole) :
    Endpoint :=
  ⟨h, method, path, UseGuards [.JwtAuthGuard, .RolesGuard], Roles roles⟩

/-- A handler of `UsersController`. -/
def UsersHandler.endpoint (h : UsersHandler) (method : String) (path : List String)
    (roles : List UserRole) : Endpoint :=
  guarded (.users h) method ("users" :: path) roles

/-- A handler of `DriversController`. -/
def DriversHandler.endpoint (h : DriversHandler) (method : String) (path : List String)
    (roles : List UserRole) : Endpoint :=
  guarded (.drivers h) method ("drivers" :: path) roles

/-- A handler of `OrdersController`. -/
def OrdersHandler.endpoint (h : OrdersHandler) (method : String) (path : List String)
    (roles : List UserRole) : Endpoint :=
  guarded (.orders h) method ("orders" :: path) roles

/-- The handlers, in the order they are registered in. -/
def endpoints : List Endpoint :=
  [⟨.app .getHello, "GET", [], Decorators.none, Public⟩,
    AuthHandler.endpoint .register "POST" ["register"] Public,
    AuthHandler.endpoint .login "POST" ["login"] Public,
    AuthHandler.endpoint .verifyEmail "POST" ["verify-email"] Public,
    AuthHandler.endpoint .verifyEmailFromLink "GET" ["verify-email"] Public,
    AuthHandler.endpoint .resendVerificationEmail "POST" ["resend-verification-email"] Public,
    AuthHandler.endpoint .forgotPassword "POST" ["forgot-password"] Public,
    AuthHandler.endpoint .resetPassword "POST" ["reset-password"] Public,
    AuthHandler.endpoint .googleLogin "GET" ["google"]
      { Public with useGuards := [.GoogleAuthGuard] },
    AuthHandler.endpoint .googleCallback "GET" ["google", "callback"]
      { Public with useGuards := [.GoogleAuthGuard] },
    AuthHandler.endpoint .refresh "POST" ["refresh"]
      { Public with useGuards := [.RefreshAuthGuard] },
    AuthHandler.endpoint .logout "POST" ["logout"] (UseGuards [.JwtAuthGuard]),
    AuthHandler.endpoint .adminPing "GET" ["admin", "ping"]
      { Roles [.ADMIN] with useGuards := [.JwtAuthGuard, .RolesGuard] },
    UsersHandler.endpoint .findAll "GET" [] [.ADMIN],
    UsersHandler.endpoint .findById "GET" [":id"] [.ADMIN],
    UsersHandler.endpoint .getUserProfile "GET" ["me"] [.CUSTOMER, .DRIVER, .ADMIN],
    UsersHandler.endpoint .updateUsername "PATCH" ["me", "name"] [.CUSTOMER, .DRIVER, .ADMIN],
    UsersHandler.endpoint .promoteToDriver "POST" [":id", "promote-to-driver"] [.ADMIN],
    OrdersHandler.endpoint .createOrder "POST" [] [.CUSTOMER],
    OrdersHandler.endpoint .findById "GET" [":id"] [.CUSTOMER, .ADMIN, .DRIVER],
    OrdersHandler.endpoint .findAll "GET" [] [.CUSTOMER, .ADMIN],
    OrdersHandler.endpoint .updateStatus "PATCH" [":id", "status"] [.DRIVER, .ADMIN],
    OrdersHandler.endpoint .reassignOrder "PATCH" [":id", "reassign"] [.ADMIN],
    OrdersHandler.endpoint .cancelOrder "PATCH" [":id", "cancel"] [.CUSTOMER, .ADMIN],
    OrdersHandler.endpoint .softDelete "DELETE" [":id"] [.ADMIN],
    DriversHandler.endpoint .getMyProfile "GET" ["me"] [.DRIVER],
    DriversHandler.endpoint .toggleAvailability "PATCH" ["me", "availability"] [.DRIVER],
    DriversHandler.endpoint .updateLocation "PATCH" ["me", "location"] [.DRIVER],
    DriversHandler.endpoint .acceptOrderDispatch "PATCH" ["orders", ":orderId", "accept"]
      [.DRIVER],
    DriversHandler.endpoint .rejectOrderDispatch "PATCH" ["orders", ":orderId", "reject"]
      [.DRIVER],
    DriversHandler.endpoint .findAll "GET" [] [.ADMIN],
    DriversHandler.endpoint .findById "GET" [":id"] [.ADMIN],
    DriversHandler.endpoint .toggleSuspension "PATCH" [":id", "suspension"] [.ADMIN]]

namespace Endpoint

variable (e : Endpoint)

/-- `reflector.getAllAndOverride(IS_PUBLIC_KEY, [handler, class])`. -/
def isPublic : Bool := (e.decorators.isPublic.or e.controller.isPublic).getD false

/-- `reflector.getAllAndOverride(ROLES_KEY, [handler, class])`. -/
def roles : Option (List UserRole) := e.decorators.roles.or e.controller.roles

/-- The guards in front of a handler: the global ones, those of its class, its own. -/
def guards : List Guard :=
  [.ThrottlerGuard, .JwtAuthGuard] ++ e.controller.useGuards ++ e.decorators.useGuards

/-- The method and the path template. -/
def route : Route := ⟨e.method, String.join (e.path.map fun segment => "/" ++ segment)⟩

/-- A segment of a template: one that begins with a colon is a parameter. -/
def segment (text : String) : Segment String :=
  match text.toList with
  | ':' :: name => .param (String.ofList name)
  | _ => .literal text

/-- The template of a handler, under the global prefix. -/
def template : List (Segment String) := ("api" :: "v1" :: e.path).map segment

end Endpoint

/-! ## Which handler a request is for -/

/-- What a request asks for: its method, and the segments of its path. -/
structure Target where
  method : String
  path : List String
deriving DecidableEq

/-- A text, for a comparison without regard to case. -/
def foldCase (text : String) : List Char := text.toList.map Char.toLower

/-- A parameter does not stand for the empty text. -/
def isParam (text : String) : Bool := decide (text ≠ "")

/-- The segments of a path; one slash at its end does not count. -/
def pathSegments (path : String) : List String :=
  let texts := ((path.toList.splitOn '/').tail).map String.ofList
  if texts.getLast? = some "" then texts.dropLast else texts

/-- Whether a handler answers a request. -/
def Endpoint.answers (e : Endpoint) (target : Target) : Bool :=
  decide (target.method ∈ e.route.methods) &&
    Routing.accepts foldCase isParam e.template target.path

/-- The handler Express hands a request to. -/
def handlerOf (target : Target) : Option Endpoint :=
  Routing.dispatch Endpoint.answers endpoints target

/-- Whether two handlers may answer the same request. -/
def Endpoint.meets (e e' : Endpoint) : Bool :=
  (e.route.methods.any fun method => decide (method ∈ e'.route.methods)) &&
    Routing.meets foldCase e.template e'.template

/-- The handlers are those whose routes requests are counted by. -/
theorem endpoints_routes : (endpoints.map Endpoint.route).Perm routes := by
  decide +kernel

/-- Which handlers come after one that may answer the same. -/
theorem rivals_of_endpoint : ∀ e ∈ endpoints,
    rivals Endpoint.meets endpoints e =
      if e.handler = .users .getUserProfile then
        [UsersHandler.endpoint .findById "GET" [":id"] [.ADMIN]]
      else if e.handler = .drivers .findById then
        [DriversHandler.endpoint .getMyProfile "GET" ["me"] [.DRIVER]]
      else [] := by
  decide +kernel

/-- A handler is in the list once. -/
theorem endpoint_of_handler :
    ∀ e ∈ endpoints, ∀ e' ∈ endpoints, e.handler = e'.handler → e = e' := by
  decide +kernel

theorem Endpoint.meets_of_answers {e e' : Endpoint} {target : Target}
    (h : e.answers target = true) (h' : e'.answers target = true) : e.meets e' = true := by
  simp only [answers, Bool.and_eq_true, decide_eq_true_eq] at h h'
  simp only [meets, Bool.and_eq_true, List.any_eq_true, decide_eq_true_eq]
  exact ⟨⟨target.method, h.1, h'.1⟩, Routing.meets_of_accepts h.2 h'.2⟩

/-- Texts that are alike but for their case are empty alike. -/
theorem isParam_of_foldCase (x y : String) (h : foldCase x = foldCase y) :
    isParam x = isParam y := by
  have hlength := congrArg List.length h
  rw [foldCase, foldCase, List.length_map, List.length_map] at hlength
  have hempty : ∀ z : String, z = "" ↔ z.toList.length = 0 := by
    intro z
    rw [List.length_eq_zero_iff, ← String.toList_inj, String.toList_empty]
  rw [isParam, isParam, decide_eq_decide]
  exact not_congr (by rw [hempty x, hempty y, hlength])

/-- `users/:id` answers all that `users/me` does. -/
theorem findById_answers {e : Endpoint} {target : Target} (he : e ∈ endpoints)
    (hhandler : e.handler = .users .getUserProfile) (h : e.answers target = true) :
    (UsersHandler.endpoint .findById "GET" [":id"] [.ADMIN]).answers target = true := by
  have hprofile : UsersHandler.endpoint .getUserProfile "GET" ["me"] [.CUSTOMER, .DRIVER, .ADMIN]
      ∈ endpoints := by decide +kernel
  obtain rfl := endpoint_of_handler _ he _ hprofile hhandler
  simp only [Endpoint.answers, Bool.and_eq_true, decide_eq_true_eq] at h ⊢
  exact ⟨h.1, Routing.accepts_of_covers isParam_of_foldCase (by decide +kernel) h.2⟩

/-- `drivers/me` answers what `drivers/:id` does, where it reads like it. -/
theorem myProfile_answers {target : Target}
    (h : (DriversHandler.endpoint .findById "GET" [":id"] [.ADMIN]).answers target = true) :
    (DriversHandler.endpoint .getMyProfile "GET" ["me"] [.DRIVER]).answers target = false ↔
      target.path.map foldCase ≠ ["api", "v1", "drivers", "me"].map foldCase := by
  have htemplate : (DriversHandler.endpoint .getMyProfile "GET" ["me"] [.DRIVER]).template
      = ["api", "v1", "drivers", "me"].map Segment.literal := by decide +kernel
  simp only [Endpoint.answers, Bool.and_eq_true, decide_eq_true_eq] at h
  have hmethod : target.method ∈
      (DriversHandler.endpoint .getMyProfile "GET" ["me"] [.DRIVER]).route.methods := h.1
  rw [Endpoint.answers, htemplate, decide_eq_true hmethod, Bool.true_and, ← Bool.not_eq_true,
    Routing.accepts_literals]

/-- **Which requests a handler gets**: those it answers, whatever other handlers there are, but
`drivers/:id` not those to `drivers/me`, and `users/me` none. -/
theorem dispatch_exact (target : Target) (e : Endpoint) : handlerOf target = some e ↔
    e ∈ endpoints ∧ e.answers target = true ∧ e.handler ≠ .users .getUserProfile ∧
      (e.handler = .drivers .findById →
        target.path.map foldCase ≠ ["api", "v1", "drivers", "me"].map foldCase) := by
  have hmeets : ∀ e' e target, Endpoint.answers e' target = true →
      Endpoint.answers e target = true → Endpoint.meets e' e = true := fun _ _ _ => Endpoint.meets_of_answers
  rw [handlerOf, dispatch_eq_some_iff Endpoint.meets hmeets]
  refine and_congr_right fun he => and_congr_right fun hanswers => ?_
  rw [rivals_of_endpoint e he]
  by_cases hprofile : e.handler = .users .getUserProfile
  · rw [if_pos hprofile]
    simp [hprofile, findById_answers he hprofile hanswers]
  · rw [if_neg hprofile]
    by_cases hfind : e.handler = .drivers .findById
    · have hfindById : DriversHandler.endpoint .findById "GET" [":id"] [.ADMIN] ∈ endpoints := by
        decide +kernel
      obtain rfl := endpoint_of_handler _ he _ hfindById hfind
      rw [if_pos hfind, List.forall_mem_singleton, myProfile_answers hanswers]
      simp [hfind]
    · rw [if_neg hfind]
      simp [hprofile, hfind]

end LogisticsDispatch
