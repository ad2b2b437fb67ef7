/-
The key a request is counted under: `throttle-key.util.ts`.

`generateThrottleKey` joins the throttler's name, the method, the path template, the tracker and,
on four routes that take an email, a part for the email, and hashes the text. The template is the
one Nest registers a handler under, and under `setGlobalPrefix('api/v1')` it has the prefix. The
texts in `EMAIL_SENSITIVE_AUTH_ROUTES` have no prefix. So the text of a request to a route of the
application never has the part for the email (`keyText_routed`), and two requests share a bucket
exactly if they agree in the other four parts (`sharesBucket_iff`).

The last part compares this with the buckets that are meant.
-/
import LogisticsDispatch.Accounts
import LogisticsDispatch.Lib.Separated
import LogisticsDispatch.Listing

set_option autoImplicit false

namespace LogisticsDispatch

/-! ## Requests -/

/-- A header as Node hands it out. -/
inductive HeaderValue
  | text (value : String)
  | list (values : List String)
deriving DecidableEq

/-- `RequestLike`. -/
structure RequestLike where
  method : Option String
  baseUrl : Option String
  path : Option String
  url : Option String
  /-- `route?.path`. -/
  routePath : Option String
  body : Option Json
  /-- `headers?.['x-forwarded-for']`. -/
  forwardedFor : Option HeaderValue
  ips : Option (List String)
  ip : Option String
  /-- `socket?.remoteAddress`. -/
  remoteAddress : Option String

/-- The value on the left of a `||`, unless it is falsy. -/
def truthy (value : Option String) : Option String := value.filter (· ≠ "")

/-- `text.split(separator)[0]`. -/
def splitFirst (separator : Char) (text : String) : String :=
  String.ofList (Separated.before separator text.toList)

/-- `toUpperCase`, of a method. All methods Node accepts are ASCII. -/
def toUpperCase (method : String) : String := String.ofList (method.toList.map Char.toUpper)

/-- `parts.join('|')`. -/
def joinParts (parts : List String) : String :=
  String.ofList (Separated.join '|' (parts.map String.toList))

/-! ## The key -/

/-- `EMAIL_SENSITIVE_AUTH_ROUTES`. -/
def EMAIL_SENSITIVE_AUTH_ROUTES : List String :=
  ["POST /auth/register", "POST /auth/login", "POST /auth/resend-verification-email",
    "POST /auth/forgot-password"]

/-- `getStableRoutePath`. -/
def getStableRoutePath (request : RequestLike) : String :=
  let routePath := (((truthy request.routePath).or (truthy request.path)).or
    (truthy request.url)).getD "/"
  let withoutQuery := splitFirst '?' routePath
  let baseUrl := (truthy request.baseUrl).getD ""
  (truthy (some (baseUrl ++ withoutQuery))).getD "/"

section Node

variable (toLowerCase sha256 : String → String)

/-- The email of a body, in lower case and trimmed, `none` where there is none. -/
def normalisedEmail (body : Option Json) : Option String :=
  match body.bind (Json.get "email") with
  | some (.str email) => truthy (some (trim (toLowerCase email)))
  | _ => none

/-- `getEmailIdentityPart`. -/
def getEmailIdentityPart (routeKey : String) (body : Option Json) : Option String :=
  if routeKey ∈ EMAIL_SENSITIVE_AUTH_ROUTES then
    (normalisedEmail toLowerCase body).map fun email =>
      "email:" ++ String.ofList ((sha256 email).toList.take 16)
  else none

/-- The text that `generateThrottleKey` hashes. -/
def keyText (request : RequestLike) (tracker throttlerName : String) : String :=
  let method := toUpperCase ((truthy request.method).getD "UNKNOWN")
  let routePath := getStableRoutePath request
  let routeKey := method ++ " " ++ routePath
  joinParts ([some throttlerName, some method, some routePath, some ("ip:" ++ tracker),
    getEmailIdentityPart toLowerCase sha256 routeKey request.body].filterMap truthy)

/-- `generateThrottleKey`. -/
def generateThrottleKey (request : RequestLike) (tracker throttlerName : String) : String :=
  sha256 (keyText toLowerCase sha256 request tracker throttlerName)

end Node

/-! ## The routes of the application -/

/-- A route: its method, and its path template without the prefix. -/
@[ext] structure Route where
  method : String
  path : String
deriving DecidableEq

/-- The routes that take an email. -/
def emailRoutes : List Route :=
  [⟨"POST", "/auth/register"⟩, ⟨"POST", "/auth/login"⟩,
    ⟨"POST", "/auth/resend-verification-email"⟩, ⟨"POST", "/auth/forgot-password"⟩]

/-- The handlers of the controllers. -/
def routes : List Route :=
  emailRoutes ++
    [⟨"POST", "/auth/verify-email"⟩, ⟨"GET", "/auth/verify-email"⟩,
      ⟨"POST", "/auth/reset-password"⟩, ⟨"GET", "/auth/google"⟩,
      ⟨"GET", "/auth/google/callback"⟩, ⟨"POST", "/auth/refresh"⟩, ⟨"POST", "/auth/logout"⟩,
      ⟨"GET", "/auth/admin/ping"⟩,
      ⟨"GET", "/users"⟩, ⟨"GET", "/users/:id"⟩, ⟨"GET", "/users/me"⟩,
      ⟨"PATCH", "/users/me/name"⟩, ⟨"POST", "/users/:id/promote-to-driver"⟩,
      ⟨"POST", "/orders"⟩, ⟨"GET", "/orders/:id"⟩, ⟨"GET", "/orders"⟩,
      ⟨"PATCH", "/orders/:id/status"⟩, ⟨"PATCH", "/orders/:id/reassign"⟩,
      ⟨"PATCH", "/orders/:id/cancel"⟩, ⟨"DELETE", "/orders/:id"⟩,
      ⟨"GET", "/drivers/me"⟩, ⟨"PATCH", "/drivers/me/availability"⟩,
      ⟨"PATCH", "/drivers/me/location"⟩, ⟨"PATCH", "/drivers/orders/:orderId/accept"⟩,
      ⟨"PATCH", "/drivers/orders/:orderId/reject"⟩, ⟨"GET", "/drivers"⟩,
      ⟨"GET", "/drivers/:id"⟩, ⟨"PATCH", "/drivers/:id/suspension"⟩,
      ⟨"GET", ""⟩]

/-- The path template of a route under the global prefix. -/
def Route.template (route : Route) : String := "/api/v1" ++ route.path

/-- The methods a route answers to: Express answers `HEAD` where there is a `GET`. -/
def Route.methods (route : Route) : List String :=
  if route.method = "GET" then ["GET", "HEAD"] else [route.method]

/-- A request that has been routed to a handler. -/
structure RoutedRequest where
  request : RequestLike
  route : Route
  known : route ∈ routes
  method : String
  answered : method ∈ route.methods
  method_eq : request.method = some method
  baseUrl_eq : request.baseUrl = some ""
  routePath_eq : request.routePath = some route.template

/-- The name of a throttler. The one that is configured is `default`. -/
structure ThrottlerName where
  text : String
  nonempty : text ≠ ""
  plain : '|' ∉ text.toList

/-- `default`. -/
def defaultThrottler : ThrottlerName := ⟨"default", by decide, by decide⟩

/-! ## The text of a routed request -/

theorem paths_plain : ∀ route ∈ routes, '?' ∉ route.path.toList ∧ '|' ∉ route.path.toList := by
  decide +kernel

theorem methods_plain : ∀ route ∈ routes, ∀ method ∈ route.methods,
    method ≠ "" ∧ toUpperCase method = method ∧ '|' ∉ method.toList := by
  decide +kernel

/-- No route of the application is in the list: the templates have the prefix. -/
theorem template_unlisted : ∀ route ∈ routes, ∀ method ∈ route.methods,
    method ++ " " ++ route.template ∉ EMAIL_SENSITIVE_AUTH_ROUTES := by
  decide +kernel

theorem truthy_of_ne {text : String} (h : text ≠ "") : truthy (some text) = some text := by
  simp [truthy, h]

theorem Route.template_toList (route : Route) :
    route.template.toList = "/api/v1".toList ++ route.path.toList := by
  rw [template, String.toList_append]

theorem Route.template_plain {route : Route} (h : route ∈ routes) {c : Char}
    (hc : c = '?' ∨ c = '|') : c ∉ route.template.toList := by
  obtain ⟨hquery, hbar⟩ := paths_plain route h
  rw [template_toList, List.mem_append, not_or]
  rcases hc with rfl | rfl
  · exact ⟨by decide, hquery⟩
  · exact ⟨by decide, hbar⟩

theorem Route.template_ne (route : Route) : route.template ≠ "" := by
  rw [ne_eq, ← String.toList_inj, template_toList]
  simp

theorem splitFirst_eq_self {separator : Char} {text : String} (h : separator ∉ text.toList) :
    splitFirst separator text = text := by
  rw [splitFirst, Separated.before_eq_self h, String.ofList_toList]

namespace RoutedRequest

variable (a b : RoutedRequest)

/-- The stable path of a routed request is the template of its route. -/
theorem getStableRoutePath_eq : getStableRoutePath a.request = a.route.template := by
  have hne := a.route.template_ne
  have hbase : (truthy (some "")).getD "" = "" := rfl
  rw [getStableRoutePath, a.routePath_eq, a.baseUrl_eq, truthy_of_ne hne]
  simp only [Option.some_or, Option.getD_some]
  rw [splitFirst_eq_self (Route.template_plain a.known (.inl rfl)), hbase, String.empty_append,
    truthy_of_ne hne, Option.getD_some]

theorem method_upper :
    toUpperCase ((truthy a.request.method).getD "UNKNOWN") = a.method := by
  obtain ⟨hne, hupper, -⟩ := methods_plain a.route a.known a.method a.answered
  rw [a.method_eq, truthy_of_ne hne, Option.getD_some, hupper]

variable (toLowerCase sha256 : String → String)

/-- **The text of a routed request** has four parts. -/
theorem keyText_routed (tracker : String) (name : ThrottlerName) :
    keyText toLowerCase sha256 a.request tracker name.text
      = joinParts [name.text, a.method, a.route.template, "ip:" ++ tracker] := by
  obtain ⟨hmethod, -⟩ := methods_plain a.route a.known a.method a.answered
  have hip : "ip:" ++ tracker ≠ "" := by
    rw [ne_eq, ← String.toList_inj, String.toList_append]
    simp
  have hemail : getEmailIdentityPart toLowerCase sha256 (a.method ++ " " ++ a.route.template)
      a.request.body = none :=
    if_neg (template_unlisted a.route a.known a.method a.answered)
  rw [keyText, a.method_upper, a.getStableRoutePath_eq, hemail]
  simp only [List.filterMap_cons, truthy_of_ne name.nonempty, truthy_of_ne hmethod,
    truthy_of_ne a.route.template_ne, truthy_of_ne hip, List.filterMap_nil]
  rfl

/-- Two requests with the same throttler, method, template and tracker. -/
structure SameBucket (ta tb : String) (na nb : ThrottlerName) : Prop where
  name : na = nb
  method : a.method = b.method
  template : a.route.template = b.route.template
  tracker : ta = tb

/-- Two texts agree exactly if the four parts do. Only the tracker may hold a bar, and it comes
last. -/
theorem keyText_inj (ta tb : String) (na nb : ThrottlerName) :
    keyText toLowerCase sha256 a.request ta na.text
        = keyText toLowerCase sha256 b.request tb nb.text ↔ a.SameBucket b ta tb na nb := by
  obtain ⟨-, -, ha⟩ := methods_plain a.route a.known a.method a.answered
  obtain ⟨-, -, hb⟩ := methods_plain b.route b.known b.method b.answered
  rw [keyText_routed, keyText_routed, joinParts, joinParts, String.ofList_inj]
  simp only [List.map_cons, List.map_nil]
  rw [Separated.join_cons_inj na.plain nb.plain, Separated.join_cons_inj ha hb,
    Separated.join_cons_inj (Route.template_plain a.known (.inr rfl))
      (Route.template_plain b.known (.inr rfl)),
    Separated.join_singleton, Separated.join_singleton, String.toList_append,
    String.toList_append, List.append_right_inj, String.toList_inj, String.toList_inj,
    String.toList_inj, String.toList_inj]
  constructor
  · rintro ⟨hname, hmethod, htemplate, htracker⟩
    exact ⟨by cases na; cases nb; congr, hmethod, htemplate, htracker⟩
  · rintro ⟨rfl, hmethod, htemplate, htracker⟩
    exact ⟨rfl, hmethod, htemplate, htracker⟩

/-- Two texts that the digest tells apart, if they differ. -/
def Distinct (x y : String) : Prop := sha256 x = sha256 y → x = y

/-- **Two requests share a bucket** exactly if they agree in the four parts, as long as their two
texts do not collide. -/
theorem sharesBucket_iff (ta tb : String) (na nb : ThrottlerName)
    (hfree : Distinct sha256 (keyText toLowerCase sha256 a.request ta na.text)
      (keyText toLowerCase sha256 b.request tb nb.text)) :
    generateThrottleKey toLowerCase sha256 a.request ta na.text
        = generateThrottleKey toLowerCase sha256 b.request tb nb.text ↔
      a.SameBucket b ta tb na nb := by
  rw [← keyText_inj a b toLowerCase sha256, generateThrottleKey, generateThrottleKey]
  exact ⟨hfree, congrArg sha256⟩

/-! ## The buckets that are meant -/

/-- The email a request is meant to be counted by: that of the body on the routes that take one. -/
def meantEmail : Option String :=
  if a.route ∈ emailRoutes then normalisedEmail toLowerCase a.request.body else none

/-- Two requests that are meant to share a bucket. -/
structure MeantToShare (ta tb : String) (na nb : ThrottlerName) : Prop
    extends a.SameBucket b ta tb na nb where
  email : a.meantEmail toLowerCase = b.meantEmail toLowerCase

/-- **Buckets are the ones that are meant**, except for two requests to one route that takes an
email, by one method, throttler and tracker, whose emails differ. -/
theorem bucket_as_meant_iff (ta tb : String) (na nb : ThrottlerName)
    (hfree : Distinct sha256 (keyText toLowerCase sha256 a.request ta na.text)
      (keyText toLowerCase sha256 b.request tb nb.text)) :
    (generateThrottleKey toLowerCase sha256 a.request ta na.text
        = generateThrottleKey toLowerCase sha256 b.request tb nb.text ↔
      a.MeantToShare b toLowerCase ta tb na nb) ↔
    ¬ (a.SameBucket b ta tb na nb ∧ a.meantEmail toLowerCase ≠ b.meantEmail toLowerCase) := by
  rw [sharesBucket_iff a b toLowerCase sha256 ta tb na nb hfree]
  constructor
  · rintro hmeant ⟨hsame, hemail⟩
    exact hemail (hmeant.mp hsame).email
  · intro hnot
    constructor
    · intro hsame
      by_contra hmeant
      exact hnot ⟨hsame, fun hemail => hmeant ⟨hsame, hemail⟩⟩
    · intro hmeant
      exact hmeant.toSameBucket

end RoutedRequest

/-! ### Two logins -/

/-- A request to log in with an email. -/
def loginRequest (email : String) : RoutedRequest where
  request :=
    { method := some "POST"
      baseUrl := some ""
      path := some "/api/v1/auth/login"
      url := some "/api/v1/auth/login"
      routePath := some "/api/v1/auth/login"
      body := some (.obj [("email", .str email), ("password", .str "secret")])
      forwardedFor := none
      ips := some []
      ip := some "10.0.0.7"
      remoteAddress := some "10.0.0.7" }
  route := ⟨"POST", "/auth/login"⟩
  known := by decide
  method := "POST"
  answered := by decide
  method_eq := rfl
  baseUrl_eq := rfl
  routePath_eq := rfl

/-- Two logins with one email are counted together, as they are meant to be. -/
theorem bucket_as_meant_iff_login :
    (generateThrottleKey id id (loginRequest "ada@mail").request "10.0.0.7" "default"
        = generateThrottleKey id id (loginRequest " ada@mail").request "10.0.0.7" "default" ↔
      (loginRequest "ada@mail").MeantToShare (loginRequest " ada@mail") id "10.0.0.7" "10.0.0.7"
        defaultThrottler defaultThrottler) :=
  (RoutedRequest.bucket_as_meant_iff (loginRequest "ada@mail") (loginRequest " ada@mail") id id
    "10.0.0.7" "10.0.0.7" defaultThrottler defaultThrottler (fun h => h)).mpr fun h =>
      h.2 (by decide)

/-- Logins with two emails are counted together too. -/
theorem logins_share_bucket :
    ¬ (generateThrottleKey id id (loginRequest "ada@mail").request "10.0.0.7" "default"
        = generateThrottleKey id id (loginRequest "bob@mail").request "10.0.0.7" "default" ↔
      (loginRequest "ada@mail").MeantToShare (loginRequest "bob@mail") id "10.0.0.7" "10.0.0.7"
        defaultThrottler defaultThrottler) := by
  intro h
  have hshared := ((loginRequest "ada@mail").sharesBucket_iff (loginRequest "bob@mail") id id
    "10.0.0.7" "10.0.0.7" defaultThrottler defaultThrottler (fun h => h)).mpr ⟨rfl, rfl, rfl, rfl⟩
  have hemail := (h.mp hshared).email
  exact absurd hemail (by decide)

end LogisticsDispatch
