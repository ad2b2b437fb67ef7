/-
Whom the rate limiter counts: `getClientTracker`, and the guard that asks the storage.

The guard counts a request under the key of the client it comes from. Where no proxy is trusted,
Express takes the address of the socket for that client; but `getClientTracker` looks at the header
`x-forwarded-for` first, whether a proxy is trusted or not. So two values of the header give one
tracker exactly if they name one client (`tracker_eq_iff`), and what a sender gets through in a
window is bounded as long as the headers of its requests do (`limited_of_run`).
-/
import LogisticsDispatch.RateLimit
import LogisticsDispatch.ThrottleKey

set_option autoImplicit false

namespace LogisticsDispatch

open Transition RedisThrottlerStorage

/-! ## The tracker -/

/-- The client that the header names: the first of its entries. -/
def forwardedClient : Option HeaderValue → Option String
  | some (.text forwardedFor) => (truthy (some forwardedFor)).map fun text =>
      trim (splitFirst ',' text)
  | _ => none

/-- `getClientTracker`. -/
def getClientTracker (request : RequestLike) : String :=
  match forwardedClient request.forwardedFor, request.ips, truthy request.ip,
    truthy request.remoteAddress with
  | some client, _, _, _ => client
  | none, some (client :: _), _, _ => client
  | none, _, some ip, _ => ip
  | none, _, none, some remoteAddress => remoteAddress
  | none, _, none, none => "unknown-client"

/-- What Express makes of the socket where it trusts no proxy, as it does unless `TRUST_PROXY`
is `true`. -/
structure Arrived (TRUST_PROXY : Option String) (request : RequestLike) : Prop where
  ip : TRUST_PROXY ≠ some "true" → request.ip = request.remoteAddress
  ips : TRUST_PROXY ≠ some "true" → request.ips = some []

/-- The client at the other end of the socket. -/
def socketClient (address : Option String) : String := (truthy address).getD "unknown-client"

/-- The first of the entries of a header, between which there are commas. -/
inductive FirstEntry (entry : String) : String → Prop
  | only (hplain : ',' ∉ entry.toList) : FirstEntry entry entry
  | before (hplain : ',' ∉ entry.toList) (others : String) :
      FirstEntry entry (entry ++ "," ++ others)

/-- The client a header names: its first entry without blanks around it, or the client at the
socket where there is no header, no text in it, or a list of headers. -/
inductive NamesClient (address : Option String) : Option HeaderValue → String → Prop
  | entry {entry text : String} (htext : text ≠ "") (hentry : FirstEntry entry text) :
      NamesClient address (some (.text text)) (trim entry)
  | absent : NamesClient address none (socketClient address)
  | empty : NamesClient address (some (.text "")) (socketClient address)
  | list (values : List String) : NamesClient address (some (.list values)) (socketClient address)

section Tracker

variable {TRUST_PROXY : Option String} {request : RequestLike}

/-- Where no proxy is trusted, the tracker is still the client that the header names. -/
theorem getClientTracker_eq (hproxy : TRUST_PROXY ≠ some "true")
    (harrived : Arrived TRUST_PROXY request) : getClientTracker request
      = (forwardedClient request.forwardedFor).getD (socketClient request.remoteAddress) := by
  rw [getClientTracker, harrived.ips hproxy, harrived.ip hproxy, socketClient]
  cases forwardedClient request.forwardedFor with
  | some client => rfl
  | none =>
      cases truthy request.remoteAddress with
      | some remoteAddress => rfl
      | none => rfl

/-- The first entry is what `split` finds first. -/
theorem firstEntry_iff {entry text : String} :
    FirstEntry entry text ↔ splitFirst ',' text = entry := by
  constructor
  · rintro (hplain | ⟨hplain, others⟩)
    · exact splitFirst_eq_self hplain
    · have hlist : (entry ++ "," ++ others).toList = entry.toList ++ ',' :: others.toList := by
        simp [String.toList_append]
      rw [splitFirst, hlist, Separated.before_append hplain, String.ofList_toList]
  · rintro rfl
    obtain ⟨hplain, hall | ⟨others, hothers⟩⟩ := Separated.before_spec ',' text.toList
    · have hsame : splitFirst ',' text = text := by rw [splitFirst, ← hall, String.ofList_toList]
      rw [hsame]
      exact .only (hall ▸ hplain)
    · have htext : text = splitFirst ',' text ++ "," ++ String.ofList others := by
        rw [← String.toList_inj, hothers]
        simp [splitFirst, String.toList_append]
      have hentry : FirstEntry (splitFirst ',' text)
          (splitFirst ',' text ++ "," ++ String.ofList others) := by
        refine .before ?_ _
        rw [splitFirst, String.toList_ofList]
        exact hplain
      rwa [← htext] at hentry

/-- The client a header names is the one the tracker is made of. -/
theorem namesClient_iff {address : Option String} {header : Option HeaderValue}
    {client : String} : NamesClient address header client ↔
      (forwardedClient header).getD (socketClient address) = client := by
  constructor
  · intro h
    cases h with
    | entry htext hentry =>
        rw [forwardedClient, truthy_of_ne htext, Option.map_some, Option.getD_some,
          firstEntry_iff.mp hentry]
    | absent => rfl
    | empty => rfl
    | list values => rfl
  · rintro rfl
    cases header with
    | none => exact .absent
    | some value =>
        cases value with
        | list values => exact .list values
        | text text =>
            by_cases htext : text = ""
            · subst htext
              exact .empty
            · rw [forwardedClient, truthy_of_ne htext, Option.map_some, Option.getD_some]
              exact .entry htext (firstEntry_iff.mpr rfl)

end Tracker

/-- The request with another header. -/
def RequestLike.withHeader (request : RequestLike) (header : Option HeaderValue) : RequestLike :=
  { request with forwardedFor := header }

theorem Arrived.withHeader {TRUST_PROXY : Option String} {request : RequestLike}
    (h : Arrived TRUST_PROXY request) (header : Option HeaderValue) :
    Arrived TRUST_PROXY (request.withHeader header) := ⟨h.ip, h.ips⟩

/-- **Two headers give one tracker** exactly if they name one client. -/
theorem tracker_eq_iff {TRUST_PROXY : Option String} {request : RequestLike}
    (hproxy : TRUST_PROXY ≠ some "true") (harrived : Arrived TRUST_PROXY request)
    (header header' : Option HeaderValue) :
    getClientTracker (request.withHeader header) = getClientTracker (request.withHeader header') ↔
      ∃ client, NamesClient request.remoteAddress header client ∧
        NamesClient request.remoteAddress header' client := by
  rw [getClientTracker_eq hproxy (harrived.withHeader header),
    getClientTracker_eq hproxy (harrived.withHeader header')]
  constructor
  · intro h
    exact ⟨_, namesClient_iff.mpr rfl, namesClient_iff.mpr h.symm⟩
  · rintro ⟨client, h, h'⟩
    exact (namesClient_iff.mp h).trans (namesClient_iff.mp h').symm

/-! ## The guard -/

/-- The limits that `@Throttle` gives a route, or the global ones. -/
structure ThrottlerOptions where
  ttl : ℕ
  limit : ℕ
  blockDuration : ℕ

/-- The limits are positive. What is configured need not be: `parsePositiveInt` takes a number
above zero and rounds it down, so that `0.5` becomes `0`, and the global limits are whatever
`Number` makes of the text, unless it is `0` or no number. -/
structure ThrottlerOptions.Positive (options : ThrottlerOptions) : Prop where
  ttl : 0 < options.ttl
  limit : 0 < options.limit
  blockDuration : 0 < options.blockDuration

/-- One step: a request that reaches the guard, time that passes, or Redis forgetting its
scripts. -/
inductive GuardAction
  | handleRequest (a : RoutedRequest)
  | pass (ms : ℕ)
  | scriptFlush

/-- A sender: a socket address, and the route the requests are for. -/
structure Sender where
  remoteAddress : Option String
  method : String
  route : Route
deriving DecidableEq

/-- Who has sent a request. -/
def RoutedRequest.sender (a : RoutedRequest) : Sender :=
  ⟨a.request.remoteAddress, a.method, a.route⟩

section Guard

variable (toLowerCase sha256 : String → String) (options : Route → ThrottlerOptions)

/-- The key of a request, as the guard has it made. -/
def RoutedRequest.key (a : RoutedRequest) : String :=
  generateThrottleKey toLowerCase sha256 a.request (getClientTracker a.request)
    defaultThrottler.text

/-- What the guard calls `increment` with. -/
def RoutedRequest.call (a : RoutedRequest) : Increment where
  key := a.key toLowerCase sha256
  ttl := (options a.route).ttl
  limit := (options a.route).limit
  blockDuration := (options a.route).blockDuration
  throttlerName := defaultThrottler.text

/-- The step of the storage that a step is. -/
def GuardAction.stored : GuardAction → ThrottleAction
  | handleRequest a => .increment (a.call toLowerCase sha256 options)
  | pass ms => .pass ms
  | scriptFlush => .scriptFlush

/-- **The guard**: each request is one call of `increment`. -/
def throttlerGuard : System Throttling GuardAction where
  Init := throttler.Init
  step s a := throttler.step s (a.stored toLowerCase sha256 options)

/-- The guard lets a request of the sender through. -/
def admits (who : Sender) (m : Move Throttling GuardAction) : Bool :=
  match m.act with
  | .handleRequest a => decide (a.sender = who) &&
      (increment (a.call toLowerCase sha256 options) m.src).any fun result => !result.1.isBlocked
  | _ => false

/-- The requests of a sender that get through before a time. -/
def admittedBefore (who : Sender) (t : ℕ) (tr : List (Move Throttling GuardAction)) : ℕ :=
  tr.countP fun m => admits toLowerCase sha256 options who m && decide (m.src.redis.now < t)

/-- A request of the sender that opens a window: there is no count and no block under its key. -/
structure OpensWindow (who : Sender) (m : Move Throttling GuardAction) (a : RoutedRequest) :
    Prop where
  act : m.act = .handleRequest a
  sender : a.sender = who
  count : m.src.redis.entry (a.call toLowerCase sha256 options).countKey = none
  block : m.src.redis.entry (a.call toLowerCase sha256 options).blockKey = none

/-- From the request that opens a window until the window is over, no more requests of the sender
get through than the limit of the route. -/
def Limited (who : Sender) (tr : List (Move Throttling GuardAction)) : Prop :=
  ∀ later m earlier a, tr = later ++ m :: earlier →
    OpensWindow toLowerCase sha256 options who m a →
    admittedBefore toLowerCase sha256 options who (m.src.redis.now + (options who.route).ttl)
      (later ++ [m]) ≤ (options who.route).limit

end Guard

/-! ## One key for a sender -/

/-- All headers of the sender's requests name one client. -/
def OneClient (who : Sender) (tr : List (Move Throttling GuardAction)) : Prop :=
  ∃ client, ∀ m ∈ tr, ∀ a, m.act = .handleRequest a → a.sender = who →
    NamesClient a.request.remoteAddress a.request.forwardedFor client

/-- The requests of a run arrive as Express hands them on. -/
def AllArrived (TRUST_PROXY : Option String) (tr : List (Move Throttling GuardAction)) : Prop :=
  ∀ m ∈ tr, ∀ a, m.act = .handleRequest a → Arrived TRUST_PROXY a.request

/-- The digest tells apart the texts that the requests of a run are counted under. -/
def NoCollision (toLowerCase sha256 : String → String)
    (tr : List (Move Throttling GuardAction)) : Prop :=
  ∀ m ∈ tr, ∀ m' ∈ tr, ∀ a b, m.act = .handleRequest a → m'.act = .handleRequest b →
    RoutedRequest.Distinct sha256
      (keyText toLowerCase sha256 a.request (getClientTracker a.request) defaultThrottler.text)
      (keyText toLowerCase sha256 b.request (getClientTracker b.request) defaultThrottler.text)

theorem route_method : ∀ route ∈ routes, ∀ method ∈ route.methods,
    route.method = if method = "HEAD" then "GET" else method := by
  decide

/-- A route is told by the method and the template. -/
theorem RoutedRequest.route_eq {a b : RoutedRequest} (hmethod : a.method = b.method)
    (htemplate : a.route.template = b.route.template) : a.route = b.route := by
  have hpath : a.route.path = b.route.path := by
    rw [← String.toList_inj, Route.template_toList, Route.template_toList] at htemplate
    exact String.toList_inj.mp (List.append_cancel_left htemplate)
  have ha := route_method a.route a.known a.method a.answered
  have hb := route_method b.route b.known b.method b.answered
  rw [← hmethod] at hb
  exact Route.ext (ha.trans hb.symm) hpath

section Keys

variable {toLowerCase sha256 : String → String} {options : Route → ThrottlerOptions}
  {a b : RoutedRequest}

/-- Calls under one count key are under one key. -/
theorem RoutedRequest.key_eq
    (h : (a.call toLowerCase sha256 options).countKey
      = (b.call toLowerCase sha256 options).countKey) :
    a.key toLowerCase sha256 = b.key toLowerCase sha256 := by
  rw [← String.toList_inj, countKey_toList, countKey_toList, List.append_left_inj,
    List.append_right_inj] at h
  simp only [call, List.append_left_inj, String.toList_inj] at h
  exact h

/-- Requests of one sender with one tracker are one call. -/
theorem RoutedRequest.call_eq (hsender : a.sender = b.sender)
    (htracker : getClientTracker a.request = getClientTracker b.request) :
    a.call toLowerCase sha256 options = b.call toLowerCase sha256 options := by
  obtain ⟨-, hmethod, hroute⟩ := Sender.mk.inj hsender
  have htext := (a.keyText_inj b toLowerCase sha256 (getClientTracker a.request)
    (getClientTracker b.request) defaultThrottler defaultThrottler).mpr
      ⟨rfl, hmethod, by rw [hroute], htracker⟩
  rw [call, call, key, key, generateThrottleKey, generateThrottleKey, htext, hroute]

end Keys

/-! ## What gets through -/

section Limited

variable {toLowerCase sha256 : String → String} {options : Route → ThrottlerOptions}
  {who : Sender} {tr : List (Move Throttling GuardAction)} {s : Throttling}
  {TRUST_PROXY : Option String}

/-- The run of the storage that a run of the guard is. -/
theorem stored_run (run : Run (throttlerGuard toLowerCase sha256 options) tr s) :
    Run throttler (tr.map (Move.relabel (GuardAction.stored toLowerCase sha256 options))) s :=
  run.relabel (fun _ h => h) fun _ _ _ h => h

/-- All calls under the key of a request have its limits, since they are for its route. -/
theorem sameLimits_of_run (options : Route → ThrottlerOptions)
    (hfree : NoCollision toLowerCase sha256 tr)
    {m : Move Throttling GuardAction} {a : RoutedRequest} (hm : m ∈ tr)
    (hact : m.act = .handleRequest a) :
    SameLimits (a.call toLowerCase sha256 options)
      (tr.map (Move.relabel (GuardAction.stored toLowerCase sha256 options))) := by
  intro m' hm' call hcall hkey
  obtain ⟨m₁, hm₁, rfl⟩ := List.mem_map.mp hm'
  simp only [Move.relabel] at hcall
  cases hact₁ : m₁.act with
  | pass ms =>
      rw [hact₁] at hcall
      cases hcall
  | scriptFlush =>
      rw [hact₁] at hcall
      cases hcall
  | handleRequest b =>
      rw [hact₁] at hcall
      obtain rfl := ThrottleAction.increment.inj hcall
      have hsame := (b.sharesBucket_iff a toLowerCase sha256 _ _ defaultThrottler
        defaultThrottler (hfree m₁ hm₁ m hm b a hact₁ hact)).mp (RoutedRequest.key_eq hkey)
      have hroute := RoutedRequest.route_eq hsame.method hsame.template
      simp only [RoutedRequest.call, hroute, and_self]

/-- The sender's requests have one tracker, if their headers name one client. -/
theorem tracker_of_oneClient (hproxy : TRUST_PROXY ≠ some "true")
    (harrived : AllArrived TRUST_PROXY tr) {client : String}
    (hone : ∀ m ∈ tr, ∀ a, m.act = .handleRequest a → a.sender = who →
      NamesClient a.request.remoteAddress a.request.forwardedFor client)
    {m : Move Throttling GuardAction} {a : RoutedRequest} (hm : m ∈ tr)
    (hact : m.act = .handleRequest a) (hsender : a.sender = who) :
    getClientTracker a.request = client := by
  rw [getClientTracker_eq hproxy (harrived m hm a hact)]
  exact namesClient_iff.mp (hone m hm a hact hsender)

/-- A request of the sender that gets through is a call that passes. -/
theorem passes_of_admits {m : Move Throttling GuardAction} {a : RoutedRequest}
    (hcall : ∀ b, m.act = .handleRequest b → b.sender = who →
      b.call toLowerCase sha256 options = a.call toLowerCase sha256 options)
    (h : admits toLowerCase sha256 options who m = true) :
    CallsWith (a.call toLowerCase sha256 options)
        (m.relabel (GuardAction.stored toLowerCase sha256 options)) ∧
      (returned (m.relabel (GuardAction.stored toLowerCase sha256 options))).any
        (fun record => !record.isBlocked) = true := by
  cases hact : m.act with
  | pass ms =>
      rw [admits, hact] at h
      cases h
  | scriptFlush =>
      rw [admits, hact] at h
      cases h
  | handleRequest b =>
      rw [admits, hact, Bool.and_eq_true, decide_eq_true_eq] at h
      have hstored : GuardAction.stored toLowerCase sha256 options m.act
          = .increment (a.call toLowerCase sha256 options) := by
        rw [hact, ← hcall b hact h.1]
        rfl
      refine ⟨⟨_, hstored, rfl⟩, ?_⟩
      simp only [returned, Move.relabel, hstored, Option.any_map]
      rw [hcall b hact h.1] at h
      exact h.2

/-- **What a sender gets through is bounded**, as long as its headers name one client. -/
theorem limited_of_run (hproxy : TRUST_PROXY ≠ some "true")
    (run : Run (throttlerGuard toLowerCase sha256 options) tr s)
    (harrived : AllArrived TRUST_PROXY tr) (hfree : NoCollision toLowerCase sha256 tr)
    (hpos : (options who.route).Positive) (hone : OneClient who tr) :
    Limited toLowerCase sha256 options who tr := by
  rintro later m earlier a rfl hopens
  obtain ⟨client, hone⟩ := hone
  have hm : m ∈ later ++ m :: earlier := List.mem_append_right _ List.mem_cons_self
  have hroute : a.route = who.route := by
    rw [← hopens.sender]
    rfl
  have htracker := tracker_of_oneClient hproxy harrived hone hm hopens.act hopens.sender
  have hcall : ∀ m' ∈ later ++ [m], ∀ b, m'.act = .handleRequest b → b.sender = who →
      b.call toLowerCase sha256 options = a.call toLowerCase sha256 options := by
    intro m' hm' b hact hsender
    have hmem : m' ∈ later ++ m :: earlier := by
      rw [List.append_cons]
      exact List.mem_append_left _ hm'
    refine RoutedRequest.call_eq (hsender.trans hopens.sender.symm) ?_
    rw [tracker_of_oneClient hproxy harrived hone hmem hact hsender, htracker]
  have hstored := stored_run run
  rw [List.map_append, List.map_cons] at hstored
  have hsame := sameLimits_of_run options hfree hm hopens.act
  rw [List.map_append, List.map_cons] at hsame
  rw [← hroute] at hpos
  have hcreates : Creates (a.call toLowerCase sha256 options)
      (m.relabel (GuardAction.stored toLowerCase sha256 options)) := by
    refine ⟨⟨_, ?_, rfl⟩, hopens.count, hopens.block⟩
    rw [Move.relabel, hopens.act]
    rfl
  have hpassed := passed_of_run ⟨hpos.ttl, hpos.limit, hpos.blockDuration⟩ hstored hsame hcreates
  rw [← hroute]
  refine le_trans ?_ hpassed
  -- each request of the sender that gets through is a call that passes
  rw [admittedBefore, passedBefore, ← List.map_singleton, ← List.map_append, List.countP_map]
  refine List.countP_mono_left fun m' hm' hadmits => ?_
  rw [Bool.and_eq_true] at hadmits
  obtain ⟨hcalls, hreturned⟩ := passes_of_admits (hcall m' hm') hadmits.1
  simp only [Function.comp_apply, Bool.and_eq_true]
  exact ⟨⟨decide_eq_true hcalls, hadmits.2⟩, hreturned⟩

/-- **The header and the limit.** Unless a proxy is trusted, two headers give a request one
tracker, and so one key, exactly if they name one client; and in every run in which the headers of
a sender's requests name one client, no more of them get through in a window than the limit of the
route. -/
theorem limit_kept (toLowerCase sha256 : String → String)
    (options : Route → ThrottlerOptions) (hproxy : TRUST_PROXY ≠ some "true") :
    (∀ request header header', Arrived TRUST_PROXY request →
      ((getClientTracker (request.withHeader header)
          = getClientTracker (request.withHeader header') ∧
        ∀ name, generateThrottleKey toLowerCase sha256 (request.withHeader header)
            (getClientTracker (request.withHeader header)) name
          = generateThrottleKey toLowerCase sha256 (request.withHeader header')
            (getClientTracker (request.withHeader header')) name) ↔
      ∃ client, NamesClient request.remoteAddress header client ∧
        NamesClient request.remoteAddress header' client)) ∧
    ∀ who tr s, Run (throttlerGuard toLowerCase sha256 options) tr s →
      AllArrived TRUST_PROXY tr → NoCollision toLowerCase sha256 tr →
      (options who.route).Positive → OneClient who tr →
      Limited toLowerCase sha256 options who tr := by
  refine ⟨fun request header header' harrived => ?_, fun who tr s run harrived hfree hpos hone =>
    limited_of_run hproxy run harrived hfree hpos hone⟩
  rw [← tracker_eq_iff hproxy harrived header header']
  constructor
  · rintro ⟨htracker, -⟩
    exact htracker
  · intro htracker
    refine ⟨htracker, fun name => ?_⟩
    rw [htracker]
    rfl

end Limited

/-! ### Two logins in a minute that allows one -/

/-- A login with a header. -/
def loginWith (header : Option HeaderValue) : RoutedRequest :=
  { loginRequest "ada@mail" with request := (loginRequest "ada@mail").request.withHeader header }

/-- One request a minute. -/
def oneAMinute : Route → ThrottlerOptions := fun _ => ⟨60000, 1, 900000⟩

/-- Two logins with these headers. -/
def twoLogins (header header' : Option HeaderValue) : List GuardAction :=
  [.handleRequest (loginWith header), .handleRequest (loginWith header')]

/-- The moves they make, from a Redis without keys. -/
def loginMoves (header header' : Option HeaderValue) : List (Move Throttling GuardAction) :=
  (throttlerGuard id id oneAMinute).moves [] emptyThrottling (twoLogins header header')

theorem loginMoves_run (header header' : Option HeaderValue)
    (h : ((throttlerGuard id id oneAMinute).exec emptyThrottling
      (twoLogins header header')).isSome) :
    ∃ s, Run (throttlerGuard id id oneAMinute) (loginMoves header header') s :=
  ⟨_, (Run.init fun _ => rfl).exec (Option.some_get h).symm⟩

/-- All requests of the moves are among the two logins. -/
theorem login_of_loginMoves {header header' : Option HeaderValue}
    {m : Move Throttling GuardAction} {a : RoutedRequest} (hm : m ∈ loginMoves header header')
    (hact : m.act = .handleRequest a) : a = loginWith header ∨ a = loginWith header' := by
  rcases System.act_mem_of_moves hm with h | h
  · cases h
  · rw [hact] at h
    simpa [twoLogins] using h

/-- Two logins without the header are limited. -/
theorem limit_kept_login :
    Limited id id oneAMinute (loginRequest "ada@mail").sender (loginMoves none none) := by
  obtain ⟨s, run⟩ := loginMoves_run none none rfl
  have hproxy : (none : Option String) ≠ some "true" := by decide
  refine (limit_kept id id oneAMinute hproxy).2 _ _ s run
    (fun m hm a hact => ?_) (fun _ _ _ _ _ _ _ _ h => h) ⟨by decide, by decide, by decide⟩
    ⟨"10.0.0.7", fun m hm a hact _ => ?_⟩
  · obtain rfl : a = loginWith none := by simpa using login_of_loginMoves hm hact
    exact ⟨fun _ => rfl, fun _ => rfl⟩
  · obtain rfl : a = loginWith none := by simpa using login_of_loginMoves hm hact
    exact .absent

/-- With a header of its own, each of two logins gets through, where one is allowed. -/
theorem header_dodges :
    Arrived none (loginRequest "ada@mail").request ∧
    getClientTracker (loginWith (some (.text "1.1.1.1"))).request
      ≠ getClientTracker (loginWith (some (.text "2.2.2.2"))).request ∧
    (∃ s, Run (throttlerGuard id id oneAMinute)
      (loginMoves (some (.text "1.1.1.1")) (some (.text "2.2.2.2"))) s) ∧
    ¬ Limited id id oneAMinute (loginRequest "ada@mail").sender
      (loginMoves (some (.text "1.1.1.1")) (some (.text "2.2.2.2"))) := by
  refine ⟨⟨fun _ => rfl, fun _ => rfl⟩, by decide, loginMoves_run _ _ rfl, fun h => ?_⟩
  have hle := h [_] _ [] (loginWith (some (.text "1.1.1.1"))) rfl ⟨rfl, rfl, rfl, rfl⟩
  exact absurd hle (by decide)

end LogisticsDispatch
