/-
How often a refresh token is accepted.

Between the get and the delete of `verifyRefreshToken` a second call may get the same hash, and
both accept the token; and `generateTokens` may store the hash of a new token, which the delete
then removes.

Where neither happens (`Serial`), the calls follow the rules of one-time tokens: each is in the
role its program is at (`Shape`), and the steps are steps of a `OneTime.Book`. So a token is
accepted once, and an acceptance removes no other token's hash (`accepted_once`).
-/
import LogisticsDispatch.Tokens

set_option autoImplicit false

namespace LogisticsDispatch

open Resumable Resumable.Program TokenService

variable {crypto : Crypto} {s s' : TokenSys} {a : TokenAction} {i : ℕ}
  {tr : List (Transition.Move TokenSys TokenAction)}

/-! ## Accepting a token -/

/-- Call `i` has accepted the token. -/
def Accepted (s : TokenSys) (i : ℕ) (token : String) : Prop :=
  ∃ userId, s.threads.lookup i = some ⟨.verifyRefreshToken token, .ret (.userId userId)⟩

/-- Call `i` has got the hash of its token from a key, and has not deleted the key yet. -/
def Holding (crypto : Crypto) (s : TokenSys) (i : ℕ) (userId token : String) : Prop :=
  s.call i = some (.verifyRefreshToken token) ∧ (splitToken token).1 = userId ∧
    ((∃ hash, s.next i = some (.verifyHash hash token) ∧ crypto.verifyHash hash token = true) ∨
      s.next i = some (.redisDel userId))

/-- No call stores a hash under a key while another has got the hash of its token from there, and
no call gets the hash of a token that another has got. -/
structure Serial (crypto : Crypto) (m : Transition.Move TokenSys TokenAction) : Prop where
  stores : ∀ i ch userId hash ttl, m.act = .exec i ch →
    m.src.next i = some (.redisSet userId hash ttl) →
      ∀ j token, ¬ Holding crypto m.src j userId token
  gets : ∀ i ch userId token kept, m.act = .exec i ch →
    m.src.call i = some (.verifyRefreshToken token) → m.src.next i = some (.redisGet userId) →
    m.src.shared.redis userId = some kept → crypto.verifyHash kept.value token = true →
      ∀ j, ¬ Holding crypto m.src j userId token

/-- A token is accepted by one call, and a call that accepts a token removes no other's hash. -/
structure AcceptedOnce (crypto : Crypto) (tr : List (Transition.Move TokenSys TokenAction))
    (s : TokenSys) : Prop where
  once : ∀ token i j, Accepted s i token → Accepted s j token → i = j
  removes : ∀ m ∈ tr, ∀ i ch token userId kept, m.act = .exec i ch →
    m.src.call i = some (.verifyRefreshToken token) → m.src.next i = some (.redisDel userId) →
    m.src.shared.redis userId = some kept →
      ∀ salt token', kept.value = crypto.Hash salt token' → token' = token

/-! ## What a call has left -/

namespace TokenService

/-- `generateTokens` before it stores the hash. -/
def storing (user : User) (accessToken refreshToken hash : String) : TokenProg TokenResult :=
  .op (.redisSet user.id.text hash REFRESH_TTL)
    (orThrow fun _ => .ret (.tokens ⟨accessToken, refreshToken⟩))

/-- `generateTokens` before it hashes the token. -/
def hashing (user : User) (accessToken refreshToken : String) : TokenProg TokenResult :=
  .op (.Hash refreshToken) (orThrow (storing user accessToken refreshToken))

/-- `generateTokens` before it draws the token. -/
def drawing (user : User) (accessToken : String) : TokenProg TokenResult :=
  .op (.randomBytes 64) (orThrow fun hex => hashing user accessToken (refreshTokenOf user.id hex))

/-- `generateTokens` before it signs the access token. -/
def signing (user : User) (driverProfileId : Option DriverId) : TokenProg TokenResult :=
  .op (.signAsync ⟨user.id, user.email, user.role, driverProfileId⟩) (orThrow (drawing user))

/-- `verifyRefreshToken` before it deletes the key. -/
def deleting (userId : String) : TokenProg TokenResult :=
  .op (.redisDel userId) (orThrow fun _ => .ret (.userId userId))

/-- `verifyRefreshToken` before it has the hash compared. -/
def checking (token userId hash : String) : TokenProg TokenResult :=
  .op (.verifyHash hash token) (orThrow fun ok =>
    if !ok then .fail (.UnauthorizedException "Invalid refresh token") else deleting userId)

/-- `verifyRefreshToken` before it gets the hash. -/
def getting (token userId : String) : TokenProg TokenResult :=
  .op (.redisGet userId) (orThrow fun found =>
    match found.filter fun hash => hash ≠ "" with
    | none => .fail (.UnauthorizedException "Refresh token expired or revoked")
    | some hash => checking token userId hash)

end TokenService

/-- What a call has left to do, and its role. -/
inductive Shape (crypto : Crypto) :
    TokenCall → TokenProg TokenResult → Option (OneTime.Role String String) → Prop
  | failed (call : TokenCall) (err : TokenError) : Shape crypto call (.fail err) none
  | finding (user : TokenService.User) :
      Shape crypto (.generateTokens user)
        (.op (.findDriverProfile user.id) (orThrow (signing user))) none
  | signing (user : TokenService.User) (driverProfileId : Option DriverId) :
      Shape crypto (.generateTokens user) (signing user driverProfileId) none
  | drawing (user : TokenService.User) (accessToken : String) :
      Shape crypto (.generateTokens user) (drawing user accessToken) none
  | hashing (user : TokenService.User) (accessToken token : String) :
      Shape crypto (.generateTokens user) (hashing user accessToken token)
        (some (.pending user.id.text token))
  | storing (user : TokenService.User) (accessToken token salt : String) :
      Shape crypto (.generateTokens user) (storing user accessToken token (crypto.Hash salt token))
        (some (.pending user.id.text token))
  | issued (user : TokenService.User) (tokens : Tokens) :
      Shape crypto (.generateTokens user) (.ret (.tokens tokens)) none
  | getting (token : String) :
      Shape crypto (.verifyRefreshToken token) (getting token (splitToken token).1) none
  | mismatch (token hash : String) (h : crypto.verifyHash hash token = false) :
      Shape crypto (.verifyRefreshToken token) (checking token (splitToken token).1 hash) none
  | matched (token hash : String) (h : crypto.verifyHash hash token = true) :
      Shape crypto (.verifyRefreshToken token) (checking token (splitToken token).1 hash)
        (some (.holding (splitToken token).1 token))
  | deleting (token : String) :
      Shape crypto (.verifyRefreshToken token) (deleting (splitToken token).1)
        (some (.holding (splitToken token).1 token))
  | accepted (token userId : String) :
      Shape crypto (.verifyRefreshToken token) (.ret (.userId userId)) (some (.spent token))
  | revoking (userId : UserId) :
      Shape crypto (.revokeRefreshToken userId)
        (.op (.redisDel userId.text) (orThrow fun _ => .ret .void)) none
  | revoked (userId : UserId) : Shape crypto (.revokeRefreshToken userId) (.ret .void) none

/-- `verifyRefreshToken` gets a hash, unless the token is malformed. -/
theorem verifyRefreshToken_program (token : String) :
    (TokenCall.verifyRefreshToken token).program =
      if (splitToken token).1 = "" ∨ (splitToken token).2 = "" then
        .fail (.UnauthorizedException "Malformed refresh token")
      else getting token (splitToken token).1 := by
  rw [TokenCall.program, TokenService.verifyRefreshToken]
  dsimp only
  split
  · rfl
  rw [TokenService.ask, perform_bind_bind, getting]
  congr 2
  funext found
  cases found.filter fun hash => hash ≠ "" with
  | none => rfl
  | some hash =>
      dsimp only
      rw [TokenService.ask, perform_bind_bind, checking]
      congr 2
      funext ok
      cases ok with
      | false => rfl
      | true =>
          simp only [Bool.not_true, Bool.false_eq_true, if_false]
          rw [TokenService.ask, perform_bind_bind, deleting]
          rfl

/-- `generateTokens` looks the driver profile of a driver up, and signs. -/
theorem generateTokens_program (user : TokenService.User) :
    (TokenCall.generateTokens user).program =
      if user.role ≠ .DRIVER then signing user none
      else .op (.findDriverProfile user.id) (orThrow (signing user)) := by
  -- once the profile is known
  have hsigning : ∀ driverProfileId : Option DriverId,
      ((do
        let accessToken ← TokenService.ask
          (.signAsync ⟨user.id, user.email, user.role, driverProfileId⟩)
        let hex ← TokenService.ask (.randomBytes 64)
        let refreshToken := refreshTokenOf user.id hex
        let hashedToken ← TokenService.ask (.Hash refreshToken)
        TokenService.ask (.redisSet user.id.text hashedToken REFRESH_TTL)
        return ({ accessToken, refreshToken } : Tokens)) >>= fun tokens =>
          (pure (.tokens tokens) : TokenProg TokenResult)) = signing user driverProfileId := by
    intro driverProfileId
    rw [TokenService.ask, perform_bind_bind, signing]
    congr 2
    funext accessToken
    rw [TokenService.ask, perform_bind_bind, drawing]
    congr 2
    funext hex
    dsimp only
    rw [TokenService.ask, perform_bind_bind, hashing]
    congr 2
    funext hash
    rw [TokenService.ask, perform_bind_bind, storing]
    rfl
  rw [TokenCall.program, TokenService.generateTokens, resolveDriverProfileId]
  split
  · exact hsigning none
  · rw [TokenService.ask, perform_bind_bind]
    congr 2
    funext driverProfileId
    exact hsigning driverProfileId

/-- A call begins without a role. -/
theorem shape_program (call : TokenCall) : Shape crypto call call.program none := by
  cases call with
  | generateTokens user =>
      rw [generateTokens_program]
      split
      · exact .signing user none
      · exact .finding user
  | verifyRefreshToken token =>
      rw [verifyRefreshToken_program]
      split
      · exact .failed _ _
      · exact .getting token
  | revokeRefreshToken userId =>
      have h : (TokenCall.revokeRefreshToken userId).program
          = .op (.redisDel userId.text) (orThrow fun _ => .ret .void) := by
        rw [TokenCall.program, TokenService.revokeRefreshToken, TokenService.ask, perform_bind]
        rfl
      rw [h]
      exact .revoking userId

/-- All that a call does that goes on. What it draws is new. -/
theorem tokenExec_eq_some {ch : TokenChoice} (h : tokenStep crypto s (.exec i ch) = some s') :
    ∃ call e kont, s.threads.lookup i = some ⟨call, .op e kont⟩ ∧
      s'.shared = (TokenStore.perform crypto ch e s.shared).2 ∧
      s'.threads = s.threads.insert i ⟨call, kont (TokenStore.perform crypto ch e s.shared).1⟩ ∧
      ∀ size, e = .randomBytes size → s.shared.Draws ch.hex := by
  have hadvance : s.advance (tokenMachine crypto) i ch = some s' ∧
      ∀ size, s.next i = some (.randomBytes size) → s.shared.Draws ch.hex := by
    simp only [tokenStep] at h
    split at h
    · split at h
      · next hdraws => exact ⟨h, fun _ _ => hdraws⟩
      · cases h
    · next hnot => exact ⟨h, fun size hnext => absurd hnext (hnot size)⟩
  obtain ⟨hadvance, hdraws⟩ := hadvance
  obtain ⟨call, e, kont, hi, hsh, hth⟩ := Pool.advance_eq_some hadvance
  refine ⟨call, e, kont, hi, hsh, hth, fun size he => hdraws size ?_⟩
  rw [TokenSys.next, hi]
  exact congrArg some he

/-- A token is of what was drawn for it: what comes before the last dot is the user's. -/
theorem hex_of_refreshToken {userId userId' : UserId} {hex hex' : String}
    (h : refreshTokenOf userId hex = refreshTokenOf userId' hex') (hdot : '.' ∉ hex.toList)
    (hdot' : '.' ∉ hex'.toList) : hex = hex' := by
  have hlists := congrArg String.toList h
  simp only [refreshTokenOf, String.toList_append] at hlists
  -- read from the right, what was drawn is what comes before the first dot
  have hreverse : ∀ (x hex : String), '.' ∉ hex.toList →
      (x.toList ++ ".".toList ++ hex.toList).reverse.takeWhile (· ≠ '.') = hex.toList.reverse := by
    intro x hex hdot
    rw [List.reverse_append, List.reverse_append]
    show (hex.toList.reverse ++ '.' :: x.toList.reverse).takeWhile (· ≠ '.') = _
    rw [List.takeWhile_append_of_pos, List.takeWhile_cons_of_neg (by decide), List.append_nil]
    intro c hc
    refine decide_eq_true fun heq => hdot ?_
    rw [← heq]
    exact List.mem_reverse.mp hc
  have hrev := hreverse userId'.text hex' hdot'
  rw [← hlists, hreverse userId.text hex hdot] at hrev
  exact String.toList_inj.mp (List.reverse_injective hrev)

/-! ## The book of the tokens -/

/-- The book has the roles of the calls, the tokens whose hashes are kept, and tokens that were
drawn. -/
structure InBook (crypto : Crypto) (s : TokenSys) (b : OneTime.Book ℕ String String) : Prop where
  idle : ∀ i, s.threads.lookup i = none → b.role i = none
  busy : ∀ i call p, s.threads.lookup i = some ⟨call, p⟩ → Shape crypto call p (b.role i)
  kept : ∀ userId entry, s.shared.redis userId = some entry →
    ∃ token salt, b.stored userId = some token ∧ entry.value = crypto.Hash salt token
  gone : ∀ userId, s.shared.redis userId = none → b.stored userId = none
  drawn : ∀ token, b.drawn token → ∃ userId hex, token = refreshTokenOf userId hex ∧
    hex ∈ s.shared.drawn ∧ '.' ∉ hex.toList

section Book

variable {b : OneTime.Book ℕ String String} {call : TokenCall} {p : TokenProg TokenResult}
  {r : Option (OneTime.Role String String)}

/-- Who has the role of holding a token holds it. -/
theorem InBook.holding {userId token : String} (h : InBook crypto s b)
    (hrole : b.role i = some (.holding userId token)) : Holding crypto s i userId token := by
  cases hi : s.threads.lookup i with
  | none =>
      rw [h.idle i hi] at hrole
      cases hrole
  | some th =>
      obtain ⟨call, p⟩ := th
      have hshape := h.busy i call p hi
      rw [hrole] at hshape
      cases hshape with
      | matched token hash hmatch =>
          refine ⟨?_, rfl, .inl ⟨hash, ?_, hmatch⟩⟩
          · rw [TokenSys.call, hi]
            rfl
          · rw [TokenSys.next, hi]
            rfl
      | deleting token =>
          refine ⟨?_, rfl, .inr ?_⟩
          · rw [TokenSys.call, hi]
            rfl
          · rw [TokenSys.next, hi]
            rfl

/-- A call comes to a shape; the rest of the book is given. -/
theorem InBook.insert {stored : String → Option String} {drawn : String → Prop}
    (h : InBook crypto s b) (hth : s'.threads = s.threads.insert i ⟨call, p⟩)
    (hshape : Shape crypto call p r)
    (hkept : ∀ userId entry, s'.shared.redis userId = some entry →
      ∃ token salt, stored userId = some token ∧ entry.value = crypto.Hash salt token)
    (hgone : ∀ userId, s'.shared.redis userId = none → stored userId = none)
    (hdrawn : ∀ token, drawn token → ∃ userId hex, token = refreshTokenOf userId hex ∧
      hex ∈ s'.shared.drawn ∧ '.' ∉ hex.toList) :
    InBook crypto s' ⟨Function.update b.role i r, stored, drawn⟩ := by
  refine ⟨fun j hj => ?_, fun j call' p' hj => ?_, hkept, hgone, hdrawn⟩
  · rw [hth] at hj
    by_cases hij : j = i
    · subst hij
      rw [AList.lookup_insert] at hj
      cases hj
    · rw [AList.lookup_insert_ne hij] at hj
      exact (Function.update_of_ne hij _ _).trans (h.idle j hj)
  · rw [hth] at hj
    rcases Pool.lookup_insert_cases hj with ⟨rfl, heq⟩ | ⟨hij, hj⟩
    · obtain ⟨rfl, rfl⟩ := Thread.mk.inj heq
      dsimp only
      rwa [Function.update_self]
    · dsimp only
      rw [Function.update_of_ne hij]
      exact h.busy j call' p' hj

/-- A call comes to a shape, and the store stays. -/
theorem InBook.stay (h : InBook crypto s b) (hth : s'.threads = s.threads.insert i ⟨call, p⟩)
    (hsh : s'.shared = s.shared) (hshape : Shape crypto call p r) :
    InBook crypto s' ⟨Function.update b.role i r, b.stored, b.drawn⟩ := by
  refine h.insert hth hshape ?_ ?_ ?_
  · rw [hsh]
    exact h.kept
  · rw [hsh]
    exact h.gone
  · rw [hsh]
    exact h.drawn

/-- A call goes on in its role or gives it up, and the store stays. -/
theorem InBook.quiet (h : InBook crypto s b)
    (hth : s'.threads = s.threads.insert i ⟨call, p⟩) (hsh : s'.shared = s.shared)
    (hshape : Shape crypto call p r) (hr : r = b.role i ∨ r = none) :
    ∃ b', OneTime.Step b b' ∧ InBook crypto s' b' := by
  refine ⟨_, ?_, h.stay hth hsh hshape⟩
  refine .lose (fun j => ?_) (fun _ _ h => h) rfl
  by_cases hij : j = i
  · subst hij
    dsimp only
    rw [Function.update_self]
    exact hr
  · exact .inl (Function.update_of_ne hij _ _)

/-- A key is deleted, and the call gives its role up. -/
theorem InBook.revoke {userId : String} (h : InBook crypto s b)
    (hth : s'.threads = s.threads.insert i ⟨call, p⟩) (hshape : Shape crypto call p r)
    (hredis : s'.shared.redis = Function.update s.shared.redis userId none)
    (hdrawn : s'.shared.drawn = s.shared.drawn) :
    InBook crypto s'
      ⟨Function.update b.role i r, Function.update b.stored userId none, b.drawn⟩ := by
  refine h.insert hth hshape (fun key entry hkey => ?_) (fun key hkey => ?_) ?_
  · rw [hredis] at hkey
    by_cases hk : key = userId
    · subst hk
      rw [Function.update_self] at hkey
      cases hkey
    · rw [Function.update_of_ne hk] at hkey
      rw [Function.update_of_ne hk]
      exact h.kept key entry hkey
  · rw [hredis] at hkey
    by_cases hk : key = userId
    · subst hk
      exact Function.update_self _ _ _
    · rw [Function.update_of_ne hk] at hkey
      rw [Function.update_of_ne hk]
      exact h.gone key hkey
  · rw [hdrawn]
    exact h.drawn

/-- A call draws a token. -/
theorem InBook.draw {userId : UserId} {hex : String} (h : InBook crypto s b)
    (hth : s'.threads = s.threads.insert i ⟨call, p⟩)
    (hsh : s'.shared = { s.shared with drawn := hex :: s.shared.drawn })
    (hshape : Shape crypto call p (some (.pending userId.text (refreshTokenOf userId hex))))
    (hdraws : s.shared.Draws hex) : ∃ b', OneTime.Step b b' ∧ InBook crypto s' b' := by
  obtain ⟨hnew, hdot, -⟩ := hdraws
  refine ⟨⟨_, b.stored, fun token => token = refreshTokenOf userId hex ∨ b.drawn token⟩,
    .draw ?_ (Function.update_self _ _ _) (fun j hj => Function.update_of_ne hj _ _) rfl
      fun _ => Iff.rfl, h.insert hth hshape ?_ ?_ ?_⟩
  -- a token that was drawn was drawn with other bytes
  · intro hdrawn
    obtain ⟨userId', hex', heq, hhex, hdot'⟩ := h.drawn _ hdrawn
    rw [hex_of_refreshToken heq hdot hdot'] at hnew
    exact hnew hhex
  · rw [hsh]
    exact h.kept
  · rw [hsh]
    exact h.gone
  · rw [hsh]
    rintro token (rfl | hdrawn)
    · exact ⟨userId, hex, rfl, List.mem_cons_self, hdot⟩
    · obtain ⟨userId', hex', heq, hhex, hdot'⟩ := h.drawn token hdrawn
      exact ⟨userId', hex', heq, List.mem_cons_of_mem _ hhex, hdot'⟩

/-- A call stores the hash of the token it has drawn, where no call has got its own. -/
theorem InBook.store {userId token salt : String} {ttl : ℕ} (h : InBook crypto s b)
    (hr : b.role i = some (.pending userId token))
    (hth : s'.threads = s.threads.insert i ⟨call, p⟩)
    (hredis : s'.shared.redis = Function.update s.shared.redis userId
      (some ⟨crypto.Hash salt token, ttl⟩)) (hdrawn : s'.shared.drawn = s.shared.drawn)
    (hshape : Shape crypto call p none) (hserial : ∀ j t', ¬ Holding crypto s j userId t') :
    ∃ b', OneTime.Step b b' ∧ InBook crypto s' b' := by
  refine ⟨⟨_, Function.update b.stored userId (some token), b.drawn⟩,
    .store hr (Function.update_self _ _ _) (fun j hj => Function.update_of_ne hj _ _)
      (Function.update_self _ _ _) (fun k hk => Function.update_of_ne hk _ _) rfl
      fun j t' hrole => hserial j t' (h.holding hrole),
    h.insert hth hshape (fun key entry hkey => ?_) (fun key hkey => ?_) ?_⟩
  · rw [hredis] at hkey
    by_cases hk : key = userId
    · subst hk
      rw [Function.update_self] at hkey
      obtain rfl := Option.some.inj hkey
      exact ⟨token, salt, Function.update_self _ _ _, rfl⟩
    · rw [Function.update_of_ne hk] at hkey ⊢
      exact h.kept key entry hkey
  · rw [hredis] at hkey
    by_cases hk : key = userId
    · subst hk
      rw [Function.update_self] at hkey
      cases hkey
    · rw [Function.update_of_ne hk] at hkey ⊢
      exact h.gone key hkey
  · rw [hdrawn]
    exact h.drawn

/-- A call gets the hash of its token, where no other has. -/
theorem InBook.find {userId token salt : String} {entry : RedisEntry} (h : InBook crypto s b)
    (hth : s'.threads = s.threads.insert i ⟨call, p⟩) (hsh : s'.shared = s.shared)
    (hredis : s.shared.redis userId = some entry) (hvalue : entry.value = crypto.Hash salt token)
    (hshape : Shape crypto call p (some (.holding userId token)))
    (hserial : ∀ j, ¬ Holding crypto s j userId token) :
    ∃ b', OneTime.Step b b' ∧ InBook crypto s' b' := by
  obtain ⟨token', salt', hstored, hvalue'⟩ := h.kept userId entry hredis
  -- the token of the hash is the call's
  have hmatch := (crypto.verify_hash salt token token).mpr rfl
  rw [← hvalue, hvalue', crypto.verify_hash] at hmatch
  subst hmatch
  refine ⟨_, ?_, h.stay hth hsh hshape⟩
  exact .find hstored (Function.update_self _ _ _) (fun j hj => Function.update_of_ne hj _ _)
    rfl rfl fun j hrole => hserial j (h.holding hrole)

end Book

/-- What a call does that goes on is a step in the book. -/
theorem InBook.exec {b : OneTime.Book ℕ String String} {ch : TokenChoice} (h : InBook crypto s b)
    (hserial : Serial crypto ⟨s, .exec i ch, s'⟩)
    (hstep : tokenStep crypto s (.exec i ch) = some s') :
    ∃ b', OneTime.Step b b' ∧ InBook crypto s' b' := by
  obtain ⟨call, e, kont, hi, hsh, hth, hdraws⟩ := tokenExec_eq_some hstep
  have hcall : s.call i = some call := by
    rw [TokenSys.call, hi]
    rfl
  have hnext : s.next i = some e := by
    rw [TokenSys.next, hi]
  have hshape := h.busy i call _ hi
  generalize hp : Program.op e kont = p at hshape
  generalize hr : b.role i = r at hshape
  cases hshape with
  | failed call err => cases hp
  | issued user tokens => cases hp
  | accepted token userId => cases hp
  | revoked userId => cases hp
  | finding user =>
      cases hp
      exact h.quiet hth hsh (.signing user _) (.inr rfl)
  | signing user driverProfileId =>
      cases hp
      exact h.quiet hth hsh (.drawing user _) (.inr rfl)
  | drawing user accessToken =>
      cases hp
      exact h.draw hth hsh (.hashing user accessToken _) (hdraws 64 rfl)
  | hashing user accessToken token =>
      cases hp
      exact h.quiet hth hsh (.storing user accessToken token ch.salt) (.inl hr.symm)
  | storing user accessToken token salt =>
      cases hp
      exact h.store hr hth (by rw [hsh]; rfl) (by rw [hsh]; rfl) (.issued user _)
        (hserial.stores i ch _ _ _ rfl hnext)
  | getting token =>
      cases hp
      -- nothing is found, or another token's hash, or the token's
      cases hredis : s.shared.redis (splitToken token).1 with
      | none =>
          refine h.quiet hth hsh ?_ (.inr rfl)
          simp only [TokenStore.perform, hredis]
          exact .failed _ _
      | some entry =>
          obtain ⟨token', salt, hstored, hvalue⟩ := h.kept _ entry hredis
          have hkont : ((some entry.value).filter fun hash => decide (hash ≠ "")) =
              some entry.value := by
            rw [Option.filter_eq_some_iff, decide_eq_true_eq, hvalue]
            exact ⟨rfl, crypto.hash_ne salt token'⟩
          cases hmatch : crypto.verifyHash entry.value token with
          | false =>
              refine h.quiet hth hsh ?_ (.inr rfl)
              simp only [TokenStore.perform, hredis, Option.map_some, orThrow, hkont]
              exact .mismatch token entry.value hmatch
          | true =>
              have htoken : token' = token := by
                rwa [hvalue, crypto.verify_hash] at hmatch
              subst htoken
              refine h.find hth hsh hredis hvalue ?_
                (hserial.gets i ch _ token' entry rfl hcall hnext hredis hmatch)
              simp only [TokenStore.perform, hredis, Option.map_some, orThrow, hkont]
              exact .matched token' entry.value hmatch
  | mismatch token hash hmatch =>
      cases hp
      refine h.quiet hth hsh ?_ (.inr rfl)
      simp only [TokenStore.perform, orThrow, hmatch]
      exact .failed _ _
  | matched token hash hmatch =>
      cases hp
      refine h.quiet hth hsh ?_ (.inl hr.symm)
      simp only [TokenStore.perform, orThrow, hmatch]
      exact .deleting token
  | deleting token =>
      cases hp
      have hrevoked := h.revoke hth (.accepted token _) (by rw [hsh]; rfl) (by rw [hsh]; rfl)
      refine ⟨_, ?_, hrevoked⟩
      exact .delete hr (Function.update_self _ _ _) (fun j hj => Function.update_of_ne hj _ _)
        (Function.update_self _ _ _) (fun k hk => Function.update_of_ne hk _ _) rfl
  | revoking userId =>
      cases hp
      have hrevoked := h.revoke hth (.revoked userId) (by rw [hsh]; rfl) (by rw [hsh]; rfl)
      refine ⟨_, ?_, hrevoked⟩
      refine .lose (fun j => ?_) (fun k t hk => ?_) rfl
      · by_cases hij : j = i
        · subst hij
          exact .inr (Function.update_self _ _ _)
        · exact .inl (Function.update_of_ne hij _ _)
      · by_cases hk' : k = userId.text
        · subst hk'
          dsimp only at hk
          rw [Function.update_self] at hk
          cases hk
        · dsimp only at hk
          rwa [Function.update_of_ne hk'] at hk

/-- What a call is about to do fails. -/
theorem InBook.fail {b : OneTime.Book ℕ String String} (h : InBook crypto s b)
    (hstep : tokenStep crypto s (.fail i) = some s') :
    ∃ b', OneTime.Step b b' ∧ InBook crypto s' b' := by
  obtain ⟨call, e, kont, hi, hsh, hth⟩ := Pool.interrupt_eq_some hstep
  refine h.quiet hth hsh ?_ (.inr rfl)
  have hshape := h.busy i call _ hi
  generalize hp : Program.op e kont = p at hshape
  generalize b.role i = r at hshape
  -- whatever it was about to do, it throws
  cases hshape <;> cases hp <;> exact .failed _ _

/-- Time passes. -/
theorem InBook.pass {b : OneTime.Book ℕ String String} (h : InBook crypto s b) (seconds : ℕ) :
    ∃ b', OneTime.Step b b' ∧
      InBook crypto { s with shared := s.shared.pass seconds } b' := by
  have hkept : ∀ userId entry, (s.shared.pass seconds).redis userId = some entry →
      ∃ entry', s.shared.redis userId = some entry' ∧ entry'.value = entry.value := by
    intro userId entry hentry
    obtain ⟨entry', hentry', hpass⟩ := Option.bind_eq_some_iff.mp hentry
    refine ⟨entry', hentry', ?_⟩
    split at hpass
    · cases hpass
    · obtain rfl := Option.some.inj hpass
      rfl
  refine ⟨⟨b.role, fun userId => if (s.shared.pass seconds).redis userId = none then none
    else b.stored userId, b.drawn⟩, .lose (fun _ => .inl rfl) (fun k t hk => ?_) rfl,
    h.idle, h.busy, fun userId entry hentry => ?_, fun userId hnone => if_pos hnone, h.drawn⟩
  · dsimp only at hk
    split at hk
    · cases hk
    · exact hk
  · have hentry : (s.shared.pass seconds).redis userId = some entry := hentry
    obtain ⟨entry', hentry', hvalue⟩ := hkept userId entry hentry
    obtain ⟨token, salt, hstored, heq⟩ := h.kept userId entry' hentry'
    refine ⟨token, salt, ?_, hvalue ▸ heq⟩
    dsimp only
    rw [if_neg (by rw [hentry]; exact Option.some_ne_none _)]
    exact hstored

/-- **Where calls take turns, a step is a step in the book.** -/
theorem InBook.step {b : OneTime.Book ℕ String String} (h : InBook crypto s b)
    (hserial : Serial crypto ⟨s, a, s'⟩) (hstep : tokenStep crypto s a = some s') :
    ∃ b', OneTime.Step b b' ∧ InBook crypto s' b' := by
  cases a with
  | invoke i call =>
      obtain ⟨hfree, hsh, hth⟩ := Pool.spawn_eq_some hstep
      exact h.quiet hth hsh (shape_program call) (.inr rfl)
  | exec i ch => exact h.exec hserial hstep
  | fail i => exact h.fail hstep
  | pass seconds =>
      obtain rfl := Option.some.inj hstep
      exact h.pass seconds

/-- A state goes with a book in which every token is redeemed once. -/
def InGoodBook (crypto : Crypto) (s : TokenSys) : Prop :=
  ∃ b, InBook crypto s b ∧ OneTime.Inv b

theorem inGoodBook_of_initial (h : s.Initial) : InGoodBook crypto s := by
  refine ⟨⟨fun _ => none, fun _ => none, fun _ => False⟩, ⟨fun _ _ => rfl, ?_, ?_, fun _ _ => rfl,
    fun _ h => h.elim⟩, OneTime.inv_of_empty (fun _ => rfl) fun _ => rfl⟩
  · intro i call p hi
    rw [h.threads, AList.lookup_empty] at hi
    cases hi
  · intro userId entry hentry
    rw [h.redis userId] at hentry
    cases hentry

/-- A call that has accepted a token has redeemed it in the book. -/
theorem InBook.spent {b : OneTime.Book ℕ String String} {token : String} (h : InBook crypto s b)
    (haccepted : Accepted s i token) : b.role i = some (.spent token) := by
  obtain ⟨userId, hi⟩ := haccepted
  have hshape := h.busy i _ _ hi
  generalize b.role i = r at hshape ⊢
  cases hshape with
  | accepted token userId => rfl

/-- A call about to delete the key of its token holds the token in the book. -/
theorem InBook.holds_of_del {b : OneTime.Book ℕ String String} {token userId : String}
    (h : InBook crypto s b) (hcall : s.call i = some (.verifyRefreshToken token))
    (hnext : s.next i = some (.redisDel userId)) : b.role i = some (.holding userId token) := by
  unfold TokenSys.next at hnext
  split at hnext
  · next call e kont hi =>
      obtain rfl := Option.some.inj hnext
      rw [TokenSys.call, hi] at hcall
      obtain rfl := Option.some.inj hcall
      have hshape := h.busy i _ _ hi
      generalize hp : Program.op (TokenEffect.redisDel userId) kont = p at hshape
      generalize b.role i = r at hshape ⊢
      cases hshape with
      | failed call err => cases hp
      | getting token => cases hp
      | mismatch token hash h => cases hp
      | matched token hash h => cases hp
      | deleting token =>
          cases hp
          rfl
      | accepted token userId => cases hp
  · cases hnext

/-- **When a refresh token is accepted once**: in every run in which no hash is stored under a
key, and no hash of a token got again, between the get and the delete of a call that has got
the hash of its token there. -/
theorem accepted_once (run : Transition.Run (tokenSystem crypto) tr s)
    (hserial : ∀ m ∈ tr, Serial crypto m) : AcceptedOnce crypto tr s := by
  have hbook :
      InGoodBook crypto s ∧ ∀ m ∈ tr, InGoodBook crypto m.src ∧ InGoodBook crypto m.dst := by
    refine run.invariant_of (C := Serial crypto) (fun s => inGoodBook_of_initial) ?_ hserial
    rintro s a s' - ⟨b, hb, hinv⟩ hserial hstep
    obtain ⟨b', hstep', hb'⟩ := hb.step hserial hstep
    exact ⟨b', hb', hinv.step hstep'⟩
  refine ⟨fun token i j hi hj => ?_, fun m hm i ch token userId kept hact hcall hnext hredis salt
    token' hvalue => ?_⟩
  · obtain ⟨b, hb, hinv⟩ := hbook.1
    exact hinv.spent_once (hb.spent hi) (hb.spent hj)
  · obtain ⟨b, hb, hinv⟩ := (hbook.2 m hm).1
    obtain ⟨token₁, salt₁, hstored, hvalue₁⟩ := hb.kept userId kept hredis
    -- what is stored where a token is held is that token
    obtain rfl := (hinv.held i userId token (hb.holds_of_del hcall hnext)).1 token₁ hstored
    have hmatch := (crypto.verify_hash salt₁ token₁ token₁).mpr rfl
    rw [← hvalue₁, hvalue] at hmatch
    exact (crypto.verify_hash salt token' token₁).mp hmatch

/-! ## Two calls with one token -/

/-- A customer who logs in. -/
def tokenUser : TokenService.User := ⟨⟨"bob", by decide⟩, "a@b.c", .CUSTOMER⟩

/-- Nothing has happened. -/
def tokenStart : TokenSys := ⟨⟨fun _ => none, []⟩, ∅⟩

theorem tokenStart_initial : tokenStart.Initial := ⟨fun _ => rfl, rfl, rfl⟩

/-- Call `i` performs its next `n` effects. -/
def effects (i n : ℕ) (hex : String) : List TokenAction :=
  List.replicate n (.exec i ⟨hex, "", none⟩)

/-- Call `i` issues a token that ends in `hex`. -/
def issue (i : ℕ) (hex : String) : List TokenAction :=
  .invoke i (.generateTokens tokenUser) :: effects i 4 hex

/-- The token is presented by call `i`, which gets its hash and compares it. -/
def present (i : ℕ) (token : String) : List TokenAction :=
  .invoke i (.verifyRefreshToken token) :: effects i 2 ""

/-- A token is presented by two calls, and both get its hash before one deletes it. -/
def presentedTwice : List TokenAction :=
  issue 0 "aa" ++ present 1 "bob.aa" ++ present 2 "bob.aa" ++ effects 1 1 "" ++
    effects 2 1 ""

/-- A new token is issued while an old one is being accepted. -/
def presentedLate : List TokenAction :=
  issue 0 "aa" ++ present 1 "bob.aa" ++ issue 2 "bb" ++ effects 1 1 ""

/-- One token after the other is issued and accepted. -/
def inTurn : List TokenAction :=
  issue 0 "aa" ++ present 1 "bob.aa" ++ effects 1 1 "" ++ issue 2 "bb" ++
    present 3 "bob.bb" ++ effects 3 1 ""

/-- The moves of the actions. -/
def tokenMoves (as : List TokenAction) : List (Transition.Move TokenSys TokenAction) :=
  (tokenSystem sampleCrypto).moves [] tokenStart as

theorem tokenMoves_run (as : List TokenAction)
    (h : ((tokenSystem sampleCrypto).exec tokenStart as).isSome) :
    Transition.Run (tokenSystem sampleCrypto) (tokenMoves as)
      (((tokenSystem sampleCrypto).exec tokenStart as).get h) :=
  (Transition.Run.init tokenStart_initial).exec (Option.some_get h).symm

/-- Whether call `i` has accepted a token, as a computation. -/
def accepts (s : TokenSys) (i : ℕ) (token : String) : Bool :=
  match s.threads.lookup i with
  | some ⟨.verifyRefreshToken token', .ret (.userId _)⟩ => decide (token' = token)
  | _ => false

theorem accepts_eq_true {token : String} (h : accepts s i token = true) : Accepted s i token := by
  unfold accepts at h
  split at h
  · next token' userId hi =>
      obtain rfl := of_decide_eq_true h
      exact ⟨userId, hi⟩
  · cases h

/-- Whether a move is the acceptance of a token that removes the hash of another, as a
computation. -/
def removesHash (token token' : String) (m : Transition.Move TokenSys TokenAction) : Bool :=
  match m.act with
  | .exec i _ =>
      decide (m.src.call i = some (.verifyRefreshToken token)) &&
        match m.src.next i with
        | some (.redisDel userId) => decide
            ((m.src.shared.redis userId).map RedisEntry.value = some (sampleCrypto.Hash "" token'))
        | _ => false
  | _ => false

theorem removesHash_eq_true {token token' : String} {m : Transition.Move TokenSys TokenAction}
    (h : removesHash token token' m = true) :
    ∃ i ch userId kept, m.act = .exec i ch ∧ m.src.call i = some (.verifyRefreshToken token) ∧
      m.src.next i = some (.redisDel userId) ∧ m.src.shared.redis userId = some kept ∧
      kept.value = sampleCrypto.Hash "" token' := by
  unfold removesHash at h
  split at h
  · next i ch hact =>
      rw [Bool.and_eq_true, decide_eq_true_eq] at h
      obtain ⟨hcall, h⟩ := h
      split at h
      · next userId hnext =>
          obtain ⟨kept, hkept, hvalue⟩ := Option.map_eq_some_iff.mp (of_decide_eq_true h)
          exact ⟨i, ch, userId, kept, hact, hcall, hnext, hkept, hvalue⟩
      · cases h
  · cases h

/-- A token is accepted by two calls; and in another run an old token's acceptance removes the
hash of a new one. -/
theorem token_accepted_twice :
    (∃ tr s, Transition.Run (tokenSystem sampleCrypto) tr s ∧ ∃ token i j, i ≠ j ∧
      Accepted s i token ∧ Accepted s j token ∧ ¬ AcceptedOnce sampleCrypto tr s) ∧
    ∃ tr s, Transition.Run (tokenSystem sampleCrypto) tr s ∧ ∃ m ∈ tr,
      ∃ i ch token token' userId kept, token' ≠ token ∧ m.act = .exec i ch ∧
        m.src.call i = some (.verifyRefreshToken token) ∧
        m.src.next i = some (.redisDel userId) ∧ m.src.shared.redis userId = some kept ∧
        kept.value = sampleCrypto.Hash "" token' ∧ ¬ AcceptedOnce sampleCrypto tr s := by
  refine ⟨⟨_, _, tokenMoves_run presentedTwice (by decide +kernel), "bob.aa", 1, 2, by decide,
    ?_⟩, ⟨_, _, tokenMoves_run presentedLate (by decide +kernel), ?_⟩⟩
  · have h₁ := accepts_eq_true (show accepts (((tokenSystem sampleCrypto).exec tokenStart
      presentedTwice).get (by decide +kernel)) 1 "bob.aa" = true by decide +kernel)
    have h₂ := accepts_eq_true (show accepts (((tokenSystem sampleCrypto).exec tokenStart
      presentedTwice).get (by decide +kernel)) 2 "bob.aa" = true by decide +kernel)
    exact ⟨h₁, h₂, fun h => absurd (h.once _ 1 2 h₁ h₂) (by decide)⟩
  · have hremoves :
        (tokenMoves presentedLate).any (removesHash "bob.aa" "bob.bb") = true := by
      decide +kernel
    rw [List.any_eq_true] at hremoves
    obtain ⟨m, hm, h⟩ := hremoves
    obtain ⟨i, ch, userId, kept, hact, hcall, hnext, hkept, hvalue⟩ := removesHash_eq_true h
    exact ⟨m, hm, i, ch, _, _, userId, kept, by decide, hact, hcall, hnext, hkept, hvalue,
      fun h => absurd (h.removes m hm i ch _ userId kept hact hcall hnext hkept "" _ hvalue)
        (by decide)⟩

/-! ## One call after the other -/

/-- Whether no call is about to compare a hash or to delete a key, as a computation. -/
def atRest (s : TokenSys) : Bool :=
  s.threads.entries.all fun entry =>
    match entry.2.prog with
    | .op (.verifyHash _ _) _ | .op (.redisDel _) _ => false
    | _ => true

theorem not_holding_of_atRest {userId token : String} (h : atRest s = true) (i : ℕ) :
    ¬ Holding crypto s i userId token := by
  rintro ⟨-, -, hnext⟩
  rw [atRest, List.all_eq_true] at h
  unfold TokenSys.next at hnext
  split at hnext
  · next call e kont hi =>
      have hrest := h _ (AList.mem_lookup_iff.mp hi)
      rcases hnext with ⟨hash, hnext, -⟩ | hnext
      · obtain rfl := Option.some.inj hnext
        cases hrest
      · obtain rfl := Option.some.inj hnext
        cases hrest
  · rcases hnext with ⟨hash, hnext, -⟩ | hnext <;> cases hnext

/-- Whether hashes are stored and got while no call has got one, as a computation. -/
def takesTurn (m : Transition.Move TokenSys TokenAction) : Bool :=
  match m.act with
  | .exec i _ =>
      match m.src.next i with
      | some (.redisSet _ _ _) | some (.redisGet _) => atRest m.src
      | _ => true
  | _ => true

theorem serial_of_takesTurn {m : Transition.Move TokenSys TokenAction}
    (h : takesTurn m = true) : Serial crypto m := by
  refine ⟨fun i ch userId hash ttl hact hnext => ?_,
    fun i ch userId token kept hact hcall hnext hkept hmatch => ?_⟩
  · simp only [takesTurn, hact, hnext] at h
    exact fun j token => not_holding_of_atRest h j
  · simp only [takesTurn, hact, hnext] at h
    exact fun j => not_holding_of_atRest h j

/-- Two tokens are issued, and each is accepted once. -/
theorem accepted_once_in_turn :
    ∃ s, AcceptedOnce sampleCrypto (tokenMoves inTurn) s ∧ Accepted s 1 "bob.aa" ∧
      Accepted s 3 "bob.bb" := by
  have hturns : (tokenMoves inTurn).all takesTurn = true := by decide +kernel
  rw [List.all_eq_true] at hturns
  refine ⟨_, accepted_once (tokenMoves_run inTurn (by decide +kernel))
    fun m hm => serial_of_takesTurn (hturns m hm), accepts_eq_true ?_, accepts_eq_true ?_⟩
  · decide +kernel
  · decide +kernel

end LogisticsDispatch
