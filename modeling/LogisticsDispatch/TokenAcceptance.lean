/-
Which refresh tokens are accepted, when calls are made one at a time.

Here a call of `TokenService` runs alone, and Redis keeps its keys as they expire, to the
millisecond (`tokenTurns`). The key of a user holds the hash of the token that stands: the one
issued to the user last, if none was accepted since and the user has not logged out (`Stands`).
`KeysStand` says so of every key, each call keeps it, and `tokens_accepted_exactly` reads off
which tokens `verifyRefreshToken` returns a user for.
-/
import LogisticsDispatch.Lib.Alone
import LogisticsDispatch.Lib.Expiring
import LogisticsDispatch.Tokens

set_option autoImplicit false

namespace LogisticsDispatch

open Transition Resumable TokenService

variable {crypto : Crypto}

/-! ## The calls, one at a time -/

/-- The keys `refresh:{userId}` of Redis. -/
abbrev TokenKeys := Expiring String String

/-- Perform one effect. -/
def TokenKeys.perform (crypto : Crypto) (ch : TokenChoice) :
    (e : TokenEffect) → TokenKeys → Except TokenError e.Resp × TokenKeys
  | .findDriverProfile _, s => (.ok ch.driverProfileId, s)
  | .signAsync payload, s => (.ok (crypto.sign payload), s)
  | .randomBytes _, s => (.ok ch.hex, s)
  | .Hash password, s => (.ok (crypto.Hash ch.salt password), s)
  | .verifyHash hash password, s => (.ok (crypto.verifyHash hash password), s)
  | .redisGet userId, s => (.ok (s.get userId), s)
  | .redisSet userId value ttl, s => (.ok (), s.setEX userId value ttl)
  | .redisDel userId, s => (.ok (), s.del userId)

/-- A call, run alone: what it returns or throws, and the keys it leaves. -/
def TokenCall.alone (crypto : Crypto) (ch : TokenChoice) (call : TokenCall) (s : TokenKeys) :
    Except TokenError TokenResult × TokenKeys :=
  call.program.run (TokenKeys.perform crypto ch) s

/-- One step: a call with what is drawn for it, or time that passes. -/
inductive TokenTurn
  | call (call : TokenCall) (ch : TokenChoice)
  | pass (ms : ℕ)
deriving DecidableEq

/-- **The calls of `TokenService`**, one after the other at any times. `randomBytes` draws
something. -/
def tokenTurns (crypto : Crypto) : System TokenKeys TokenTurn where
  Init s := ∀ userId, s.keys userId = none
  step s
    | .call call ch => if ch.hex = "" then none else some (call.alone crypto ch s).2
    | .pass ms => some (s.pass ms)

/-! ## The contract -/

/-- A step of `tokenTurns`. -/
abbrev TokenMove := Move TokenKeys TokenTurn

/-- What the call of a step has returned or thrown. -/
def TokenMove.answer (crypto : Crypto) (m : TokenMove) : Option (Except TokenError TokenResult) :=
  match m.act with
  | .call call ch => some (call.alone crypto ch m.src).1
  | .pass _ => none

/-- The step issues a token to a user. -/
def Issues (crypto : Crypto) (userId : UserId) (token : String) (m : TokenMove) : Prop :=
  ∃ user ch accessToken, m.act = .call (.generateTokens user) ch ∧ user.id = userId ∧
    m.answer crypto = some (.ok (.tokens ⟨accessToken, token⟩))

/-- The step accepts a token of a user. -/
def AcceptsOf (crypto : Crypto) (userId : UserId) (m : TokenMove) : Prop :=
  m.answer crypto = some (.ok (.userId userId.text))

/-- The step logs a user out. -/
def LogsOut (userId : UserId) (m : TokenMove) : Prop :=
  ∃ ch, m.act = .call (.revokeRefreshToken userId) ch

/-- After the step no token stands that was issued to the user before it. -/
def Ends (crypto : Crypto) (userId : UserId) (m : TokenMove) : Prop :=
  (∃ token, Issues crypto userId token m) ∨ AcceptsOf crypto userId m ∨ LogsOut userId m

/-- The token was issued to the user last, at that time, and since then neither was one of the
user's accepted nor has the user logged out. -/
def Stands (crypto : Crypto) (userId : UserId) (token : String) (time : ℕ)
    (tr : List TokenMove) : Prop :=
  ∃ m, Issues crypto userId token m ∧ m.src.now = time ∧ Since (Ends crypto userId) m tr

/-- A week, in milliseconds. -/
def week : ℕ := 7 * 24 * 60 * 60 * 1000

/-- The user a call is for: what is before the first dot of a token, to verify it. -/
def TokenCall.owner : TokenCall → String
  | generateTokens user => user.id.text
  | verifyRefreshToken token => (splitToken token).1
  | revokeRefreshToken userId => userId.text

/-- What a caller relies on refresh tokens for, after a run. -/
structure AcceptedExactly (crypto : Crypto) (tr : List TokenMove) (s : TokenKeys) : Prop where
  /-- A token is accepted for a user exactly if it stands and is not a week old. -/
  accepts_iff : ∀ token ch userId,
    ((TokenCall.verifyRefreshToken token).alone crypto ch s).1 = .ok (.userId userId) ↔
      ∃ (user : UserId) (time : ℕ), user.text = userId ∧ Stands crypto user token time tr ∧
        s.now < time + week
  /-- Otherwise it is refused, and nothing changes. -/
  refuses : ∀ token ch,
    (∃ userId,
      ((TokenCall.verifyRefreshToken token).alone crypto ch s).1 = .ok (.userId userId)) ∨
    ∃ message, (TokenCall.verifyRefreshToken token).alone crypto ch s
      = (.error (.UnauthorizedException message), s)
  /-- A call leaves the tokens of all users alone but of its own. -/
  own : ∀ (call : TokenCall) ch userId, userId ≠ call.owner →
    (call.alone crypto ch s).2.keys userId = s.keys userId ∧ (call.alone crypto ch s).2.now = s.now

/-- The ids of the users that tokens are issued to have no dot. -/
def DotlessIds (tr : List TokenMove) : Prop :=
  ∀ m ∈ tr, ∀ user ch, m.act = .call (.generateTokens user) ch → '.' ∉ user.id.text.toList

/-! ## The calls -/

variable {s s' : TokenKeys} {ch : TokenChoice} {user : TokenService.User} {userId : UserId}
  {token : String} {time : ℕ} {tr : List TokenMove}

/-- `generateTokens` keeps the hash of the token it returns for a week. -/
theorem generateTokens_alone (crypto : Crypto) (ch : TokenChoice) (user : TokenService.User)
    (s : TokenKeys) : ∃ accessToken,
    (TokenCall.generateTokens user).alone crypto ch s
      = (.ok (.tokens ⟨accessToken, refreshTokenOf user.id ch.hex⟩),
        s.put user.id.text
          ⟨crypto.Hash ch.salt (refreshTokenOf user.id ch.hex), some (s.now + week)⟩) := by
  by_cases hrole : user.role ≠ .DRIVER
  · exact ⟨crypto.sign ⟨user.id, user.email, user.role, none⟩, by
      simp only [TokenCall.alone, TokenCall.program, TokenService.generateTokens,
        resolveDriverProfileId, if_pos hrole]
      rfl⟩
  · exact ⟨crypto.sign ⟨user.id, user.email, user.role, ch.driverProfileId⟩, by
      simp only [TokenCall.alone, TokenCall.program, TokenService.generateTokens,
        resolveDriverProfileId, if_neg hrole]
      rfl⟩

theorem revokeRefreshToken_alone (crypto : Crypto) (ch : TokenChoice) (userId : UserId)
    (s : TokenKeys) : (TokenCall.revokeRefreshToken userId).alone crypto ch s
      = (.ok .void, s.del userId.text) := rfl

/-- The key of the owner of a token holds its hash. -/
structure KeyMatches (crypto : Crypto) (token : String) (s : TokenKeys) : Prop where
  owner : (splitToken token).1 ≠ ""
  secret : (splitToken token).2 ≠ ""
  hash : ∃ hash, s.get (splitToken token).1 = some hash ∧ hash ≠ "" ∧
    crypto.verifyHash hash token = true

/-- `verifyRefreshToken` accepts a token whose key matches, and deletes the key. -/
theorem verifyRefreshToken_of_matches (ch : TokenChoice) (h : KeyMatches crypto token s) :
    (TokenCall.verifyRefreshToken token).alone crypto ch s
      = (.ok (.userId (splitToken token).1), s.del (splitToken token).1) := by
  obtain ⟨howner, hsecret, hash, hget, hhash, hverify⟩ := h
  have hparts : ¬ ((splitToken token).1 = "" ∨ (splitToken token).2 = "") :=
    not_or.mpr ⟨howner, hsecret⟩
  have hkeep : (some hash).filter (fun hash => decide (hash ≠ "")) = some hash :=
    Option.filter_eq_some_iff.mpr ⟨rfl, decide_eq_true hhash⟩
  refine Program.run_bind_ok _ _ ?_
  simp only [TokenService.verifyRefreshToken, if_neg hparts, TokenService.ask]
  rw [Program.run_perform_bind _ _ (by rw [TokenKeys.perform, hget]), hkeep]
  dsimp only
  rw [Program.run_perform_bind _ _ (by rw [TokenKeys.perform, hverify])]
  rfl

/-- `verifyRefreshToken` refuses all others. -/
theorem verifyRefreshToken_of_not_matches (ch : TokenChoice) (h : ¬ KeyMatches crypto token s) :
    ∃ message, (TokenCall.verifyRefreshToken token).alone crypto ch s
      = (.error (.UnauthorizedException message), s) := by
  suffices hrun : ∃ message, (TokenService.verifyRefreshToken token).run
      (TokenKeys.perform crypto ch) s = (.error (.UnauthorizedException message), s) by
    obtain ⟨message, hrun⟩ := hrun
    exact ⟨message, Program.run_bind_error _ _ hrun⟩
  simp only [TokenService.verifyRefreshToken, TokenService.ask]
  split
  · exact ⟨_, rfl⟩
  · next hparts =>
      obtain ⟨howner, hsecret⟩ := not_or.mp hparts
      rw [Program.run_perform_bind _ _ (by rw [TokenKeys.perform])]
      split
      · exact ⟨_, rfl⟩
      · next hash hfilter =>
          obtain ⟨hget, hhash⟩ := Option.filter_eq_some_iff.mp hfilter
          -- the key holds a hash, so it is not the token's
          have hverify : crypto.verifyHash hash token = false := by
            rw [Bool.eq_false_iff]
            exact fun hverify => h ⟨howner, hsecret, hash, hget, of_decide_eq_true hhash, hverify⟩
          rw [Program.run_perform_bind _ _ (by rw [TokenKeys.perform, hverify])]
          exact ⟨_, rfl⟩

/-! ## Which tokens stand -/

/-- The parts of an issued token are its owner and what was drawn. -/
theorem splitToken_refreshTokenOf {hex : String} (h : '.' ∉ userId.text.toList) :
    splitToken (refreshTokenOf userId hex) = (userId.text, hex) := by
  have hlist : (refreshTokenOf userId hex).toList = userId.text.toList ++ '.' :: hex.toList := by
    simp [refreshTokenOf, String.toList_append]
  have hne : ∀ c ∈ userId.text.toList, decide (c ≠ '.') = true := by
    intro c hc
    refine decide_eq_true ?_
    rintro rfl
    exact h hc
  have hdot : decide ('.' ≠ '.') = false := by decide
  rw [splitToken, hlist, List.takeWhile_append_of_pos hne, List.dropWhile_append_of_pos hne,
    List.takeWhile_cons_of_neg (by rw [hdot]; exact Bool.false_ne_true),
    List.dropWhile_cons_of_neg (by rw [hdot]; exact Bool.false_ne_true), List.append_nil,
    List.tail_cons, String.ofList_toList, String.ofList_toList]

/-- What a step does to the tokens that stand, and to the keys. -/
inductive Turned (crypto : Crypto) (m : TokenMove) : Prop
  | issued (user : TokenService.User) (ch : TokenChoice)
      (hact : m.act = .call (.generateTokens user) ch) (hhex : ch.hex ≠ "")
      (hissues : ∀ userId token, Issues crypto userId token m ↔
        user.id = userId ∧ refreshTokenOf user.id ch.hex = token)
      (hends : ∀ userId, Ends crypto userId m ↔ user.id = userId)
      (hdst : m.dst = m.src.put user.id.text
        ⟨crypto.Hash ch.salt (refreshTokenOf user.id ch.hex), some (m.src.now + week)⟩)
  | cleared (key : String) (hissues : ∀ userId token, ¬ Issues crypto userId token m)
      (hends : ∀ userId, Ends crypto userId m ↔ userId.text = key) (hdst : m.dst = m.src.del key)
  | kept (hends : ∀ userId, ¬ Ends crypto userId m) (hdst : m.dst.keys = m.src.keys)

section Turns

variable {m : TokenMove} {call : TokenCall}

variable (crypto) in
theorem answer_of_call (hact : m.act = .call call ch) :
    m.answer crypto = some (call.alone crypto ch m.src).1 := by
  rw [TokenMove.answer, hact]

/-- Only a call of `generateTokens` issues tokens. -/
theorem not_issues (hact : m.act = .call call ch) (h : ∀ user, call ≠ .generateTokens user) :
    ¬ Issues crypto userId token m := by
  rintro ⟨user, ch', _, hact', -⟩
  rw [hact] at hact'
  exact h user (TokenTurn.call.inj hact').1

theorem turned_generateTokens (hact : m.act = .call (.generateTokens user) ch)
    (hhex : ch.hex ≠ "")
    (hdst : m.dst = ((TokenCall.generateTokens user).alone crypto ch m.src).2) :
    Turned crypto m := by
  obtain ⟨accessToken, hrun⟩ := generateTokens_alone crypto ch user m.src
  have hanswer := answer_of_call crypto hact
  rw [hrun] at hanswer hdst
  have hissues : ∀ userId token, Issues crypto userId token m ↔
      user.id = userId ∧ refreshTokenOf user.id ch.hex = token := by
    intro userId token
    constructor
    · rintro ⟨user', ch', accessToken', hact', hid, hanswer'⟩
      rw [hact] at hact'
      obtain ⟨huser, -⟩ := TokenTurn.call.inj hact'
      obtain rfl := TokenCall.generateTokens.inj huser
      rw [hanswer] at hanswer'
      injection hanswer' with h
      injection h with h
      injection h with h
      exact ⟨hid, (Tokens.mk.inj h).2⟩
    · rintro ⟨rfl, rfl⟩
      exact ⟨user, ch, accessToken, hact, rfl, hanswer⟩
  refine .issued user ch hact hhex hissues (fun userId => ⟨?_, fun heq => ?_⟩) hdst
  · rintro (⟨token, htoken⟩ | haccepts | ⟨ch', hact'⟩)
    · exact ((hissues _ _).mp htoken).1
    · rw [AcceptsOf, hanswer] at haccepts
      cases haccepts
    · rw [hact] at hact'
      cases hact'
  · exact .inl ⟨_, (hissues _ _).mpr ⟨heq, rfl⟩⟩

theorem turned_verifyRefreshToken (hact : m.act = .call (.verifyRefreshToken token) ch)
    (hdst : m.dst = ((TokenCall.verifyRefreshToken token).alone crypto ch m.src).2) :
    Turned crypto m := by
  have hanswer := answer_of_call crypto hact
  have hissues : ∀ userId token', ¬ Issues crypto userId token' m :=
    fun userId token' => not_issues hact fun user h => by cases h
  have hlogsOut : ∀ userId, ¬ LogsOut userId m := by
    rintro userId ⟨ch', hact'⟩
    rw [hact] at hact'
    cases hact'
  by_cases hmatches : KeyMatches crypto token m.src
  · rw [verifyRefreshToken_of_matches ch hmatches] at hanswer hdst
    refine .cleared (splitToken token).1 hissues (fun userId => ⟨?_, fun heq => ?_⟩) hdst
    · rintro (⟨token', htoken'⟩ | haccepts | hout)
      · exact absurd htoken' (hissues userId token')
      · rw [AcceptsOf, hanswer] at haccepts
        injection haccepts with h
        injection h with h
        exact (TokenResult.userId.inj h).symm
      · exact absurd hout (hlogsOut userId)
    · exact .inr (.inl (by rw [AcceptsOf, hanswer, heq]))
  · obtain ⟨message, hrun⟩ := verifyRefreshToken_of_not_matches ch hmatches
    rw [hrun] at hanswer hdst
    refine .kept (fun userId => ?_) (by rw [hdst])
    rintro (⟨token', htoken'⟩ | haccepts | hout)
    · exact hissues userId token' htoken'
    · rw [AcceptsOf, hanswer] at haccepts
      cases haccepts
    · exact hlogsOut userId hout

theorem turned_revokeRefreshToken (hact : m.act = .call (.revokeRefreshToken userId) ch)
    (hdst : m.dst = ((TokenCall.revokeRefreshToken userId).alone crypto ch m.src).2) :
    Turned crypto m := by
  have hanswer := answer_of_call crypto hact
  rw [revokeRefreshToken_alone] at hanswer hdst
  have hissues : ∀ userId token', ¬ Issues crypto userId token' m :=
    fun userId token' => not_issues hact fun user h => by cases h
  refine .cleared userId.text hissues (fun userId' => ⟨?_, fun heq => ?_⟩) hdst
  · rintro (⟨token', htoken'⟩ | haccepts | ⟨ch', hact'⟩)
    · exact absurd htoken' (hissues userId' token')
    · rw [AcceptsOf, hanswer] at haccepts
      cases haccepts
    · rw [hact] at hact'
      obtain ⟨hcall, -⟩ := TokenTurn.call.inj hact'
      rw [TokenCall.revokeRefreshToken.inj hcall]
  · obtain rfl : userId' = userId := Uuid.ext heq
    exact .inr (.inr ⟨ch, hact⟩)

/-- Each step is of one of the three kinds. -/
theorem turned_of_step {a : TokenTurn} (h : (tokenTurns crypto).step s a = some s') :
    Turned crypto ⟨s, a, s'⟩ := by
  cases a with
  | pass ms =>
      obtain rfl := Option.some.inj h
      refine .kept (fun userId => ?_) rfl
      rintro (⟨token, user, ch, _, hact, -⟩ | haccepts | ⟨ch, hact⟩)
      · cases hact
      · cases haccepts
      · cases hact
  | call call ch =>
      have hstep : (if ch.hex = "" then none else some (call.alone crypto ch s).2) = some s' := h
      split at hstep
      · cases hstep
      next hhex =>
      have hdst := (Option.some.inj hstep).symm
      cases call with
      | generateTokens user => exact turned_generateTokens rfl hhex hdst
      | verifyRefreshToken token => exact turned_verifyRefreshToken rfl hdst
      | revokeRefreshToken userId => exact turned_revokeRefreshToken rfl hdst

end Turns

/-- What a step adds to the tokens that stand. -/
theorem stands_cons {m : TokenMove} : Stands crypto userId token time (m :: tr) ↔
    (Issues crypto userId token m ∧ m.src.now = time) ∨
      (¬ Ends crypto userId m ∧ Stands crypto userId token time tr) := by
  constructor
  · rintro ⟨m', hissues, htime, hsince⟩
    rcases since_cons.mp hsince with rfl | ⟨hends, hsince⟩
    · exact .inl ⟨hissues, htime⟩
    · exact .inr ⟨hends, m', hissues, htime, hsince⟩
  · rintro (⟨hissues, htime⟩ | ⟨hends, m', hissues, htime, hsince⟩)
    · exact ⟨m, hissues, htime, since_cons.mpr (.inl rfl)⟩
    · exact ⟨m', hissues, htime, since_cons.mpr (.inr ⟨hends, hsince⟩)⟩

/-- A token that was issued, and what is under its user's key. -/
structure HeldFor (crypto : Crypto) (userId : UserId) (token : String) (time : ℕ)
    (s : TokenKeys) : Prop where
  parts : ∃ hex, hex ≠ "" ∧ splitToken token = (userId.text, hex)
  key : ∃ salt, s.keys userId.text = some ⟨crypto.Hash salt token, some (time + week)⟩

/-- The keys hold the hashes of the tokens that stand, and nothing else. -/
structure KeysStand (crypto : Crypto) (tr : List TokenMove) (s : TokenKeys) : Prop where
  held : ∀ userId token time, Stands crypto userId token time tr →
    HeldFor crypto userId token time s
  stands : ∀ key e, s.keys key = some e →
    ∃ (userId : UserId) (token : String) (time : ℕ), userId.text = key ∧
      Stands crypto userId token time tr

/-- What is kept for a user is kept as long as the user's key is left alone. -/
theorem HeldFor.same (h : HeldFor crypto userId token time s)
    (hkeys : s'.keys userId.text = s.keys userId.text) : HeldFor crypto userId token time s' := by
  refine ⟨h.parts, ?_⟩
  rw [hkeys]
  exact h.key

/-- A step keeps what the keys hold, and what stands, in agreement. -/
theorem KeysStand.move {m : TokenMove} (h : KeysStand crypto tr m.src) (hm : Turned crypto m)
    (hids : DotlessIds (m :: tr)) : KeysStand crypto (m :: tr) m.dst := by
  constructor
  · intro userId token time hstands
    rcases stands_cons.mp hstands with ⟨hissued, htime⟩ | ⟨hgoes, hstands⟩
    · cases hm with
      | issued user ch hact hhex hissues hends hdst =>
          obtain ⟨rfl, rfl⟩ := (hissues _ _).mp hissued
          refine ⟨⟨ch.hex, hhex, splitToken_refreshTokenOf ?_⟩, ch.salt, ?_⟩
          · exact hids m List.mem_cons_self user ch hact
          · rw [hdst, Expiring.put_keys_self, htime]
      | cleared key hissues hends hdst => exact absurd hissued (hissues _ _)
      | kept hends hdst => exact absurd (.inl ⟨_, hissued⟩) (hends userId)
    -- the step leaves the key of a user alone whose token it does not end
    · refine (h.held userId token time hstands).same ?_
      cases hm with
      | issued user ch hact hhex hissues hends hdst =>
          rw [hdst]
          refine Expiring.put_keys_of_ne (fun heq => hgoes ((hends _).mpr ?_)) _
          exact Uuid.ext heq.symm
      | cleared key hissues hends hdst =>
          rw [hdst]
          exact Expiring.del_keys_of_ne fun heq => hgoes ((hends _).mpr heq)
      | kept hends hdst => rw [hdst]
  · intro key e hkey
    cases hm with
    | issued user ch hact hhex hissues hends hdst =>
        by_cases heq : key = user.id.text
        · exact ⟨user.id, _, _, heq.symm,
            stands_cons.mpr (.inl ⟨(hissues _ _).mpr ⟨rfl, rfl⟩, rfl⟩)⟩
        · rw [hdst, Expiring.put_keys_of_ne heq] at hkey
          obtain ⟨userId, token, time, rfl, hstands⟩ := h.stands key e hkey
          refine ⟨userId, token, time, rfl, stands_cons.mpr (.inr ⟨fun hend => heq ?_, hstands⟩)⟩
          rw [(hends _).mp hend]
    | cleared key' hissues hends hdst =>
        by_cases heq : key = key'
        · rw [hdst, heq, Expiring.del_keys_self] at hkey
          cases hkey
        · rw [hdst, Expiring.del_keys_of_ne heq] at hkey
          obtain ⟨userId, token, time, rfl, hstands⟩ := h.stands key e hkey
          exact ⟨userId, token, time, rfl,
            stands_cons.mpr (.inr ⟨fun hend => heq ((hends _).mp hend), hstands⟩)⟩
    | kept hends hdst =>
        rw [hdst] at hkey
        obtain ⟨userId, token, time, rfl, hstands⟩ := h.stands key e hkey
        exact ⟨userId, token, time, rfl, stands_cons.mpr (.inr ⟨hends userId, hstands⟩)⟩

theorem DotlessIds.of_cons {m : TokenMove} (h : DotlessIds (m :: tr)) : DotlessIds tr :=
  fun m' hm' => h m' (List.mem_cons_of_mem _ hm')

theorem keysStand_of_run (run : Run (tokenTurns crypto) tr s) (hids : DotlessIds tr) :
    KeysStand crypto tr s := by
  induction run with
  | init h =>
      refine ⟨fun userId token time hstands => ?_, fun key e hkey => ?_⟩
      · obtain ⟨m, -, -, hsince⟩ := hstands
        exact absurd hsince not_since_nil
      · rw [h key] at hkey
        cases hkey
  | snoc run hstep ih => exact (ih hids.of_cons).move (turned_of_step hstep) hids

/-! ## Which tokens are accepted -/

/-- A key matches a token exactly if the token stands and is not a week old. -/
theorem KeysStand.matches_iff (h : KeysStand crypto tr s) :
    KeyMatches crypto token s ↔ ∃ (user : UserId) (time : ℕ), user.text = (splitToken token).1 ∧
      Stands crypto user token time tr ∧ s.now < time + week := by
  constructor
  · rintro ⟨-, -, hash, hget, -, hverify⟩
    obtain ⟨e, hentry, rfl⟩ := Option.map_eq_some_iff.mp hget
    obtain ⟨hkey, -⟩ := Option.filter_eq_some_iff.mp hentry
    obtain ⟨user, token', time, hid, hstands⟩ := h.stands _ _ hkey
    obtain ⟨salt, hkeeps⟩ := (h.held _ _ _ hstands).key
    rw [hid, hkey] at hkeeps
    obtain rfl := Option.some.inj hkeeps
    -- the hash under the key is the hash of one token
    obtain rfl := (crypto.verify_hash salt token' token).mp hverify
    exact ⟨user, time, hid, hstands, ((Expiring.entry_eq_some rfl).mp hentry).2⟩
  · rintro ⟨user, time, hid, hstands, hlt⟩
    obtain ⟨⟨hex, hhex, hparts⟩, salt, hkey⟩ := h.held _ _ _ hstands
    have hentry := (Expiring.entry_eq_some rfl).mpr ⟨hkey, hlt⟩
    refine ⟨?_, ?_, crypto.Hash salt token, ?_, crypto.hash_ne salt token,
      (crypto.verify_hash salt token token).mpr rfl⟩
    · rw [← hid]
      exact user.nonempty
    · rw [hparts]
      exact hhex
    · rw [← hid, Expiring.get, hentry]
      rfl

theorem alone_own (call : TokenCall) (ch : TokenChoice) {key : String} (h : key ≠ call.owner) :
    (call.alone crypto ch s).2.keys key = s.keys key ∧ (call.alone crypto ch s).2.now = s.now := by
  cases call with
  | generateTokens user =>
      obtain ⟨accessToken, hrun⟩ := generateTokens_alone crypto ch user s
      rw [hrun]
      exact ⟨Expiring.put_keys_of_ne h _, rfl⟩
  | verifyRefreshToken token =>
      by_cases hmatches : KeyMatches crypto token s
      · rw [verifyRefreshToken_of_matches ch hmatches]
        exact ⟨Expiring.del_keys_of_ne h, rfl⟩
      · obtain ⟨message, hrun⟩ := verifyRefreshToken_of_not_matches ch hmatches
        rw [hrun]
        exact ⟨rfl, rfl⟩
  | revokeRefreshToken userId =>
      rw [revokeRefreshToken_alone]
      exact ⟨Expiring.del_keys_of_ne h, rfl⟩

/-- **Refresh tokens.** After every run, exactly the tokens that stand and are not a week old are
accepted, each for its user. -/
theorem tokens_accepted_exactly (run : Run (tokenTurns crypto) tr s) (hids : DotlessIds tr) :
    AcceptedExactly crypto tr s where
  accepts_iff token ch userId := by
    have hstand := keysStand_of_run run hids
    by_cases hmatches : KeyMatches crypto token s
    · rw [verifyRefreshToken_of_matches ch hmatches]
      obtain ⟨user, time, hid, hstands, hlt⟩ := hstand.matches_iff.mp hmatches
      constructor
      · intro h
        injection h with h
        injection h with h
        exact ⟨user, time, hid.trans h, hstands, hlt⟩
      · rintro ⟨user', time', rfl, hstands', -⟩
        obtain ⟨hex, -, hparts⟩ := (hstand.held _ _ _ hstands').parts
        rw [hparts]
    · obtain ⟨message, hrun⟩ := verifyRefreshToken_of_not_matches ch hmatches
      rw [hrun]
      constructor
      · intro h
        cases h
      · rintro ⟨user, time, rfl, hstands, hlt⟩
        obtain ⟨hex, -, hparts⟩ := (hstand.held _ _ _ hstands).parts
        exact absurd (hstand.matches_iff.mpr ⟨user, time, by rw [hparts], hstands, hlt⟩) hmatches
  refuses token ch := by
    by_cases hmatches : KeyMatches crypto token s
    · exact .inl ⟨_, by rw [verifyRefreshToken_of_matches ch hmatches]⟩
    · exact .inr (verifyRefreshToken_of_not_matches ch hmatches)
  own call ch _ h := alone_own call ch h

/-! ### One token -/

/-- A user of the examples. -/
def sampleTokenUser : TokenService.User := ⟨⟨"u9", by decide⟩, "u9@mail", .CUSTOMER⟩

/-- A token is issued and grows old. -/
def oneToken : List TokenTurn :=
  [.call (.generateTokens sampleTokenUser) ⟨"cafe", "salt", none⟩, .pass 1000]

theorem oneToken_possible :
    ((tokenTurns sampleCrypto).exec ⟨0, fun _ => none⟩ oneToken).isSome := by
  decide

/-- It is accepted exactly as it is to be. -/
theorem tokens_accepted_exactly_one :
    AcceptedExactly sampleCrypto
      ((tokenTurns sampleCrypto).moves [] ⟨0, fun _ => none⟩ oneToken)
      (((tokenTurns sampleCrypto).exec ⟨0, fun _ => none⟩ oneToken).get oneToken_possible) :=
  tokens_accepted_exactly
    ((Run.init fun _ => rfl).exec (Option.some_get oneToken_possible).symm)
    (by
      intro m hm user ch hact
      rcases System.act_mem_of_moves hm with h | h
      · cases h
      · rw [hact] at h
        have huser : user = sampleTokenUser ∧ ch = ⟨"cafe", "salt", none⟩ := by
          simpa [oneToken] using h
        rw [huser.1]
        decide)

end LogisticsDispatch
