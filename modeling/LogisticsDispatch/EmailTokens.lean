/-
Which mailed tokens are accepted, when calls are made one at a time.

A user's row has room for one token of each kind. The token that stands is the one created for the
user last, if none of its kind was accepted since (`StandingToken`). Each step creates one token,
redeems one, or does nothing to any (`EmailStep`); so a row holds the hash of what stands
(`Ledger.holds_of_run`), and `email_tokens_one_time` reads off which tokens verify an email or set a
password.
-/
import LogisticsDispatch.Lib.Latest
import LogisticsDispatch.Lib.Separated
import LogisticsDispatch.EmailCalls

set_option autoImplicit false

namespace LogisticsDispatch

open Transition Accounts Accounts.AuthService

/-! ## The contract -/

/-- A step of `emailTurns`. -/
abbrev EmailMove := Move AccountStore EmailTurn

/-- The mails that the call of a step sends. -/
def EmailMove.sent (pl : Platform) (m : EmailMove) : List Mail :=
  match m.act with
  | .call call choices => (call.alone pl choices m.src).2.sent
  | .pass _ => []

/-- The step creates a token for a user: it mails the token to the user. -/
def CreatesToken (pl : Platform) (kind : TokenKind) (u : UserId) (token : String) (m : EmailMove) :
    Prop :=
  ∃ row name, m.dst.users.find u = some row ∧ kind.mail pl row.email name token ∈ m.sent pl

/-- An unverified user is turned verified. -/
def Verifies (u : UserId) (s s' : AccountStore) : Prop :=
  ∃ row row', s.users.find u = some row ∧ row.isEmailVerified = false ∧
    s'.users.find u = some row' ∧ row'.isEmailVerified = true

/-- The row of a user changes, and the user's password is this one. -/
def SetsPassword (pl : Platform) (u : UserId) (password : String) (s s' : AccountStore) : Prop :=
  s'.users.find u ≠ s.users.find u ∧ ∃ row hash, s'.users.find u = some row ∧
    row.passwordHash = some hash ∧ ∀ p, pl.crypto.verifyHash hash p = true ↔ p = password

/-- What a token of a kind is for. -/
def TokenKind.Serves (pl : Platform) (u : UserId) (password : String) (s s' : AccountStore) :
    TokenKind → Prop
  | verification => Verifies u s s'
  | reset => SetsPassword pl u password s s'

/-- The step consumes a token of a user. -/
def ConsumesToken (pl : Platform) (kind : TokenKind) (u : UserId) (m : EmailMove) : Prop :=
  ∃ token password choices, m.act = .call (kind.redeem token password) choices ∧
    kind.Serves pl u password m.src m.dst

/-- What a row holds of the token of a kind. -/
def UserRow.token (row : UserRow) (kind : TokenKind) : Option (String × ℕ) :=
  (row.tokenHash kind).bind fun hash =>
    (row.tokenExpiresAt kind).map fun expiresAt => (hash, expiresAt)

/-- The tokens of a kind: what the steps create, at what time, and what the rows hold of it. -/
def tokenLedger (pl : Platform) (kind : TokenKind) :
    Ledger AccountStore EmailTurn UserId (String × ℕ) (String × ℕ) where
  Issues u a m := CreatesToken pl kind u a.1 m ∧ m.src.clock = a.2
  Ends u m := (∃ token, CreatesToken pl kind u token m) ∨ ConsumesToken pl kind u m
  slot s u := (s.users.find u).bind fun row => row.token kind
  Records u a v := (∃ hex, a.1 = u.text ++ "." ++ hex) ∧ (∃ salt, v.1 = pl.crypto.Hash salt a.1) ∧
    v.2 = a.2 + kind.ttl

/-- The token was created for the user last, at that time, none of its kind was consumed since, and
it has not expired: it is valid for ten minutes. -/
def StandingToken (pl : Platform) (kind : TokenKind) (u : UserId) (token : String)
    (tr : List EmailMove) (s : AccountStore) : Prop :=
  ∃ time, (tokenLedger pl kind).Latest u (token, time) tr ∧ s.clock ≤ time + kind.ttl

/-- What users rely on the tokens in their mails for, after a run. -/
structure OneTimeTokens (pl : Platform) (tr : List EmailMove) (s : AccountStore) : Prop where
  /-- `verifyEmail` turns a user verified exactly with the user's standing verification token. -/
  verifies_iff : ∀ token choices u,
    Verifies u s ((EmailCall.verifyEmail token).alone pl choices s).2.accounts ↔
      StandingToken pl .verification u (trim token) tr s
  /-- `resetPassword` sets a password exactly with the user's standing reset token. -/
  resets_iff : ∀ dto choices u, SetsPassword pl u dto.password s
      ((EmailCall.resetPassword dto).alone pl choices s).2.accounts ↔
    StandingToken pl .reset u (trim dto.token) tr s
  /-- A user whose standing token it is not is left alone. -/
  others : ∀ (kind : TokenKind) token password choices u,
    ¬ StandingToken pl kind u (trim token) tr s →
      ((kind.redeem token password).alone pl choices s).2.accounts.users.find u = s.users.find u
  /-- A token of one kind is never accepted as the other. -/
  kinds : ∀ kind (other : TokenKind) u token password choices, other ≠ kind →
    (∃ m ∈ tr, CreatesToken pl kind u (trim token) m) →
    ((other.redeem token password).alone pl choices s).1 ≠ .ok (.message other.accepted) ∧
      ((other.redeem token password).alone pl choices s).2.accounts = s
  /-- A call that is rejected leaves the tables as they are. -/
  rejected : ∀ (call : EmailCall) choices err, (call.alone pl choices s).1 = .error err →
    (call.alone pl choices s).2.accounts = s

/-- The ids of users have no dot, and Postgres takes each for the uuid it is. -/
def PlainIds (pl : Platform) (s : AccountStore) : Prop :=
  ∀ u, (s.users.find u).isSome → '.' ∉ u.text.toList ∧ pl.toUuid u.text = some u

/-! ## Tokens and mails -/

section Texts

variable {pl : Platform} {u u' : UserId} {hex hex' : String}

theorem toList_token : (u.text ++ "." ++ hex).toList = u.text.toList ++ '.' :: hex.toList := by
  simp [String.toList_append]

/-- A token begins with the id of the user it is for. -/
theorem ownerOf_token (hu : '.' ∉ u.text.toList) : ownerOf (u.text ++ "." ++ hex) = u.text := by
  have hbefore : Separated.before '.' (u.text.toList ++ '.' :: hex.toList) = u.text.toList :=
    Separated.before_append hu
  rw [Separated.before, ← toList_token] at hbefore
  rw [ownerOf, hbefore, String.ofList_toList]

/-- A token is of one user, and of one draw. -/
theorem token_inj (hu : '.' ∉ u.text.toList) (hu' : '.' ∉ u'.text.toList)
    (h : u.text ++ "." ++ hex = u'.text ++ "." ++ hex') : u = u' ∧ hex = hex' := by
  have hlist := congrArg String.toList h
  rw [toList_token, toList_token, Separated.append_inj hu hu'] at hlist
  exact ⟨Uuid.ext (String.toList_injective hlist.1), String.toList_injective hlist.2⟩

/-- A mail is about one token of one kind, and goes to one address. -/
theorem mail_inj {kind kind' : TokenKind} {email email' name name' token token' : String}
    (h : kind.mail pl email name token = kind'.mail pl email' name' token') :
    kind = kind' ∧ email = email' ∧ token = token' := by
  have hcancel : ∀ base : String, base ++ token = base ++ token' → token = token' := by
    intro base hbase
    have hlist := congrArg String.toList hbase
    rw [String.toList_append, String.toList_append] at hlist
    exact String.toList_injective (List.append_cancel_left hlist)
  cases kind with
  | verification =>
      cases kind' with
      | verification =>
          obtain ⟨hemail, -, hurl⟩ := Mail.emailVerification.inj h
          exact ⟨rfl, hemail, hcancel _ hurl⟩
      | reset => cases h
  | reset =>
      cases kind' with
      | verification => cases h
      | reset =>
          obtain ⟨hemail, -, hurl⟩ := Mail.passwordReset.inj h
          exact ⟨rfl, hemail, hcancel _ hurl⟩

end Texts

/-! ## What a step does -/

section Steps

variable {pl : Platform} {s s' : AccountStore} {m : EmailMove} {kind kind' : TokenKind}
  {u : UserId} {row row' : UserRow} {password : String}

/-- Where no user changes, nobody is verified and no password is set. -/
theorem not_serves (h : s'.users = s.users) : ¬ kind.Serves pl u password s s' := by
  cases kind with
  | verification =>
      rintro ⟨row, row', hrow, hfalse, hrow', htrue⟩
      rw [h, hrow] at hrow'
      obtain rfl := Option.some.inj hrow'
      exact Bool.false_ne_true (hfalse.symm.trans htrue)
  | reset =>
      rintro ⟨hne, -⟩
      exact hne (by rw [h])

/-- A token that is redeemed serves the user of the row. -/
theorem serves_iff (hrow : s.users.find row.id = some row)
    (hhash : (row.tokenHash kind).isSome) (hunverified : kind = .verification →
      row.isEmailVerified = false)
    (hredeems : row.Redeems pl password kind row') (hstored : StoredAs s row' s') :
    kind.Serves pl u password s s' ↔ u = row.id := by
  have hid : row'.id = row.id := by
    cases hredeems with
    | verified clock => rfl
    | reset salt => rfl
  obtain ⟨updatedAt, hfind⟩ := hstored.stored
  rw [hid] at hfind
  constructor
  · intro hserves
    by_contra hne
    have hsame : s'.users.find u = s.users.find u := hstored.others u (hid ▸ hne)
    cases kind with
    | verification =>
        obtain ⟨row₁, row₂, hrow₁, hfalse, hrow₂, htrue⟩ := hserves
        rw [hsame, hrow₁] at hrow₂
        obtain rfl := Option.some.inj hrow₂
        exact Bool.false_ne_true (hfalse.symm.trans htrue)
    | reset => exact hserves.1 hsame
  · rintro rfl
    cases hredeems with
    | verified clock => exact ⟨row, _, hrow, hunverified rfl, hfind, rfl⟩
    | reset salt =>
        refine ⟨fun heq => ?_, _, _, hfind, rfl, fun p => ?_⟩
        · rw [hfind, hrow] at heq
          rw [← Option.some.inj heq] at hhash
          cases hhash
        · rw [pl.crypto.verify_hash]
          exact eq_comm

/-- A step that redeems a token consumes one of that kind. -/
theorem consumesToken_iff {token : String} {choices : ℕ → AccountChoice}
    (hact : m.act = .call (kind.redeem token password) choices) :
    ConsumesToken pl kind' u m ↔ kind' = kind ∧ kind.Serves pl u password m.src m.dst := by
  constructor
  · rintro ⟨token', password', choices', hact', hserves⟩
    rw [hact] at hact'
    obtain ⟨hcall, -⟩ := EmailTurn.call.inj hact'
    cases kind with
    | verification =>
        cases kind' with
        | verification => exact ⟨rfl, hserves⟩
        | reset => cases hcall
    | reset =>
        cases kind' with
        | verification => cases hcall
        | reset =>
            obtain ⟨-, rfl⟩ := ResetPasswordDto.mk.inj (EmailCall.resetPassword.inj hcall)
            exact ⟨rfl, hserves⟩
  · rintro ⟨rfl, hserves⟩
    exact ⟨token, password, choices, hact, hserves⟩

/-- A step with another call consumes none. -/
theorem not_consumesToken {call : EmailCall} {choices : ℕ → AccountChoice}
    (hact : m.act = .call call choices)
    (hcall : ∀ (kind : TokenKind) token password, call ≠ kind.redeem token password) :
    ¬ ConsumesToken pl kind u m := by
  rintro ⟨token, password, choices', hact', -⟩
  rw [hact] at hact'
  exact hcall kind token password (EmailTurn.call.inj hact').1

/-- All that a step may do: it creates a token, redeems one, or leaves the users alone. -/
inductive EmailStep (pl : Platform) (m : EmailMove) : Prop
  | created (kind : TokenKind) (row : UserRow) (hex : String) (st : CallState)
      (h : Creation pl m.src kind row hex st) (hdst : m.dst = st.accounts)
      (hsent : m.sent pl = st.sent) (hconsumes : ∀ kind u, ¬ ConsumesToken pl kind u m) :
      EmailStep pl m
  | redeemed (kind : TokenKind) (token password : String) (row row' : UserRow)
      (h : TokenMatches pl m.src kind token row) (hrow : row.Redeems pl password kind row')
      (hstored : StoredAs m.src row' m.dst) (hsent : m.sent pl = [])
      (hconsumes : ∀ kind' u, ConsumesToken pl kind' u m ↔ kind' = kind ∧ u = row.id) :
      EmailStep pl m
  | kept (husers : m.dst.users = m.src.users) (hdrawn : m.dst.drawn = m.src.drawn)
      (hsent : m.sent pl = []) (hconsumes : ∀ kind u, ¬ ConsumesToken pl kind u m) :
      EmailStep pl m

/-- A token that matches is there. -/
theorem TokenMatches.isSome {token : String} (h : TokenMatches pl s kind token row) :
    (row.tokenHash kind).isSome := by
  obtain ⟨hash, hhash, -⟩ := h.valid.hash
  rw [hhash]
  rfl

/-- The mails of a step are those of its call. -/
theorem sent_of_call {call : EmailCall} {choices : ℕ → AccountChoice}
    (hact : m.act = .call call choices) :
    m.sent pl = (call.alone pl choices m.src).2.sent := by
  rw [EmailMove.sent, hact]

/-- A call that creates tokens creates one, or does nothing. -/
theorem emailStep_of_created {call : EmailCall} {choices : ℕ → AccountChoice}
    (hact : m.act = .call call choices)
    (hdst : m.dst = (call.alone pl choices m.src).2.accounts)
    (hcall : ∀ (kind : TokenKind) token password, call ≠ kind.redeem token password)
    (hcreated : Created pl m.src kind (call.alone pl choices m.src)) : EmailStep pl m := by
  have hconsumes : ∀ kind u, ¬ ConsumesToken pl kind u m :=
    fun kind u => not_consumesToken hact hcall
  have hsent : m.sent pl = (call.alone pl choices m.src).2.sent := sent_of_call hact
  generalize call.alone pl choices m.src = res at hcreated hdst hsent
  cases hcreated with
  | nothing hs hnone =>
      rw [hs] at hdst
      exact .kept (by rw [hdst]) (by rw [hdst]) (hsent.trans hnone) hconsumes
  | token row hex h => exact .created kind row hex _ h hdst hsent hconsumes

/-- A call that redeems tokens redeems one, or does nothing. -/
theorem emailStep_of_redeemed {token : String} {choices : ℕ → AccountChoice}
    (hact : m.act = .call (kind.redeem token password) choices)
    (hdst : m.dst = ((kind.redeem token password).alone pl choices m.src).2.accounts)
    (hredeemed : Redeemed pl m.src kind (trim token) password
      ((kind.redeem token password).alone pl choices m.src)) : EmailStep pl m := by
  have hconsumes : ∀ kind' u, ConsumesToken pl kind' u m ↔
      kind' = kind ∧ kind.Serves pl u password m.src m.dst := fun _ _ => consumesToken_iff hact
  have hsent : m.sent pl = ((kind.redeem token password).alone pl choices m.src).2.sent :=
    sent_of_call hact
  generalize (kind.redeem token password).alone pl choices m.src = res at hredeemed hdst hsent
  cases hredeemed with
  | refused hno hr hs hnone =>
      rw [hs] at hdst
      refine .kept (by rw [hdst]) (by rw [hdst]) (hsent.trans hnone) fun kind' u h => ?_
      exact not_serves (by rw [hdst]) ((hconsumes kind' u).mp h).2
  | accepted row row' h hrow hstored hnone =>
      rw [← hdst] at hstored
      refine .redeemed kind _ password row row' h hrow hstored (hsent.trans hnone) fun kind' u => ?_
      rw [hconsumes, serves_iff h.names.found h.isSome h.unverified hrow hstored]

/-- Redeeming a token, whichever it is. -/
theorem redeem_redeemed (hs : s.Tidy pl) (kind : TokenKind) (token password : String)
    (choices : ℕ → AccountChoice) : Redeemed pl s kind (trim token) password
      ((kind.redeem token password).alone pl choices s) := by
  cases kind with
  | verification => exact verifyEmail_redeemed hs token password
  | reset => exact resetPassword_redeemed hs ⟨token, password⟩

/-- A call redeems a token, or it is one of those that create tokens. -/
theorem redeems_or_creates (hs : s.Tidy pl) (call : EmailCall) (choices : ℕ → AccountChoice) :
    (∃ (kind : TokenKind) (token password : String), call = kind.redeem token password) ∨
      (∀ (kind : TokenKind) token password, call ≠ kind.redeem token password) ∧
        ∃ kind, Created pl s kind (call.alone pl choices s) := by
  have hother : (∀ token, call ≠ .verifyEmail token) → (∀ dto, call ≠ .resetPassword dto) →
      ∀ (kind : TokenKind) token password, call ≠ kind.redeem token password := by
    intro hverify hreset kind token password
    cases kind with
    | verification => exact hverify token
    | reset => exact hreset ⟨token, password⟩
  cases call with
  | register dto => exact .inr ⟨hother nofun nofun, _, register_created hs dto⟩
  | resendVerificationEmail email =>
      exact .inr ⟨hother nofun nofun, _, resendVerificationEmail_created hs email⟩
  | forgotPassword email => exact .inr ⟨hother nofun nofun, _, forgotPassword_created hs email⟩
  | verifyEmail token => exact .inl ⟨.verification, token, "", rfl⟩
  | resetPassword dto => exact .inl ⟨.reset, dto.token, dto.password, rfl⟩

/-- Each step is of one of the three kinds. -/
theorem emailStep_of_step {a : EmailTurn} (hs : s.Tidy pl)
    (h : (emailTurns pl).step s a = some s') : EmailStep pl ⟨s, a, s'⟩ := by
  cases a with
  | pass ms =>
      obtain rfl := Option.some.inj h
      refine .kept rfl rfl rfl fun kind u => ?_
      rintro ⟨_, _, _, hact, -⟩
      cases hact
  | call call choices =>
      have hdst := (Option.some.inj h).symm
      rcases redeems_or_creates hs call choices with
        ⟨kind, token, password, rfl⟩ | ⟨hcall, kind, hcreated⟩
      · exact emailStep_of_redeemed rfl hdst (redeem_redeemed hs kind token password choices)
      · exact emailStep_of_created rfl hdst hcall hcreated

end Steps

/-! ## What the rows hold -/

section Rows

variable {pl : Platform} {s s' : AccountStore} {m : EmailMove} {kind kind' : TokenKind}
  {u : UserId} {row row' : UserRow} {password hash : String} {expiresAt : ℕ}

@[simp] theorem UserRow.token_withToken (row : UserRow) (hash : String) (expiresAt : ℕ)
    (kind : TokenKind) :
    (row.withToken hash expiresAt kind).token kind = some (hash, expiresAt) := by
  cases kind with
  | verification => rfl
  | reset => rfl

theorem UserRow.token_withToken_of_ne (h : kind' ≠ kind) :
    (row.withToken hash expiresAt kind).token kind' = row.token kind' := by
  cases kind with
  | verification =>
      cases kind' with
      | verification => exact absurd rfl h
      | reset => rfl
  | reset =>
      cases kind' with
      | verification => rfl
      | reset => exact absurd rfl h

theorem UserRow.Redeems.token (h : row.Redeems pl password kind row') : row'.token kind = none := by
  cases h with
  | verified clock => rfl
  | reset salt => rfl

theorem UserRow.Redeems.token_of_ne (h : row.Redeems pl password kind row') (hne : kind' ≠ kind) :
    row'.token kind' = row.token kind' := by
  cases h with
  | verified clock =>
      cases kind' with
      | verification => exact absurd rfl hne
      | reset => rfl
  | reset salt =>
      cases kind' with
      | verification => rfl
      | reset => exact absurd rfl hne

theorem UserRow.Redeems.id_eq (h : row.Redeems pl password kind row') : row'.id = row.id := by
  cases h with
  | verified clock => rfl
  | reset salt => rfl

theorem slot_eq (pl : Platform) (kind : TokenKind) (s : AccountStore) (u : UserId) :
    (tokenLedger pl kind).slot s u = (s.users.find u).bind fun row => row.token kind := rfl

/-- What a place of the ledger holds once a row is stored. -/
theorem StoredAs.slot (h : StoredAs s row s') (pl : Platform) (kind : TokenKind) :
    (tokenLedger pl kind).slot s' row.id = row.token kind := by
  obtain ⟨updatedAt, hstored⟩ := h.stored
  rw [slot_eq, hstored]
  rfl

theorem StoredAs.slot_of_ne (h : StoredAs s row s') (hne : u ≠ row.id) :
    (tokenLedger pl kind).slot s' u = (tokenLedger pl kind).slot s u := by
  rw [slot_eq, slot_eq, h.others u hne]

/-- Nobody who is verified has a verification token. -/
structure AccountStore.Sound (pl : Platform) (s : AccountStore) : Prop where
  tidy : s.Tidy pl
  unverified : ∀ id row, s.users.find id = some row → (row.tokenHash .verification).isSome →
    row.isEmailVerified = false

/-- The tables stay sound where a sound row is stored. -/
theorem AccountStore.Sound.stored (hs : s.Sound pl) (h : StoredAs s row s')
    (hfree : s.taken row = false) (hemail : pl.normalise row.email = row.email)
    (hunverified : (row.tokenHash .verification).isSome → row.isEmailVerified = false) :
    s'.Sound pl := by
  refine ⟨hs.tidy.stored h hfree hemail, fun id found hfound hsome => ?_⟩
  rcases h.found hfound with ⟨-, updatedAt, rfl⟩ | ⟨-, hthere⟩
  · exact hunverified hsome
  · exact hs.unverified id found hthere hsome

/-- The row that a token is created for is in order, and is there afterwards. -/
theorem Creation.sound {hex : String} {st : CallState} (h : Creation pl s kind row hex st)
    (hs : s.Sound pl) : st.accounts.Sound pl := by
  obtain ⟨salt, hstored⟩ := h.stored
  have hrow : s.taken row = false ∧ pl.normalise row.email = row.email ∧
      ((row.tokenHash .verification).isSome → row.isEmailVerified = false) := by
    rcases h.found with hfound | hnew
    · exact ⟨hs.tidy.unique row.id row hfound, hs.tidy.email row.id row hfound,
        hs.unverified row.id row hfound⟩
    · refine ⟨hnew.free, hnew.email, fun hsome => ?_⟩
      rw [hnew.tokens] at hsome
      cases hsome
  obtain ⟨hfree, hemail, hunverified⟩ := hrow
  have hs' : AccountStore.Sound pl { s with drawn := hex :: s.drawn } :=
    ⟨⟨hs.tidy.email, hs.tidy.unique⟩, hs.unverified⟩
  cases kind with
  | verification => exact hs'.stored hstored hfree hemail fun _ => h.unverified rfl
  | reset => exact hs'.stored hstored hfree hemail hunverified

/-- A step keeps the tables sound. -/
theorem EmailStep.sound (h : EmailStep pl m) (hs : m.src.Sound pl) : m.dst.Sound pl := by
  cases h with
  | created kind row hex st hcreation hdst hsent hconsumes =>
      rw [hdst]
      exact hcreation.sound hs
  | redeemed kind token password row row' hmatches hrow hstored hsent hconsumes =>
      have hfree := hs.tidy.unique row.id row hmatches.names.found
      have hemail := hs.tidy.email row.id row hmatches.names.found
      have hunverified := hs.unverified row.id row hmatches.names.found
      cases hrow with
      | verified clock => exact hs.stored hstored hfree hemail nofun
      | reset salt => exact hs.stored hstored hfree hemail hunverified
  | kept husers hdrawn hsent hconsumes =>
      refine ⟨⟨?_, fun id row hrow => ?_⟩, ?_⟩
      · rw [husers]
        exact hs.tidy.email
      · rw [husers] at hrow
        have hfree := hs.tidy.unique id row hrow
        rwa [AccountStore.taken, ← husers] at hfree
      · rw [husers]
        exact hs.unverified

/-- A token is created for the user of the row, and no other token is. -/
theorem Creation.createsToken_iff {hex token : String} {st : CallState}
    (h : Creation pl m.src kind row hex st) (hdst : m.dst = st.accounts)
    (hsent : m.sent pl = st.sent) (hs : m.dst.Tidy pl) :
    CreatesToken pl kind' u token m ↔
      kind' = kind ∧ u = row.id ∧ token = row.id.text ++ "." ++ hex := by
  obtain ⟨salt, hstored⟩ := h.stored
  obtain ⟨name, hmail⟩ := h.sent
  obtain ⟨updatedAt, hfind⟩ := hstored.stored
  rw [← hdst, UserRow.withToken_id] at hfind
  have hemail : ∀ hash expiresAt, (row.withToken hash expiresAt kind).email = row.email := by
    intro hash expiresAt
    cases kind with
    | verification => rfl
    | reset => rfl
  constructor
  · rintro ⟨row₁, name₁, hrow₁, hmem⟩
    rw [hsent, hmail] at hmem
    obtain ⟨hkind, hemails, htoken⟩ := mail_inj (List.mem_singleton.mp hmem)
    refine ⟨hkind, ?_, htoken⟩
    -- emails are unique
    by_contra hne
    have hid : row₁.id = u := Table.key_of_find hrow₁
    refine (taken_eq_false.mp (hs.unique _ _ hfind) row₁ (hid ▸ hrow₁) ?_).1 ?_
    · rw [hid]
      simpa using hne
    · rw [hemails]
      exact (hemail _ _).symm
  · rintro ⟨rfl, rfl, rfl⟩
    refine ⟨_, name, hfind, ?_⟩
    rw [hsent, hmail]
    refine List.mem_singleton.mpr ?_
    rw [show ({ row.withToken _ _ kind' with updatedAt } : UserRow).email = row.email from
      hemail _ _]

/-- Where no mail is sent, no token is created. -/
theorem not_createsToken {token : String} (hsent : m.sent pl = []) :
    ¬ CreatesToken pl kind u token m := by
  rintro ⟨row, name, -, hmem⟩
  rw [hsent] at hmem
  cases hmem

/-- What the row has of another kind was there before the token was created. -/
theorem Creation.slot_src {hex : String} {st : CallState} (h : Creation pl s kind' row hex st) :
    (tokenLedger pl kind).slot s row.id = row.token kind := by
  rcases h.found with hfound | hnew
  · rw [slot_eq, hfound]
    rfl
  · rw [slot_eq, hnew.absent, UserRow.token, hnew.tokens]
    rfl

/-- A created token is the one that stands for its user, and others stand as before. -/
theorem Creation.touched {hex : String} {st : CallState} (h : Creation pl m.src kind' row hex st)
    (hdst : m.dst = st.accounts) (hsent : m.sent pl = st.sent) (hs : m.dst.Tidy pl)
    (hconsumes : ∀ kind u, ¬ ConsumesToken pl kind u m) (kind : TokenKind) (u : UserId) :
    (tokenLedger pl kind).Touched u m := by
  have hiff : ∀ {kind u token}, CreatesToken pl kind u token m ↔
      kind = kind' ∧ u = row.id ∧ token = row.id.text ++ "." ++ hex :=
    h.createsToken_iff hdst hsent hs
  obtain ⟨salt, hstored⟩ := h.stored
  rw [← hdst] at hstored
  by_cases hwho : kind = kind' ∧ u = row.id
  · obtain ⟨rfl, rfl⟩ := hwho
    have hslot := hstored.slot pl kind
    rw [UserRow.withToken_id, UserRow.token_withToken] at hslot
    refine .issued (row.id.text ++ "." ++ hex, m.src.clock) _ (fun a => ?_)
      (.inl ⟨_, hiff.mpr ⟨rfl, rfl, rfl⟩⟩) hslot ⟨⟨hex, rfl⟩, ⟨salt, rfl⟩, rfl⟩
    constructor
    · rintro ⟨hcreates, htime⟩
      exact Prod.ext (hiff.mp hcreates).2.2 htime.symm
    · rintro rfl
      exact ⟨hiff.mpr ⟨rfl, rfl, rfl⟩, rfl⟩
  · have hissues : ∀ token, ¬ CreatesToken pl kind u token m :=
      fun token hcreates => hwho ⟨(hiff.mp hcreates).1, (hiff.mp hcreates).2.1⟩
    refine .kept (fun a hissued => hissues a.1 hissued.1) ?_ ?_
    · rintro (⟨token, hcreates⟩ | hconsumed)
      · exact hissues token hcreates
      · exact hconsumes kind u hconsumed
    · by_cases hu : u = row.id
      · have hkind : kind ≠ kind' := fun hkind => hwho ⟨hkind, hu⟩
        have hslot := hstored.slot pl kind
        rw [UserRow.withToken_id, UserRow.token_withToken_of_ne hkind] at hslot
        rw [hu, hslot, h.slot_src]
      · rw [hstored.slot_of_ne (by rwa [UserRow.withToken_id])]
        rfl

/-- A redeemed token stands no longer, and others stand as before. -/
theorem touched_of_redeemed (hfound : m.src.users.find row.id = some row)
    (hrow : row.Redeems pl password kind' row') (hstored : StoredAs m.src row' m.dst)
    (hsent : m.sent pl = [])
    (hconsumes : ∀ kind u, ConsumesToken pl kind u m ↔ kind = kind' ∧ u = row.id)
    (kind : TokenKind) (u : UserId) : (tokenLedger pl kind).Touched u m := by
  by_cases hwho : kind = kind' ∧ u = row.id
  · refine .cleared (fun a hissued => not_createsToken hsent hissued.1)
      (.inr ((hconsumes kind u).mpr hwho)) ?_
    obtain ⟨rfl, rfl⟩ := hwho
    rw [← hrow.id_eq, hstored.slot, hrow.token]
  · refine .kept (fun a hissued => not_createsToken hsent hissued.1) ?_ ?_
    · rintro (⟨token, hcreates⟩ | hconsumed)
      · exact not_createsToken hsent hcreates
      · exact hwho ((hconsumes kind u).mp hconsumed)
    · by_cases hu : u = row.id
      · have hkind : kind ≠ kind' := fun hkind => hwho ⟨hkind, hu⟩
        have hslot := hstored.slot pl kind
        rw [hrow.id_eq, hrow.token_of_ne hkind] at hslot
        rw [hu, hslot, slot_eq, hfound]
        rfl
      · exact hstored.slot_of_ne (by rwa [hrow.id_eq])

/-- Each step does to the row of a user what it does to the user's tokens. -/
theorem EmailStep.touched (h : EmailStep pl m) (hs : m.src.Sound pl) (kind : TokenKind)
    (u : UserId) : (tokenLedger pl kind).Touched u m := by
  have hdst : m.dst.Sound pl := h.sound hs
  cases h with
  | created kind' row hex st hcreation hst hsent hconsumes =>
      exact hcreation.touched hst hsent hdst.tidy hconsumes kind u
  | redeemed kind' token password row row' hmatches hrow hstored hsent hconsumes =>
      exact touched_of_redeemed hmatches.names.found hrow hstored hsent hconsumes kind u
  | kept husers hdrawn hsent hconsumes =>
      refine .kept (fun a hissued => not_createsToken hsent hissued.1) ?_ ?_
      · rintro (⟨token, hcreates⟩ | hconsumed)
        · exact not_createsToken hsent hcreates
        · exact hconsumes kind u hconsumed
      · rw [slot_eq, slot_eq, husers]

end Rows

/-! ## Runs -/

section Runs

variable {pl : Platform} {s : AccountStore} {m m' : EmailMove} {tr : List EmailMove}
  {kind kind' : TokenKind} {u u' : UserId} {token : String}

/-- The tables are sound all along a run. -/
theorem sound_of_run (run : Run (emailTurns pl) tr s) :
    s.Sound pl ∧ ∀ m ∈ tr, m.src.Sound pl ∧ m.dst.Sound pl := by
  have hinit : ∀ s, (emailTurns pl).Init s → s.Sound pl := by
    intro s h
    refine ⟨h.1, fun id row hrow hsome => ?_⟩
    rw [h.2 id row hrow] at hsome
    cases hsome
  exact run.invariant_of (C := fun _ => True) hinit
    (fun s a s' _ hs _ h => (emailStep_of_step hs.tidy h).sound hs) fun _ _ => trivial

/-- Each step of a run is of one of the three kinds. -/
theorem emailStep_of_mem (run : Run (emailTurns pl) tr s) (hm : m ∈ tr) : EmailStep pl m :=
  emailStep_of_step ((sound_of_run run).2 m hm).1.tidy (run.of_mem hm).2

/-- The rows hold the tokens that stand. -/
theorem holds_tokens (run : Run (emailTurns pl) tr s) (kind : TokenKind) (u : UserId) :
    (tokenLedger pl kind).Holds tr s u := by
  refine Ledger.holds_of_run (fun s hinit => ?_) (fun m hm => ?_) run
  · rw [slot_eq]
    cases hfind : s.users.find u with
    | none => rfl
    | some row =>
        have hnone := hinit.2 u row hfind kind
        rw [Option.bind_some, UserRow.token, hnone]
        rfl
  · exact (emailStep_of_mem run hm).touched ((sound_of_run run).2 m hm).1 kind u

/-- Users stay. -/
theorem EmailStep.stays (h : EmailStep pl m) (hfind : (m.src.users.find u).isSome) :
    (m.dst.users.find u).isSome := by
  have hstored : ∀ {s row}, StoredAs s row m.dst → s.users = m.src.users →
      (m.dst.users.find u).isSome := by
    intro s row hstored husers
    by_cases hu : u = row.id
    · obtain ⟨updatedAt, hthere⟩ := hstored.stored
      rw [hu, hthere]
      rfl
    · rw [hstored.others u hu, husers]
      exact hfind
  cases h with
  | created kind row hex st hcreation hdst hsent hconsumes =>
      obtain ⟨salt, hcreated⟩ := hcreation.stored
      rw [← hdst] at hcreated
      exact hstored hcreated rfl
  | redeemed kind token password row row' hmatches hrow hredeemed hsent hconsumes =>
      exact hstored hredeemed rfl
  | kept husers hdrawn hsent hconsumes =>
      rw [husers]
      exact hfind

/-- What was drawn stays drawn. -/
theorem EmailStep.drawn (h : EmailStep pl m) : m.src.drawn <:+ m.dst.drawn := by
  cases h with
  | created kind row hex st hcreation hdst hsent hconsumes =>
      obtain ⟨salt, hstored⟩ := hcreation.stored
      rw [hdst, hstored.drawn]
      exact List.suffix_cons _ _
  | redeemed kind token password row row' hmatches hrow hstored hsent hconsumes =>
      exact ⟨[], hstored.drawn.symm⟩
  | kept husers hdrawn hsent hconsumes => exact ⟨[], hdrawn.symm⟩

/-- A step that creates a token draws it, for a user who is there afterwards. -/
theorem EmailStep.creates (h : EmailStep pl m) (hs : m.src.Sound pl)
    (hcreates : CreatesToken pl kind u token m) :
    (m.dst.users.find u).isSome ∧ ∃ hex, m.dst.drawn = hex :: m.src.drawn ∧
      token = u.text ++ "." ++ hex ∧
      ∀ kind' u' token', CreatesToken pl kind' u' token' m → kind' = kind := by
  have hdst : m.dst.Sound pl := h.sound hs
  cases h with
  | created kind₀ row hex st hcreation hst hsent hconsumes =>
      have hiff : ∀ {kind u token}, CreatesToken pl kind u token m ↔
          kind = kind₀ ∧ u = row.id ∧ token = row.id.text ++ "." ++ hex :=
        hcreation.createsToken_iff hst hsent hdst.tidy
      obtain ⟨rfl, rfl, rfl⟩ := hiff.mp hcreates
      obtain ⟨row₁, name, hfind, -⟩ := hcreates
      obtain ⟨salt, hstored⟩ := hcreation.stored
      refine ⟨by rw [hfind]; rfl, hex, ?_, rfl, fun _ _ _ hcreates' => (hiff.mp hcreates').1⟩
      rw [hst, hstored.drawn]
  | redeemed kind' token' password row row' hmatches hrow hstored hsent hconsumes =>
      exact absurd hcreates (not_createsToken hsent)
  | kept husers hdrawn hsent hconsumes => exact absurd hcreates (not_createsToken hsent)

/-- A created token was drawn, for a user who is still there. -/
theorem created_of_run (run : Run (emailTurns pl) tr s) (hm : m ∈ tr)
    (hcreates : CreatesToken pl kind u token m) :
    (s.users.find u).isSome ∧ ∃ hex ∈ s.drawn, token = u.text ++ "." ++ hex := by
  induction run with
  | init h => cases hm
  | snoc run hstep ih =>
      have hs := (sound_of_run run).1
      have hmove := emailStep_of_step hs.tidy hstep
      rcases List.mem_cons.mp hm with rfl | hm
      · obtain ⟨hthere, hex, hdrawn, htoken, -⟩ := hmove.creates hs hcreates
        exact ⟨hthere, hex, hdrawn ▸ List.mem_cons_self, htoken⟩
      · obtain ⟨hthere, hex, hmem, htoken⟩ := ih hm
        exact ⟨hmove.stays hthere, hex, hmove.drawn.mem hmem, htoken⟩

/-- A token is of one kind. -/
theorem kind_of_token (run : Run (emailTurns pl) tr s) (hdrawn : s.drawn.Nodup)
    (hids : ∀ u, (s.users.find u).isSome → '.' ∉ u.text.toList) (hm : m ∈ tr) (hm' : m' ∈ tr)
    (hcreates : CreatesToken pl kind u token m) (hcreates' : CreatesToken pl kind' u' token m') :
    kind' = kind := by
  induction run with
  | init h => cases hm
  | @snoc tr s s' a run hstep ih =>
      have hs := (sound_of_run run).1
      have hmove := emailStep_of_step hs.tidy hstep
      -- what is drawn last was not drawn before
      have hfresh : ∀ {kind kind' u u' m'}, CreatesToken pl kind u token ⟨s, a, s'⟩ → m' ∈ tr →
          ¬ CreatesToken pl kind' u' token m' := by
        intro kind kind' u u' m' hnew hm' hold
        obtain ⟨hthere, hex, hlast, htoken, -⟩ := hmove.creates hs hnew
        obtain ⟨hthere', hex', hmem, htoken'⟩ := created_of_run run hm' hold
        obtain ⟨-, rfl⟩ := token_inj (hids u hthere) (hids u' (hmove.stays hthere'))
          (htoken.symm.trans htoken')
        rw [hlast] at hdrawn
        exact (List.nodup_cons.mp hdrawn).1 hmem
      rcases List.mem_cons.mp hm with rfl | hm
      · rcases List.mem_cons.mp hm' with rfl | hm'
        · obtain ⟨-, -, -, -, hkind⟩ := hmove.creates hs hcreates
          exact hkind _ _ _ hcreates'
        · exact absurd hcreates' (hfresh hcreates hm')
      · rcases List.mem_cons.mp hm' with rfl | hm'
        · exact absurd hcreates (hfresh hcreates' hm)
        · exact ih (hdrawn.sublist hmove.drawn.sublist)
            (fun u hthere => hids u (hmove.stays hthere)) hm hm'

/-- A token matches the row of a user exactly if it stands for the user. -/
theorem standingToken_iff (run : Run (emailTurns pl) tr s) (hids : PlainIds pl s) :
    StandingToken pl kind u token tr s ↔
      ∃ row, TokenMatches pl s kind token row ∧ row.id = u := by
  have hholds := holds_tokens run kind u
  constructor
  · rintro ⟨time, hlatest, hle⟩
    obtain ⟨⟨hash, expiresAt⟩, hslot, ⟨hex, htoken⟩, ⟨salt, hhash⟩, hexpires⟩ :=
      hholds.held _ hlatest
    dsimp only at htoken hhash hexpires
    rw [slot_eq, Option.bind_eq_some_iff] at hslot
    obtain ⟨row, hfind, hrow⟩ := hslot
    rw [UserRow.token, Option.bind_eq_some_iff] at hrow
    obtain ⟨hash', hhash', hrow⟩ := hrow
    obtain ⟨expiresAt', hexpires', hpair⟩ := Option.map_eq_some_iff.mp hrow
    obtain ⟨rfl, rfl⟩ := Prod.mk.inj hpair
    have hid : row.id = u := Table.key_of_find hfind
    obtain ⟨hdot, huuid⟩ := hids u (by rw [hfind]; rfl)
    have howner : ownerOf token = u.text := by rw [htoken, ownerOf_token hdot]
    refine ⟨row, ⟨⟨?_, ?_, hid ▸ hfind⟩, ⟨⟨hash', hhash', ?_, ?_⟩, expiresAt', hexpires', ?_⟩,
      ?_⟩, hid⟩
    · rw [howner]
      exact u.nonempty
    · rw [howner, huuid, hid]
    · rw [hhash]
      exact pl.crypto.hash_ne salt token
    · rw [hhash]
      exact (pl.crypto.verify_hash salt token token).mpr rfl
    · rwa [hexpires]
    · rintro rfl
      refine (sound_of_run run).1.unverified u row hfind ?_
      rw [hhash']
      rfl
  · rintro ⟨row, hmatches, rfl⟩
    obtain ⟨⟨hash, hhash, -, hverify⟩, expiresAt, hexpires, hle⟩ := hmatches.valid
    have hslot : (tokenLedger pl kind).slot s row.id = some (hash, expiresAt) := by
      rw [slot_eq, hmatches.names.found, Option.bind_some, UserRow.token, hhash, hexpires]
      rfl
    obtain ⟨⟨token', time⟩, hlatest, -, ⟨salt, rfl⟩, rfl⟩ := hholds.latest _ hslot
    -- the hash in the row is the hash of one token
    obtain rfl := (pl.crypto.verify_hash salt token' token).mp hverify
    exact ⟨time, hlatest, hle⟩

/-- A call serves a user exactly if the token stands for the user. -/
theorem serves_iff_standing (run : Run (emailTurns pl) tr s) (hids : PlainIds pl s)
    (kind : TokenKind) (token password : String) (choices : ℕ → AccountChoice) (u : UserId) :
    kind.Serves pl u password s ((kind.redeem token password).alone pl choices s).2.accounts ↔
      StandingToken pl kind u (trim token) tr s := by
  rw [standingToken_iff run hids]
  have hredeemed := redeem_redeemed (sound_of_run run).1.tidy kind token password choices
  generalize (kind.redeem token password).alone pl choices s = res at hredeemed ⊢
  cases hredeemed with
  | refused hno hr hs hsent =>
      constructor
      · intro hserves
        exact absurd hserves (not_serves (by rw [hs]))
      · rintro ⟨row, hmatches, -⟩
        exact absurd hmatches (hno row)
  | accepted row row' hmatches hrow hstored hsent =>
      rw [serves_iff hmatches.names.found hmatches.isSome hmatches.unverified hrow hstored]
      constructor
      · rintro rfl
        exact ⟨row, hmatches, rfl⟩
      · rintro ⟨row₁, hmatches₁, rfl⟩
        rw [hmatches.names.row_eq hmatches₁.names]

/-- A user for whom the token does not stand keeps the row. -/
theorem others_of_run (run : Run (emailTurns pl) tr s) (hids : PlainIds pl s) {kind : TokenKind}
    {token : String} (password : String) (choices : ℕ → AccountChoice)
    (h : ¬ StandingToken pl kind u (trim token) tr s) :
    ((kind.redeem token password).alone pl choices s).2.accounts.users.find u
      = s.users.find u := by
  rw [standingToken_iff run hids] at h
  have hredeemed := redeem_redeemed (sound_of_run run).1.tidy kind token password choices
  generalize (kind.redeem token password).alone pl choices s = res at hredeemed ⊢
  cases hredeemed with
  | refused hno hr hs hsent => rw [hs]
  | accepted row row' hmatches hrow hstored hsent =>
      refine hstored.others u fun hu => h ⟨row, hmatches, ?_⟩
      rw [hu, hrow.id_eq]

/-- A token of one kind is refused as the other. -/
theorem kinds_of_run (run : Run (emailTurns pl) tr s) (hdrawn : s.drawn.Nodup)
    (hids : PlainIds pl s) {kind other : TokenKind} {token : String} (password : String)
    (choices : ℕ → AccountChoice) (hne : other ≠ kind) (hm : m ∈ tr)
    (hcreates : CreatesToken pl kind u (trim token) m) :
    ((other.redeem token password).alone pl choices s).1 ≠ .ok (.message other.accepted) ∧
      ((other.redeem token password).alone pl choices s).2.accounts = s := by
  have hredeemed := redeem_redeemed (sound_of_run run).1.tidy other token password choices
  generalize (other.redeem token password).alone pl choices s = res at hredeemed ⊢
  cases hredeemed with
  | refused hno hr hs hsent => exact ⟨hr, hs⟩
  | accepted row row' hmatches hrow hstored hsent =>
      -- it would stand as one of the other kind, and so be created twice
      obtain ⟨time, hlatest, -⟩ := (standingToken_iff run hids).mpr ⟨row, hmatches, rfl⟩
      obtain ⟨m', hm', hcreates', -⟩ := hlatest.issued
      exact absurd (kind_of_token run hdrawn (fun u hthere => (hids u hthere).1) hm hm' hcreates
        hcreates') hne

/-- A call that throws leaves the tables as they are. -/
theorem rejected_of_tidy (hs : s.Tidy pl) (call : EmailCall) (choices : ℕ → AccountChoice)
    {err : AccountError} (h : (call.alone pl choices s).1 = .error err) :
    (call.alone pl choices s).2.accounts = s := by
  rcases redeems_or_creates hs call choices with
    ⟨kind, token, password, rfl⟩ | ⟨-, kind, hcreated⟩
  · have hredeemed := redeem_redeemed hs kind token password choices
    generalize (kind.redeem token password).alone pl choices s = res at hredeemed h ⊢
    cases hredeemed with
    | refused hno hr hs hsent => exact hs
    | accepted row row' hmatches hrow hstored hsent => cases h
  · generalize call.alone pl choices s = res at hcreated h ⊢
    cases hcreated with
    | nothing hs hsent => exact hs
    | token row hex hcreation => cases h

/-- **One-time tokens.** After every run in which no two draws agree, a mailed token is accepted
exactly if it is the last of its kind that was created for its user, has not been consumed, and has
not expired. -/
theorem email_tokens_one_time (run : Run (emailTurns pl) tr s) (hdrawn : s.drawn.Nodup)
    (hids : PlainIds pl s) : OneTimeTokens pl tr s where
  verifies_iff token choices u := by
    have h := serves_iff_standing run hids .verification token "" choices u
    rwa [TokenKind.Serves, TokenKind.redeem] at h
  resets_iff dto choices u := by
    obtain ⟨token, password⟩ := dto
    have h := serves_iff_standing run hids .reset token password choices u
    rwa [TokenKind.Serves, TokenKind.redeem] at h
  others _ _ password choices _ h := others_of_run run hids password choices h
  kinds _ _ _ _ password choices hne := fun ⟨_, hm, hcreates⟩ =>
    kinds_of_run run hdrawn hids password choices hne hm hcreates
  rejected call choices _ h := rejected_of_tidy (sound_of_run run).1.tidy call choices h

end Runs

/-! ### One user -/

/-- What is drawn for a call of the examples. -/
def drawnFor (hex : String) : ℕ → AccountChoice :=
  fun _ => ⟨accountId, ⟨"driver-of-ada", by decide⟩, hex, "", true⟩

/-- A user registers, and soon asks for a reset token too. -/
def twoTokens : List EmailTurn :=
  [.call (.register ⟨"Ada", "a@b.c", "password"⟩) (drawnFor "aa"), .pass 1000,
    .call (.forgotPassword "a@b.c") (drawnFor "bb")]

theorem twoTokens_possible :
    ((emailTurns samplePlatform).exec ⟨.empty, .empty, 0, []⟩ twoTokens).isSome := by
  decide +kernel

theorem twoTokens_ids : ∀ row ∈ (((emailTurns samplePlatform).exec ⟨.empty, .empty, 0, []⟩
    twoTokens).get twoTokens_possible).users.toList,
    '.' ∉ row.id.text.toList ∧ samplePlatform.toUuid row.id.text = some row.id := by
  decide +kernel

/-- The user's tokens are accepted exactly as they are to be. -/
theorem email_tokens_one_time_two : OneTimeTokens samplePlatform
    ((emailTurns samplePlatform).moves [] ⟨.empty, .empty, 0, []⟩ twoTokens)
    (((emailTurns samplePlatform).exec ⟨.empty, .empty, 0, []⟩ twoTokens).get
      twoTokens_possible) := by
  refine email_tokens_one_time ((Run.init ?_).exec (Option.some_get twoTokens_possible).symm)
    (by decide +kernel) fun u hthere => ?_
  · refine ⟨⟨fun id row h => ?_, fun id row h => ?_⟩, fun id row h => ?_⟩
    · cases (Table.find_empty id).symm.trans h
    · cases (Table.find_empty id).symm.trans h
    · cases (Table.find_empty id).symm.trans h
  · obtain ⟨row, hrow⟩ := Option.isSome_iff_exists.mp hthere
    obtain rfl : row.id = u := Table.key_of_find hrow
    exact twoTokens_ids row (Table.mem_toList_of_find hrow)

-- the verification token, with a line break that was copied along
example : ((EmailCall.verifyEmail "ada.aa\n").alone samplePlatform (drawnFor "cc")
    (((emailTurns samplePlatform).exec ⟨.empty, .empty, 0, []⟩ twoTokens).get
      twoTokens_possible)).1 = .ok (.message "Email verified successfully") := by
  rfl

end LogisticsDispatch
