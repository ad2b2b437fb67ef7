/-
The calls about the tokens that are mailed, each run alone.

`register` and `resendVerificationEmail` create a verification token, `forgotPassword` a reset
token; `verifyEmail` and `resetPassword` redeem them. Each kind has two columns of the user's row: a
hash, and the time it expires at. A call is run to its end on the tables, with what it draws from a
stream (`CallState`), and the mails that it sends are kept. What each call leaves is read off the
run: a token that is created replaces the one of its kind (`Created`), and a token is redeemed
exactly if it matches the row of the user that it names (`Redeemed`).
-/
import LogisticsDispatch.Lib.Alone
import LogisticsDispatch.LoginMethods

set_option autoImplicit false

namespace LogisticsDispatch

open Transition Resumable Resumable.Program Accounts Accounts.AuthService

/-! ## The calls, one at a time -/

/-- A call about the tokens that are mailed. -/
inductive EmailCall
  | register (dto : RegisterDto)
  | resendVerificationEmail (email : String)
  | forgotPassword (email : String)
  | verifyEmail (token : String)
  | resetPassword (dto : ResetPasswordDto)
deriving DecidableEq

/-- It is a call of the two services. -/
def EmailCall.toCall : EmailCall → AccountCall
  | register dto => .register dto
  | resendVerificationEmail email => .resendVerificationEmail email
  | forgotPassword email => .forgotPassword email
  | verifyEmail token => .verifyEmail token
  | resetPassword dto => .resetPassword dto

/-- What a call works on: the tables, what is still to be drawn, and the mails it has sent. -/
structure CallState where
  accounts : AccountStore
  choices : ℕ → AccountChoice
  sent : List Mail

/-- Perform one effect. A mail is sent or not; it is kept in any case. -/
def CallState.perform (pl : Platform) (e : AccountEffect) (st : CallState) :
    Except AccountError e.Resp × CallState :=
  let (r, accounts) := AccountStore.perform pl (st.choices 0) e st.accounts
  (r, {
    accounts
    choices := fun n => st.choices (n + 1)
    sent := match e with
      | .sendMail mail => mail :: st.sent
      | _ => st.sent })

/-- A call, run alone: what it returns or throws, and what it leaves. -/
def EmailCall.alone (pl : Platform) (choices : ℕ → AccountChoice) (call : EmailCall)
    (s : AccountStore) : Except AccountError AccountResult × CallState :=
  (call.toCall.program pl).run (CallState.perform pl) ⟨s, choices, []⟩

/-- One step: a call with what it draws, or time that passes. -/
inductive EmailTurn
  | call (call : EmailCall) (choices : ℕ → AccountChoice)
  | pass (ms : ℕ)

/-- The two kinds of tokens. -/
inductive TokenKind
  | verification | reset
deriving DecidableEq

/-- The column of the hash. -/
def UserRow.tokenHash (row : UserRow) : TokenKind → Option String
  | .verification => row.emailVerificationTokenHash
  | .reset => row.passwordResetTokenHash

/-- The column of the time that it expires at. -/
def UserRow.tokenExpiresAt (row : UserRow) : TokenKind → Option ℕ
  | .verification => row.emailVerificationExpiresAt
  | .reset => row.passwordResetExpiresAt

/-- How long a token is valid. -/
def TokenKind.ttl : TokenKind → ℕ
  | verification => EMAIL_VERIFICATION_TTL_MS
  | reset => PASSWORD_RESET_TTL_MS

/-- The mail with a token. -/
def TokenKind.mail (pl : Platform) (email name token : String) : TokenKind → Mail
  | verification =>
      .emailVerification email name (appBaseUrl pl ++ "/auth/verify-email?token=" ++ token)
  | reset => .passwordReset email name (appBaseUrl pl ++ "/auth/reset-password?token=" ++ token)

/-- The tables are as the database and the entity keep them: emails are unique and in their normal
form. -/
structure AccountStore.Tidy (pl : Platform) (s : AccountStore) : Prop where
  email : ∀ id row, s.users.find id = some row → pl.normalise row.email = row.email
  unique : ∀ id row, s.users.find id = some row → s.taken row = false

/-- **The calls about mailed tokens**, one after the other at any times, from any users none of
whom has a token. -/
def emailTurns (pl : Platform) : System AccountStore EmailTurn where
  Init s := s.Tidy pl ∧ ∀ id row, s.users.find id = some row → ∀ kind, row.tokenHash kind = none
  step s
    | .call call choices => some (call.alone pl choices s).2.accounts
    | .pass ms => some { s with clock := s.clock + ms }

/-! ## The table -/

section Tables

variable {pl : Platform} {s s' : AccountStore} {row row' : UserRow} {user : User}

/-- Nobody else has the email or the Google id. -/
theorem taken_eq_false : s.taken row = false ↔ ∀ other, s.users.find other.id = some other →
    other.id ≠ row.id →
      other.email ≠ row.email ∧ (row.googleId.isSome → other.googleId ≠ row.googleId) := by
  rw [AccountStore.taken, List.any_eq_false]
  constructor
  · intro h other hother hne
    have hnone := h other (Table.mem_toList.mpr hother)
    simp only [Bool.and_eq_true, Bool.or_eq_true, decide_eq_true_eq, not_and, not_or] at hnone
    exact ⟨(hnone hne).1, fun hsome heq => (hnone hne).2 hsome heq⟩
  · intro h other hmem
    simp only [Bool.and_eq_true, Bool.or_eq_true, decide_eq_true_eq, not_and, not_or]
    intro hne
    obtain ⟨hemail, hgoogle⟩ := h other (Table.mem_toList.mp hmem) hne
    exact ⟨hemail, hgoogle⟩

/-- It depends on the id, the email and the Google id. -/
theorem taken_congr (hid : row'.id = row.id) (hemail : row'.email = row.email)
    (hgoogle : row'.googleId = row.googleId) : s.taken row' = s.taken row := by
  rw [AccountStore.taken, AccountStore.taken, hid, hemail, hgoogle]

/-- A row is stored, but for its `updated_at`, and nothing else changes. -/
structure StoredAs (s : AccountStore) (row : UserRow) (s' : AccountStore) : Prop where
  clock : s'.clock = s.clock
  drawn : s'.drawn = s.drawn
  stored : ∃ updatedAt, s'.users.find row.id = some { row with updatedAt }
  others : ∀ id, id ≠ row.id → s'.users.find id = s.users.find id

/-- Saving an entity with the email and the Google id of its row. -/
theorem saveUser_spec (hs : s.Tidy pl) (hfind : s.users.find user.id = some row)
    (hemail : user.email = row.email) (hgoogle : user.googleId = row.googleId) :
    ∃ user' s', s.save pl user = (.ok user', s') ∧ user'.email = row.email ∧
      StoredAs s (row.merge user) s' := by
  have hid : row.id = user.id := Table.key_of_find hfind
  have hnormal : pl.normalise user.email = user.email := by
    rw [hemail]
    exact hs.email user.id row hfind
  have hsame : s.taken (row.merge user) = s.taken row := taken_congr rfl hemail hgoogle
  have htaken : s.taken (row.merge user) = false := hsame.trans (hs.unique user.id row hfind)
  have hmerge : row.merge { user with email := pl.normalise user.email } = row.merge user := by
    rw [hnormal]
  rw [AccountStore.save, hfind]
  dsimp only
  rw [hmerge, htaken, if_neg Bool.false_ne_true]
  split
  · next hsaved =>
      have hstored : s.users.find (row.merge user).id = some (row.merge user) := by
        rw [hsaved, hid, hfind]
      exact ⟨_, s, rfl, hnormal.trans hemail, rfl, rfl, ⟨(row.merge user).updatedAt, hstored⟩,
        fun id _ => rfl⟩
  · refine ⟨_, _, rfl, hnormal.trans hemail, rfl, rfl, ⟨_, Table.find_put_self _ _⟩,
      fun id hne => ?_⟩
    exact Table.find_put_of_ne hne

/-- What is found then is the row, or was there before. -/
theorem StoredAs.found (h : StoredAs s row s') {id : UserId} {found : UserRow}
    (hfound : s'.users.find id = some found) :
    (id = row.id ∧ ∃ updatedAt, found = { row with updatedAt }) ∨
      (id ≠ row.id ∧ s.users.find id = some found) := by
  by_cases hid : id = row.id
  · obtain ⟨updatedAt, hstored⟩ := h.stored
    rw [hid, hstored] at hfound
    exact .inl ⟨hid, updatedAt, (Option.some.inj hfound).symm⟩
  · rw [h.others id hid] at hfound
    exact .inr ⟨hid, hfound⟩

/-- The tables stay so where a row is stored whose email and Google id nobody else has. -/
theorem AccountStore.Tidy.stored (hs : s.Tidy pl) (h : StoredAs s row s')
    (hfree : s.taken row = false) (hemail : pl.normalise row.email = row.email) : s'.Tidy pl := by
  have hfree := taken_eq_false.mp hfree
  constructor
  · intro id found hfound
    rcases h.found hfound with ⟨-, updatedAt, rfl⟩ | ⟨-, hthere⟩
    · exact hemail
    · exact hs.email id found hthere
  · intro id found hfound
    refine taken_eq_false.mpr fun other hother hne => ?_
    rcases h.found hfound with ⟨-, updatedAt, rfl⟩ | ⟨hid, hthere⟩
    · rcases h.found hother with ⟨hid', -⟩ | ⟨hid', hthere'⟩
      · exact absurd hid' hne
      · exact hfree other hthere' hid'
    · have hkey : found.id = id := Table.key_of_find hthere
      rcases h.found hother with ⟨-, updatedAt, rfl⟩ | ⟨hid', hthere'⟩
      -- the stored row is another one's other
      · obtain ⟨hemails, hgoogles⟩ := hfree found (hkey ▸ hthere) (hkey ▸ hid)
        refine ⟨fun heq => hemails heq.symm, fun hsome heq => hgoogles ?_ heq.symm⟩
        rw [heq]
        exact hsome
      · exact taken_eq_false.mp (hs.unique id found hthere) other hthere' hne

end Tables

/-! ## Creating a token -/

section Creating

variable {pl : Platform} {st : CallState} {row : UserRow} {user : User}

/-- What is left after an effect that changes no table. -/
def CallState.skip (st : CallState) : CallState :=
  { st with choices := fun n => st.choices (n + 1) }

/-- The row with a token of a kind. -/
def UserRow.withToken (row : UserRow) (hash : String) (expiresAt : ℕ) : TokenKind → UserRow
  | .verification =>
      { row with
        emailVerificationTokenHash := some hash
        emailVerificationExpiresAt := some expiresAt }
  | .reset =>
      { row with
        passwordResetTokenHash := some hash
        passwordResetExpiresAt := some expiresAt }

@[simp] theorem UserRow.withToken_id (row : UserRow) (hash : String) (expiresAt : ℕ)
    (kind : TokenKind) : (row.withToken hash expiresAt kind).id = row.id := by
  cases kind with
  | verification => rfl
  | reset => rfl

/-- The entity with a token of a kind. -/
def User.withToken (user : User) (hash : String) (expiresAt : ℕ) : TokenKind → User
  | .verification => { user with
      emailVerificationTokenHash := some (some hash)
      emailVerificationExpiresAt := some expiresAt }
  | .reset => { user with
      passwordResetTokenHash := some (some hash)
      passwordResetExpiresAt := some expiresAt }

/-- Both methods that create a token. -/
def createTokenOf (kind : TokenKind) (user : User) : AccountProg (String × User) :=
  createToken (fun user hash expiresAt => user.withToken hash expiresAt kind) kind.ttl user

/-- An entity that was loaded puts back what it was loaded with. -/
theorem merge_withToken (addSelect : List Column) (row : UserRow) (hash : String) (expiresAt : ℕ)
    (kind : TokenKind) :
    row.merge ((row.load addSelect).withToken hash expiresAt kind)
      = row.withToken hash expiresAt kind := by
  have hgetD : ∀ (c : Column) (v : Option String),
      (if c ∈ addSelect then some v else none).getD v = v := by
    intro c v
    split
    · rfl
    · rfl
  cases kind with
  | verification =>
      simp only [UserRow.merge, User.withToken, UserRow.withToken, UserRow.load, hgetD,
        Option.getD_some]
  | reset =>
      simp only [UserRow.merge, User.withToken, UserRow.withToken, UserRow.load, hgetD,
        Option.getD_some]

/-- **A token is drawn**, and its hash is stored with the time that it expires at. -/
theorem createToken_run (hs : st.accounts.Tidy pl)
    (hfind : st.accounts.users.find row.id = some row) (addSelect : List Column)
    (kind : TokenKind) :
    ∃ user accounts, (createTokenOf kind (row.load addSelect)).run (CallState.perform pl) st
        = (.ok (tokenOf (row.load addSelect) (st.choices 0).hex, user),
          { accounts, choices := fun n => st.choices (n + 4), sent := st.sent }) ∧
      user.email = row.email ∧
      StoredAs { st.accounts with drawn := (st.choices 0).hex :: st.accounts.drawn }
        (row.withToken (pl.crypto.Hash (st.choices 1).salt
          (tokenOf (row.load addSelect) (st.choices 0).hex)) (st.accounts.clock + kind.ttl) kind)
        accounts := by
  generalize htoken : tokenOf (row.load addSelect) (st.choices 0).hex = token
  have hedited : ∀ hash, ((row.load addSelect).withToken hash (st.accounts.clock + kind.ttl)
      kind).id = row.id ∧ ((row.load addSelect).withToken hash (st.accounts.clock + kind.ttl)
      kind).email = row.email ∧ ((row.load addSelect).withToken hash
      (st.accounts.clock + kind.ttl) kind).googleId = row.googleId := by
    intro hash
    cases kind with
    | verification => exact ⟨rfl, rfl, rfl⟩
    | reset => exact ⟨rfl, rfl, rfl⟩
  obtain ⟨hid, hemail, hgoogle⟩ := hedited (pl.crypto.Hash (st.choices 1).salt token)
  have hs' : ({ st.accounts with drawn := (st.choices 0).hex :: st.accounts.drawn } :
      AccountStore).Tidy pl := ⟨hs.email, hs.unique⟩
  obtain ⟨user, accounts, hsave, hsent, hstored⟩ :=
    saveUser_spec hs' (by rw [hid]; exact hfind) hemail hgoogle
  rw [merge_withToken] at hstored
  refine ⟨user, accounts, ?_, hsent, hstored⟩
  -- the four effects: the bytes, the hash, the clock, and the save
  rw [createTokenOf, createToken, askFor, run_perform_bind _ _ rfl]
  dsimp only
  rw [htoken, askFor, run_perform_bind _ _ rfl, askFor, run_perform_bind _ _ rfl, askFor]
  refine run_perform_bind _ _ ?_
  change (let (r, accounts) := AccountStore.save pl _ _; (r, CallState.mk accounts _ _)) = _
  rw [hsave]

/-- A mail is sent last, whether that works or not. -/
theorem sendLogged_run (pl : Platform) (mail : Mail) (st : CallState) :
    (sendLogged (askFor (.sendMail mail))).run (CallState.perform pl) st
      = (.ok (), { st.skip with sent := mail :: st.sent }) := rfl

/-- A row that a call inserts. -/
structure NewRow (pl : Platform) (s : AccountStore) (row : UserRow) : Prop where
  absent : s.users.find row.id = none
  free : s.taken row = false
  email : pl.normalise row.email = row.email
  tokens : ∀ kind, row.tokenHash kind = none

/-- A call creates a token of a kind for the user of a row, and mails it to the user. -/
structure Creation (pl : Platform) (s : AccountStore) (kind : TokenKind) (row : UserRow)
    (hex : String) (st : CallState) : Prop where
  found : s.users.find row.id = some row ∨ NewRow pl s row
  unverified : kind = .verification → row.isEmailVerified = false
  stored : ∃ salt, StoredAs { s with drawn := hex :: s.drawn } (row.withToken
    (pl.crypto.Hash salt (row.id.text ++ "." ++ hex)) (s.clock + kind.ttl) kind) st.accounts
  sent : ∃ name, st.sent = [kind.mail pl row.email name (row.id.text ++ "." ++ hex)]

/-- What becomes of a call that creates a token, or none. -/
inductive Created (pl : Platform) (s : AccountStore) (kind : TokenKind) :
    Except AccountError AccountResult × CallState → Prop
  | nothing {r : Except AccountError AccountResult} {st : CallState} (hs : st.accounts = s)
      (hsent : st.sent = []) : Created pl s kind (r, st)
  | token {result : AccountResult} {st : CallState} (row : UserRow) (hex : String)
      (h : Creation pl s kind row hex st) : Created pl s kind (.ok result, st)

variable {s base : AccountStore} {choices : ℕ → AccountChoice}

/-- The tables once the row is there: it was, or it is new. -/
structure Provided (pl : Platform) (s : AccountStore) (row : UserRow) (base : AccountStore) :
    Prop where
  found : s.users.find row.id = some row ∨ NewRow pl s row
  tidy : base.Tidy pl
  there : base.users.find row.id = some row
  clock : base.clock = s.clock
  drawn : base.drawn = s.drawn
  others : ∀ id, id ≠ row.id → base.users.find id = s.users.find id

/-- The end of a call that creates a token: the token is created, and mailed. -/
theorem creation_run {α : Type} {kind : TokenKind} (hbase : Provided pl s row base)
    (hunverified : kind = .verification → row.isEmailVerified = false) (addSelect : List Column)
    (choices : ℕ → AccountChoice) {send : User → String → AccountProg Bool} (finish : User → α)
    (hsend : ∀ user token, ∃ name,
      send user token = askFor (.sendMail (kind.mail pl user.email name token))) :
    ∃ user hex st, (do
        let (token, user) ← createTokenOf kind (row.load addSelect)
        sendLogged (send user token)
        return finish user : AccountProg α).run (CallState.perform pl) ⟨base, choices, []⟩
          = (.ok (finish user), st) ∧
      Creation pl s kind row hex st := by
  have hthere : (CallState.mk base choices []).accounts.users.find row.id = some row := hbase.there
  obtain ⟨user, accounts, hrun, hemail, hstored⟩ :=
    createToken_run hbase.tidy hthere addSelect kind
  obtain ⟨name, hmail⟩ := hsend user (tokenOf (row.load addSelect) (choices 0).hex)
  rw [hemail] at hmail
  refine ⟨user, (choices 0).hex, ⟨accounts, fun n => choices (n + 1 + 4),
    [kind.mail pl row.email name (row.id.text ++ "." ++ (choices 0).hex)]⟩, ?_, hbase.found,
    hunverified, ⟨(choices 1).salt, ?_⟩, ⟨name, rfl⟩⟩
  · rw [run_bind_ok _ _ hrun]
    dsimp only
    rw [hmail, run_bind_ok _ _ (sendLogged_run pl _ _)]
    rfl
  · rw [← hbase.clock]
    refine ⟨hstored.clock, hstored.drawn.trans ?_, hstored.stored,
      fun id hne => (hstored.others id hne).trans ?_⟩
    · exact congrArg ((choices 0).hex :: ·) hbase.drawn
    · refine hbase.others id ?_
      rwa [UserRow.withToken_id] at hne

/-- A user of the table is there. -/
theorem provided_of_find (hs : s.Tidy pl) (hfind : s.users.find row.id = some row) :
    Provided pl s row s :=
  ⟨.inl hfind, hs, hfind, rfl, rfl, fun _ _ => rfl⟩

/-- What is found by an email is loaded from a row of the table. -/
theorem findOneByEmail_run (pl : Platform) (email : String) (st : CallState) :
    ∃ found : Option User, (askFor (.findOneByEmail email)).run (CallState.perform pl) st
        = (.ok found, st.skip) ∧
      ∀ user, found = some user → ∃ row, st.accounts.users.find row.id = some row ∧
        row.email = email ∧ user = row.load [] := by
  refine ⟨_, rfl, fun user huser => ?_⟩
  obtain ⟨row, hrow, hemail, hload⟩ := row_of_find huser
  exact ⟨row, hrow, of_decide_eq_true hemail, hload⟩

/-- Both methods that mail a token on request: a user whom the email belongs to is sent one, if the
user may have one, and the answer tells nothing of it. -/
def mailToken (pl : Platform) (kind : TokenKind) (email : String) (may : User → Bool)
    (genericResponseMessage : String) : AccountProg String := do
  match (← askFor (.findOneByEmail email)).filter may with
  | none => return genericResponseMessage
  | some user => do
      let (token, user) ← createTokenOf kind user
      sendLogged (askFor (.sendMail (kind.mail pl user.email user.name token)))
      return genericResponseMessage

theorem resendVerificationEmail_eq (pl : Platform) (email : String) :
    AuthService.resendVerificationEmail pl email
      = mailToken pl .verification (pl.normalise (pl.normalise email))
        (fun user => !user.isEmailVerified)
        "If an account exists for this email, a verification email has been sent." := rfl

theorem forgotPassword_eq (pl : Platform) (email : String) : AuthService.forgotPassword pl email
    = mailToken pl .reset (pl.normalise email) (fun user => user.provider = .LOCAL)
      "If an account exists for this email, a password reset email has been sent." := rfl

/-- They create a token, or do nothing. -/
theorem mailToken_created (hs : s.Tidy pl) {kind : TokenKind} (email : String) {may : User → Bool}
    (hmay : ∀ user, may user = true → kind = .verification → user.isEmailVerified = false)
    (answer : String) :
    Created pl s kind ((do
      return .message (← mailToken pl kind email may answer) : AccountProg AccountResult).run
        (CallState.perform pl) ⟨s, choices, []⟩) := by
  obtain ⟨found, hrun, hfound⟩ := findOneByEmail_run pl email ⟨s, choices, []⟩
  cases hwho : found.filter may with
  | none =>
      have hinner : (mailToken pl kind email may answer).run (CallState.perform pl)
          ⟨s, choices, []⟩ = (.ok answer, CallState.skip ⟨s, choices, []⟩) := by
        rw [mailToken, run_bind_ok _ _ hrun, hwho]
        rfl
      rw [run_bind_ok _ _ hinner]
      exact .nothing rfl rfl
  | some user =>
      obtain ⟨hsome, htrue⟩ := Option.filter_eq_some_iff.mp hwho
      obtain ⟨row, hrow, -, rfl⟩ := hfound user hsome
      obtain ⟨user', hex, st, hcreate, hcreation⟩ := creation_run (provided_of_find hs hrow)
        (hmay _ htrue) [] (fun n => choices (n + 1)) (fun _ => answer)
        fun user token => ⟨user.name, rfl⟩
      have hinner : (mailToken pl kind email may answer).run (CallState.perform pl)
          ⟨s, choices, []⟩ = (.ok answer, st) := by
        rw [mailToken, run_bind_ok _ _ hrun, hwho]
        exact hcreate
      rw [run_bind_ok _ _ hinner]
      exact .token row hex hcreation

theorem resendVerificationEmail_created (hs : s.Tidy pl) (email : String) :
    Created pl s .verification ((EmailCall.resendVerificationEmail email).alone pl choices s) := by
  rw [EmailCall.alone, EmailCall.toCall, AccountCall.program, resendVerificationEmail_eq]
  refine mailToken_created hs _ (fun user hmay _ => ?_) _
  simpa using hmay

theorem forgotPassword_created (hs : s.Tidy pl) (email : String) :
    Created pl s .reset ((EmailCall.forgotPassword email).alone pl choices s) := by
  rw [EmailCall.alone, EmailCall.toCall, AccountCall.program, forgotPassword_eq]
  refine mailToken_created hs _ (fun user _ hkind => ?_) _
  cases hkind

/-- A user is inserted, or there is an error. -/
theorem insert_run (hs : s.Tidy pl) (user : NewUser) (id : UserId) :
    (s.insert pl user id).2 = s ∧ (∃ err, (s.insert pl user id).1 = .error err) ∨
      ∃ row, (s.insert pl user id).1 = .ok (row.load Column.hidden) ∧
        row.isEmailVerified = user.isEmailVerified ∧
        Provided pl s row (s.insert pl user id).2 := by
  rw [AccountStore.insert]
  split
  · exact .inl ⟨rfl, _, rfl⟩
  · next hfree =>
      rw [Bool.or_eq_true, not_or, Bool.not_eq_true, Bool.not_eq_true, Option.isSome_eq_false_iff,
        Option.isNone_iff_eq_none] at hfree
      obtain ⟨habsent, htaken⟩ := hfree
      have hemail : pl.normalise (pl.normalise user.email) = pl.normalise user.email :=
        pl.normalise_normalise user.email
      have hothers : ∀ id', id' ≠ id → (s.users.put (AccountStore.newRow pl user id s.clock)).find
          id' = s.users.find id' := fun id' hne => Table.find_put_of_ne hne
      have hnew : NewRow pl s (AccountStore.newRow pl user id s.clock) := by
        refine ⟨habsent, htaken, hemail, fun kind => ?_⟩
        cases kind with
        | verification => rfl
        | reset => rfl
      refine .inr ⟨AccountStore.newRow pl user id s.clock, rfl, rfl, .inr hnew, ?_,
        Table.find_put_self _ _, rfl, rfl, hothers⟩
      exact hs.stored ⟨rfl, rfl, ⟨_, Table.find_put_self _ _⟩, hothers⟩ htaken hemail

/-- The user that `register` inserts. -/
def registered (pl : Platform) (dto : RegisterDto) (passwordHash : String) : NewUser :=
  { name := dto.name, email := pl.normalise dto.email, passwordHash := some passwordHash
    googleId := none, role := .CUSTOMER, provider := .LOCAL, isEmailVerified := false
    emailVerifiedAt := none }

/-- `register`, for who is new. -/
def registerNew (pl : Platform) (dto : RegisterDto) : AccountProg AuthResponse := do
  let passwordHash ← askFor (.Hash dto.password)
  let user ← askFor (.insert (registered pl dto passwordHash))
  let (verificationToken, user) ← createTokenOf .verification user
  sendLogged (sendVerificationEmail pl user.email user.name verificationToken)
  return { user := sanitizeUser user, accessToken := none, refreshToken := none
           emailVerificationRequired := some true }

theorem register_eq (pl : Platform) (dto : RegisterDto) : AuthService.register pl dto = (do
    let existingUser ← askFor (.findOneByEmail (pl.normalise (pl.normalise dto.email)))
    if existingUser.isSome then throw (.ConflictException "Email already in use")
    else registerNew pl dto) := rfl

/-- `register` creates a token for who is new. -/
theorem register_created (hs : s.Tidy pl) (dto : RegisterDto) :
    Created pl s .verification ((EmailCall.register dto).alone pl choices s) := by
  obtain ⟨found, hrun, -⟩ := findOneByEmail_run pl (pl.normalise (pl.normalise dto.email))
    ⟨s, choices, []⟩
  rw [EmailCall.alone, EmailCall.toCall, AccountCall.program]
  by_cases hfound : found.isSome
  · have hinner : (AuthService.register pl dto).run (CallState.perform pl) ⟨s, choices, []⟩
        = (.error (.ConflictException "Email already in use"),
          CallState.skip ⟨s, choices, []⟩) := by
      rw [register_eq, run_bind_ok _ _ hrun, if_pos hfound]
      rfl
    rw [run_bind_error _ _ hinner]
    exact .nothing rfl rfl
  · have hfirst : (AuthService.register pl dto).run (CallState.perform pl) ⟨s, choices, []⟩
        = (registerNew pl dto).run (CallState.perform pl) (CallState.skip ⟨s, choices, []⟩) := by
      rw [register_eq, run_bind_ok _ _ hrun, if_neg hfound]
    let user := registered pl dto (pl.crypto.Hash (choices 1).salt dto.password)
    have hinsert : CallState.perform pl (.insert user) ⟨s, fun n => choices (n + 2), []⟩
        = ((s.insert pl user (choices 2).userId).1,
          ⟨(s.insert pl user (choices 2).userId).2, fun n => choices (n + 3), []⟩) := rfl
    rcases insert_run hs user (choices 2).userId with
      ⟨hsame, err, herr⟩ | ⟨row, hok, hunverified, hbase⟩
    · have hinner : (AuthService.register pl dto).run (CallState.perform pl) ⟨s, choices, []⟩
          = (.error err, ⟨s, fun n => choices (n + 3), []⟩) := by
        rw [hfirst, registerNew, askFor, run_perform_bind _ _ rfl, askFor]
        rw [hsame, herr] at hinsert
        exact run_perform_bind_error _ _ hinsert
      rw [run_bind_error _ _ hinner]
      exact .nothing rfl rfl
    · obtain ⟨user, hex, st, hcreate, hcreation⟩ := creation_run hbase (fun _ => hunverified)
        Column.hidden (fun n => choices (n + 3)) (fun user => ({
          user := sanitizeUser user, accessToken := none, refreshToken := none
          emailVerificationRequired := some true } : AuthResponse))
        fun user token => ⟨user.name, rfl⟩
      have hinner : (AuthService.register pl dto).run (CallState.perform pl) ⟨s, choices, []⟩
          = (.ok { user := sanitizeUser user, accessToken := none, refreshToken := none
                   emailVerificationRequired := some true }, st) := by
        rw [hfirst, registerNew, askFor, run_perform_bind _ _ rfl, askFor]
        rw [hok] at hinsert
        exact (run_perform_bind _ _ hinsert).trans hcreate
      rw [run_bind_ok _ _ hinner]
      exact .token row hex hcreation

end Creating

/-! ## Redeeming a token -/

section Redeeming

variable {pl : Platform} {s : AccountStore} {choices : ℕ → AccountChoice} {row row' : UserRow}
  {kind : TokenKind} {rawToken : String}

/-- The call that redeems a token of a kind; a reset token sets the password. -/
def TokenKind.redeem (token password : String) : TokenKind → EmailCall
  | verification => .verifyEmail token
  | reset => .resetPassword ⟨token, password⟩

/-- The token names the user of a row. -/
structure NamesUser (pl : Platform) (s : AccountStore) (rawToken : String) (row : UserRow) :
    Prop where
  nonempty : ownerOf rawToken ≠ ""
  owner : pl.toUuid (ownerOf rawToken) = some row.id
  found : s.users.find row.id = some row

/-- What is stored of a token is the token's, and it has not expired. -/
structure Valid (pl : Platform) (clock : ℕ) (rawToken : String) (hash : Option String)
    (expiresAt : Option ℕ) : Prop where
  hash : ∃ h, hash = some h ∧ h ≠ "" ∧ pl.crypto.verifyHash h rawToken = true
  expiresAt : ∃ e, expiresAt = some e ∧ clock ≤ e

/-- The token matches the row of the user it names. -/
structure TokenMatches (pl : Platform) (s : AccountStore) (kind : TokenKind) (rawToken : String)
    (row : UserRow) : Prop where
  names : NamesUser pl s rawToken row
  valid : Valid pl s.clock rawToken (row.tokenHash kind) (row.tokenExpiresAt kind)
  unverified : kind = .verification → row.isEmailVerified = false

/-- What redeeming a token makes of the row. -/
inductive UserRow.Redeems (pl : Platform) (password : String) (row : UserRow) :
    TokenKind → UserRow → Prop
  | verified (clock : ℕ) : Redeems pl password row .verification { row with
      isEmailVerified := true
      emailVerifiedAt := some clock
      emailVerificationTokenHash := none
      emailVerificationExpiresAt := none }
  | reset (salt : String) : Redeems pl password row .reset { row with
      passwordHash := some (pl.crypto.Hash salt password)
      passwordResetTokenHash := none
      passwordResetExpiresAt := none }

/-- The answer to a token that is accepted. -/
def TokenKind.accepted : TokenKind → String
  | verification => "Email verified successfully"
  | reset => "Password reset successfully"

/-- What becomes of a call that redeems a token: if it matches no row, the tables stay as they
are. -/
inductive Redeemed (pl : Platform) (s : AccountStore) (kind : TokenKind)
    (rawToken password : String) : Except AccountError AccountResult × CallState → Prop
  | refused {r : Except AccountError AccountResult} {st : CallState}
      (h : ∀ row, ¬ TokenMatches pl s kind rawToken row) (hr : r ≠ .ok (.message kind.accepted))
      (hs : st.accounts = s) (hsent : st.sent = []) : Redeemed pl s kind rawToken password (r, st)
  | accepted {result : AccountResult} {st : CallState} (row row' : UserRow)
      (h : TokenMatches pl s kind rawToken row) (hrow : row.Redeems pl password kind row')
      (hstored : StoredAs s row' st.accounts) (hsent : st.sent = []) :
      Redeemed pl s kind rawToken password (.ok result, st)

/-- Both methods that redeem a token: the user that it names is loaded. -/
def openToken (rawToken invalid : String) (addSelect : List Column)
    (check : User → AccountProg String) : AccountProg String :=
  if rawToken = "" ∨ ownerOf rawToken = "" then throw (.UnauthorizedException invalid)
  else do
    match ← askFor (.getOne (ownerOf rawToken) addSelect) with
    | none => throw (.UnauthorizedException invalid)
    | some user => check user

/-- Then the token is compared with what is stored. -/
def checkToken (rawToken invalid expired : String) (hash : Option String) (expiresAt : Option ℕ)
    (accept : AccountProg String) : AccountProg String :=
  match hash.filter (· ≠ ""), expiresAt with
  | some hash, some expiresAt => do
      if expiresAt < (← askFor .now) then throw (.UnauthorizedException expired)
      else if !(← askFor (.verifyHash hash rawToken)) then throw (.UnauthorizedException invalid)
      else accept
  | _, _ => throw (.UnauthorizedException invalid)

theorem verifyEmail_eq (token : String) : AuthService.verifyEmail token
    = openToken (trim token) "Invalid verification token" [.emailVerificationTokenHash]
      fun user => if user.isEmailVerified then return "Email is already verified"
        else checkToken (trim token) "Invalid verification token" "Verification token has expired"
          user.emailVerificationTokenHash.join user.emailVerificationExpiresAt do
            let now ← askFor .now
            let _ ← askFor (.save { user with
              isEmailVerified := true
              emailVerifiedAt := some now
              emailVerificationTokenHash := some none
              emailVerificationExpiresAt := none })
            return "Email verified successfully" := by
  rw [AuthService.verifyEmail, openToken]
  refine ite_congr rfl (fun _ => rfl) fun _ => ?_
  refine congrArg (askFor _ >>= ·) (funext fun found => ?_)
  cases found with
  | none => rfl
  | some user =>
      refine ite_congr rfl (fun _ => rfl) fun _ => ?_
      unfold checkToken
      cases user.emailVerificationTokenHash.join.filter (· ≠ "") with
      | none => rfl
      | some hash =>
          cases user.emailVerificationExpiresAt with
          | none => rfl
          | some expiresAt => rfl

theorem resetPassword_eq (dto : ResetPasswordDto) : AuthService.resetPassword dto
    = openToken (trim dto.token) "Invalid reset token" [.passwordResetTokenHash, .passwordHash]
      fun user => checkToken (trim dto.token) "Invalid reset token" "Reset token has expired"
        user.passwordResetTokenHash.join user.passwordResetExpiresAt do
          let passwordHash ← askFor (.Hash dto.password)
          let _ ← askFor (.save { user with
            passwordHash := some (some passwordHash)
            passwordResetTokenHash := some none
            passwordResetExpiresAt := none })
          return "Password reset successfully" := by
  rw [AuthService.resetPassword, openToken]
  refine ite_congr rfl (fun _ => rfl) fun _ => ?_
  refine congrArg (askFor _ >>= ·) (funext fun found => ?_)
  cases found with
  | none => rfl
  | some user =>
      dsimp only
      unfold checkToken
      cases user.passwordResetTokenHash.join.filter (· ≠ "") with
      | none => rfl
      | some hash =>
          cases user.passwordResetExpiresAt with
          | none => rfl
          | some expiresAt => rfl

/-- The user that the token names is loaded, or there is an error. -/
theorem openToken_run (choices : ℕ → AccountChoice) (invalid : String) (addSelect : List Column)
    (check : User → AccountProg String) :
    (∃ err st, (openToken rawToken invalid addSelect check).run (CallState.perform pl)
        ⟨s, choices, []⟩ = (.error err, st) ∧ st.accounts = s ∧ st.sent = [] ∧
        ∀ row, ¬ NamesUser pl s rawToken row) ∨
      ∃ row, NamesUser pl s rawToken row ∧
        (openToken rawToken invalid addSelect check).run (CallState.perform pl) ⟨s, choices, []⟩
          = (check (row.load addSelect)).run (CallState.perform pl)
            (CallState.skip ⟨s, choices, []⟩) := by
  rw [openToken]
  by_cases hparts : rawToken = "" ∨ ownerOf rawToken = ""
  · rw [if_pos hparts]
    refine .inl ⟨_, _, rfl, rfl, rfl, fun row hnames => ?_⟩
    rcases hparts with rfl | howner
    · exact hnames.nonempty rfl
    · exact hnames.nonempty howner
  rw [if_neg hparts, askFor]
  obtain ⟨-, howner⟩ := not_or.mp hparts
  have hload : CallState.perform pl (.getOne (ownerOf rawToken) addSelect) ⟨s, choices, []⟩
      = ((AccountStore.perform pl (choices 0) (.getOne (ownerOf rawToken) addSelect) s).1,
        ⟨(AccountStore.perform pl (choices 0) (.getOne (ownerOf rawToken) addSelect) s).2,
          fun n => choices (n + 1), []⟩) := rfl
  rw [AccountStore.perform] at hload
  cases huuid : pl.toUuid (ownerOf rawToken) with
  | none =>
      rw [huuid] at hload
      refine .inl ⟨_, _, run_perform_bind_error _ _ hload, rfl, rfl, fun row hnames => ?_⟩
      exact Option.some_ne_none _ (hnames.owner.symm.trans huuid)
  | some id =>
      rw [huuid] at hload
      rw [run_perform_bind _ _ hload]
      cases hfind : s.users.find id with
      | none =>
          refine .inl ⟨_, _, rfl, rfl, rfl, fun row hnames => ?_⟩
          obtain rfl := Option.some.inj (hnames.owner.symm.trans huuid)
          exact Option.some_ne_none _ (hnames.found.symm.trans hfind)
      | some row =>
          obtain rfl : row.id = id := Table.key_of_find hfind
          exact .inr ⟨row, ⟨howner, huuid, hfind⟩, rfl⟩

/-- The token is accepted if it is valid; if not, there is an error. -/
theorem checkToken_run (pl : Platform) (st : CallState) (invalid expired : String)
    (hash : Option String) (expiresAt : Option ℕ) (accept : AccountProg String) :
    (¬ Valid pl st.accounts.clock rawToken hash expiresAt ∧
      ∃ err st', (checkToken rawToken invalid expired hash expiresAt accept).run
        (CallState.perform pl) st = (.error err, st') ∧ st'.accounts = st.accounts ∧
        st'.sent = st.sent) ∨
      Valid pl st.accounts.clock rawToken hash expiresAt ∧
        (checkToken rawToken invalid expired hash expiresAt accept).run (CallState.perform pl) st
          = accept.run (CallState.perform pl) st.skip.skip := by
  unfold checkToken
  cases hkept : hash.filter (· ≠ "") with
  | none =>
      refine .inl ⟨?_, _, _, rfl, rfl, rfl⟩
      rintro ⟨⟨h, rfl, hne, -⟩, -⟩
      rw [Option.filter_some, if_pos (decide_eq_true hne)] at hkept
      cases hkept
  | some h =>
      obtain ⟨rfl, hne⟩ := Option.filter_eq_some_iff.mp hkept
      cases expiresAt with
      | none =>
          refine .inl ⟨?_, _, _, rfl, rfl, rfl⟩
          rintro ⟨-, e, he, -⟩
          cases he
      | some e =>
          dsimp only
          rw [askFor, run_perform_bind _ _ rfl]
          by_cases hexpired : e < st.accounts.clock
          · rw [if_pos hexpired]
            refine .inl ⟨?_, _, _, rfl, rfl, rfl⟩
            rintro ⟨-, e', he, hle⟩
            obtain rfl := Option.some.inj he
            exact absurd hexpired (Nat.not_lt.mpr hle)
          rw [if_neg hexpired, askFor, run_perform_bind _ _ rfl]
          cases hverify : pl.crypto.verifyHash h rawToken with
          | false =>
              refine .inl ⟨?_, _, _, rfl, rfl, rfl⟩
              rintro ⟨⟨h', hh', -, hverify'⟩, -⟩
              obtain rfl := Option.some.inj hh'
              rw [hverify] at hverify'
              cases hverify'
          | true =>
              exact .inr ⟨⟨⟨h, rfl, of_decide_eq_true hne, hverify⟩, e, rfl,
                Nat.not_lt.mp hexpired⟩, rfl⟩

/-- A token names one user. -/
theorem NamesUser.row_eq (h : NamesUser pl s rawToken row) (h' : NamesUser pl s rawToken row') :
    row' = row := by
  have hid : row'.id = row.id := Option.some.inj (h'.owner.symm.trans h.owner)
  have hfound := h'.found
  rw [hid] at hfound
  exact Option.some.inj (hfound.symm.trans h.found)

/-- A loaded user is saved last. -/
theorem saveLoaded_run (choices : ℕ → AccountChoice) (hs : s.Tidy pl) (user : User)
    (hfind : s.users.find user.id = some row) (hemail : user.email = row.email)
    (hgoogle : user.googleId = row.googleId) (message : String) :
    ∃ st, (do
        let _ ← askFor (.save user)
        return message : AccountProg String).run (CallState.perform pl) ⟨s, choices, []⟩
          = (.ok message, st) ∧
      StoredAs s (row.merge user) st.accounts ∧ st.sent = [] := by
  obtain ⟨user', s', hsave, -, hstored⟩ := saveUser_spec hs hfind hemail hgoogle
  have hperform : CallState.perform pl (.save user) ⟨s, choices, []⟩
      = ((s.save pl user).1, ⟨(s.save pl user).2, fun n => choices (n + 1), []⟩) := rfl
  rw [hsave] at hperform
  exact ⟨_, run_perform_bind _ _ hperform, hstored, rfl⟩

/-- A token that names nobody is refused. -/
theorem openToken_redeemed {password invalid : String} {addSelect : List Column}
    {check : User → AccountProg String}
    (hcheck : ∀ row, NamesUser pl s rawToken row → Redeemed pl s kind rawToken password ((do
      return .message (← check (row.load addSelect)) : AccountProg AccountResult).run
        (CallState.perform pl) (CallState.skip ⟨s, choices, []⟩))) :
    Redeemed pl s kind rawToken password ((do
      return .message (← openToken rawToken invalid addSelect check) :
        AccountProg AccountResult).run (CallState.perform pl) ⟨s, choices, []⟩) := by
  rcases openToken_run choices invalid addSelect check with
    ⟨err, st, hrun, hst, hsent, hnone⟩ | ⟨row, hnames, hrun⟩
  · rw [run_bind_error _ _ hrun]
    exact .refused (fun row h => hnone row h.names) nofun hst hsent
  · rw [run_bind, hrun, ← run_bind]
    exact hcheck row hnames

/-- A token that is not valid is refused, and any other is accepted. -/
theorem checkToken_redeemed {password invalid expired : String} {accept : AccountProg String}
    (hnames : NamesUser pl s rawToken row)
    (hunverified : kind = .verification → row.isEmailVerified = false)
    (haccept : ∃ st row', accept.run (CallState.perform pl) ⟨s, fun n => choices (n + 3), []⟩
        = (.ok kind.accepted, st) ∧ row.Redeems pl password kind row' ∧
      StoredAs s row' st.accounts ∧ st.sent = []) :
    Redeemed pl s kind rawToken password ((do
      return .message (← checkToken rawToken invalid expired (row.tokenHash kind)
        (row.tokenExpiresAt kind) accept) : AccountProg AccountResult).run (CallState.perform pl)
          (CallState.skip ⟨s, choices, []⟩)) := by
  rcases checkToken_run pl (CallState.skip ⟨s, choices, []⟩) invalid expired (row.tokenHash kind)
    (row.tokenExpiresAt kind) accept with
    ⟨hinvalid, err, st, hcheck, hst, hsent⟩ | ⟨hvalid, hcheck⟩
  · rw [run_bind_error _ _ hcheck]
    exact .refused (fun row' h => hinvalid (hnames.row_eq h.names ▸ h.valid)) nofun hst hsent
  · obtain ⟨st, row', hrun, hredeems, hstored, hsent⟩ := haccept
    rw [run_bind_ok _ _ (hcheck.trans hrun)]
    exact .accepted row row' ⟨hnames, hvalid, hunverified⟩ hredeems hstored hsent

theorem verifyEmail_redeemed (hs : s.Tidy pl) (token password : String) :
    Redeemed pl s .verification (trim token) password
      ((EmailCall.verifyEmail token).alone pl choices s) := by
  rw [EmailCall.alone, EmailCall.toCall, AccountCall.program, verifyEmail_eq]
  refine openToken_redeemed fun row hnames => ?_
  by_cases hverified : (row.load [.emailVerificationTokenHash]).isEmailVerified = true
  · rw [if_pos hverified]
    refine .refused (fun row' h => ?_) (by decide) rfl rfl
    have hunverified : row'.isEmailVerified = false := h.unverified rfl
    rw [hnames.row_eq h.names] at hunverified
    exact Bool.false_ne_true (hunverified.symm.trans hverified)
  · rw [if_neg hverified]
    have hunverified : row.isEmailVerified = false := by simpa [UserRow.load] using hverified
    refine checkToken_redeemed hnames (fun _ => hunverified) ?_
    obtain ⟨st, hsave, hstored, hsent⟩ := saveLoaded_run (fun n => choices (n + 4)) hs
      { row.load [.emailVerificationTokenHash] with
        isEmailVerified := true
        emailVerifiedAt := some s.clock
        emailVerificationTokenHash := some none
        emailVerificationExpiresAt := none } hnames.found rfl rfl "Email verified successfully"
    exact ⟨st, _, (run_perform_bind _ _ rfl).trans hsave, .verified s.clock, hstored, hsent⟩

theorem resetPassword_redeemed (hs : s.Tidy pl) (dto : ResetPasswordDto) :
    Redeemed pl s .reset (trim dto.token) dto.password
      ((EmailCall.resetPassword dto).alone pl choices s) := by
  rw [EmailCall.alone, EmailCall.toCall, AccountCall.program, resetPassword_eq]
  refine openToken_redeemed fun row hnames => checkToken_redeemed hnames nofun ?_
  obtain ⟨st, hsave, hstored, hsent⟩ := saveLoaded_run (fun n => choices (n + 4)) hs
    { row.load [.passwordResetTokenHash, .passwordHash] with
      passwordHash := some (some (pl.crypto.Hash (choices 3).salt dto.password))
      passwordResetTokenHash := some none
      passwordResetExpiresAt := none } hnames.found rfl rfl "Password reset successfully"
  exact ⟨st, _, (run_perform_bind _ _ rfl).trans hsave, .reset (choices 3).salt, hstored, hsent⟩

end Redeeming

end LogisticsDispatch
