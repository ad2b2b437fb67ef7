/-
Login methods stay separate, and tokens need a verified email.

A user has a password and no Google id, or a Google id and no password, by the provider; and the
email of a Google user is verified. No check says so: `loginWithGoogle` lets in whoever has the
Google id, and `resetPassword` sets a password for whoever has the token. Both go well because
each call, run alone, changes a user only along `UserRow.Becomes`, so that every user in the table
stays `UserRow.Settled`: what has a Google id is no `LOCAL` user, and no `GOOGLE` user has a reset
token.

The calls are verified on the table of users alone (`Users`), with all else that effects may
answer left open.
-/
import LogisticsDispatch.SignIn
import LogisticsDispatch.UserColumns

set_option autoImplicit false

namespace LogisticsDispatch

open Accounts Resumable Resumable.Program

variable {pl : Platform}

/-! ## What is promised -/

/-- A user signs in with a password, or with Google, and not with both. The email of a user who
signs in with Google is verified. -/
structure UserRow.OneMethod (row : UserRow) : Prop where
  password : row.provider = .LOCAL → row.passwordHash.isSome = true ∧ row.googleId = none
  google : row.provider = .GOOGLE →
    row.googleId.isSome = true ∧ row.passwordHash = none ∧ row.isEmailVerified = true

/-- The id of the user that an effect issues a token to: it signs the access token, or keeps the
refresh token. -/
def AuthEffect.issuedTo : AuthEffect → Option String
  | token (.signAsync payload) => some payload.sub.text
  | token (.redisSet userId _ _) => some userId
  | _ => none

/-- The provider of the users that a call signs in. -/
def AuthCall.signsIn : AuthCall → Option AuthProvider
  | login _ => some .LOCAL
  | loginWithGoogle _ => some .GOOGLE
  | _ => none

/-- The rows of `users`. -/
abbrev Users := Table UserRow.id

/-- A call may issue tokens to the user: the email is verified, and the user is one the call signs
in. -/
def Entitled (call : AuthCall) (users : Users) (id : UserId) : Prop :=
  ∃ row, users.find id = some row ∧ row.isEmailVerified = true ∧
    ∀ provider, call.signsIn = some provider → row.provider = provider

/-- Login methods are separate in a state, and were in the moves that led there: tokens were issued
and returned only to users with a verified email, by `login` only to `LOCAL` and by
`loginWithGoogle` only to `GOOGLE` users; and no password was set for a `GOOGLE` user. -/
structure SeparateLogins (tr : List (Transition.Move AuthSys AuthAction)) (s : AuthSys) :
    Prop where
  users : ∀ id row, s.user id = some row → row.OneMethod
  issued : ∀ m ∈ tr, ∀ i ch call e userId, m.act = .exec i ch → m.src.call i = some call →
    m.src.next i = some e → e.issuedTo = some userId →
      ∃ id, id.text = userId ∧ Entitled call m.src.shared.accounts.users id
  returned : ∀ i call response, s.Returned i call (.auth response) →
    response.accessToken.isSome = true ∨ response.refreshToken.isSome = true →
      Entitled call s.shared.accounts.users response.user.id
  signedIn : ∀ i call response provider, s.Returned i call (.auth response) →
    call.signsIn = some provider →
      ∃ row, s.user response.user.id = some row ∧ row.provider = provider
  reset : ∀ m ∈ tr, ∀ i ch dto id row, m.act = .exec i ch →
    m.src.call i = some (.account (.resetPassword dto)) → m.src.user id = some row →
    row.provider = .GOOGLE →
      ∃ row', m.dst.user id = some row' ∧ row'.provider = .GOOGLE ∧ row'.passwordHash = none

/-! ## How users change -/

/-- How a call may change a user. -/
structure UserRow.Becomes (row row' : UserRow) : Prop where
  provider : row'.provider = row.provider
  googleId : row'.googleId.isSome = row.googleId.isSome
  passwordHash : row'.passwordHash.isSome = row.passwordHash.isSome
  verified : row.isEmailVerified = true → row'.isEmailVerified = true
  reset : row'.passwordResetTokenHash.isSome = true →
    row.passwordResetTokenHash.isSome = true ∨ row.provider = .LOCAL

/-- One login method, and a reset token only for a password. -/
structure UserRow.Settled (row : UserRow) : Prop where
  oneMethod : row.OneMethod
  reset : row.passwordResetTokenHash.isSome = true → row.provider = .LOCAL

/-- How a call may change the table: a row in it was there, or is of a new user. -/
structure Maintains (users users' : Users) : Prop where
  evolves : users.Evolves UserRow.Becomes users'
  rows : ∀ id row', users'.find id = some row' →
    row'.Settled ∨ ∃ row, users.find id = some row ∧ row.Becomes row'

namespace UserRow

variable {row row' row'' : UserRow}

theorem Becomes.refl (row : UserRow) : row.Becomes row :=
  ⟨rfl, rfl, rfl, fun h => h, .inl⟩

theorem OneMethod.becomes (h : row.OneMethod) (hrow : row.Becomes row') : row'.OneMethod := by
  refine ⟨fun hlocal => ?_, fun hgoogle => ?_⟩
  · obtain ⟨hpassword, hid⟩ := h.password (hrow.provider.symm.trans hlocal)
    have hgone : row'.googleId.isSome = false := by rw [hrow.googleId, hid, Option.isSome_none]
    exact ⟨hrow.passwordHash.trans hpassword, by simpa using hgone⟩
  · obtain ⟨hid, hpassword, hverified⟩ := h.google (hrow.provider.symm.trans hgoogle)
    have hgone : row'.passwordHash.isSome = false := by
      rw [hrow.passwordHash, hpassword, Option.isSome_none]
    exact ⟨hrow.googleId.trans hid, by simpa using hgone, hrow.verified hverified⟩

theorem Settled.becomes (h : row.Settled) (hrow : row.Becomes row') : row'.Settled := by
  refine ⟨h.oneMethod.becomes hrow, fun hreset => ?_⟩
  rw [hrow.provider]
  rcases hrow.reset hreset with hreset | hlocal
  · exact h.reset hreset
  · exact hlocal

/-- A user with a Google id is a Google user. -/
theorem OneMethod.provider_of_googleId (h : row.OneMethod) (hid : row.googleId.isSome = true) :
    row.provider = .GOOGLE := by
  cases hprovider : row.provider with
  | GOOGLE => rfl
  | LOCAL =>
      rw [(h.password hprovider).2] at hid
      cases hid

end UserRow

section Maintains

variable {users users' : Users} {row : UserRow}

theorem Maintains.refl (users : Users) : Maintains users users :=
  ⟨.refl UserRow.Becomes.refl users, fun _ row hrow => .inr ⟨row, hrow, .refl row⟩⟩

/-- Settled users stay settled. -/
theorem Maintains.settled (h : Maintains users users')
    (hsettled : ∀ id row, users.find id = some row → row.Settled) (id : UserId) (row' : UserRow)
    (hrow' : users'.find id = some row') : row'.Settled := by
  rcases h.rows id row' hrow' with hnew | ⟨row, hrow, hbecomes⟩
  · exact hnew
  · exact (hsettled id row hrow).becomes hbecomes

/-- A row is put in the place of one it has become of. -/
theorem Maintains.put {row' : UserRow} (hrow : users.find row'.id = some row)
    (hbecomes : row.Becomes row') : Maintains users (users.put row') := by
  refine ⟨.put UserRow.Becomes.refl fun old hold => ?_, fun id found hfound => ?_⟩
  · obtain rfl := Option.some.inj (hold.symm.trans hrow)
    exact hbecomes
  · rw [Table.find_put] at hfound
    split at hfound
    · next hid =>
        obtain rfl := Option.some.inj hfound
        exact .inr ⟨row, hid ▸ hrow, hbecomes⟩
    · exact .inr ⟨found, hfound, .refl found⟩

/-- A settled user is put in who was not there. -/
theorem Maintains.insert (hnew : users.find row.id = none) (hsettled : row.Settled) :
    Maintains users (users.put row) := by
  refine ⟨.put UserRow.Becomes.refl fun old hold => ?_, fun id found hfound => ?_⟩
  · cases hnew.symm.trans hold
  · rw [Table.find_put] at hfound
    split at hfound
    · obtain rfl := Option.some.inj hfound
      exact .inl hsettled
    · exact .inr ⟨found, hfound, .refl found⟩

/-- Who may get tokens still may. -/
theorem Entitled.maintains {call : AuthCall} {id : UserId} (h : Entitled call users id)
    (hmaintains : Maintains users users') : Entitled call users' id := by
  obtain ⟨row, hrow, hverified, hprovider⟩ := h
  obtain ⟨row', hrow', hbecomes⟩ := hmaintains.evolves id row hrow
  exact ⟨row', hrow', hbecomes.verified hverified,
    fun provider hcall => hbecomes.provider.trans (hprovider provider hcall)⟩

end Maintains

/-! ## What effects answer and do -/

/-- What the methods that write to `users` are verified against. -/
def accountOutline (pl : Platform) :
    Outline AccountEffect AccountEffect.Resp AccountError Unit Users where
  step := (accountMachine pl).Seen AccountStore.users .Unavailable
  May _ _ _ := True
  Keeps := Maintains

/-- The user was loaded from a row of the table. -/
def Loaded (users : Users) (user : User) : Prop :=
  ∃ row addSelect, users.find row.id = some row ∧ user = row.load addSelect

/-- The effects that write to `users`. -/
def AccountEffect.writes : AccountEffect → Bool
  | insert _ | save _ | promotion _ _ => true
  | _ => false

section Effects

variable {users users' : Users} {e : AccountEffect}

theorem Writes.users_eq {st st' : AccountStore} (h : Writes pl st e st') (he : e.writes = false) :
    st'.users = st.users := by
  cases h with
  | nothing husers _ => exact husers
  | inserted => cases he
  | saved => cases he
  | promoted => cases he

/-- An effect that does not write. -/
theorem step_reads {r : Except AccountError e.Resp} (h : (accountOutline pl).step e users r users')
    (he : e.writes = false) : users' = users := by
  rcases h with ⟨ch, st, rfl, -, rfl⟩ | ⟨-, rfl⟩
  · exact (perform_writes ch e st).users_eq he
  · rfl

/-- What is found in the table by a condition was loaded from a row that meets it. -/
theorem row_of_find {st : AccountStore} {p : UserRow → Bool} {addSelect : List Column}
    {user : User} (h : (st.users.toList.find? p).map (UserRow.load addSelect) = some user) :
    ∃ row, st.users.find row.id = some row ∧ p row = true ∧ user = row.load addSelect := by
  obtain ⟨row, hrow, rfl⟩ := Option.map_eq_some_iff.mp h
  exact ⟨row, Table.mem_toList.mp (List.mem_of_find?_eq_some hrow), List.find?_some hrow, rfl⟩

theorem loaded_of_find {st : AccountStore} {p : UserRow → Bool} {addSelect : List Column}
    {user : User} (h : (st.users.toList.find? p).map (UserRow.load addSelect) = some user) :
    Loaded st.users user := by
  obtain ⟨row, hrow, -, hload⟩ := row_of_find h
  exact ⟨row, addSelect, hrow, hload⟩

theorem loaded_of_findById {st : AccountStore} {id : UserId} {addSelect : List Column}
    {user : User} (h : (st.users.find id).map (UserRow.load addSelect) = some user) :
    Loaded st.users user := by
  obtain ⟨row, hrow, rfl⟩ := Option.map_eq_some_iff.mp h
  refine ⟨row, addSelect, ?_, rfl⟩
  rw [Table.key_of_find hrow, hrow]

/-- What an effect that does not write tells of was loaded. -/
theorem step_told {a : e.Resp} {user : User} (h : (accountOutline pl).step e users (.ok a) users')
    (he : e.writes = false) (htold : e.told (.ok a) = some user) : Loaded users user := by
  rcases h with ⟨ch, st, rfl, hr, -⟩ | ⟨hr, -⟩
  · change (AccountStore.perform pl ch e st).1 = .ok a at hr
    cases e with
    | findOneByEmail email =>
        obtain rfl := Except.ok.inj hr
        exact loaded_of_find htold
    | findOneBy id =>
        obtain rfl := Except.ok.inj hr
        exact loaded_of_findById htold
    | getOne id addSelect =>
        rw [AccountStore.perform] at hr
        cases huuid : pl.toUuid id with
        | none =>
            rw [huuid] at hr
            cases hr
        | some uuid =>
            rw [huuid] at hr
            obtain rfl := Except.ok.inj hr
            exact loaded_of_findById htold
    | insert => cases he
    | _ => cases htold
  · cases hr

/-- Saving a user whose row may become what is saved. -/
theorem step_save {user : User} {r : Except AccountError User}
    (h : (accountOutline pl).step (.save user) users r users')
    (hrow : ∀ row, users.find user.id = some row → row.Becomes (row.merge user)) :
    Maintains users users' ∧ ∀ user', r = .ok user' → user'.id = user.id ∧
      ∃ row', users'.find user.id = some row' ∧ row'.provider = user.provider ∧
        row'.isEmailVerified = user.isEmailVerified := by
  rcases h with ⟨ch, st, rfl, hr, hst⟩ | ⟨rfl, rfl⟩
  · change (st.save pl user).1 = r at hr
    change (st.save pl user).2.users = users' at hst
    rw [AccountStore.save] at hr hst
    cases hfind : st.users.find user.id with
    | none =>
        simp only [hfind] at hr hst
        subst hr hst
        exact ⟨.refl _, fun user' h => by cases h⟩
    | some row =>
        have hbecomes := hrow row hfind
        simp only [hfind] at hr hst
        split at hr
        · next htaken =>
            rw [if_pos htaken] at hst
            subst hr hst
            exact ⟨.refl _, fun user' h => by cases h⟩
        · next htaken =>
            rw [if_neg htaken] at hst
            split at hr
            -- the row has what is saved already
            · next hsame =>
                rw [if_pos hsame] at hst
                subst hr hst
                refine ⟨.refl _, fun user' h => ?_⟩
                obtain rfl := Except.ok.inj h
                exact ⟨rfl, row, hfind, congrArg UserRow.provider hsame.symm,
                  congrArg UserRow.isEmailVerified hsame.symm⟩
            · next hsame =>
                rw [if_neg hsame] at hst
                subst hr hst
                have hid : row.id = user.id := Table.key_of_find hfind
                have hfind' : st.users.find row.id = some row := hid ▸ hfind
                refine ⟨.put hfind' ⟨hbecomes.provider, hbecomes.googleId,
                  hbecomes.passwordHash, hbecomes.verified, hbecomes.reset⟩, fun user' h => ?_⟩
                · obtain rfl := Except.ok.inj h
                  refine ⟨rfl, _, Table.find_put_of_eq hid, rfl, rfl⟩
  · exact ⟨.refl _, fun user' h => by cases h⟩

/-- Inserting a user who is settled. -/
theorem step_insert {user : NewUser} {r : Except AccountError User}
    (h : (accountOutline pl).step (.insert user) users r users')
    (hsettled : ∀ id clock, (AccountStore.newRow pl user id clock).Settled) :
    Maintains users users' ∧ ∀ user', r = .ok user' → Loaded users' user' ∧
      user'.provider = user.provider ∧ user'.isEmailVerified = user.isEmailVerified := by
  rcases h with ⟨ch, st, rfl, hr, hst⟩ | ⟨rfl, rfl⟩
  · change (st.insert pl user ch.userId).1 = r at hr
    change (st.insert pl user ch.userId).2.users = users' at hst
    rw [AccountStore.insert] at hr hst
    split at hr
    · next hthere =>
        rw [if_pos hthere] at hst
        subst hr hst
        exact ⟨.refl _, fun user' h => by cases h⟩
    · next hthere =>
        rw [if_neg hthere] at hst
        subst hr hst
        rw [Bool.or_eq_true, not_or, Bool.not_eq_true, Option.isSome_eq_false_iff,
          Option.isNone_iff_eq_none] at hthere
        refine ⟨.insert hthere.1 (hsettled _ _), fun user' h => ?_⟩
        obtain rfl := Except.ok.inj h
        exact ⟨⟨_, _, Table.find_put_self _ _, rfl⟩, rfl, rfl⟩
  · exact ⟨.refl _, fun user' h => by cases h⟩

theorem step_promotion {userId : UserId} {dto : PromoteToDriverDto}
    {r : Except AccountError (Option User)}
    (h : (accountOutline pl).step (.promotion userId dto) users r users') :
    Maintains users users' := by
  rcases h with ⟨ch, st, rfl, -, rfl⟩ | ⟨-, rfl⟩
  · have hwrites : Writes pl st (.promotion userId dto)
        (AccountStore.perform pl ch (.promotion userId dto) st).2 := perform_writes ch _ st
    change Maintains st.users (AccountStore.perform pl ch (.promotion userId dto) st).2.users
    generalize (AccountStore.perform pl ch (.promotion userId dto) st).2 = st' at hwrites
    cases hwrites with
    | nothing husers _ =>
        rw [husers]
        exact .refl _
    | promoted _ _ row driver hrow _ _ =>
        have hfind : st.users.find row.id = some row := by rw [Table.key_of_find hrow, hrow]
        exact .put hfind ⟨rfl, rfl, rfl, fun h => h, .inl⟩
  · exact .refl _

end Effects

/-! ## The methods that write to `users` -/

/-- Run alone, the program changes users only as calls may, and returns what meets `Q`. -/
abbrev Proper {α : Type} (pl : Platform) (p : AccountProg α) (Q : α → Prop) (users : Users) :
    Prop :=
  p.Ensures (accountOutline pl) () (fun a _ => Q a) users

section Methods

variable {users : Users} {α : Type} {Q : α → Prop}

/-- The rule for an effect that does not write: what it tells of was loaded. -/
theorem proper_read {e : AccountEffect} {f : e.Resp → AccountProg α} (he : e.writes = false)
    (hf : ∀ a, (∀ user, e.told (.ok a) = some user → Loaded users user) →
      Proper pl (f a) Q users) : Proper pl (askFor e >>= f) Q users := by
  refine ensures_perform_bind trivial (fun r users' h => ?_) fun a users' h => ?_
  · rw [step_reads h he]
    exact .refl users
  · rw [step_reads h he]
    exact hf a fun user htold => step_told h he htold

/-- The rule for saving. -/
theorem proper_save {user : User} {f : User → AccountProg α}
    (hrow : ∀ row, users.find user.id = some row → row.Becomes (row.merge user))
    (hf : ∀ user users', Proper pl (f user) Q users') :
    Proper pl (askFor (.save user) >>= f) Q users := by
  refine ensures_perform_bind trivial (fun r users' h => (step_save h hrow).1) ?_
  exact fun user users' _ => hf user users'

/-- A mail may be sent, and what goes wrong is only logged. -/
theorem proper_sendLogged (mail : Mail) :
    Proper pl (AuthService.sendLogged (askFor (.sendMail mail))) (fun _ => True) users := by
  have hsend : Proper pl (discard (askFor (.sendMail mail))) (fun _ => True) users :=
    proper_read rfl fun _ _ => trivial
  exact hsend.tryCatch fun _ _ => trivial

/-- What an edit of a loaded user saves, where the edited columns are in order. -/
theorem becomes_merge {row : UserRow} {user : User} (hprovider : user.provider = row.provider)
    (hgoogle : user.googleId.isSome = row.googleId.isSome)
    (hpassword : ∀ hash, user.passwordHash = some hash → hash.isSome = row.passwordHash.isSome)
    (hverified : row.isEmailVerified = true → user.isEmailVerified = true)
    (hreset : ∀ hash, user.passwordResetTokenHash = some hash → hash.isSome = true →
      row.passwordResetTokenHash.isSome = true ∨ row.provider = .LOCAL) :
    row.Becomes (row.merge user) := by
  refine ⟨hprovider, hgoogle, ?_, hverified, ?_⟩
  · cases h : user.passwordHash with
    | none => simp [UserRow.merge, h]
    | some hash => simp [UserRow.merge, h, hpassword hash h]
  · cases h : user.passwordResetTokenHash with
    | none => simp_all [UserRow.merge]
    | some hash => simpa [UserRow.merge, h] using hreset hash h

theorem load_passwordHash {row : UserRow} {addSelect : List Column} {hash : Option String}
    (h : (row.load addSelect).passwordHash = some hash) : hash = row.passwordHash := by
  rw [UserRow.load] at h
  split at h
  · exact (Option.some.inj h).symm
  · cases h

theorem load_passwordResetTokenHash {row : UserRow} {addSelect : List Column}
    {hash : Option String} (h : (row.load addSelect).passwordResetTokenHash = some hash) :
    hash = row.passwordResetTokenHash := by
  change (if Column.passwordResetTokenHash ∈ addSelect then some row.passwordResetTokenHash
    else none) = some hash at h
  split at h
  · exact (Option.some.inj h).symm
  · cases h

/-- An edit of a loaded user that leaves the password and the reset token alone. -/
theorem becomes_merge_load {row : UserRow} {user : User} (addSelect : List Column)
    (hprovider : user.provider = row.provider)
    (hgoogle : user.googleId.isSome = row.googleId.isSome)
    (hverified : row.isEmailVerified = true → user.isEmailVerified = true)
    (hpassword : user.passwordHash = (row.load addSelect).passwordHash)
    (hreset : user.passwordResetTokenHash = (row.load addSelect).passwordResetTokenHash) :
    row.Becomes (row.merge user) := by
  refine becomes_merge hprovider hgoogle (fun hash h => ?_) hverified fun hash h hsome => ?_
  · rw [hpassword] at h
    rw [load_passwordHash h]
  · rw [hreset] at h
    rw [← load_passwordResetTokenHash h]
    exact .inl hsome

/-- Saving an edit of a user that was loaded: the row is the one it was loaded from. -/
theorem Loaded.saves {user user' : User} (h : Loaded users user) (hid : user'.id = user.id)
    (hedit : ∀ row addSelect, users.find row.id = some row → user = row.load addSelect →
      row.Becomes (row.merge user')) (row : UserRow) (hrow : users.find user'.id = some row) :
    row.Becomes (row.merge user') := by
  obtain ⟨row₀, addSelect, hrow₀, hload⟩ := h
  rw [hid, hload] at hrow
  obtain rfl := Option.some.inj (hrow₀.symm.trans hrow)
  exact hedit row₀ addSelect hrow₀ hload

/-- A token is kept by a save. -/
theorem createToken_proper {edit : User → String → ℕ → User} {ttl : ℕ} {user : User}
    (hedit : ∀ hash expiresAt row, users.find (edit user hash expiresAt).id = some row →
      row.Becomes (row.merge (edit user hash expiresAt))) :
    Proper pl (AuthService.createToken edit ttl user) (fun _ => True) users := by
  refine proper_read rfl fun hex _ => ?_
  refine proper_read rfl fun hash _ => ?_
  refine proper_read rfl fun now _ => ?_
  exact proper_save (hedit hash _) fun _ _ => trivial

theorem createEmailVerificationToken_proper {user : User} (h : Loaded users user) :
    Proper pl (AuthService.createEmailVerificationToken user) (fun _ => True) users := by
  refine createToken_proper fun hash expiresAt => h.saves rfl ?_
  rintro row addSelect - rfl
  exact becomes_merge_load addSelect rfl rfl (fun h => h) rfl rfl

theorem createPasswordResetToken_proper {user : User} (h : Loaded users user)
    (hlocal : user.provider = .LOCAL) :
    Proper pl (AuthService.createPasswordResetToken user) (fun _ => True) users := by
  refine createToken_proper fun hash expiresAt => h.saves rfl ?_
  rintro row addSelect - rfl
  exact becomes_merge rfl rfl (fun _ h => by rw [load_passwordHash h]) (fun h => h)
    fun _ _ _ => .inr hlocal

/-- A response with no tokens. -/
def AuthResponse.NoTokens (response : AuthResponse) : Prop :=
  response.accessToken = none ∧ response.refreshToken = none

theorem register_proper (dto : RegisterDto) :
    Proper pl (AuthService.register pl dto) AuthResponse.NoTokens users := by
  refine proper_read rfl fun existingUser _ => ?_
  cases existingUser with
  | some user => trivial
  | none =>
      refine proper_read rfl fun passwordHash _ => ?_
      have hsettled : ∀ id clock, (AccountStore.newRow pl
          { name := dto.name, email := pl.normalise dto.email, passwordHash := some passwordHash
            googleId := none, role := .CUSTOMER, provider := .LOCAL, isEmailVerified := false
            emailVerifiedAt := none } id clock).Settled :=
        fun _ _ => ⟨⟨fun _ => ⟨rfl, rfl⟩, (by cases ·)⟩, fun _ => rfl⟩
      refine ensures_perform_bind trivial (fun _ _ h => (step_insert h hsettled).1) ?_
      intro user users' h
      obtain ⟨hloaded, -⟩ := (step_insert h hsettled).2 user rfl
      refine (createEmailVerificationToken_proper hloaded).bind fun token _ _ => ?_
      refine (proper_sendLogged _).bind ?_
      exact fun _ _ _ => ⟨rfl, rfl⟩

theorem verifyEmail_proper (token : String) :
    Proper pl (AuthService.verifyEmail token) (fun _ => True) users := by
  rw [AuthService.verifyEmail]
  split
  · trivial
  refine proper_read rfl fun found htold => ?_
  cases found with
  | none => trivial
  | some user =>
      dsimp only
      split
      · trivial
      split
      · refine proper_read rfl fun now _ => ?_
        split
        · trivial
        refine proper_read rfl fun tokenIsValid _ => ?_
        split
        · trivial
        refine proper_read rfl fun now _ => ?_
        refine proper_save ((htold user rfl).saves rfl ?_) fun _ _ => trivial
        rintro row addSelect - rfl
        exact becomes_merge_load addSelect rfl rfl (fun _ => rfl) rfl rfl
      · trivial

theorem resendVerificationEmail_proper (email : String) :
    Proper pl (AuthService.resendVerificationEmail pl email) (fun _ => True) users := by
  refine proper_read rfl fun found htold => ?_
  split
  · trivial
  · next user hfound =>
      have hloaded := htold user (Option.filter_eq_some_iff.mp hfound).1
      refine (createEmailVerificationToken_proper hloaded).bind fun token _ _ => ?_
      refine (proper_sendLogged _).bind ?_
      exact fun _ _ _ => trivial

theorem forgotPassword_proper (email : String) :
    Proper pl (AuthService.forgotPassword pl email) (fun _ => True) users := by
  refine proper_read rfl fun found htold => ?_
  split
  · trivial
  · next user hfound =>
      obtain ⟨hfound, hlocal⟩ := Option.filter_eq_some_iff.mp hfound
      refine (createPasswordResetToken_proper (htold user hfound)
        (of_decide_eq_true hlocal)).bind fun token _ _ => ?_
      refine (proper_sendLogged _).bind ?_
      exact fun _ _ _ => trivial

/-- A password is reset only where the row has a reset token, and so a password. -/
theorem resetPassword_proper (dto : ResetPasswordDto)
    (hsettled : ∀ id row, users.find id = some row → row.Settled) :
    Proper pl (AuthService.resetPassword dto) (fun _ => True) users := by
  rw [AuthService.resetPassword]
  split
  · trivial
  refine proper_read rfl fun found htold => ?_
  cases found with
  | none => trivial
  | some user =>
      dsimp only
      split
      · next hash expiresAt hhash _ =>
        refine proper_read rfl fun now _ => ?_
        split
        · trivial
        refine proper_read rfl fun tokenIsValid _ => ?_
        split
        · trivial
        refine proper_read rfl fun passwordHash _ => ?_
        refine proper_save ((htold user rfl).saves rfl ?_) fun _ _ => trivial
        rintro row addSelect hrow rfl
        have htoken : row.passwordResetTokenHash.isSome = true := by
          obtain ⟨hjoin, -⟩ := Option.filter_eq_some_iff.mp hhash
          rw [← load_passwordResetTokenHash (Option.join_eq_some_iff.mp hjoin)]
          rfl
        have hlocal := (hsettled _ row hrow).reset htoken
        have hpassword := ((hsettled _ row hrow).oneMethod.password hlocal).1
        exact becomes_merge rfl rfl (fun _ h => by rw [← Option.some.inj h, hpassword]; rfl)
          (fun h => h) fun _ _ _ => .inr hlocal
      · trivial

theorem updateUserName_proper (id : UserId) (name : String) :
    Proper pl (Accounts.UsersService.updateUserName id name) (fun _ => True) users := by
  refine proper_read rfl fun found htold => ?_
  cases found with
  | none => trivial
  | some user =>
      refine proper_save ((htold user rfl).saves rfl ?_) fun _ _ => trivial
      rintro row addSelect - rfl
      exact becomes_merge_load addSelect rfl rfl (fun h => h) rfl rfl

theorem promoteToDriver_proper (userId : UserId) (dto : PromoteToDriverDto) :
    Proper pl (Accounts.UsersService.promoteToDriver userId dto) (fun _ => True) users := by
  refine proper_read rfl fun found _ => ?_
  cases found with
  | none => trivial
  | some user =>
      dsimp only
      split
      · trivial
      split
      · trivial
      refine ensures_perform_bind trivial (fun _ _ h => step_promotion h) fun updated _ _ => ?_
      cases updated <;> trivial

end Methods

/-! ## The methods that sign in -/

/-- What a call returns: it has tokens only for who is entitled to them, and is about a user that
the call signs in. -/
def Rightly (call : AuthCall) : AccountResult → Users → Prop
  | .auth response, users =>
      (response.accessToken.isSome = true ∨ response.refreshToken.isSome = true →
        Entitled call users response.user.id) ∧
      ∀ provider, call.signsIn = some provider →
        ∃ row, users.find response.user.id = some row ∧ row.provider = provider
  | _, _ => True

/-- What the calls are verified against: tokens are issued to who is entitled to them. -/
def authOutline (pl : Platform) :
    Outline AuthEffect AuthEffect.Resp AccountError AuthCall Users where
  step := (authMachine pl).Seen (fun st => st.accounts.users) .Unavailable
  May call e users := ∀ userId, e.issuedTo = some userId →
    ∃ id, id.text = userId ∧ Entitled call users id
  Keeps := Maintains

section SignIn

open SignIn.AuthService

variable {users users' : Users} {call : AuthCall} {α : Type}

/-- An effect of the account side does what it does there. -/
theorem step_account {e : AccountEffect} {r : Except AccountError e.Resp}
    (h : (authOutline pl).step (.account e) users r users') :
    (accountOutline pl).step e users r users' := by
  rcases h with ⟨ch, st, hst, hr, hst'⟩ | h
  · exact .inl ⟨ch, st.accounts, hst, hr, hst'⟩
  · exact .inr h

/-- An effect of `TokenService` does nothing to users. -/
theorem step_token {e : TokenEffect} {r : Except AccountError e.Resp}
    (h : (authOutline pl).step (.token e) users r users') : users' = users := by
  rcases h with ⟨ch, st, rfl, -, rfl⟩ | ⟨-, rfl⟩
  · cases e <;> rfl
  · rfl

/-- A program of the account side ensures what it does there. -/
theorem ofAccounts_ensures {p : AccountProg α} {Q : α → Users → Prop}
    (h : p.Ensures (accountOutline pl) () Q users) :
    (ofAccounts p).Ensures (authOutline pl) call Q users := by
  rw [ofAccounts]
  refine h.lift ?_ ?_ ?_
  · intro e users _ userId hissued
    cases hissued
  · exact fun e users r users' h => step_account h
  · exact fun _ _ h => h

/-- An effect of `TokenService` that issues tokens, if it does, to the user. -/
def TokensOf (id : UserId) (e : AuthEffect) : Prop :=
  (∃ te, e = .token te) ∧ ∀ userId, e.issuedTo = some userId → id.text = userId

theorem ask_tokensOf {id : UserId} {e : TokenEffect}
    (h : ∀ userId, (AuthEffect.token e).issuedTo = some userId → id.text = userId) :
    (TokenService.ask e).All fun e => TokensOf id (.token e) :=
  all_perform ⟨⟨e, rfl⟩, h⟩

/-- All the tokens that `generateTokens` issues are for its user. -/
theorem generateTokens_tokensOf (user : TokenService.User) :
    (TokenService.generateTokens user).All fun e => TokensOf user.id (.token e) := by
  have hresolve : (TokenService.resolveDriverProfileId user.id user.role).All fun e =>
      TokensOf user.id (.token e) := by
    rw [TokenService.resolveDriverProfileId]
    split
    · trivial
    · exact ask_tokensOf fun _ h => by cases h
  refine hresolve.bind fun driverProfileId => ?_
  refine (ask_tokensOf fun _ h => by exact Option.some.inj h).bind fun accessToken => ?_
  refine (ask_tokensOf fun _ h => by cases h).bind fun hex => ?_
  refine (ask_tokensOf fun _ h => by cases h).bind fun hashedToken => ?_
  refine (ask_tokensOf fun _ h => by exact Option.some.inj h).bind fun _ => ?_
  trivial

/-- Tokens are issued to a user who is entitled to them. -/
theorem tokensFor_ensures {user : User} (h : Entitled call users user.id) :
    (tokensFor user).Ensures (authOutline pl) call
      (fun response users => Rightly call (.auth response) users) users := by
  rw [tokensFor]
  have hall : (ofTokens (TokenService.generateTokens ⟨user.id, user.email, user.role⟩)).All
      (TokensOf user.id) := by
    rw [ofTokens]
    exact (generateTokens_tokensOf ⟨user.id, user.email, user.role⟩).lift
  have hissues : (ofTokens (TokenService.generateTokens ⟨user.id, user.email, user.role⟩)).Ensures
      (authOutline pl) call (fun _ users' => users' = users) users := by
    refine ensures_of_all hall ?_ ?_ (.refl users) fun _ => rfl
    · rintro e ⟨-, hid⟩ userId hissued
      exact ⟨user.id, hid userId hissued, h⟩
    · rintro _ r users' ⟨⟨te, rfl⟩, -⟩ hstep
      exact step_token hstep
  refine hissues.bind ?_
  rintro tokens users rfl
  refine ⟨fun _ => h, fun provider hcall => ?_⟩
  obtain ⟨row, hrow, -, hprovider⟩ := h
  exact ⟨row, hrow, hprovider provider hcall⟩

/-- A user is found by the email, and users stay as they are. -/
theorem step_getOneByEmail {email : String} {addSelect : List Column}
    {r : Except AccountError (Option User)}
    (h : (authOutline pl).step (.getOneByEmail email addSelect) users r users') :
    users' = users ∧ ∀ user, r = .ok (some user) → Loaded users user := by
  rcases h with ⟨ch, st, rfl, rfl, rfl⟩ | ⟨rfl, rfl⟩
  · exact ⟨rfl, fun user h => loaded_of_find (Except.ok.inj h)⟩
  · exact ⟨rfl, fun user h => by cases h⟩

/-- A user is found by the Google id. -/
theorem step_findOneByGoogleId {googleId : String} {r : Except AccountError (Option User)}
    (h : (authOutline pl).step (.findOneByGoogleId googleId) users r users') :
    users' = users ∧ ∀ user, r = .ok (some user) →
      ∃ row, users.find row.id = some row ∧ row.googleId = some googleId ∧ user = row.load [] := by
  rcases h with ⟨ch, st, rfl, rfl, rfl⟩ | ⟨rfl, rfl⟩
  · refine ⟨rfl, fun user h => ?_⟩
    obtain ⟨row, hrow, hid, hload⟩ := row_of_find (Except.ok.inj h)
    exact ⟨row, hrow, of_decide_eq_true hid, hload⟩
  · exact ⟨rfl, fun user h => by cases h⟩

/-- The rule for an effect of the account side that does not write. -/
theorem ensures_read {Q : α → Users → Prop} {e : AccountEffect} {f : e.Resp → AuthProg α}
    (he : e.writes = false)
    (hf : ∀ a, (∀ user, e.told (.ok a) = some user → Loaded users user) →
      (f a).Ensures (authOutline pl) call Q users) :
    (request (.account e) >>= f).Ensures (authOutline pl) call Q users := by
  refine ensures_perform_bind (fun _ h => by cases h) (fun r users' h => ?_) fun a users' h => ?_
  · rw [step_reads (step_account h) he]
    exact .refl users
  · rw [step_reads (step_account h) he]
    exact hf a fun user htold => step_told (step_account h) he htold

/-- A user with a password and a verified email gets tokens. -/
theorem login_ensures (dto : LoginDto) :
    (SignIn.AuthService.login pl dto).Ensures (authOutline pl) (.login dto)
      (fun response users => Rightly (.login dto) (.auth response) users) users := by
  refine ensures_perform_bind (fun _ h => by cases h) (fun r users' h => ?_) ?_
  · rw [(step_getOneByEmail h).1]
    exact .refl users
  intro found users' h
  obtain ⟨rfl, hloaded⟩ := step_getOneByEmail h
  cases found with
  | none => trivial
  | some user =>
      obtain ⟨row, addSelect, hrow, rfl⟩ := hloaded user rfl
      dsimp only
      split
      · trivial
      split
      · trivial
      · next hprovider =>
          refine ensures_read rfl fun isPasswordCorrect _ => ?_
          split
          · trivial
          split
          · trivial
          · next hverified =>
              rw [Bool.not_eq_true', Bool.not_eq_false] at hverified
              refine tokensFor_ensures ⟨row, hrow, hverified, fun provider h => ?_⟩
              obtain rfl := Option.some.inj h
              exact not_not.mp hprovider

/-- Saving a Google user who stays one. -/
theorem save_google_ensures {user : User} {row : UserRow} (hrow : users.find user.id = some row)
    (hbecomes : row.Becomes (row.merge user)) (hprovider : user.provider = .GOOGLE)
    (hverified : user.isEmailVerified = true) :
    (request (.account (.save user))).Ensures (authOutline pl) call
      (fun user users => ∃ row, users.find user.id = some row ∧ row.provider = .GOOGLE ∧
        row.isEmailVerified = true) users := by
  have hsave : ∀ found, users.find user.id = some found → found.Becomes (found.merge user) := by
    intro found hfound
    obtain rfl := Option.some.inj (hfound.symm.trans hrow)
    exact hbecomes
  refine ensures_perform (fun _ h => by cases h)
    (fun r users' h => (step_save (step_account h) hsave).1) fun user' users' h => ?_
  obtain ⟨hid, row', hrow', hsame, hstays⟩ := (step_save (step_account h) hsave).2 user' rfl
  exact ⟨row', hid ▸ hrow', hsame.trans hprovider, hstays.trans hverified⟩

/-- A Google user may be linked to a profile; or there is a new user. -/
theorem linkedUser_ensures (googleUser : GoogleAuthUser)
    (hsettled : ∀ id row, users.find id = some row → row.Settled) :
    (linkedUser pl googleUser).Ensures (authOutline pl) call
      (fun user users => ∃ row, users.find user.id = some row ∧ row.provider = .GOOGLE ∧
        row.isEmailVerified = true) users := by
  have hfind : (Accounts.UsersService.findByEmail pl googleUser.email).Ensures
      (accountOutline pl) () (fun found users' => users' = users ∧
        ∀ user, found = some user → Loaded users user) users := by
    refine ensures_perform trivial (fun r users' h => ?_) fun found users' h => ?_
    · rw [step_reads h rfl]
      exact .refl users
    · exact ⟨step_reads h rfl, fun user hfound => step_told h rfl hfound⟩
  refine (ofAccounts_ensures hfind).bind ?_
  rintro found users ⟨rfl, hloaded⟩
  cases found with
  | none =>
      refine ensures_read rfl fun now _ => ?_
      have hnew : ∀ id clock, (AccountStore.newRow pl
          { name := googleUser.name, email := pl.normalise googleUser.email, passwordHash := none
            googleId := some googleUser.googleId, role := .CUSTOMER, provider := .GOOGLE
            isEmailVerified := true, emailVerifiedAt := some now } id clock).Settled :=
        fun _ _ => ⟨⟨(by cases ·), fun _ => ⟨rfl, rfl, rfl⟩⟩, (by cases ·)⟩
      refine ensures_perform (fun _ h => by cases h)
        (fun r users' h => (step_insert (step_account h) hnew).1) fun user users' h => ?_
      obtain ⟨⟨row, addSelect, hrow, rfl⟩, hprovider, hverified⟩ :=
        (step_insert (step_account h) hnew).2 user rfl
      exact ⟨row, hrow, hprovider, hverified⟩
  | some existing =>
      obtain ⟨row, addSelect, hrow, rfl⟩ := hloaded existing rfl
      dsimp only
      split
      · trivial
      · next hprovider =>
          have hgoogle : row.provider = .GOOGLE := by
            cases h : row.provider with
            | GOOGLE => rfl
            | LOCAL => exact absurd h hprovider
          obtain ⟨hid, -, hverified⟩ := (hsettled _ row hrow).oneMethod.google hgoogle
          have hbecomes : ∀ name emailVerifiedAt, row.Becomes (row.merge { row.load addSelect with
              googleId := some googleUser.googleId, provider := .GOOGLE, name
              isEmailVerified := true, emailVerifiedAt }) :=
            fun _ _ => becomes_merge_load addSelect hgoogle.symm hid.symm (fun _ => rfl) rfl rfl
          split
          · exact save_google_ensures hrow (hbecomes _ _) rfl rfl
          · refine ensures_read rfl fun now _ => ?_
            exact save_google_ensures hrow (hbecomes _ _) rfl rfl

/-- A user with the Google id, or one who is linked or new, gets tokens. -/
theorem loginWithGoogle_ensures (googleUser : GoogleAuthUser)
    (hsettled : ∀ id row, users.find id = some row → row.Settled) :
    (SignIn.AuthService.loginWithGoogle pl googleUser).Ensures (authOutline pl)
      (.loginWithGoogle googleUser)
      (fun response users => Rightly (.loginWithGoogle googleUser) (.auth response) users)
      users := by
  have hentitled : ∀ {users : Users} {id : UserId} {row : UserRow}, users.find id = some row →
      row.provider = .GOOGLE → row.isEmailVerified = true →
        Entitled (.loginWithGoogle googleUser) users id := by
    intro users id row hrow hprovider hverified
    refine ⟨row, hrow, hverified, fun provider h => ?_⟩
    rw [hprovider, ← Option.some.inj h]
  rw [SignIn.AuthService.loginWithGoogle]
  split
  · trivial
  refine ensures_perform_bind (fun _ h => by cases h) (fun r users' h => ?_) ?_
  · rw [(step_findOneByGoogleId h).1]
    exact .refl users
  intro found users' h
  obtain ⟨rfl, hfound⟩ := step_findOneByGoogleId h
  cases found with
  | some user =>
      obtain ⟨row, hrow, hid, rfl⟩ := hfound user rfl
      have hmethod := (hsettled _ row hrow).oneMethod
      have hgoogle := hmethod.provider_of_googleId (by rw [hid, Option.isSome_some])
      exact tokensFor_ensures (hentitled hrow hgoogle (hmethod.google hgoogle).2.2)
  | none =>
      refine (linkedUser_ensures googleUser hsettled).bind ?_
      rintro user users ⟨row, hrow, hprovider, hverified⟩
      exact tokensFor_ensures (hentitled hrow hprovider hverified)

/-- A user with a verified email gets new tokens. -/
theorem refreshTokens_ensures (user : JwtUser) :
    (SignIn.AuthService.refreshTokens user).Ensures (authOutline pl) (.refreshTokens user)
      (fun response users => Rightly (.refreshTokens user) (.auth response) users) users := by
  refine ensures_read rfl fun found htold => ?_
  cases found with
  | none => trivial
  | some dbUser =>
      obtain ⟨row, addSelect, hrow, rfl⟩ := htold dbUser rfl
      dsimp only
      split
      · trivial
      · next hverified =>
          rw [Bool.not_eq_true', Bool.not_eq_false] at hverified
          exact tokensFor_ensures ⟨row, hrow, hverified, fun provider h => by cases h⟩

-- the methods as they are called, not as they go
attribute [local irreducible] AuthService.verifyEmail AuthService.resetPassword in
/-- A call that writes to `users` returns no tokens. -/
theorem account_program_proper (call : AccountCall)
    (hsettled : ∀ id row, users.find id = some row → row.Settled) :
    Proper pl (call.program pl) (fun result => ∀ response, result = .auth response →
      response.NoTokens) users := by
  cases call with
  | register dto =>
      refine (register_proper dto).bind ?_
      rintro response users hnone _ ⟨⟩
      exact hnone
  | verifyEmail token =>
      exact (verifyEmail_proper token).bind fun _ _ _ _ h => by cases h
  | resendVerificationEmail email =>
      exact (resendVerificationEmail_proper email).bind fun _ _ _ _ h => by cases h
  | forgotPassword email =>
      exact (forgotPassword_proper email).bind fun _ _ _ _ h => by cases h
  | resetPassword dto =>
      exact (resetPassword_proper dto hsettled).bind fun _ _ _ _ h => by cases h
  | updateUserName id name =>
      exact (updateUserName_proper id name).bind fun _ _ _ _ h => by cases h
  | promoteToDriver userId dto =>
      exact (promoteToDriver_proper userId dto).bind fun _ _ _ _ h => by cases h

/-- The program of a call issues and returns tokens rightly. -/
theorem auth_program_ensures (call : AuthCall)
    (hsettled : ∀ id row, users.find id = some row → row.Settled) :
    (call.program pl).Ensures (authOutline pl) call (Rightly call) users := by
  cases call with
  | account call =>
      refine (ofAccounts_ensures (account_program_proper call hsettled)).mono ?_
      intro result users hnone
      cases result with
      | auth response =>
          obtain ⟨haccess, hrefresh⟩ := hnone response rfl
          refine ⟨fun h => ?_, fun provider h => by cases h⟩
          simp [haccess, hrefresh] at h
      | message => trivial
      | user => trivial
  | login dto => exact (login_ensures dto).bind fun _ _ h => h
  | loginWithGoogle googleUser =>
      exact (loginWithGoogle_ensures googleUser hsettled).bind fun _ _ h => h
  | refreshTokens user => exact (refreshTokens_ensures user).bind fun _ _ h => h

end SignIn

/-! ## Runs -/

section Runs

variable {s s' : AuthSys} {a : AuthAction} {tr : List (Transition.Move AuthSys AuthAction)}

/-- Users are settled, and each call ensures the rest of its program. -/
structure AuthSys.Orderly (pl : Platform) (s : AuthSys) : Prop where
  settled : ∀ id row, s.user id = some row → row.Settled
  ensuring : Pool.Ensuring (authOutline pl) Rightly (fun st => st.accounts.users) s

/-- What was rightly returned stays so. -/
theorem Rightly.maintains {call : AuthCall} {result : AccountResult} {users users' : Users}
    (hmaintains : Maintains users users') (h : Rightly call result users) :
    Rightly call result users' := by
  cases result with
  | auth response =>
      refine ⟨fun htokens => (h.1 htokens).maintains hmaintains, fun provider hcall => ?_⟩
      obtain ⟨row, hrow, hprovider⟩ := h.2 provider hcall
      obtain ⟨row', hrow', hbecomes⟩ := hmaintains.evolves _ row hrow
      exact ⟨row', hrow', hbecomes.provider.trans hprovider⟩
  | message => trivial
  | user => trivial

theorem orderly_of_initial (hs : s.Initial) : s.Orderly pl := by
  have hnone : ∀ i, s.threads.lookup i = none := fun i => by rw [hs.threads, AList.lookup_empty]
  refine ⟨fun id row hrow => ?_, ⟨fun i th hi => ?_, fun i j th th' hi => ?_⟩⟩
  · cases (hs.users id).symm.trans hrow
  · cases (hnone i).symm.trans hi
  · cases (hnone i).symm.trans hi

/-- **A step** keeps the state orderly and changes users only as calls may. -/
theorem AuthSys.Orderly.step (hs : s.Orderly pl) (h : authStep pl s a = some s') :
    s'.Orderly pl ∧ Maintains s.shared.accounts.users s'.shared.accounts.users := by
  cases a with
  | invoke i call =>
      rw [authStep] at h
      split at h
      · next hquiet =>
          obtain ⟨-, hsh, -⟩ := Pool.spawn_eq_some h
          refine ⟨⟨?_, hs.ensuring.spawn h (Pool.quiet_of_quietb hquiet)
            (auth_program_ensures call hs.settled)⟩, ?_⟩
          · intro id row hrow
            rw [AuthSys.user, hsh] at hrow
            exact hs.settled id row hrow
          · rw [hsh]
            exact .refl _
      · cases h
  | exec i ch =>
      obtain ⟨hensuring, hmaintains⟩ := hs.ensuring.advance h (fun _ _ _ _ h => h)
        fun _ _ _ _ hkeeps hQ => hQ.maintains hkeeps
      exact ⟨⟨hmaintains.settled hs.settled, hensuring⟩, hmaintains⟩
  | fail i =>
      obtain ⟨-, -, -, -, hsh, -⟩ := Pool.interrupt_eq_some h
      refine ⟨⟨?_, hs.ensuring.interrupt h fun _ _ _ _ h => h⟩, ?_⟩
      · intro id row hrow
        rw [AuthSys.user, hsh] at hrow
        exact hs.settled id row hrow
      · rw [hsh]
        exact .refl _
  | pass ms =>
      obtain rfl := Option.some.inj h
      exact ⟨⟨hs.settled, hs.ensuring.same rfl rfl⟩, .refl _⟩

theorem orderly_of_reachable (hs : Transition.Reachable (signIns pl) s) : s.Orderly pl :=
  hs.invariant (fun _ hinit => orderly_of_initial hinit) fun _ _ _ _ hs h => (hs.step h).1

/-- **Login methods stay separate, and tokens need a verified email**, in every run of calls made
one at a time. -/
theorem logins_separate (run : Transition.Run (signIns pl) tr s) : SeparateLogins tr s := by
  have hs := orderly_of_reachable run.reachable
  refine ⟨fun id row hrow => (hs.settled id row hrow).oneMethod, ?_, ?_, ?_, ?_⟩
  · intro m hm i ch call e userId _ hcall hnext hissued
    have hsrc := orderly_of_reachable (run.of_mem hm).1
    rw [AuthSys.next] at hnext
    split at hnext
    · next call' e' kont hi =>
        obtain rfl := Option.some.inj hnext
        rw [AuthSys.call, hi] at hcall
        obtain rfl := Option.some.inj hcall
        exact hsrc.ensuring.may hi userId hissued
    · cases hnext
  · exact fun i call response hreturned => (hs.ensuring.returned hreturned).1
  · exact fun i call response provider hreturned =>
      (hs.ensuring.returned hreturned).2 provider
  · intro m hm i ch dto id row _ _ hrow hprovider
    obtain ⟨hreach, hstep⟩ := run.of_mem hm
    obtain ⟨hdst, hmaintains⟩ := (orderly_of_reachable hreach).step hstep
    obtain ⟨row', hrow', hbecomes⟩ := hmaintains.evolves id row hrow
    have hgoogle := hbecomes.provider.trans hprovider
    exact ⟨row', hrow', hgoogle, ((hdst.settled id row' hrow').oneMethod.google hgoogle).2.1⟩

end Runs

/-! ## Two users -/

/-- No users. -/
def authStart : AuthSys := ⟨⟨⟨.empty, .empty, 0, []⟩, ⟨fun _ => none, []⟩⟩, ∅⟩

theorem authStart_initial : authStart.Initial := ⟨fun _ => rfl, rfl⟩

def googleUserId : UserId := ⟨"grace", by decide⟩

/-- Call `i` is made, and performs its effects; a new user gets the id. -/
def callOf (i n : ℕ) (id : UserId) (call : AuthCall) : List AuthAction :=
  .invoke i call :: List.replicate n (.exec i ⟨id, ⟨"driver-grace", by decide⟩, "aa", "", true⟩)

/-- One user registers, verifies the email and logs in; the other signs in with Google, twice, and
asks in vain for a password; the first refreshes the tokens. -/
def twoSignIns : List AuthAction :=
  callOf 0 8 accountId (.account (.register ⟨"Ada", "a@b.c", "password"⟩)) ++
    callOf 1 5 accountId (.account (.verifyEmail "ada.aa")) ++
    callOf 2 6 accountId (.login ⟨"a@b.c", "password"⟩) ++
    callOf 3 8 googleUserId (.loginWithGoogle ⟨"id", "g@b.c", "Grace", true⟩) ++
    callOf 4 5 googleUserId (.loginWithGoogle ⟨"id", "g@b.c", "Grace", true⟩) ++
    callOf 5 1 googleUserId (.account (.forgotPassword "g@b.c")) ++
    callOf 6 5 accountId (.refreshTokens ⟨accountId, .CUSTOMER, none⟩)

/-- The moves of the actions. -/
def authMoves (as : List AuthAction) : List (Transition.Move AuthSys AuthAction) :=
  (signIns samplePlatform).moves [] authStart as

theorem authMoves_run (as : List AuthAction)
    (h : ((signIns samplePlatform).exec authStart as).isSome) :
    Transition.Run (signIns samplePlatform) (authMoves as)
      (((signIns samplePlatform).exec authStart as).get h) :=
  (Transition.Run.init authStart_initial).exec (Option.some_get h).symm

/-- A user who signs in with a password and one who signs in with Google. -/
theorem logins_separate_of_two : ∃ s, SeparateLogins (authMoves twoSignIns) s ∧
    (s.user accountId).map UserRow.provider = some .LOCAL ∧
    (s.user googleUserId).map UserRow.provider = some .GOOGLE :=
  ⟨_, logins_separate (authMoves_run twoSignIns (by decide +kernel)), by decide +kernel,
    by decide +kernel⟩

end LogisticsDispatch
