/-
Which columns of a user a call changes.

A call that saves the entity it has loaded writes every column of it, also those it has not
edited. What another call has written there in the meantime is undone: the role that a promotion
has given, or that the email is verified.

Where the row has, at each save, what the call was told of the columns it is not about
(`Undisturbed`), a call changes only the columns it is about. Then a user who is no admin is a
driver exactly where there is a driver profile, and a verified email stays verified
(`users_well_kept`). What a call was told is kept track of by its notes (`notesOf`), and a program
only saves an edit of what it has noted (`program_heeds`).
-/
import LogisticsDispatch.Lib.Recall
import LogisticsDispatch.AccountServices

set_option autoImplicit false

namespace LogisticsDispatch

open Accounts Resumable Resumable.Program

variable {pl : Platform} {s s' : AccountSys} {a : AccountAction} {i : ℕ}
  {tr : List (Transition.Move AccountSys AccountAction)}

/-! ## What a call is about -/

/-- The columns a call is about. `updated_at` is about every change. -/
def AccountCall.about : AccountCall → List Column
  | register _ => [.emailVerificationTokenHash, .emailVerificationExpiresAt, .updatedAt]
  | verifyEmail _ => [.isEmailVerified, .emailVerifiedAt, .emailVerificationTokenHash,
      .emailVerificationExpiresAt, .updatedAt]
  | resendVerificationEmail _ =>
      [.emailVerificationTokenHash, .emailVerificationExpiresAt, .updatedAt]
  | forgotPassword _ => [.passwordResetTokenHash, .passwordResetExpiresAt, .updatedAt]
  | resetPassword _ =>
      [.passwordHash, .passwordResetTokenHash, .passwordResetExpiresAt, .updatedAt]
  | updateUserName _ _ => [.name, .updatedAt]
  | promoteToDriver _ _ => [.role, .updatedAt]

theorem updatedAt_mem_about (call : AccountCall) : .updatedAt ∈ call.about := by
  cases call <;> simp [AccountCall.about]

theorem email_not_mem_about (call : AccountCall) : .email ∉ call.about := by
  cases call <;> simp [AccountCall.about]

/-- The entity that an answer is, where the call has loaded or inserted one. -/
def AccountEffect.told : (e : AccountEffect) → Except AccountError e.Resp → Option User
  | .findOneByEmail _, .ok found => found
  | .findOneBy _, .ok found => found
  | .getOne _ _, .ok found => found
  | .insert _, .ok user => some user
  | _, _ => none

/-- The entity that call `i` is told in a move. -/
def toldIn (pl : Platform) (m : Transition.Move AccountSys AccountAction) (i : ℕ) :
    Option User :=
  match m.act with
  | .exec j ch =>
      if j = i then
        (m.src.next i).bind fun e => e.told (AccountStore.perform pl ch e m.src.shared).1
      else none
  | _ => none

/-- Where a call saves an entity, the row still has what the call was told of it, in the columns
that were loaded and that the call is not about. -/
def Undisturbed (pl : Platform) (earlier : List (Transition.Move AccountSys AccountAction))
    (m : Transition.Move AccountSys AccountAction) : Prop :=
  ∀ i ch call user row copy, m.act = .exec i ch → m.src.call i = some call →
    m.src.next i = some (.save user) → m.src.user user.id = some row →
    (∃ m₀ ∈ earlier, toldIn pl m₀ i = some copy) →
      Columns.Current (· ∈ call.about) copy.get row.get

/-- No user goes, and a column is changed only by a call that is about it. -/
def OnlyAbout (m : Transition.Move AccountSys AccountAction) : Prop :=
  ∀ id row, m.src.user id = some row → ∃ row', m.dst.user id = some row' ∧
    ∀ c, row'.get c ≠ row.get c →
      ∃ i ch call, m.act = .exec i ch ∧ m.src.call i = some call ∧ c ∈ call.about

/-- An email that is verified stays so. -/
def StaysVerified (m : Transition.Move AccountSys AccountAction) : Prop :=
  ∀ id row row', m.src.user id = some row → m.dst.user id = some row' →
    row.isEmailVerified = true → row'.isEmailVerified = true

/-- Calls change only what they are about; so a user who is no admin is a driver exactly where
there is a driver profile, and verified emails stay verified. -/
structure WellKept (tr : List (Transition.Move AccountSys AccountAction)) (s : AccountSys) :
    Prop where
  columns : ∀ m ∈ tr, OnlyAbout m
  drivers : ∀ id row, s.user id = some row → row.role ≠ .ADMIN →
    (row.role = .DRIVER ↔ s.HasProfile id)
  verified : ∀ m ∈ tr, StaysVerified m

/-! ## What a call saves -/

/-- What a call may do once it was told `copy`. It saves an edit of the copy, in the columns it is
about; where it is about the verification, it says yes. -/
def MayDo (call : AccountCall) (copy : Option User) : AccountEffect → Prop
  | .save user => ∃ told, copy = some told ∧ user.id = told.id ∧
      Columns.Edits (· ∈ call.about) told.get user.get ∧ .role ∉ call.about ∧
      (.isEmailVerified ∈ call.about → user.isEmailVerified = true)
  | .insert user => user.role = .CUSTOMER
  | .promotion _ _ => .role ∈ call.about
  | _ => True

/-- A call notes the entity it was told last. -/
def notesOf (call : AccountCall) :
    Recall AccountEffect AccountEffect.Resp AccountError (Option User) where
  note copy e r := (e.told r).or copy
  May := MayDo call

/-- A program that does, from the notes it has, what the call may do. -/
abbrev Heeding {α : Type} (call : AccountCall) (p : AccountProg α) (copy : Option User) : Prop :=
  p.Heeds (notesOf call) (fun _ _ => True) (fun _ _ => True) copy

variable {call : AccountCall} {copy : Option User}

/-- Saving an edit that is not about the verification. -/
theorem mayDo_save {user told : User} (hid : user.id = told.id)
    (hedits : Columns.Edits (· ∈ call.about) told.get user.get) (hrole : .role ∉ call.about)
    (hverified : .isEmailVerified ∉ call.about) : MayDo call (some told) (.save user) :=
  ⟨told, rfl, hid, hedits, hrole, fun h => absurd h hverified⟩

/-- A mail may be sent at any time. -/
theorem sendLogged_heeds {send : AccountProg Bool} (h : ∀ copy, Heeding call send copy)
    (copy : Option User) : Heeding call (AuthService.sendLogged send) copy := by
  have hsend : Heeding call (discard send) copy := (h copy).bind fun _ _ _ => trivial
  refine hsend.tryCatch ?_
  exact fun _ _ _ => trivial

theorem sendMail_heeds (mail : Mail) (copy : Option User) :
    Heeding call (askFor (.sendMail mail)) copy :=
  heeds_perform trivial (fun _ => trivial) fun _ => trivial

/-- A token is kept in columns the call is about. -/
theorem createToken_heeds {edit : User → String → ℕ → User} {ttl : ℕ} (user : User)
    (hid : ∀ hash expiresAt, (edit user hash expiresAt).id = user.id)
    (hedits : ∀ hash expiresAt,
      Columns.Edits (· ∈ call.about) user.get (edit user hash expiresAt).get)
    (hrole : .role ∉ call.about) (hverified : .isEmailVerified ∉ call.about) :
    Heeding call (AuthService.createToken edit ttl user) (some user) := by
  refine heeds_perform_bind trivial (fun hex => ?_) fun _ => trivial
  refine heeds_perform_bind trivial (fun hash => ?_) fun _ => trivial
  refine heeds_perform_bind trivial (fun now => ?_) fun _ => trivial
  exact heeds_perform_bind (mayDo_save (hid _ _) (hedits _ _) hrole hverified)
    (fun _ => trivial) fun _ => trivial

theorem createEmailVerificationToken_heeds (user : User)
    (habout : call.about = [.emailVerificationTokenHash, .emailVerificationExpiresAt, .updatedAt]) :
    Heeding call (AuthService.createEmailVerificationToken user) (some user) := by
  refine createToken_heeds user (fun _ _ => rfl) (fun hash expiresAt c hc => ?_)
    (by simp [habout]) (by simp [habout])
  cases c with
  | emailVerificationTokenHash => simp [habout] at hc
  | emailVerificationExpiresAt => simp [habout] at hc
  | _ => rfl

theorem createPasswordResetToken_heeds (user : User)
    (habout : call.about = [.passwordResetTokenHash, .passwordResetExpiresAt, .updatedAt]) :
    Heeding call (AuthService.createPasswordResetToken user) (some user) := by
  refine createToken_heeds user (fun _ _ => rfl) (fun hash expiresAt c hc => ?_)
    (by simp [habout]) (by simp [habout])
  cases c with
  | passwordResetTokenHash => simp [habout] at hc
  | passwordResetExpiresAt => simp [habout] at hc
  | _ => rfl

theorem register_heeds (dto : RegisterDto) :
    Heeding (.register dto) (AuthService.register pl dto) none := by
  refine heeds_perform_bind trivial (fun existingUser => ?_) fun _ => trivial
  cases existingUser with
  | some user => trivial
  | none =>
      refine heeds_perform_bind trivial (fun passwordHash => ?_) fun _ => trivial
      refine heeds_perform_bind rfl (fun user => ?_) fun _ => trivial
      refine (createEmailVerificationToken_heeds user rfl).bind fun copy token _ => ?_
      refine (sendLogged_heeds (sendMail_heeds _) copy).bind ?_
      exact fun _ _ _ => trivial

theorem verifyEmail_heeds (token : String) :
    Heeding (.verifyEmail token) (AuthService.verifyEmail token) none := by
  rw [AuthService.verifyEmail]
  split
  · trivial
  refine heeds_perform_bind trivial (fun found => ?_) fun _ => trivial
  cases found with
  | none => trivial
  | some user =>
      dsimp only
      split
      · trivial
      split
      · refine heeds_perform_bind trivial (fun now => ?_) fun _ => trivial
        split
        · trivial
        refine heeds_perform_bind trivial (fun tokenIsValid => ?_) fun _ => trivial
        split
        · trivial
        refine heeds_perform_bind trivial (fun now => ?_) fun _ => trivial
        refine heeds_perform_bind ⟨user, rfl, rfl, fun c hc => ?_, by simp [AccountCall.about],
          fun _ => rfl⟩ (fun _ => trivial) fun _ => trivial
        cases c with
        | isEmailVerified => simp [AccountCall.about] at hc
        | emailVerifiedAt => simp [AccountCall.about] at hc
        | emailVerificationTokenHash => simp [AccountCall.about] at hc
        | emailVerificationExpiresAt => simp [AccountCall.about] at hc
        | _ => rfl
      · trivial

theorem resendVerificationEmail_heeds (email : String) :
    Heeding (.resendVerificationEmail email) (AuthService.resendVerificationEmail pl email)
      none := by
  refine heeds_perform_bind trivial (fun found => ?_) fun _ => trivial
  split
  · trivial
  · next user hfound =>
      -- the user that is left is the one that was told
      obtain rfl := (Option.filter_eq_some_iff.mp hfound).1
      refine (createEmailVerificationToken_heeds user rfl).bind fun copy token _ => ?_
      refine (sendLogged_heeds (sendMail_heeds _) copy).bind ?_
      exact fun _ _ _ => trivial

theorem forgotPassword_heeds (email : String) :
    Heeding (.forgotPassword email) (AuthService.forgotPassword pl email) none := by
  refine heeds_perform_bind trivial (fun found => ?_) fun _ => trivial
  split
  · trivial
  · next user hfound =>
      obtain rfl := (Option.filter_eq_some_iff.mp hfound).1
      refine (createPasswordResetToken_heeds user rfl).bind fun copy token _ => ?_
      refine (sendLogged_heeds (sendMail_heeds _) copy).bind ?_
      exact fun _ _ _ => trivial

theorem resetPassword_heeds (dto : ResetPasswordDto) :
    Heeding (.resetPassword dto) (AuthService.resetPassword dto) none := by
  rw [AuthService.resetPassword]
  split
  · trivial
  refine heeds_perform_bind trivial (fun found => ?_) fun _ => trivial
  cases found with
  | none => trivial
  | some user =>
      dsimp only
      split
      · refine heeds_perform_bind trivial (fun now => ?_) fun _ => trivial
        split
        · trivial
        refine heeds_perform_bind trivial (fun tokenIsValid => ?_) fun _ => trivial
        split
        · trivial
        refine heeds_perform_bind trivial (fun passwordHash => ?_) fun _ => trivial
        refine heeds_perform_bind (mayDo_save rfl (fun c hc => ?_) (by simp [AccountCall.about])
          (by simp [AccountCall.about])) (fun _ => trivial) fun _ => trivial
        cases c with
        | passwordHash => simp [AccountCall.about] at hc
        | passwordResetTokenHash => simp [AccountCall.about] at hc
        | passwordResetExpiresAt => simp [AccountCall.about] at hc
        | _ => rfl
      · trivial

theorem updateUserName_heeds (id : UserId) (name : String) :
    Heeding (.updateUserName id name) (Accounts.UsersService.updateUserName id name) none := by
  refine heeds_perform_bind trivial (fun found => ?_) fun _ => trivial
  cases found with
  | none => trivial
  | some user =>
      refine heeds_perform_bind (mayDo_save rfl (fun c hc => ?_) (by simp [AccountCall.about])
        (by simp [AccountCall.about])) (fun _ => trivial) fun _ => trivial
      cases c with
      | name => simp [AccountCall.about] at hc
      | _ => rfl

theorem promoteToDriver_heeds (userId : UserId) (dto : PromoteToDriverDto) :
    Heeding (.promoteToDriver userId dto) (Accounts.UsersService.promoteToDriver userId dto)
      none := by
  refine heeds_perform_bind trivial (fun found => ?_) fun _ => trivial
  cases found with
  | none => trivial
  | some user =>
      dsimp only
      split
      · trivial
      split
      · trivial
      refine heeds_perform_bind (by simp [notesOf, MayDo, AccountCall.about]) (fun updated => ?_)
        fun _ => trivial
      cases updated <;> trivial

/-- A call returns what its method has returned. -/
theorem heeding_map {α : Type} {p : AccountProg α} (f : α → AccountResult)
    (h : Heeding call p copy) : Heeding call (p >>= fun a => pure (f a)) copy :=
  h.bind fun _ _ _ => trivial

-- the methods as they are called, not as they go
attribute [local irreducible] AuthService.verifyEmail AuthService.resetPassword in
/-- The program of a call heeds its notes. -/
theorem program_heeds (call : AccountCall) : Heeding call (call.program pl) none := by
  cases call with
  | register dto => exact heeding_map .auth (register_heeds dto)
  | verifyEmail token => exact heeding_map .message (verifyEmail_heeds token)
  | resendVerificationEmail email =>
      exact heeding_map .message (resendVerificationEmail_heeds email)
  | forgotPassword email => exact heeding_map .message (forgotPassword_heeds email)
  | resetPassword dto => exact heeding_map .message (resetPassword_heeds dto)
  | updateUserName id name => exact heeding_map .user (updateUserName_heeds id name)
  | promoteToDriver userId dto => exact heeding_map .user (promoteToDriver_heeds userId dto)

/-! ## What an effect writes -/

/-- The row of a promoted user. -/
def UserRow.promoted (row : UserRow) (clock : ℕ) : UserRow :=
  { row with role := .DRIVER, updatedAt := clock }

/-- All that an effect may do to the tables. -/
inductive Writes (pl : Platform) (st : AccountStore) : AccountEffect → AccountStore → Prop
  | nothing {e : AccountEffect} {st' : AccountStore} (husers : st'.users = st.users)
      (hdrivers : st'.drivers = st.drivers) : Writes pl st e st'
  | inserted (user : NewUser) (id : UserId) (hnew : st.users.find id = none) :
      Writes pl st (.insert user)
        { st with users := st.users.put (AccountStore.newRow pl user id st.clock) }
  | saved (user : User) (row : UserRow) (updatedAt : ℕ)
      (hrow : st.users.find user.id = some row)
      (hdate : updatedAt = st.clock ∨ updatedAt = user.updatedAt) :
      Writes pl st (.save user)
        { st with users := st.users.put { row.merge { user with
            email := pl.normalise user.email } with updatedAt } }
  | promoted (userId : UserId) (dto : PromoteToDriverDto) (row : UserRow) (driver : DriverProfile)
      (hrow : st.users.find userId = some row) (hdriver : driver.userId = userId)
      (hnew : st.drivers.find driver.id = none) :
      Writes pl st (.promotion userId dto)
        { st with users := st.users.put (row.promoted st.clock), drivers := st.drivers.put driver }

theorem insert_writes (user : NewUser) (id : UserId) (st : AccountStore) :
    Writes pl st (.insert user) (st.insert pl user id).2 := by
  rw [AccountStore.insert]
  split
  · exact .nothing rfl rfl
  · next h =>
      rw [Bool.or_eq_true, not_or, Bool.not_eq_true, Option.isSome_eq_false_iff,
        Option.isNone_iff_eq_none] at h
      exact .inserted user id h.1

theorem save_writes (user : User) (st : AccountStore) :
    Writes pl st (.save user) (st.save pl user).2 := by
  rw [AccountStore.save]
  split
  · exact .nothing rfl rfl
  · next row hrow =>
      dsimp only
      split
      · exact .nothing rfl rfl
      split
      · exact .nothing rfl rfl
      · refine .saved user row _ hrow ?_
        split
        · exact .inl rfl
        · exact .inr rfl

theorem promotion_writes (userId : UserId) (dto : PromoteToDriverDto) (driverId : DriverId)
    (st : AccountStore) :
    Writes pl st (.promotion userId dto) (st.promotion userId dto driverId).2 := by
  rw [AccountStore.promotion]
  dsimp only
  split
  · exact .nothing rfl rfl
  split
  · exact .nothing rfl rfl
  · next h =>
      simp only [Bool.or_eq_true, not_or, Bool.not_eq_true, Option.isSome_eq_false_iff,
        Option.isNone_iff_eq_none] at h
      obtain ⟨⟨hnew, -⟩, hsome⟩ := h
      obtain ⟨row, hrow⟩ := Option.ne_none_iff_exists'.mp hsome
      rw [hrow]
      refine .promoted userId dto row _ hrow ?_ ?_
      · rfl
      · exact hnew

theorem perform_writes (ch : AccountChoice) (e : AccountEffect) (st : AccountStore) :
    Writes pl st e (AccountStore.perform pl ch e st).2 := by
  cases e with
  | insert user => exact insert_writes user ch.userId st
  | save user => exact save_writes user st
  | promotion userId dto => exact promotion_writes userId dto ch.driverId st
  | getOne id addSelect =>
      rw [AccountStore.perform]
      split <;> exact .nothing rfl rfl
  | _ => exact .nothing rfl rfl

/-! ## What a save changes -/

/-- Where the row has what was loaded, saving an edit of it changes only the edited columns. -/
theorem save_only_about {user told : User} {row : UserRow} (updatedAt : ℕ)
    (hedits : Columns.Edits (· ∈ call.about) told.get user.get)
    (hcurrent : Columns.Current (· ∈ call.about) told.get row.get)
    (hemail : pl.normalise row.email = row.email) (c : Column) (hc : c ∉ call.about) :
    UserRow.get { row.merge { user with email := pl.normalise user.email } with updatedAt } c
      = row.get c := by
  have hsave := (Columns.save_eq_off_iff hedits).mpr hcurrent c hc
  -- the email is the row's, so normalising it does nothing
  have hsame : user.email = row.email := by
    have h := (Columns.save_eq_off_iff hedits).mpr hcurrent .email (email_not_mem_about call)
    exact h
  rw [hsame, hemail, ← hsame]
  rw [← UserRow.get_merge] at hsave
  cases c with
  | updatedAt => exact absurd (updatedAt_mem_about call) hc
  | _ => exact hsave

/-- What the tables do when a call that may perform an effect performs it: a user changes only in
what the call is about, a verified email stays verified, and the tables stay in order. -/
structure UsersKept (pl : Platform) (call : AccountCall) (st st' : AccountStore) : Prop where
  columns : ∀ id row, st.users.find id = some row → ∃ row', st'.users.find id = some row' ∧
    (∀ c, row'.get c ≠ row.get c → c ∈ call.about) ∧
    (row.isEmailVerified = true → row'.isEmailVerified = true)
  inOrder : st'.InOrder pl

theorem AccountStore.InOrder.same {st st' : AccountStore} (hst : st.InOrder pl)
    (husers : st'.users = st.users) (hdrivers : st'.drivers = st.drivers) : st'.InOrder pl := by
  refine ⟨?_, ?_, ?_⟩
  · rw [husers]
    exact hst.email
  · rw [husers, hdrivers]
    exact hst.owner
  · rw [husers, hdrivers]
    exact hst.drivers

theorem UsersKept.refl {st st' : AccountStore} (hst : st.InOrder pl) (husers : st'.users = st.users)
    (hdrivers : st'.drivers = st.drivers) : UsersKept pl call st st' :=
  ⟨fun _ row hrow => ⟨row, husers ▸ hrow, fun _ hc => absurd rfl hc, fun h => h⟩,
    hst.same husers hdrivers⟩

theorem UsersKept.inserted {st : AccountStore} (hst : st.InOrder pl) (user : NewUser)
    (id : UserId) (hnew : st.users.find id = none) (hrole : user.role = .CUSTOMER) :
    UsersKept pl call st
      { st with users := st.users.put (AccountStore.newRow pl user id st.clock) } := by
  have hfind := Table.find_put st.users (AccountStore.newRow pl user id st.clock)
  refine ⟨fun id' row hrow => ⟨row, ?_, fun c hc => absurd rfl hc, fun h => h⟩,
    fun id' row hrow => ?_, fun profile hprofile => ?_, fun id' row hrow hadmin => ?_⟩
  -- the rows that were there have other ids
  · dsimp only
    rw [hfind, if_neg, hrow]
    intro hid
    rw [hid, show (AccountStore.newRow pl user id st.clock).id = id from rfl, hnew] at hrow
    cases hrow
  · dsimp only at hrow
    rw [hfind] at hrow
    split at hrow
    · obtain rfl := Option.some.inj hrow
      exact pl.normalise_normalise user.email
    · exact hst.email id' row hrow
  · exact Table.isSome_find_put (hst.owner profile hprofile)
  · dsimp only at hrow
    rw [hfind] at hrow
    split at hrow
    · next hid =>
        obtain rfl := Option.some.inj hrow
        -- a new user is a customer, and no profile refers to one
        constructor
        · intro h
          rw [show (AccountStore.newRow pl user id st.clock).role = user.role from rfl, hrole] at h
          cases h
        · rintro ⟨profile, hprofile, howner⟩
          have hfound := hst.owner profile hprofile
          rw [howner, hid, show (AccountStore.newRow pl user id st.clock).id = id from rfl,
            hnew] at hfound
          cases hfound
    · exact hst.drivers id' row hrow hadmin

section Put

variable {st : AccountStore} {row row' : UserRow}

/-- A row is put in the place of one with the same id: the columns of all rows. -/
theorem columns_of_put (hrow : st.users.find row'.id = some row)
    (hcolumns : ∀ c, row'.get c ≠ row.get c → c ∈ call.about)
    (hverified : row.isEmailVerified = true → row'.isEmailVerified = true) (id : UserId)
    (row₁ : UserRow) (hrow₁ : st.users.find id = some row₁) :
    ∃ row₂, (st.users.put row').find id = some row₂ ∧
      (∀ c, row₂.get c ≠ row₁.get c → c ∈ call.about) ∧
      (row₁.isEmailVerified = true → row₂.isEmailVerified = true) := by
  rw [Table.find_put]
  split
  · next hid =>
      rw [hid, hrow] at hrow₁
      obtain rfl := Option.some.inj hrow₁
      exact ⟨row', rfl, hcolumns, hverified⟩
  · exact ⟨row₁, hrow₁, fun c hc => absurd rfl hc, fun h => h⟩

/-- The same: the emails of all rows. -/
theorem emails_of_put (hst : st.InOrder pl) (hrow : st.users.find row'.id = some row)
    (hemail : row'.email = row.email) (id : UserId) (row₁ : UserRow)
    (hrow₁ : (st.users.put row').find id = some row₁) :
    pl.normalise row₁.email = row₁.email := by
  rw [Table.find_put] at hrow₁
  split at hrow₁
  · obtain rfl := Option.some.inj hrow₁
    rw [hemail]
    exact hst.email _ row hrow
  · exact hst.email id row₁ hrow₁

/-- A row is put in the place of one with the same id, email and role. -/
theorem UsersKept.replaced (hst : st.InOrder pl) (hrow : st.users.find row'.id = some row)
    (hcolumns : ∀ c, row'.get c ≠ row.get c → c ∈ call.about)
    (hverified : row.isEmailVerified = true → row'.isEmailVerified = true)
    (hemail : row'.email = row.email) (hrole : row'.role = row.role) :
    UsersKept pl call st { st with users := st.users.put row' } := by
  refine ⟨columns_of_put hrow hcolumns hverified, emails_of_put hst hrow hemail,
    fun profile hprofile => Table.isSome_find_put (hst.owner profile hprofile),
    fun id row₁ hrow₁ hadmin => ?_⟩
  dsimp only at hrow₁ ⊢
  rw [Table.find_put] at hrow₁
  split at hrow₁
  · next hid =>
      obtain rfl := Option.some.inj hrow₁
      rw [hrole] at hadmin ⊢
      rw [hid]
      exact hst.drivers _ row hrow hadmin
  · exact hst.drivers id row₁ hrow₁ hadmin

/-- A user is promoted: the role and the profile come together. -/
theorem UsersKept.promoted {driver : DriverProfile} (hst : st.InOrder pl)
    (hrow : st.users.find driver.userId = some row) (hnew : st.drivers.find driver.id = none)
    (hrole : .role ∈ call.about) :
    UsersKept pl call st { st with
      users := st.users.put (row.promoted st.clock), drivers := st.drivers.put driver } := by
  have hid : row.id = driver.userId := Table.key_of_find hrow
  have hrow' : st.users.find (row.promoted st.clock).id = some row := hid ▸ hrow
  have hmem : ∀ profile, profile ∈ (st.drivers.put driver).toList ↔
      profile = driver ∨ profile ∈ st.drivers.toList :=
    fun profile => Table.mem_toList_put_of_new hnew
  refine ⟨columns_of_put hrow' (fun c hc => ?_) fun h => h, emails_of_put hst hrow' rfl,
    fun profile hprofile => ?_, fun id row₁ hrow₁ hadmin => ?_⟩
  · cases c with
    | role => exact hrole
    | updatedAt => exact updatedAt_mem_about call
    | _ => exact absurd rfl hc
  · refine Table.isSome_find_put ?_
    rcases (hmem profile).mp hprofile with rfl | hprofile
    · rw [hrow, Option.isSome_some]
    · exact hst.owner profile hprofile
  · dsimp only at hrow₁ ⊢
    rw [Table.find_put] at hrow₁
    split at hrow₁
    · next hput =>
        obtain rfl := Option.some.inj hrow₁
        refine ⟨fun _ => ⟨driver, (hmem driver).mpr (.inl rfl), ?_⟩, fun _ => rfl⟩
        exact hid.symm.trans hput.symm
    · next hother =>
        rw [hst.drivers id row₁ hrow₁ hadmin]
        -- the new profile is of the promoted user
        constructor
        · rintro ⟨profile, hprofile, howner⟩
          exact ⟨profile, (hmem profile).mpr (.inr hprofile), howner⟩
        · rintro ⟨profile, hprofile, howner⟩
          rcases (hmem profile).mp hprofile with rfl | hprofile
          · exact absurd (howner.symm.trans hid.symm) hother
          · exact ⟨profile, hprofile, howner⟩

end Put

/-- **What a call does to the tables.** An effect that a call may perform, with the row still as
the call was told where it saves. -/
theorem keeps_of_mayDo {st st' : AccountStore} {e : AccountEffect} (hst : st.InOrder pl)
    (hmay : MayDo call copy e) (hwrites : Writes pl st e st')
    (hcurrent : ∀ user row told, e = .save user → st.users.find user.id = some row →
      copy = some told → Columns.Current (· ∈ call.about) told.get row.get) :
    UsersKept pl call st st' := by
  cases hwrites with
  | nothing husers hdrivers => exact .refl hst husers hdrivers
  | inserted user id hnew => exact .inserted hst user id hnew hmay
  | promoted userId dto row driver hrow hdriver hnew =>
      subst hdriver
      exact .promoted hst hrow hnew hmay
  | saved user row updatedAt hrow _ =>
      obtain ⟨told, htold, -, hedits, hrole, hyes⟩ := hmay
      have hcolumns := save_only_about updatedAt hedits
        (hcurrent user row told rfl hrow htold) (hst.email _ row hrow)
      refine .replaced hst ?_ (fun c hc => ?_) (fun hverified => ?_)
        (hcolumns .email (email_not_mem_about call)) (hcolumns .role hrole)
      · rw [show UserRow.id { row.merge { user with email := pl.normalise user.email } with
          updatedAt } = row.id from rfl, Table.key_of_find hrow]
        exact hrow
      · by_contra hnot
        exact hc (hcolumns c hnot)
      · by_cases habout : .isEmailVerified ∈ call.about
        · exact hyes habout
        · exact (hcolumns .isEmailVerified habout).trans hverified

/-! ## Runs -/

/-- What call `i` has noted, it was told. -/
def Noted (pl : Platform) (tr : List (Transition.Move AccountSys AccountAction)) (i : ℕ)
    (copy : Option User) : Prop :=
  ∀ told, copy = some told → ∃ m ∈ tr, toldIn pl m i = some told

theorem Noted.cons {m : Transition.Move AccountSys AccountAction} (h : Noted pl tr i copy) :
    Noted pl (m :: tr) i copy := by
  intro told htold
  obtain ⟨m₀, hm₀, hm₀told⟩ := h told htold
  exact ⟨m₀, List.mem_cons_of_mem _ hm₀, hm₀told⟩

theorem told_error (e : AccountEffect) (err : AccountError) : e.told (.error err) = none := by
  cases e <;> rfl

/-- The effect that is next is the one a call waits for. -/
theorem AccountSys.next_of_lookup {e : AccountEffect}
    {k : Except AccountError e.Resp → AccountProg AccountResult}
    (h : s.threads.lookup i = some ⟨call, .op e k⟩) : s.next i = some e ∧ s.call i = some call := by
  rw [AccountSys.next, AccountSys.call, h]
  exact ⟨rfl, rfl⟩

/-- Calls go on from what they were told. -/
theorem heeding_of_run (run : Transition.Run (accounts pl) tr s) :
    Pool.Heeding notesOf (Noted pl tr) s := by
  refine run.invariant_trace (P := fun tr s => Pool.Heeding notesOf (Noted pl tr) s)
    (fun s (hs : s.Initial pl) i th hi => ?_) fun tr s a s' _ ih hstep => ?_
  · rw [hs.threads, AList.lookup_empty] at hi
    cases hi
  cases a with
  | invoke i call =>
      exact ih.spawn hstep (fun j g h => h.cons)
        ⟨none, fun told htold => (by cases htold), program_heeds call⟩
  | exec i ch =>
      refine ih.advance hstep (fun j g h => h.cons) fun call e k copy hi hcopy told htold => ?_
      rcases Option.or_eq_some_iff.mp htold with hnow | ⟨-, hbefore⟩
      · refine ⟨_, List.mem_cons_self, ?_⟩
        simp only [toldIn, (AccountSys.next_of_lookup hi).1]
        exact hnow
      · exact hcopy.cons told hbefore
  | fail i =>
      refine ih.interrupt hstep (fun j g h => h.cons) fun call e k copy hi hcopy => ?_
      have hnote : (notesOf call).note copy e (.error .Unavailable) = copy := by
        rw [show (notesOf call).note copy e (.error .Unavailable)
          = (e.told (.error .Unavailable)).or copy from rfl, told_error, Option.none_or]
      rw [hnote]
      exact hcopy.cons
  | pass ms =>
      obtain rfl := Option.some.inj hstep
      intro i th hi
      obtain ⟨copy, hcopy, hheeds⟩ := ih i th hi
      exact ⟨copy, hcopy.cons, hheeds⟩

/-- **One step.** Where what calls were told is still so, a step changes only what its call is
about, keeps emails verified, and leaves the tables in order. -/
theorem step_well_kept (run : Transition.Run (accounts pl) tr s) (hst : s.shared.InOrder pl)
    (hstep : accountStep pl s a = some s') (hclear : Undisturbed pl tr ⟨s, a, s'⟩) :
    OnlyAbout ⟨s, a, s'⟩ ∧ StaysVerified ⟨s, a, s'⟩ ∧ s'.shared.InOrder pl := by
  -- a step that leaves the tables alone
  have hquiet : s'.shared.users = s.shared.users → s'.shared.drivers = s.shared.drivers →
      OnlyAbout ⟨s, a, s'⟩ ∧ StaysVerified ⟨s, a, s'⟩ ∧ s'.shared.InOrder pl := by
    intro husers hdrivers
    refine ⟨fun id row hrow => ⟨row, ?_, fun c hc => absurd rfl hc⟩,
      fun id row row' hrow hrow' hverified => ?_, ?_⟩
    · rw [AccountSys.user, husers]
      exact hrow
    · rw [AccountSys.user, husers] at hrow'
      obtain rfl := Option.some.inj (hrow.symm.trans hrow')
      exact hverified
    · exact hst.same husers hdrivers
  cases a with
  | invoke i call =>
      obtain ⟨-, hsh, -⟩ := Pool.spawn_eq_some hstep
      exact hquiet (by rw [hsh]) (by rw [hsh])
  | fail i =>
      obtain ⟨-, -, -, -, hsh, -⟩ := Pool.interrupt_eq_some hstep
      exact hquiet (by rw [hsh]) (by rw [hsh])
  | pass ms =>
      obtain rfl := Option.some.inj hstep
      exact hquiet rfl rfl
  | exec i ch =>
      obtain ⟨call, e, k, hi, hsh, -⟩ := Pool.advance_eq_some hstep
      obtain ⟨hnext, hcall⟩ := AccountSys.next_of_lookup hi
      obtain ⟨copy, hcopy, hmay⟩ := (heeding_of_run run).may hi
      have hkeeps : UsersKept pl call s.shared s'.shared := by
        rw [hsh]
        refine keeps_of_mayDo hst hmay (perform_writes ch e s.shared) ?_
        rintro user row told rfl hrow htold
        exact hclear i ch call user row told rfl hcall hnext hrow (hcopy told htold)
      refine ⟨fun id row hrow => ?_, fun id row row' hrow hrow' hverified => ?_, hkeeps.inOrder⟩
      · obtain ⟨row', hrow', hcolumns, -⟩ := hkeeps.columns id row hrow
        exact ⟨row', hrow', fun c hc => ⟨i, ch, call, rfl, hcall, hcolumns c hc⟩⟩
      · obtain ⟨row₁, hrow₁, -, hstays⟩ := hkeeps.columns id row hrow
        obtain rfl := Option.some.inj (hrow₁.symm.trans hrow')
        exact hstays hverified

/-- **When user rows are well kept**: in every run in which, where a call saves an entity, the row
still has what the call was told of it in the other columns that were loaded. -/
theorem users_well_kept (run : Transition.Run (accounts pl) tr s)
    (hclear : ∀ later earlier m, tr = later ++ m :: earlier → Undisturbed pl earlier m) :
    WellKept tr s := by
  have hkept : s.shared.InOrder pl ∧ ∀ m ∈ tr, OnlyAbout m ∧ StaysVerified m := by
    refine run.invariant_trace (P := fun tr s =>
      (∀ later earlier m, tr = later ++ m :: earlier → Undisturbed pl earlier m) →
        s.shared.InOrder pl ∧ ∀ m ∈ tr, OnlyAbout m ∧ StaysVerified m)
      (fun s (hs : s.Initial pl) _ => ⟨hs.inOrder, fun m hm => by cases hm⟩) ?_ hclear
    intro tr s a s' run ih hstep hclear
    obtain ⟨hst, htr⟩ := ih fun later earlier m htr =>
      hclear (_ :: later) earlier m (congrArg _ htr)
    obtain ⟨habout, hverified, hst'⟩ := step_well_kept run hst hstep (hclear [] tr _ rfl)
    refine ⟨hst', fun m hm => ?_⟩
    rcases List.mem_cons.mp hm with rfl | hm
    · exact ⟨habout, hverified⟩
    · exact htr m hm
  exact ⟨fun m hm => (hkept.2 m hm).1, hkept.1.drivers, fun m hm => (hkept.2 m hm).2⟩

/-! ## A save between a load and a save -/

/-- Strings as they are, for examples without capitals. -/
def samplePlatform : Platform where
  crypto := sampleCrypto
  toLowerCase x := x
  lower_part _ _ _ := rfl
  toUuid id := if h : id = "" then none else some ⟨id, h⟩
  APP_BASE_URL := none

/-- No users. -/
def accountStart : AccountSys := ⟨⟨.empty, .empty, 0, []⟩, ∅⟩

theorem accountStart_initial : accountStart.Initial samplePlatform := by
  refine ⟨⟨fun id row h => ?_, fun profile h => ?_, fun id row h => ?_⟩, rfl⟩
  · cases (Table.find_empty id).symm.trans h
  · cases h
  · cases (Table.find_empty id).symm.trans h

def accountId : UserId := ⟨"ada", by decide⟩

/-- Call `i` performs its next `n` effects. -/
def performs (i n : ℕ) : List AccountAction :=
  List.replicate n (.exec i ⟨accountId, ⟨"driver-ada", by decide⟩, "aa", "", true⟩)

/-- A user registers. -/
def registration : List AccountAction :=
  .invoke 0 (.register ⟨"Ada", "a@b.c", "password"⟩) :: performs 0 8

/-- The user is made a driver. -/
def promotionOf (i : ℕ) : List AccountAction :=
  .invoke i (.promoteToDriver accountId ⟨.CAR, "licence"⟩) :: performs i 2

/-- The email of the user is verified. -/
def verification (i : ℕ) : List AccountAction := .invoke i (.verifyEmail "ada.aa") :: performs i 5

/-- The user is loaded to be renamed, promoted and verified, and only then saved. -/
def renamedLate : List AccountAction :=
  registration ++ .invoke 1 (.updateUserName accountId "Ada L") :: performs 1 1 ++
    promotionOf 2 ++ verification 3 ++ performs 1 1

/-- One call after the other. -/
def oneByOne : List AccountAction :=
  registration ++ verification 1 ++ promotionOf 2 ++
    .invoke 3 (.updateUserName accountId "Ada L") :: performs 3 2 ++
    .invoke 4 (.forgotPassword "a@b.c") :: performs 4 6 ++
    .invoke 5 (.resetPassword ⟨"ada.aa", "passw0rd"⟩) :: performs 5 5

/-- The moves of the actions. -/
def accountMoves (as : List AccountAction) : List (Transition.Move AccountSys AccountAction) :=
  (accounts samplePlatform).moves [] accountStart as

theorem accountMoves_run (as : List AccountAction)
    (h : ((accounts samplePlatform).exec accountStart as).isSome) :
    Transition.Run (accounts samplePlatform) (accountMoves as)
      (((accounts samplePlatform).exec accountStart as).get h) :=
  (Transition.Run.init accountStart_initial).exec (Option.some_get h).symm

/-- Whether a call that is about neither takes the role of a driver and the verification of the
email from the user, as a computation. -/
def undoes (m : Transition.Move AccountSys AccountAction) : Bool :=
  match m.act, m.src.user accountId, m.dst.user accountId with
  | .exec i _, some row, some row' =>
      (m.src.call i).any (fun call => decide (.role ∉ call.about)) &&
        decide (row.role = .DRIVER) && decide (row'.role = .CUSTOMER) &&
        row.isEmailVerified && !row'.isEmailVerified
  | _, _, _ => false

theorem undoes_eq_true {m : Transition.Move AccountSys AccountAction} (h : undoes m = true) :
    ¬ OnlyAbout m ∧ ¬ StaysVerified m := by
  unfold undoes at h
  split at h
  · next i ch row row' hact hrow hrow' =>
      simp only [Bool.and_eq_true, decide_eq_true_eq, Bool.not_eq_true', Option.any_eq_true] at h
      obtain ⟨⟨⟨⟨⟨call, hcall, hrole⟩, hdriver⟩, hcustomer⟩, hyes⟩, hno⟩ := h
      refine ⟨fun habout => ?_, fun hstays => ?_⟩
      · obtain ⟨row₁, hrow₁, hcolumns⟩ := habout _ row hrow
        obtain rfl := Option.some.inj (hrow₁.symm.trans hrow')
        obtain ⟨j, ch', call', hact', hcall', hmem⟩ := hcolumns .role fun heq => by
          have heq : row₁.role = row.role := heq
          rw [hcustomer, hdriver] at heq
          cases heq
        obtain ⟨rfl, -⟩ := AccountAction.exec.inj (hact.symm.trans hact')
        obtain rfl := Option.some.inj (hcall.symm.trans hcall')
        exact hrole hmem
      · rw [hstays _ row row' hrow hrow' hyes] at hno
        cases hno
  · cases h

/-- A user is renamed while being promoted and verified: in the end the user is a customer with a
driver profile, whose email is not verified any more. -/
theorem promotion_undone : ∃ tr s, Transition.Run (accounts samplePlatform) tr s ∧
    (∃ row, s.user accountId = some row ∧ row.role = .CUSTOMER ∧ s.HasProfile accountId) ∧
    (∃ m ∈ tr, ¬ OnlyAbout m ∧ ¬ StaysVerified m) ∧ ¬ WellKept tr s := by
  have hrun := accountMoves_run renamedLate (by decide +kernel)
  generalize hs : ((accounts samplePlatform).exec accountStart renamedLate).get _ = s at hrun
  have hundoes : (accountMoves renamedLate).any undoes = true := by decide +kernel
  rw [List.any_eq_true] at hundoes
  obtain ⟨m, hm, h⟩ := hundoes
  have hrole : (s.user accountId).map UserRow.role = some .CUSTOMER := by
    rw [← hs]
    decide +kernel
  have hprofile :
      (s.shared.drivers.toList.any fun profile => profile.userId = accountId) = true := by
    rw [← hs]
    decide +kernel
  obtain ⟨row, hrow, hcustomer⟩ := Option.map_eq_some_iff.mp hrole
  obtain ⟨profile, hmem, howner⟩ := List.any_eq_true.mp hprofile
  have hhas : s.HasProfile accountId := ⟨profile, hmem, of_decide_eq_true howner⟩
  obtain ⟨hcolumns, hverified⟩ := undoes_eq_true h
  exact ⟨_, s, hrun, ⟨row, hrow, hcustomer, hhas⟩, ⟨m, hm, hcolumns, hverified⟩,
    fun hkept => hcolumns (hkept.columns m hm)⟩

/-- Whether a call that saves was told the row as it is, as a computation. -/
def upToDate (earlier : List (Transition.Move AccountSys AccountAction))
    (m : Transition.Move AccountSys AccountAction) : Bool :=
  match m.act with
  | .exec i _ =>
      match m.src.next i with
      | some (.save user) => earlier.all fun m₀ => (toldIn samplePlatform m₀ i).all fun copy =>
          (m.src.user user.id).all fun row =>
            [[], [.emailVerificationTokenHash], [.passwordResetTokenHash, .passwordHash],
              Column.hidden].any fun addSelect => decide (copy = row.load addSelect)
      | _ => true
  | _ => true

/-- What is loaded from a row is what the row has. -/
theorem current_load (about : Column → Prop) (row : UserRow) (addSelect : List Column) :
    Columns.Current about (row.load addSelect).get row.get := by
  intro c _ v hv
  cases c with
  | passwordHash => simp_all [UserRow.load, User.get, UserRow.get]
  | emailVerificationTokenHash => simp_all [UserRow.load, User.get, UserRow.get]
  | passwordResetTokenHash => simp_all [UserRow.load, User.get, UserRow.get]
  | _ => exact Option.some.inj hv

theorem undisturbed_of_upToDate {earlier : List (Transition.Move AccountSys AccountAction)}
    {m : Transition.Move AccountSys AccountAction} (h : upToDate earlier m = true) :
    Undisturbed samplePlatform earlier m := by
  rintro i ch call user row copy hact - hnext hrow ⟨m₀, hm₀, htold⟩
  simp only [upToDate, hact, hnext, List.all_eq_true] at h
  have hload := h m₀ hm₀
  rw [htold, hrow, Option.all_some, Option.all_some, List.any_eq_true] at hload
  obtain ⟨addSelect, -, heq⟩ := hload
  rw [of_decide_eq_true heq]
  exact current_load _ row addSelect

/-- Whether that is so all along, as a computation. -/
def allUpToDate : List (Transition.Move AccountSys AccountAction) → Bool
  | [] => true
  | m :: earlier => upToDate earlier m && allUpToDate earlier

theorem undisturbed_of_allUpToDate (h : allUpToDate tr = true)
    {later earlier : List (Transition.Move AccountSys AccountAction)}
    {m : Transition.Move AccountSys AccountAction} (htr : tr = later ++ m :: earlier) :
    Undisturbed samplePlatform earlier m := by
  subst htr
  induction later with
  | nil =>
      rw [List.nil_append, allUpToDate, Bool.and_eq_true] at h
      exact undisturbed_of_upToDate h.1
  | cons m' later ih =>
      rw [List.cons_append, allUpToDate, Bool.and_eq_true] at h
      exact ih h.2

/-- A user registers, verifies the email, and becomes a driver; one call comes after the other. -/
theorem users_well_kept_one_by_one : ∃ s, WellKept (accountMoves oneByOne) s ∧
    ∃ row, s.user accountId = some row ∧ row.role = .DRIVER ∧ row.isEmailVerified = true := by
  have hrun := accountMoves_run oneByOne (by decide +kernel)
  generalize hs : ((accounts samplePlatform).exec accountStart oneByOne).get _ = s at hrun
  have hall : allUpToDate (accountMoves oneByOne) = true := by decide +kernel
  have hrow : (s.user accountId).map (fun row => (row.role, row.isEmailVerified))
      = some (.DRIVER, true) := by
    rw [← hs]
    decide +kernel
  obtain ⟨row, hrow, heq⟩ := Option.map_eq_some_iff.mp hrow
  obtain ⟨hrole, hverified⟩ := Prod.mk.inj heq
  exact ⟨s, users_well_kept hrun fun later earlier m h => undisturbed_of_allUpToDate hall h,
    row, hrow, hrole, hverified⟩

end LogisticsDispatch
