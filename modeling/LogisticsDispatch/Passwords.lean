/-
Which password lets a user in.

Only a registration or a reset writes a password, and what it writes is its own: so the hash in a
row is that of the password in the request that was the last of them to write to the row, or what
was there at first (`password_exact`). This holds however requests fall between each other's
steps. Other requests save what they have loaded of a row, but never its password, since that
column is not loaded unless asked for.

A login compares with what it has read of the row. So whoever got tokens by a login had the
password that stood when the login read the row (`logins_current`).
-/
import LogisticsDispatch.Accountability

set_option autoImplicit false

namespace LogisticsDispatch

open Accounts SignIn Resumable Transition

variable {pl : Platform} {ex : Express} {F : Facts} {tr : List ApiMove} {s s' : ApiSys}
  {a : ApiAction} {m : ApiMove} {u : UserId} {p p' : String} {req : HttpRequest}

/-! ## Who has set a password -/

/-- The move writes to a user's row, for a request with the password. -/
def ApiMove.Sets (m : ApiMove) (u : UserId) (password : String) : Prop :=
  ∃ i ch req, m.act = .exec i ch ∧ m.src.call i = some req ∧ req.SetsTo password ∧
    m.dst.user u ≠ m.src.user u

/-- The passwords, and the hashes of them. -/
def passwordLedger (pl : Platform) : Ledger ApiSys ApiAction UserId String String where
  Issues u password m := ApiMove.Sets m u password
  Ends u m := ∃ password, ApiMove.Sets m u password
  slot s u := (s.user u).bind fun row => row.passwordHash
  Records _ password hash := ∃ salt, hash = pl.crypto.Hash salt password

/-- The password of a user: what was set last, or matched the hash there was at first, if none was
set. -/
def PasswordOf (pl : Platform) (tr : List ApiMove) (s : ApiSys) (u : UserId) (p : String) : Prop :=
  (passwordLedger pl).Latest u p tr ∨
    (∀ m ∈ tr, ∀ p', ¬ ApiMove.Sets m u p') ∧ ∃ row hash, (origin tr s).user u = some row ∧
      row.passwordHash = some hash ∧ pl.crypto.verifyHash hash p = true

/-- A request has one password. -/
theorem HttpRequest.SetsTo.eq (h : req.SetsTo p) (h' : req.SetsTo p') : p' = p := by
  have hauth : ∀ method method' : AuthHandler, req.handler = some (.auth method) →
      req.handler = some (.auth method') → method = method' := by
    intro method method' hm hm'
    rw [hm, Option.some.injEq, Handler.auth.injEq] at hm'
    exact hm'
  rcases h with ⟨dto, ⟨hreq, hdto⟩, rfl⟩ | ⟨dto, ⟨hreq, hdto⟩, rfl⟩
  · rcases h' with ⟨dto', ⟨-, hdto'⟩, rfl⟩ | ⟨dto', ⟨hreq', -⟩, -⟩
    · rw [hdto, Option.some.injEq, Dto.register.injEq] at hdto'
      rw [hdto']
    · cases hauth _ _ hreq hreq'
  · rcases h' with ⟨dto', ⟨hreq', -⟩, -⟩ | ⟨dto', ⟨-, hdto'⟩, rfl⟩
    · cases hauth _ _ hreq hreq'
    · rw [hdto, Option.some.injEq, Dto.resetPassword.injEq] at hdto'
      rw [hdto']

/-! ## What a move does to a password -/

/-- A row that a warranted effect changes: it gets the password of the request, or the request has
none and the row keeps the one it has. -/
theorem password_of_writes {st st' : AccountStore} {e : AccountEffect} (hwrites : Writes pl st e st')
    (he : e.Warranted pl ex F req) (hchanged : st'.users.find u ≠ st.users.find u) :
    (∃ salt password, req.SetsTo password ∧
      (st'.users.find u).bind (fun row => row.passwordHash)
        = some (pl.crypto.Hash salt password)) ∨
    (∀ password, ¬ req.SetsTo password) ∧
      (st'.users.find u).bind (fun row => row.passwordHash)
        = (st.users.find u).bind fun row => row.passwordHash := by
  cases hwrites with
  | nothing husers _ => exact absurd (by rw [husers]) hchanged
  | inserted new id hnew =>
      rw [Table.find_put] at hchanged ⊢
      split at hchanged
      · next hid =>
          obtain rfl : id = u := hid.symm
          rw [if_pos hid, hnew]
          rcases he.2 with ⟨salt, password, hsets, hhash⟩ | ⟨hnone, hhash⟩
          · obtain ⟨hash, hnewHash, hsome⟩ := Option.map_eq_some_iff.mp hhash
            cases hsome
            exact .inl ⟨salt, password, hsets, hnewHash⟩
          · exact .inr ⟨hnone, Option.map_eq_none_iff.mp hhash⟩
      · exact absurd rfl hchanged
  | saved user row updatedAt hrow _ =>
      rw [Table.find_put] at hchanged ⊢
      split at hchanged
      · next hid =>
          have hkey : row.id = user.id := Table.key_of_find hrow
          obtain rfl : u = user.id := hid.trans hkey
          rw [if_pos hid, hrow]
          rcases he.2 with ⟨salt, password, hsets, hhash⟩ | ⟨hnone, hhash⟩
          · refine .inl ⟨salt, password, hsets, ?_⟩
            show user.passwordHash.getD row.passwordHash = _
            rw [hhash, Option.getD_some]
          · refine .inr ⟨hnone, ?_⟩
            show user.passwordHash.getD row.passwordHash = row.passwordHash
            rw [hhash, Option.getD_none]
      · exact absurd rfl hchanged
  | promoted userId dto row driver hrow _ _ =>
      refine .inr ⟨he.2, ?_⟩
      rw [Table.find_put]
      split
      · next hid =>
          have hkey : row.id = userId := Table.key_of_find hrow
          obtain rfl : u = userId := hid.trans hkey
          rw [hrow]
          rfl
      · rfl

/-- Only a request that goes on changes a user. -/
theorem change_by_exec (h : apiStep pl ex s a = some s') (hchanged : s'.user u ≠ s.user u) :
    ∃ i ch req e k, a = .exec i ch ∧ s.threads.lookup i = some ⟨req, .op e k⟩ ∧
      s'.shared = (ApiStore.perform pl ch e s.shared).2 := by
  have hsame : s'.shared.auth.accounts.users ≠ s.shared.auth.accounts.users := by
    intro hsame
    exact hchanged (by rw [ApiSys.user, ApiSys.user, hsame])
  cases a with
  | invoke req =>
      obtain ⟨-, hsh, -⟩ := Pool.spawn_eq_some h
      exact absurd (by rw [hsh]) hsame
  | exec i ch =>
      obtain ⟨req, e, k, hi, hsh, -⟩ := Pool.advance_eq_some h
      exact ⟨i, ch, req, e, k, rfl, hi, hsh⟩
  | fail i err =>
      obtain ⟨req, e, k, -, hsh, -⟩ := Pool.interrupt_eq_some h
      exact absurd (by rw [hsh]) hsame
  | pass ms =>
      cases h
      exact absurd rfl hsame
  | expire key =>
      cases h
      exact absurd rfl hsame

/-- A move sets a password, or leaves it alone. -/
theorem password_touched (hs : s.Sound pl ex F) (h : apiStep pl ex s a = some s') :
    (passwordLedger pl).Touched u ⟨s, a, s'⟩ := by
  by_cases hchanged : s'.user u = s.user u
  · have hnone : ∀ p, ¬ ApiMove.Sets ⟨s, a, s'⟩ u p := by
      rintro p ⟨-, -, -, -, -, -, hne⟩
      exact hne hchanged
    refine .kept hnone (not_exists.mpr hnone) ?_
    exact congrArg (Option.bind · fun row => row.passwordHash) hchanged
  obtain ⟨i, ch, req, e, k, rfl, hi, hsh⟩ := change_by_exec h hchanged
  have hcall : s.call i = some req := by rw [ApiSys.call, hi, Option.map_some]
  have hwarranted := hs.threads.may hi
  -- whoever sets a password in this move is the request that goes on
  have hby : ∀ p, ApiMove.Sets ⟨s, .exec i ch, s'⟩ u p ↔ req.SetsTo p := by
    intro p
    constructor
    · rintro ⟨i', ch', req', hact, hcall', hsets, -⟩
      cases hact
      rw [hcall, Option.some.injEq] at hcall'
      exact hcall' ▸ hsets
    · exact fun hsets => ⟨i, ch, req, rfl, hcall, hsets, hchanged⟩
  have hpassword : (∃ salt password, req.SetsTo password ∧
      (s'.user u).bind (fun row => row.passwordHash) = some (pl.crypto.Hash salt password)) ∨
      (∀ password, ¬ req.SetsTo password) ∧
        (s'.user u).bind (fun row => row.passwordHash)
          = (s.user u).bind fun row => row.passwordHash := by
    rw [ApiSys.user, hsh] at hchanged ⊢
    cases e with
    | auth e =>
        cases e with
        | account e =>
            exact password_of_writes (perform_writes ch.toAccountChoice e _) hwarranted hchanged
        | token e => cases e <;> exact absurd rfl hchanged
        | _ => exact absurd rfl hchanged
    | _ => exact absurd rfl hchanged
  rcases hpassword with ⟨salt, password, hsets, hslot⟩ | ⟨hnone, hslot⟩
  · refine .issued password _ (fun p => ?_) ⟨password, (hby password).mpr hsets⟩ hslot ⟨salt, rfl⟩
    show ApiMove.Sets _ u p ↔ _
    rw [hby]
    exact ⟨fun h => hsets.eq h, fun h => h ▸ hsets⟩
  · have hnotset : ∀ p, ¬ ApiMove.Sets ⟨s, .exec i ch, s'⟩ u p := fun p hp =>
      hnone p ((hby p).mp hp)
    exact .kept hnotset (not_exists.mpr hnotset) hslot

/-! ## A customer has forgotten the password -/

/-- The customer has a reset token mailed, resets the password and logs in. -/
def resetRequests : List ApiAction :=
  sampleRequest 0 8 "POST" "/api/v1/auth/forgot-password" none (.email "g@b.c") ++
    sampleRequest 1 7 "POST" "/api/v1/auth/reset-password" none
      (.resetPassword ⟨"00000000-0000-4000-8000-00000000000c.aa", "passw0rd"⟩) ++
    sampleRequest 2 8 "POST" "/api/v1/auth/login" none (.login ⟨"g@b.c", "passw0rd"⟩)

/-- The moves of it. -/
def resetMoves : List ApiMove := (api samplePlatform sampleExpress).moves [] apiStart resetRequests

theorem resetRequests_possible :
    ((api samplePlatform sampleExpress).exec apiStart resetRequests).isSome := by
  decide +kernel

/-- The state after it. -/
def afterReset : ApiSys :=
  ((api samplePlatform sampleExpress).exec apiStart resetRequests).get resetRequests_possible

theorem resetMoves_run : Run (api samplePlatform sampleExpress) resetMoves afterReset :=
  (Run.init apiStart_initial).exec (Option.some_get resetRequests_possible).symm

/-! ## Runs -/

/-- The place of a user holds the hash in the user's row. -/
theorem slot_passwordLedger {hash : String} : (passwordLedger pl).slot s u = some hash ↔
    ∃ row, s.user u = some row ∧ row.passwordHash = some hash :=
  Option.bind_eq_some_iff

/-- The hashes are those of the passwords set last, or those there were at first. -/
theorem passwords_held (run : Run (api pl ex) tr s) (u : UserId) :
    (passwordLedger pl).HoldsSince (origin tr s) tr s u := by
  refine Ledger.holdsSince_of_run (fun m hm => ?_) run
  obtain ⟨⟨earlier, hrun⟩, hstep⟩ := run.of_mem hm
  exact password_touched (run_sound hrun (Facts.Within.refl _)) hstep

/-- A password that matches the hash of a user is the user's. -/
theorem passwordOf_of_verify (run : Run (api pl ex) tr s) {row : UserRow} {hash : String}
    (hrow : s.user u = some row) (hhash : row.passwordHash = some hash)
    (hverify : pl.crypto.verifyHash hash p = true) : PasswordOf pl tr s u p := by
  have hslot : (passwordLedger pl).slot s u = some hash :=
    slot_passwordLedger.mpr ⟨row, hrow, hhash⟩
  rcases (passwords_held run u).latest hash hslot with
    ⟨p', hlatest, salt, rfl⟩ | ⟨hnone, hfirst⟩
  · obtain rfl := (pl.crypto.verify_hash salt p' p).mp hverify
    exact .inl hlatest
  · obtain ⟨row₀, hrow₀, hhash₀⟩ := slot_passwordLedger.mp hfirst
    exact .inr ⟨fun m hm p' hp' => hnone m hm ⟨p', hp'⟩, row₀, hash, hrow₀, hhash₀, hverify⟩

/-- **The password of a user is the one that a registration or a reset has set last**, in every
run. -/
theorem password_exact (run : Run (api pl ex) tr s) (u : UserId) (p : String) :
    (∃ row hash, s.user u = some row ∧ row.passwordHash = some hash ∧
      pl.crypto.verifyHash hash p = true) ↔ PasswordOf pl tr s u p := by
  constructor
  · rintro ⟨row, hash, hrow, hhash, hverify⟩
    exact passwordOf_of_verify run hrow hhash hverify
  · rintro (hlatest | ⟨hnone, row₀, hash, hrow₀, hhash₀, hverify⟩)
    · obtain ⟨hash, hheld, salt, rfl⟩ := (passwords_held run u).held p hlatest
      obtain ⟨row, hrow, hhash⟩ := slot_passwordLedger.mp hheld
      exact ⟨row, _, hrow, hhash, (pl.crypto.verify_hash salt p p).mpr rfl⟩
    · have hfirst := (passwords_held run u).first fun m hm => not_exists.mpr (hnone m hm)
      rw [slot_passwordLedger.mpr ⟨row₀, hrow₀, hhash₀⟩] at hfirst
      obtain ⟨row, hrow, hhash⟩ := slot_passwordLedger.mp hfirst
      exact ⟨row, hash, hrow, hhash, hverify⟩

/-- The new password is the customer's, and the old one is not. -/
theorem password_exact_reset :
    PasswordOf samplePlatform resetMoves afterReset customerRow.id "passw0rd" ∧
      ¬ PasswordOf samplePlatform resetMoves afterReset customerRow.id "password" := by
  have hrow : (afterReset.user customerRow.id).bind (fun row => row.passwordHash)
      = some "#passw0rd" := by decide +kernel
  obtain ⟨row, hrow, hhash⟩ := Option.bind_eq_some_iff.mp hrow
  refine ⟨(password_exact resetMoves_run _ _).mp ⟨row, _, hrow, hhash, by decide⟩, fun h => ?_⟩
  obtain ⟨row', hash, hrow', hhash', hverify⟩ := (password_exact resetMoves_run _ _).mpr h
  rw [hrow, Option.some.injEq] at hrow'
  rw [← hrow', hhash, Option.some.injEq] at hhash'
  rw [← hhash'] at hverify
  revert hverify
  decide

/-- A login reads a row that it may let in, in a move of the run: the password is the one that the
user had then. -/
structure CurrentLogin (pl : Platform) (tr : List ApiMove) (u : UserId) (req : HttpRequest)
    (dto : LoginDto) (row : UserRow) : Prop where
  asks : req.Asks (.auth .login) (.login dto)
  email : row.email = pl.normalise dto.email
  provider : row.provider = .LOCAL
  verified : row.isEmailVerified = true
  reads : ∃ later m earlier, tr = later ++ m :: earlier ∧
    (∃ ch email addSelect, ApiMove.Performs m req (.auth (.getOneByEmail email addSelect)) ch) ∧
      m.src.user u = some row ∧ PasswordOf pl earlier m.src u dto.password

/-- **Whoever gets tokens by a login had the password that stood when the login read the row.** -/
theorem logins_current (run : Run (api pl ex) tr s)
    (hids : ∀ id, (s.user id).isSome → pl.toUuid id.text = some id) (payload : JwtPayload)
    (hpayload : payload ∈ s.shared.signed) :
    (∃ req dto row, CurrentLogin pl tr payload.sub req dto row) ∨
      ∃ req googleUser, (factsOf tr s).Returns pl req googleUser ∧
        googleUser.emailVerified = true ∧
          Warrant pl ex (factsOf tr s) payload.sub .googleId (some googleUser.googleId) := by
  obtain ⟨-, hgrant⟩ := (run_sound run (Facts.Within.refl _)).shared.signed payload hpayload
  rcases logsIn_of_grant run hids hgrant with ⟨req, dto, row, -, hasks, hread, hid, hlets⟩ | hgoogle
  · obtain ⟨m, hm, ch, email, addSelect, hperforms, hrow⟩ := hread
    obtain ⟨later, earlier, rfl⟩ := List.append_of_mem hm
    obtain ⟨hrun, -, -⟩ := run.split
    have hrow : m.src.user payload.sub = some row := hid ▸ hrow
    obtain ⟨hash, hhash, hverify⟩ := hlets.password
    have hpassword := passwordOf_of_verify hrun hrow hhash hverify
    exact .inl ⟨req, dto, row, hasks, hlets.email, hlets.provider, hlets.verified, later, m,
      earlier, rfl, ⟨ch, email, addSelect, hperforms⟩, hrow, hpassword⟩
  · exact .inr hgoogle

/-- The customer's tokens go back to the login with the new password. -/
theorem logins_current_reset :
    (∃ req dto row, CurrentLogin samplePlatform resetMoves customerRow.id req dto row) ∨
      ∃ req googleUser, (factsOf resetMoves afterReset).Returns samplePlatform req googleUser ∧
        googleUser.emailVerified = true ∧
          Warrant samplePlatform sampleExpress (factsOf resetMoves afterReset) customerRow.id
            .googleId (some googleUser.googleId) :=
  logins_current resetMoves_run (fun id _ => dif_neg id.nonempty)
    ⟨customerRow.id, "g@b.c", .CUSTOMER, none⟩ (by decide +kernel)

end LogisticsDispatch
