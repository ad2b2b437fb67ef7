/-
Runs of the API: who gets at what, and who may write what.

However requests fall between each other's steps, a handler is only ever entered by whom it is for,
with a user whose id, role and driver profile are that user's own (`handlers_mediated`). Whatever is
found in `users` goes back to a request that was entitled to write it (`columns_warranted`), and
every token to a login (`tokens_granted`).

All of it is proved for the facts of a whole run. A step adds facts and takes none away, so the
state after each step of the run is sound for the facts there are in the end (`run_sound`).
-/
import LogisticsDispatch.AccessControl
import LogisticsDispatch.Lib.Latest

set_option autoImplicit false

namespace LogisticsDispatch

open Accounts SignIn Resumable Resumable.Program

/-! ## The facts of a run -/

/-- A move of the API. -/
abbrev ApiMove := Transition.Move ApiSys ApiAction

namespace ApiSys

/-- A row is in `users`. -/
def Has (s : ApiSys) (row : UserRow) : Prop := s.user row.id = some row

/-- A hash is kept in Redis. -/
def Keeps (s : ApiSys) (key hash : String) : Prop :=
  (s.shared.auth.tokens.redis key).map RedisEntry.value = some hash

/-- The clock of the services and the tables. -/
def clock (s : ApiSys) : ℕ := s.shared.auth.accounts.clock

/-- A driver profile belongs to a user. -/
def Owns (s : ApiSys) (d : DriverId) (userId : UserId) : Prop :=
  (s.shared.auth.accounts.drivers.find d).map (fun profile => profile.userId) = some userId

end ApiSys

/-- An effect that draws. -/
def ApiEffect.draws : ApiEffect → Bool
  | auth (.account (.randomBytes _)) => true
  | auth (.token (.randomBytes _)) => true
  | _ => false

/-- A request performs an effect in a move. -/
def ApiMove.Performs (m : ApiMove) (req : HttpRequest) (e : ApiEffect) (ch : ApiChoice) : Prop :=
  ∃ i, m.act = .exec i ch ∧ m.src.call i = some req ∧ m.src.next i = some e

/-- What has come about in a run. -/
def factsOf (tr : List ApiMove) (s : ApiSys) : Facts where
  first id := (Transition.origin tr s).user id
  rows row := s.Has row ∨ ∃ m ∈ tr, m.src.Has row
  found req row := ∃ m ∈ tr, ∃ ch,
    ApiMove.Performs m req (.auth (.account (.findOneBy row.id))) ch ∧ m.src.Has row
  read req row := ∃ m ∈ tr, ∃ ch email addSelect,
    ApiMove.Performs m req (.auth (.getOneByEmail email addSelect)) ch ∧ m.src.Has row
  called req := ∃ i, s.call i = some req
  signed payload := payload ∈ s.shared.signed
  drew req hex := ∃ m ∈ tr, ∃ e ch, ApiMove.Performs m req e ch ∧ e.draws = true ∧ ch.hex = hex
  timed req now := ∃ m ∈ tr, ∃ ch, ApiMove.Performs m req (.auth (.account .now)) ch ∧
    m.src.clock = now
  wrote req id clock := ∃ m ∈ tr, ∃ e ch, ApiMove.Performs m req e ch ∧ m.src.clock = clock ∧
    m.dst.user id ≠ m.src.user id
  google req profile := ∃ m ∈ tr, ∃ ch, ApiMove.Performs m req .googleProfile ch ∧
    ch.profile = some profile
  owns := s.Owns
  kept key hash := s.Keeps key hash ∨ ∃ m ∈ tr, m.src.Keeps key hash

/-- The facts of the first are facts of the second. -/
structure Facts.Within (F G : Facts) : Prop where
  first : F.first = G.first
  rows : ∀ row, F.rows row → G.rows row
  found : ∀ req row, F.found req row → G.found req row
  read : ∀ req row, F.read req row → G.read req row
  called : ∀ req, F.called req → G.called req
  signed : ∀ payload, F.signed payload → G.signed payload
  drew : ∀ req hex, F.drew req hex → G.drew req hex
  timed : ∀ req now, F.timed req now → G.timed req now
  wrote : ∀ req id clock, F.wrote req id clock → G.wrote req id clock
  google : ∀ req profile, F.google req profile → G.google req profile
  owns : ∀ d userId, F.owns d userId → G.owns d userId
  kept : ∀ key hash, F.kept key hash → G.kept key hash

theorem Facts.Within.refl (F : Facts) : F.Within F :=
  ⟨rfl, fun _ h => h, fun _ _ h => h, fun _ _ h => h, fun _ h => h, fun _ h => h, fun _ _ h => h,
    fun _ _ h => h, fun _ _ _ h => h, fun _ _ h => h, fun _ _ h => h, fun _ _ h => h⟩

variable {pl : Platform} {ex : Express} {F : Facts} {tr : List ApiMove} {s s' : ApiSys}
  {a : ApiAction}

/-! ## One effect -/

section Effects

variable {st : AccountStore} {ch : AccountChoice} {req : HttpRequest}

/-- The rows of `users` are facts, and warranted. -/
def AccountStore.Vouched (pl : Platform) (ex : Express) (F : Facts) (st : AccountStore) : Prop :=
  ∀ id row, st.users.find id = some row → F.rows row ∧ row.Warranted pl ex F

/-- Saving what is warranted over a row that is. -/
theorem warranted_merge {row : UserRow} {user : User} {updatedAt : ℕ}
    (hrow : row.Warranted pl ex F) (huser : user.Warranted pl ex F) (hid : row.id = user.id)
    (hdated : Warrant pl ex F user.id .updatedAt updatedAt) :
    UserRow.Warranted pl ex F { row.merge { user with email := pl.normalise user.email } with
      updatedAt } := by
  intro c
  by_cases hdate : c = .updatedAt
  · subst hdate
    exact hid ▸ hdated
  by_cases hemail : c = .email
  · subst hemail
    exact .normalised (hid ▸ huser .email user.email rfl)
  -- the other columns are saved as the entity has them
  have hget : UserRow.get { row.merge { user with email := pl.normalise user.email } with
      updatedAt } c = Columns.save user.get row.get c := by
    rw [← UserRow.get_merge]
    cases c with
    | updatedAt => exact absurd rfl hdate
    | email => exact absurd rfl hemail
    | _ => rfl
  rw [hget]
  cases hcopy : user.get c with
  | none =>
      rw [Columns.save_of_none hcopy]
      exact hrow c
  | some v =>
      rw [Columns.save_of_some hcopy]
      exact hid ▸ huser c v hcopy

/-- A warranted effect leaves the rows warranted. -/
theorem writes_warranted {e : AccountEffect} {st' : AccountStore} (hwrites : Writes pl st e st')
    (hst : ∀ id row, st.users.find id = some row → row.Warranted pl ex F)
    (he : e.Warranted pl ex F req)
    (hfirst : ∀ id, st.users.find id = none → F.first id = none)
    (hwrote : ∀ id, st'.users.find id ≠ st.users.find id → F.wrote req id st.clock)
    {id : UserId} {row : UserRow} (hrow : st'.users.find id = some row) :
    row.Warranted pl ex F := by
  -- a row that is as it was needs no new warrant
  by_cases hsame : st'.users.find id = st.users.find id
  · exact hst id row (hsame ▸ hrow)
  have hnoted : F.wrote req id st.clock := hwrote id hsame
  cases hwrites with
  | nothing husers _ => exact absurd (by rw [husers]) hsame
  | inserted new id' hnew =>
      rw [Table.find_put] at hrow
      split at hrow
      · next hid =>
          cases hrow
          obtain rfl : id = id' := hid
          exact he.1 id st.clock (hfirst id hnew) hnoted
      · exact hst id row hrow
  | saved user row' updatedAt hrow' hdate =>
      rw [Table.find_put] at hrow
      split at hrow
      · next hid =>
          cases hrow
          have hkey : row'.id = user.id := Table.key_of_find hrow'
          obtain rfl : id = user.id := hid.trans hkey
          refine warranted_merge (hst _ row' hrow') he.1 hkey ?_
          rcases hdate with rfl | rfl
          · exact .touched hnoted
          · exact he.1 .updatedAt user.updatedAt rfl
      · exact hst id row hrow
  | promoted userId dto row' driver hrow' _ _ =>
      rw [Table.find_put] at hrow
      split at hrow
      · next hid =>
          cases hrow
          have hkey : row'.id = userId := Table.key_of_find hrow'
          obtain rfl : id = userId := hid.trans hkey
          intro c
          cases c with
          | role => exact hkey ▸ he.1
          | updatedAt => exact .touched (hkey ▸ hnoted)
          | _ => exact hst _ row' hrow' _
      · exact hst id row hrow

/-- What a user is loaded from was in the table. -/
theorem loads_of_find (hst : st.Vouched pl ex F) {addSelect : List Column} {id : UserId}
    {user : User} (h : (st.users.find id).map (UserRow.load addSelect) = some user) :
    ∃ row, F.Loads pl ex addSelect row user ∧ row.id = id := by
  obtain ⟨row, hrow, rfl⟩ := Option.map_eq_some_iff.mp h
  obtain ⟨hseen, hwarranted⟩ := hst id row hrow
  exact ⟨row, ⟨hseen, hwarranted, rfl⟩, Table.key_of_find hrow⟩

theorem loads_of_search (hst : st.Vouched pl ex F) {addSelect : List Column} {p : UserRow → Bool}
    {user : User} (h : (st.users.toList.find? p).map (UserRow.load addSelect) = some user) :
    ∃ row, F.Loads pl ex addSelect row user ∧ p row = true := by
  obtain ⟨row, hrow, hp, rfl⟩ := row_of_find h
  obtain ⟨hseen, hwarranted⟩ := hst row.id row hrow
  exact ⟨row, ⟨hseen, hwarranted, rfl⟩, hp⟩

theorem insert_told {new : NewUser} {id : UserId} {user : User}
    (hst' : (st.insert pl new id).2.Vouched pl ex F) (hr : (st.insert pl new id).1 = .ok user) :
    ∃ row, F.Loads pl ex Column.hidden row user ∧ row.email = pl.normalise new.email ∧
      row.googleId = new.googleId ∧ row.passwordHash = new.passwordHash := by
  rw [AccountStore.insert] at hr hst'
  split at hr
  · cases hr
  · next hnew =>
      rw [if_neg hnew] at hst'
      cases hr
      obtain ⟨hseen, hwarranted⟩ := hst' _ _ (Table.find_put_self st.users _)
      exact ⟨_, ⟨hseen, hwarranted, rfl⟩, rfl, rfl, rfl⟩

theorem save_told {saved user : User} (hst : st.Vouched pl ex F)
    (hst' : (st.save pl saved).2.Vouched pl ex F) (hr : (st.save pl saved).1 = .ok user) :
    (∃ row, F.StandsFor pl ex row user) ∧ user.googleId = saved.googleId := by
  rw [AccountStore.save] at hr hst'
  cases hrow : st.users.find saved.id with
  | none =>
      rw [hrow] at hr
      cases hr
  | some row =>
      have hid : row.id = saved.id := Table.key_of_find hrow
      rw [hrow] at hr hst'
      dsimp only at hr hst'
      split at hr
      · cases hr
      next htaken =>
      rw [if_neg htaken] at hst'
      split at hr
      -- the row has what is saved already
      · next hsame =>
          cases hr
          obtain ⟨hseen, hwarranted⟩ := hst _ row hrow
          refine ⟨⟨row, hseen, hwarranted, hid, ?_, ?_, ?_⟩, rfl⟩
          · exact (congrArg UserRow.email hsame).symm
          · exact (congrArg UserRow.role hsame).symm
          · exact (congrArg UserRow.googleId hsame).symm
      · next hsame =>
          rw [if_neg hsame] at hst'
          cases hr
          obtain ⟨hseen, hwarranted⟩ := hst' _ _ (Table.find_put_self st.users _)
          exact ⟨⟨_, hseen, hwarranted, hid, rfl, rfl, rfl⟩, rfl⟩

/-- What an effect of the account side answers is told. -/
theorem account_told {e : AccountEffect} {a : e.Resp} (hst : st.Vouched pl ex F)
    (hst' : (AccountStore.perform pl ch e st).2.Vouched pl ex F)
    (hdraws : ∀ n, e = .randomBytes n → F.drew req ch.hex)
    (htimes : e = .now → F.timed req st.clock)
    (hfinds : ∀ row, e = .findOneBy row.id → st.users.find row.id = some row → F.found req row)
    (hr : (AccountStore.perform pl ch e st).1 = .ok a) : e.Told pl ex F req a := by
  cases e with
  | findOneByEmail email =>
      cases hr
      intro user hfound
      obtain ⟨row, hload, hp⟩ := loads_of_search hst hfound
      exact ⟨row, hload, of_decide_eq_true hp⟩
  | findOneBy id =>
      cases hr
      intro user hfound
      obtain ⟨row, hrow, rfl⟩ := Option.map_eq_some_iff.mp hfound
      obtain rfl : row.id = id := Table.key_of_find hrow
      obtain ⟨hseen, hwarranted⟩ := hst row.id row hrow
      exact ⟨row, ⟨hseen, hwarranted, rfl⟩, rfl, hfinds row rfl hrow⟩
  | getOne id addSelect =>
      rw [AccountStore.perform] at hr
      cases huuid : pl.toUuid id with
      | none =>
          rw [huuid] at hr
          cases hr
      | some uuid =>
          rw [huuid] at hr
          cases hr
          intro user hfound
          obtain ⟨row, hload, -⟩ := loads_of_find hst hfound
          exact ⟨row, hload⟩
  | insert new => exact insert_told hst' hr
  | save user => exact save_told hst hst' hr
  | promotion => trivial
  | Hash password =>
      cases hr
      exact ⟨ch.salt, rfl⟩
  | verifyHash hash password =>
      cases hr
      rfl
  | randomBytes n =>
      cases hr
      exact hdraws n rfl
  | now =>
      cases hr
      exact htimes rfl
  | sendMail => trivial

/-- No user is ever deleted. -/
theorem find_of_writes {e : AccountEffect} {st' : AccountStore} (hwrites : Writes pl st e st')
    {id : UserId} (h : st'.users.find id = none) : st.users.find id = none := by
  cases hwrites with
  | nothing husers _ => exact husers ▸ h
  | _ =>
      rw [Table.find_put] at h
      split at h
      · cases h
      · exact h

/-- A driver profile stays with its user. -/
theorem owner_of_writes {e : AccountEffect} {st' : AccountStore} (hwrites : Writes pl st e st')
    {d : DriverId} {profile : DriverProfile} (h : st.drivers.find d = some profile) :
    st'.drivers.find d = some profile := by
  cases hwrites with
  | nothing _ hdrivers => exact hdrivers ▸ h
  | promoted userId dto row driver _ _ hnew =>
      by_cases hd : d = driver.id
      · subst hd
        rw [hnew] at h
        cases h
      · exact (Table.find_put_of_ne (t := st.drivers) (v := driver) hd).trans h
  | _ => exact h

end Effects

/-! ## What is shared -/

/-- What is in the tables, was signed, or is kept is warranted. -/
structure ApiStore.Sound (pl : Platform) (ex : Express) (F : Facts) (st : ApiStore) : Prop where
  users : ∀ id row, st.auth.accounts.users.find id = some row → row.Warranted pl ex F
  first : ∀ id, st.auth.accounts.users.find id = none → F.first id = none
  signed : ∀ payload ∈ st.signed, F.Honest payload ∧ Grant pl ex F payload.sub
  kept : ∀ key entry, st.auth.tokens.redis key = some entry → F.Issued pl ex key entry.value

variable {st : ApiStore} {ch : ApiChoice} {e : ApiEffect} {req : HttpRequest}

/-- Where an effect changes the row of a user, the request has written it. -/
def Facts.Notes (F : Facts) (pl : Platform) (ch : ApiChoice) (st : ApiStore) (req : HttpRequest)
    (e : ApiEffect) : Prop :=
  ∀ id, (ApiStore.perform pl ch e st).2.auth.accounts.users.find id
    ≠ st.auth.accounts.users.find id → F.wrote req id st.auth.accounts.clock

theorem ApiStore.Sound.account {e : AccountEffect} (h : st.Sound pl ex F)
    (he : e.Warranted pl ex F req) (hnotes : F.Notes pl ch st req (.auth (.account e))) :
    (ApiStore.perform pl ch (.auth (.account e)) st).2.Sound pl ex F := by
  have hwrites : Writes pl st.auth.accounts e
      (ApiStore.perform pl ch (.auth (.account e)) st).2.auth.accounts :=
    perform_writes ch.toAccountChoice e _
  refine ⟨fun id row hrow => ?_, fun id hnone => ?_, h.signed, h.kept⟩
  · exact writes_warranted hwrites h.users he h.first hnotes hrow
  · exact h.first id (find_of_writes hwrites hnone)

theorem ApiStore.Sound.token {e : TokenEffect} (h : st.Sound pl ex F)
    (he : e.Warranted pl ex F) :
    (ApiStore.perform pl ch (.auth (.token e)) st).2.Sound pl ex F := by
  cases e with
  | signAsync payload =>
      refine ⟨h.users, h.first, fun payload' hmem => ?_, h.kept⟩
      rcases List.mem_cons.mp hmem with rfl | hmem
      · exact he
      · exact h.signed payload' hmem
  | redisSet userId value ttl =>
      refine ⟨h.users, h.first, h.signed, fun key entry hkey => ?_⟩
      change Function.update st.auth.tokens.redis userId (some ⟨value, ttl⟩) key = some entry
        at hkey
      by_cases hsame : key = userId
      · subst hsame
        rw [Function.update_self] at hkey
        cases hkey
        exact he
      · rw [Function.update_of_ne hsame] at hkey
        exact h.kept key entry hkey
  | redisDel userId =>
      refine ⟨h.users, h.first, h.signed, fun key entry hkey => ?_⟩
      change Function.update st.auth.tokens.redis userId none key = some entry at hkey
      by_cases hsame : key = userId
      · subst hsame
        rw [Function.update_self] at hkey
        cases hkey
      · rw [Function.update_of_ne hsame] at hkey
        exact h.kept key entry hkey
  | _ => exact ⟨h.users, h.first, h.signed, h.kept⟩

/-- A warranted effect keeps what is shared sound. -/
theorem ApiStore.Sound.perform (h : st.Sound pl ex F) (he : e.Warranted pl ex F req)
    (hnotes : F.Notes pl ch st req e) :
    (ApiStore.perform pl ch e st).2.Sound pl ex F := by
  cases e with
  | auth e =>
      cases e with
      | account e => exact h.account he hnotes
      | token e => exact h.token he
      | _ => exact ⟨h.users, h.first, h.signed, h.kept⟩
  | _ => exact h

theorem ApiStore.Sound.pass (ms : ℕ) (h : st.Sound pl ex F) : (st.pass ms).Sound pl ex F :=
  ⟨h.users, h.first, h.signed, h.kept⟩

theorem ApiStore.Sound.expire (key : String) (h : st.Sound pl ex F) :
    (st.expire key).Sound pl ex F := by
  refine ⟨h.users, h.first, h.signed, fun key' entry hkey => ?_⟩
  change Function.update st.auth.tokens.redis key none key' = some entry at hkey
  by_cases hsame : key' = key
  · subst hsame
    rw [Function.update_self] at hkey
    cases hkey
  · rw [Function.update_of_ne hsame] at hkey
    exact h.kept key' entry hkey

/-! ## Facts stay -/

/-- A request stays the one it is. -/
theorem api_call_kept {i : ℕ} (h : apiStep pl ex s a = some s') (hi : s.call i = some req) :
    s'.call i = some req := by
  have hinsert : ∀ {j l p}, s.call j = none ∨ s.call j = some l →
      s'.threads = s.threads.insert j ⟨l, p⟩ → s'.call i = some req := by
    intro j l p hj hth
    rw [ApiSys.call, hth]
    by_cases hij : i = j
    · subst hij
      rw [hi] at hj
      rcases hj with hj | hj
      · cases hj
      · cases hj
        rw [AList.lookup_insert, Option.map_some]
    · rw [AList.lookup_insert_ne hij]
      exact hi
  cases a with
  | invoke req' =>
      obtain ⟨hj, -, hth⟩ := Pool.spawn_eq_some h
      exact hinsert (.inl (by rw [ApiSys.call, hj, Option.map_none])) hth
  | exec j ch =>
      obtain ⟨l, e, k, hj, -, hth⟩ := Pool.advance_eq_some h
      exact hinsert (.inr (by rw [ApiSys.call, hj, Option.map_some])) hth
  | fail j err =>
      obtain ⟨l, e, k, hj, -, hth⟩ := Pool.interrupt_eq_some h
      exact hinsert (.inr (by rw [ApiSys.call, hj, Option.map_some])) hth
  | pass ms =>
      cases h
      exact hi
  | expire key =>
      cases h
      exact hi

/-- Nothing that was there is gone: a payload that was signed, a driver profile and its user, and
a user. -/
structure ApiStore.Within (st st' : ApiStore) : Prop where
  signed : ∀ payload ∈ st.signed, payload ∈ st'.signed
  drivers : ∀ d profile, st.auth.accounts.drivers.find d = some profile →
    st'.auth.accounts.drivers.find d = some profile
  users : ∀ id, st'.auth.accounts.users.find id = none → st.auth.accounts.users.find id = none

/-- Where the tables are the same, only the payloads have to be looked at. -/
theorem ApiStore.Within.of_eq {st st' : ApiStore} (hsigned : ∀ payload ∈ st.signed,
    payload ∈ st'.signed) (hdrivers : st'.auth.accounts.drivers = st.auth.accounts.drivers)
    (husers : st'.auth.accounts.users = st.auth.accounts.users) : st.Within st' :=
  ⟨hsigned, fun _ _ h => hdrivers ▸ h, fun _ h => husers ▸ h⟩

theorem ApiStore.Within.refl (st : ApiStore) : st.Within st := .of_eq (fun _ h => h) rfl rfl

/-- An effect takes nothing away. -/
theorem perform_keeps (ch : ApiChoice) (e : ApiEffect) (st : ApiStore) :
    st.Within (ApiStore.perform pl ch e st).2 := by
  cases e with
  | auth e =>
      have hsigned : ∀ payload ∈ st.signed,
          payload ∈ (ApiStore.perform pl ch (.auth e) st).2.signed := by
        intro payload h
        exact List.mem_append_right _ h
      cases e with
      | account e =>
          have hwrites : Writes pl st.auth.accounts e _ := perform_writes ch.toAccountChoice e _
          exact ⟨hsigned, fun _ _ => owner_of_writes hwrites, fun _ => find_of_writes hwrites⟩
      | token e => cases e <;> exact .of_eq hsigned rfl rfl
      | _ => exact .of_eq hsigned rfl rfl
  | _ => exact .refl st

/-- A step takes nothing away. -/
theorem step_keeps (h : apiStep pl ex s a = some s') : s.shared.Within s'.shared := by
  cases a with
  | invoke req =>
      obtain ⟨-, hsh, -⟩ := Pool.spawn_eq_some h
      rw [hsh]
      exact .refl _
  | exec i ch =>
      obtain ⟨l, e, k, -, hsh, -⟩ := Pool.advance_eq_some h
      rw [hsh]
      exact perform_keeps ch e s.shared
  | fail i err =>
      obtain ⟨l, e, k, -, hsh, -⟩ := Pool.interrupt_eq_some h
      rw [hsh]
      exact .refl _
  | pass ms =>
      cases h
      exact .of_eq (fun _ h => h) rfl rfl
  | expire key =>
      cases h
      exact .of_eq (fun _ h => h) rfl rfl

/-- A step takes no facts away. -/
theorem factsOf_step (tr : List ApiMove) (h : apiStep pl ex s a = some s') :
    (factsOf tr s).Within (factsOf (⟨s, a, s'⟩ :: tr) s') := by
  obtain ⟨hsigned, howns, -⟩ := step_keeps h
  refine ⟨?_, fun row hrow => ?_, ?_, ?_, ?_, hsigned, ?_, ?_, ?_, ?_, fun d userId hd => ?_,
    fun key hash hk => ?_⟩
  · funext id
    rw [factsOf, factsOf, Transition.origin_cons]
  · rcases hrow with hrow | ⟨m, hm, hrow⟩
    · exact .inr ⟨_, List.mem_cons_self, hrow⟩
    · exact .inr ⟨m, List.mem_cons_of_mem _ hm, hrow⟩
  · rintro req row ⟨m, hm, hfound⟩
    exact ⟨m, List.mem_cons_of_mem _ hm, hfound⟩
  · rintro req row ⟨m, hm, hread⟩
    exact ⟨m, List.mem_cons_of_mem _ hm, hread⟩
  · rintro req ⟨i, hi⟩
    exact ⟨i, api_call_kept h hi⟩
  · rintro req hex ⟨m, hm, hdrew⟩
    exact ⟨m, List.mem_cons_of_mem _ hm, hdrew⟩
  · rintro req now ⟨m, hm, htimed⟩
    exact ⟨m, List.mem_cons_of_mem _ hm, htimed⟩
  · rintro req id clock ⟨m, hm, hwrote⟩
    exact ⟨m, List.mem_cons_of_mem _ hm, hwrote⟩
  · rintro req profile ⟨m, hm, hgoogle⟩
    exact ⟨m, List.mem_cons_of_mem _ hm, hgoogle⟩
  · obtain ⟨profile, hprofile, hid⟩ := Option.map_eq_some_iff.mp hd
    show (s'.shared.auth.accounts.drivers.find d).map _ = _
    rw [howns d profile hprofile, Option.map_some, hid]
  · rcases hk with hk | ⟨m, hm, hk⟩
    · exact .inr ⟨_, List.mem_cons_self, hk⟩
    · exact .inr ⟨m, List.mem_cons_of_mem _ hm, hk⟩

/-! ## Runs -/

/-- A state is sound: what is shared is, and every request keeps to the warrants. -/
structure ApiSys.Sound (pl : Platform) (ex : Express) (F : Facts) (s : ApiSys) : Prop where
  shared : s.shared.Sound pl ex F
  threads : Pool.Meeting (fun req => ApiEffect.Told pl ex F req)
    (fun req => ApiEffect.Warranted pl ex F req) (fun _ _ => True) s

/-- What is performed by a request, as its move says. -/
theorem performs_of_lookup (s' : ApiSys) (ch : ApiChoice) {i : ℕ}
    {k : Except HttpError e.Resp → ApiProg ApiResult}
    (hi : s.threads.lookup i = some ⟨req, .op e k⟩) :
    ApiMove.Performs ⟨s, .exec i ch, s'⟩ req e ch := by
  refine ⟨i, rfl, ?_, ?_⟩
  · show (s.threads.lookup i).map Thread.call = some req
    rw [hi, Option.map_some]
  · show ApiSys.next s i = some e
    rw [ApiSys.next, hi]

/-- What is in `users` is a fact. -/
theorem accounts_vouched (hw : (factsOf tr s).Within F) (hs : s.shared.Sound pl ex F) :
    s.shared.auth.accounts.Vouched pl ex F := by
  intro id row hrow
  refine ⟨hw.rows row (.inl ?_), hs.users id row hrow⟩
  show s.shared.auth.accounts.users.find row.id = some row
  rw [Table.key_of_find hrow]
  exact hrow

theorem eq_ok_of_mapError {ε ε' α : Type} {f : ε → ε'} {x : Except ε α} {a : α}
    (h : x.mapError f = .ok a) : x = .ok a := by
  cases x with
  | error err => cases h
  | ok a' =>
      cases h
      rfl

/-- What an effect of `TokenService` answers is told. -/
theorem token_told {te : TokenEffect} {a : te.Resp}
    (howns : ∀ d userId, (st.auth.accounts.drivers.find d).map (fun profile => profile.userId)
      = some userId → F.owns d userId)
    (hkept : ∀ key hash, (st.auth.tokens.redis key).map RedisEntry.value = some hash →
      F.kept key hash ∧ F.Issued pl ex key hash)
    (hdraws : (ApiEffect.auth (.token te)).draws = true → F.drew req ch.hex)
    (hr : (AuthStore.perform pl ch.toAccountChoice (.token te) st.auth).1 = .ok a) :
    te.Told pl ex F req a := by
  cases te with
  | findDriverProfile userId =>
      cases hr
      intro d hd
      obtain ⟨profile, hprofile, rfl⟩ := Option.map_eq_some_iff.mp hd
      have hfind := Table.mem_toList.mp (List.mem_of_find?_eq_some hprofile)
      have hid := List.find?_some hprofile
      exact howns _ _ (by rw [hfind, Option.map_some, of_decide_eq_true hid])
  | randomBytes size =>
      cases hr
      exact hdraws rfl
  | Hash password =>
      cases hr
      exact ⟨ch.salt, rfl⟩
  | verifyHash hash password =>
      cases hr
      rfl
  | redisGet userId =>
      cases hr
      exact fun hash h => hkept userId hash h
  | signAsync => trivial
  | redisSet => trivial
  | redisDel => trivial

/-- What an effect of the services answers is told. -/
theorem auth_told {ae : AuthEffect} {a : ae.Resp} (hst : st.auth.accounts.Vouched pl ex F)
    (hst' : (ApiStore.perform pl ch (.auth ae) st).2.auth.accounts.Vouched pl ex F)
    (howns : ∀ d userId, (st.auth.accounts.drivers.find d).map (fun profile => profile.userId)
      = some userId → F.owns d userId)
    (hkept : ∀ key hash, (st.auth.tokens.redis key).map RedisEntry.value = some hash →
      F.kept key hash ∧ F.Issued pl ex key hash)
    (hdraws : (ApiEffect.auth ae).draws = true → F.drew req ch.hex)
    (htimes : ae = .account .now → F.timed req st.auth.accounts.clock)
    (hfinds : ∀ row, ae = .account (.findOneBy row.id) →
      st.auth.accounts.users.find row.id = some row → F.found req row)
    (hreads : ∀ row email addSelect, ae = .getOneByEmail email addSelect →
      st.auth.accounts.users.find row.id = some row → F.read req row)
    (hr : (AuthStore.perform pl ch.toAccountChoice ae st.auth).1 = .ok a) :
    ae.Told pl ex F req a := by
  cases ae with
  | account e =>
      refine account_told hst hst' ?_ ?_ ?_ hr
      · rintro n rfl
        exact hdraws rfl
      · rintro rfl
        exact htimes rfl
      · rintro row rfl
        exact hfinds row rfl
  | token te => exact token_told howns hkept hdraws hr
  | findOneByGoogleId googleId =>
      cases hr
      intro user hfound
      obtain ⟨row, hload, hp⟩ := loads_of_search hst hfound
      exact ⟨row, hload, of_decide_eq_true hp⟩
  | getOneByEmail email addSelect =>
      cases hr
      intro user hfound
      obtain ⟨row, hrow, hp, rfl⟩ := row_of_find hfound
      obtain ⟨hseen, hwarranted⟩ := hst row.id row hrow
      exact ⟨row, ⟨hseen, hwarranted, rfl⟩, of_decide_eq_true hp, hreads row email addSelect rfl hrow⟩

/-- The row that a request changes in a run is one that it has written. -/
theorem notes_of_performs {i : ℕ} (hw' : (factsOf (⟨s, .exec i ch, s'⟩ :: tr) s').Within F)
    (hperforms : ApiMove.Performs ⟨s, .exec i ch, s'⟩ req e ch)
    (hsh : s'.shared = (ApiStore.perform pl ch e s.shared).2) : F.Notes pl ch s.shared req e := by
  intro id hchanged
  rw [← hsh] at hchanged
  exact hw'.wrote req id _ ⟨_, List.mem_cons_self, e, ch, hperforms, rfl, hchanged⟩

/-- **What an effect answers in a run is told.** -/
theorem perform_told {i : ℕ} {k : Except HttpError e.Resp → ApiProg ApiResult} {a : e.Resp}
    (hs : s.shared.Sound pl ex F) (hw : (factsOf tr s).Within F)
    (hw' : (factsOf (⟨s, .exec i ch, s'⟩ :: tr) s').Within F)
    (hi : s.threads.lookup i = some ⟨req, .op e k⟩) (he : e.Warranted pl ex F req)
    (hsh : s'.shared = (ApiStore.perform pl ch e s.shared).2)
    (hr : (ApiStore.perform pl ch e s.shared).1 = .ok a) : e.Told pl ex F req a := by
  have hperforms := performs_of_lookup s' ch hi
  have hdraws : e.draws = true → F.drew req ch.hex := fun h =>
    hw'.drew req ch.hex ⟨_, List.mem_cons_self, e, ch, hperforms, h, rfl⟩
  have hst := accounts_vouched hw hs
  have hst' : s'.shared.auth.accounts.Vouched pl ex F :=
    accounts_vouched hw' (hsh ▸ hs.perform he (notes_of_performs hw' hperforms hsh))
  rw [hsh] at hst'
  cases e with
  | throttle => trivial
  | enter => trivial
  | verifyJwt token =>
      cases hr
      intro payload hfound
      rw [Option.filter_eq_some_iff, Bool.and_eq_true, decide_eq_true_eq,
        decide_eq_true_eq] at hfound
      exact ⟨hw.signed payload hfound.2.1, hfound.2.2⟩
  | googleProfile =>
      cases hr
      intro profile hfound
      exact hw'.google req profile ⟨_, List.mem_cons_self, ch, hperforms, hfound⟩
  | auth e =>
      refine auth_told hst hst' (fun d userId h => hw.owns d userId h)
        (fun key hash h => ⟨hw.kept key hash (.inl h), ?_⟩) hdraws ?_ ?_ ?_
        (eq_ok_of_mapError hr)
      · obtain ⟨entry, hentry, rfl⟩ := Option.map_eq_some_iff.mp h
        exact hs.kept key entry hentry
      · rintro rfl
        exact hw'.timed req _ ⟨_, List.mem_cons_self, ch, hperforms, rfl⟩
      · rintro row rfl hrow
        exact hw'.found req row ⟨_, List.mem_cons_self, ch, hperforms, hrow⟩
      · rintro row email addSelect rfl hrow
        exact hw'.read req row ⟨_, List.mem_cons_self, ch, email, addSelect, hperforms, hrow⟩

/-- **One step keeps a state sound**, for all facts that go beyond those so far. -/
theorem ApiSys.Sound.step (hs : s.Sound pl ex F) (h : apiStep pl ex s a = some s')
    (hw : (factsOf tr s).Within F) (hw' : (factsOf (⟨s, a, s'⟩ :: tr) s').Within F) :
    s'.Sound pl ex F := by
  cases a with
  | invoke req =>
      have hspawn : s.spawn req.number req (serve pl ex req) = some s' := h
      obtain ⟨-, hsh, hth⟩ := Pool.spawn_eq_some hspawn
      have hcalled : F.called req := by
        refine hw'.called req ⟨req.number, ?_⟩
        rw [ApiSys.call, hth, AList.lookup_insert, Option.map_some]
      exact ⟨hsh ▸ hs.shared, hs.threads.spawn hspawn (serve_meets hcalled)⟩
  | exec i ch =>
      have hadvance : s.advance (apiMachine pl) i ch = some s' := h
      obtain ⟨req, e, k, hi, hsh, -⟩ := Pool.advance_eq_some hadvance
      refine ⟨?_, hs.threads.advance hadvance ?_⟩
      · rw [hsh]
        exact hs.shared.perform (hs.threads.may hi)
          (notes_of_performs hw' (performs_of_lookup s' ch hi) hsh)
      · intro req' e' k' answer hi' hr
        rw [hi] at hi'
        cases hi'
        exact perform_told hs.shared hw hw' hi (hs.threads.may hi) hsh hr
  | fail i err =>
      have hfail : s.interrupt err i = some s' := h
      obtain ⟨req, e, k, -, hsh, -⟩ := Pool.interrupt_eq_some hfail
      exact ⟨hsh ▸ hs.shared, hs.threads.interrupt hfail⟩
  | pass ms =>
      cases h
      exact ⟨hs.shared.pass ms, hs.threads⟩
  | expire key =>
      cases h
      exact ⟨hs.shared.expire key, hs.threads⟩

theorem Facts.Within.trans {F G H : Facts} (h : F.Within G) (h' : G.Within H) : F.Within H :=
  ⟨h.first.trans h'.first, fun row hr => h'.rows row (h.rows row hr),
    fun req row hf => h'.found req row (h.found req row hf),
    fun req row hr => h'.read req row (h.read req row hr),
    fun req hr => h'.called req (h.called req hr), fun p hp => h'.signed p (h.signed p hp),
    fun req hex hd => h'.drew req hex (h.drew req hex hd),
    fun req now ht => h'.timed req now (h.timed req now ht),
    fun req id clock hc => h'.wrote req id clock (h.wrote req id clock hc),
    fun req p hg => h'.google req p (h.google req p hg),
    fun d id hd => h'.owns d id (h.owns d id hd), fun k v hk => h'.kept k v (h.kept k v hk)⟩

/-- At first, what there is needs no warrant but that. -/
theorem sound_of_initial (hinit : s.Initial) (hfirst : F.first = s.user) : s.Sound pl ex F := by
  refine ⟨⟨fun id row hrow => ?_, fun id hnone => ?_, ?_, fun key entry hentry => ?_⟩, ?_⟩
  · intro c
    refine .first ?_ c
    rw [hfirst, Table.key_of_find hrow]
    exact hrow
  · rw [hfirst]
    exact hnone
  · rw [hinit.signed]
    simp
  · rw [hinit.redis] at hentry
    cases hentry
  · intro i th hi
    rw [hinit.threads] at hi
    cases hi

/-- **Every state of a run is sound** for the facts of the run. -/
theorem run_sound (run : Transition.Run (api pl ex) tr s) (hw : (factsOf tr s).Within F) :
    s.Sound pl ex F := by
  refine run.invariant_trace (P := fun tr s => ∀ F, (factsOf tr s).Within F → s.Sound pl ex F)
    ?_ ?_ F hw
  · intro s hinit F hw
    exact sound_of_initial hinit hw.first.symm
  · intro tr s a s' _ hs hstep F hw'
    have hw := (factsOf_step tr hstep).trans hw'
    exact (hs F hw).step hstep hw hw'

/-! ## An admin makes a user a driver -/

def sampleExpress : Express where
  decode := some
  decode_plain _ _ := rfl

def adminRow : UserRow where
  id := ⟨"00000000-0000-4000-8000-00000000000a", by decide⟩
  name := "Ada"
  email := "a@b.c"
  passwordHash := some "#password"
  role := .ADMIN
  googleId := none
  provider := .LOCAL
  isEmailVerified := true
  emailVerificationTokenHash := none
  emailVerificationExpiresAt := none
  emailVerifiedAt := none
  passwordResetTokenHash := none
  passwordResetExpiresAt := none
  createdAt := 0
  updatedAt := 0

def customerRow : UserRow :=
  { adminRow with
    id := ⟨"00000000-0000-4000-8000-00000000000c", by decide⟩, name := "Grace"
    email := "g@b.c", role := .CUSTOMER }

/-- An admin and a customer. -/
def apiStart : ApiSys :=
  ⟨⟨⟨⟨(Table.empty.put adminRow).put customerRow, .empty, 0, []⟩, ⟨fun _ => none, []⟩⟩, []⟩, ∅⟩

theorem apiStart_initial : apiStart.Initial := ⟨fun _ => rfl, rfl, rfl⟩

def graceDriverId : DriverId := ⟨"00000000-0000-4000-8000-0000000000d0", by decide⟩

/-- What the steps leave open. -/
def apiChoice : ApiChoice :=
  ⟨⟨customerRow.id, graceDriverId, "aa", "", true⟩, true, some ⟨adminRow.id, "a@b.c", .ADMIN, none⟩,
    none⟩

/-- A request, and its first effects. -/
def sampleRequest (number n : ℕ) (method path : String) (authorization : Option String)
    (dto : Dto) : List ApiAction :=
  .invoke ⟨number, method, path, authorization, none, none, some dto, none⟩ ::
    List.replicate n (.exec number apiChoice)

/-- The admin logs in, and makes the customer a driver. -/
def adminPromotes (n : ℕ) : List ApiAction :=
  sampleRequest 0 8 "POST" "/api/v1/auth/login" none (.login ⟨"a@b.c", "password"⟩) ++
    sampleRequest 1 n "POST" "/api/v1/users/00000000-0000-4000-8000-00000000000c/promote-to-driver"
      (some "Bearer a@b.c") (.promoteToDriver ⟨.CAR, "licence"⟩)

/-- The moves of it. -/
def promotingMoves (n : ℕ) : List ApiMove :=
  (api samplePlatform sampleExpress).moves [] apiStart (adminPromotes n)

theorem adminPromotes_possible :
    ∀ n ≤ 8, ((api samplePlatform sampleExpress).exec apiStart (adminPromotes n)).isSome := by
  decide +kernel

/-- The state after it. -/
def promoting (n : ℕ) (hn : n ≤ 8) : ApiSys :=
  ((api samplePlatform sampleExpress).exec apiStart (adminPromotes n)).get
    (adminPromotes_possible n hn)

theorem promoting_run (n : ℕ) (hn : n ≤ 8) :
    Transition.Run (api samplePlatform sampleExpress) (promotingMoves n) (promoting n hn) :=
  (Transition.Run.init apiStart_initial).exec
    (Option.some_get (adminPromotes_possible n hn)).symm

theorem five_le_eight : 5 ≤ 8 := by decide

/-- What has come about when the admin is let in. -/
def letIn : Facts := factsOf (promotingMoves 5) (promoting 5 five_le_eight)

/-- What has come about in the end. -/
def promotedFacts : Facts := factsOf (promotingMoves 8) (promoting 8 le_rfl)

/-! ## What holds in every run -/

/-- The driver profile an access token or a refresh token gives a user is the user's own. -/
theorem admits_owns (hsigned : ∀ payload, F.signed payload → F.Honest payload) {access : Access}
    {jwtUser : JwtUser} (hadmits : F.Admits pl ex req access (some (.jwt jwtUser))) {d : DriverId}
    (hd : jwtUser.driverProfileId = some d) : F.owns d jwtUser.userId := by
  have hauthenticates : ∀ user, F.Authenticates pl req user → user.driverProfileId = some d →
      F.owns d user.userId := by
    intro user hauth huser
    obtain ⟨payload, row, hpayload, -, -, hid, -, rfl⟩ := hauth
    have howns := (hsigned payload hpayload).2 d huser
    rw [← hid] at howns
    exact howns
  cases access with
  | anyone => cases hadmits
  | google =>
      obtain ⟨googleUser, huser, -⟩ := hadmits
      cases huser
  | refreshToken =>
      obtain ⟨jwtUser', huser, hrefreshes, -⟩ := hadmits
      cases huser
      obtain ⟨-, -, -, -, -, -, -, -, -, -, -, -, howns⟩ := hrefreshes
      exact howns d hd
  | signedIn =>
      obtain ⟨jwtUser', huser, hauth⟩ := hadmits
      cases huser
      exact hauthenticates jwtUser hauth hd
  | only roles =>
      obtain ⟨jwtUser', huser, hauth, -⟩ := hadmits
      cases huser
      exact hauthenticates jwtUser hauth hd

/-- **A handler is only entered by whom it is for**, and with no driver profile but the user's
own. -/
theorem handlers_mediated (run : Transition.Run (api pl ex) tr s) (i : ℕ) (handler : Handler)
    (params : List String) (user : Option RequestUser)
    (hnext : s.next i = some (.enter handler params user)) :
    ∃ req, s.call i = some req ∧ req.handler = some handler ∧
      (factsOf tr s).Admits pl ex req handler.access user ∧
        ∀ jwtUser d, user = some (.jwt jwtUser) → jwtUser.driverProfileId = some d →
          s.Owns d jwtUser.userId := by
  have hsound := run_sound run (Facts.Within.refl _)
  have hsigned : ∀ payload, (factsOf tr s).signed payload → (factsOf tr s).Honest payload :=
    fun payload hpayload => (hsound.shared.signed payload hpayload).1
  rw [ApiSys.next] at hnext
  split at hnext
  · next req e k hi =>
      cases hnext
      obtain ⟨hhandler, hadmits⟩ := hsound.threads.may hi
      refine ⟨req, ?_, hhandler, hadmits, ?_⟩
      · rw [ApiSys.call, hi, Option.map_some]
      · rintro jwtUser d rfl hd
        exact admits_owns hsigned hadmits hd
  · cases hnext

/-- The admin enters `promoteToDriver` with the token from the login. -/
theorem handlers_mediated_promotion :
    ∃ req, (promoting 5 five_le_eight).call 1 = some req ∧
      req.handler = some (.users .promoteToDriver) ∧
      letIn.Admits samplePlatform sampleExpress req (Handler.users .promoteToDriver).access
        (some (.jwt ⟨adminRow.id, .ADMIN, none⟩)) ∧
        ∀ jwtUser d, some (RequestUser.jwt ⟨adminRow.id, .ADMIN, none⟩) = some (.jwt jwtUser) →
          jwtUser.driverProfileId = some d →
            (promoting 5 five_le_eight).Owns d jwtUser.userId :=
  handlers_mediated (promoting_run 5 five_le_eight) 1 (.users .promoteToDriver)
    [customerRow.id.text] (some (.jwt ⟨adminRow.id, .ADMIN, none⟩)) (by decide +kernel)

/-- **Whatever is found in `users` goes back to a request that was entitled to write it.** -/
theorem columns_warranted (run : Transition.Run (api pl ex) tr s) (id : UserId) (row : UserRow)
    (hrow : s.user id = some row) (c : Column) :
    Warrant pl ex (factsOf tr s) id c (row.get c) := by
  have hsound := run_sound run (Facts.Within.refl _)
  have hid : row.id = id := Table.key_of_find hrow
  exact hid ▸ hsound.shared.users id row hrow c

/-- The customer is a driver by the admin's request. -/
theorem columns_warranted_promotion :
    (promoting 8 le_rfl).user customerRow.id = some { customerRow with role := .DRIVER } ∧
      Warrant samplePlatform sampleExpress promotedFacts customerRow.id .role .DRIVER :=
  have hrow : (promoting 8 le_rfl).user customerRow.id
      = some { customerRow with role := .DRIVER } := by decide +kernel
  ⟨hrow, columns_warranted (promoting_run 8 le_rfl) customerRow.id _ hrow .role⟩

/-- A user who was there is in `users` in the end. -/
theorem user_of_rows (run : Transition.Run (api pl ex) tr s) {row : UserRow}
    (h : (factsOf tr s).rows row) : (s.user row.id).isSome := by
  refine run.invariant_trace (P := fun tr s => ∀ row, (factsOf tr s).rows row →
    (s.user row.id).isSome) ?_ ?_ row h
  · rintro s - row (hrow | ⟨m, hm, -⟩)
    · exact Option.isSome_iff_exists.mpr ⟨row, hrow⟩
    · cases hm
  · intro tr s a s' _ ih hstep row hrow
    rcases hrow with hrow | ⟨m, hm, hrow⟩
    · exact Option.isSome_iff_exists.mpr ⟨row, hrow⟩
    have hbefore : (factsOf tr s).rows row := by
      rcases List.mem_cons.mp hm with rfl | hm
      · exact .inl hrow
      · exact .inr ⟨m, hm, hrow⟩
    by_contra hnone
    have hgone := (step_keeps hstep).users row.id (Option.not_isSome_iff_eq_none.mp hnone)
    have hsome := ih row hbefore
    rw [ApiSys.user, hgone] at hsome
    cases hsome

/-- Who is granted tokens is in `users`. -/
theorem user_of_grant (run : Transition.Run (api pl ex) tr s) {id : UserId}
    (h : Grant pl ex (factsOf tr s) id) : (s.user id).isSome := by
  cases h with
  | login hseen _ =>
      obtain ⟨row, hrow, rfl⟩ := hseen
      exact user_of_rows run hrow
  | refreshToken _ _ hrefreshes _ _ =>
      obtain ⟨-, -, -, row, -, -, -, -, ⟨m, hm, -, -, hrow⟩, hid, -⟩ := hrefreshes
      exact hid ▸ user_of_rows run (.inr ⟨m, hm, hrow⟩)

/-- Tokens begin with a login, if Postgres reads the text of each user's id as the id. -/
theorem logsIn_of_grant (run : Transition.Run (api pl ex) tr s)
    (hids : ∀ id, (s.user id).isSome → pl.toUuid id.text = some id) {id : UserId}
    (h : Grant pl ex (factsOf tr s) id) : (factsOf tr s).LogsIn pl ex id := by
  induction h with
  | login _ h => exact h
  | refreshToken hcalled hhandler hrefreshes hbefore hread ih =>
      rw [hids _ (user_of_grant run hbefore), Option.some.injEq] at hread
      exact hread ▸ ih

/-- **Every access token says who its user is, and every refresh token that may be used is of the
user it is kept for; both go back to a login of that user**, however often tokens were
refreshed. -/
theorem tokens_granted (run : Transition.Run (api pl ex) tr s)
    (hids : ∀ id, (s.user id).isSome → pl.toUuid id.text = some id) :
    (∀ payload ∈ s.shared.signed, (factsOf tr s).Honest payload ∧
      (factsOf tr s).LogsIn pl ex payload.sub) ∧
    ∀ key entry, s.shared.auth.tokens.redis key = some entry →
      ∃ id salt hex, key = id.text ∧ (factsOf tr s).LogsIn pl ex id ∧
        (∃ req, (factsOf tr s).called req ∧ (factsOf tr s).drew req hex) ∧
          entry.value = pl.crypto.Hash salt (TokenService.refreshTokenOf id hex) := by
  have hsound := run_sound run (Facts.Within.refl _)
  refine ⟨fun payload hpayload => ?_, fun key entry hentry => ?_⟩
  · obtain ⟨hhonest, hgrant⟩ := hsound.shared.signed payload hpayload
    exact ⟨hhonest, logsIn_of_grant run hids hgrant⟩
  · obtain ⟨id, salt, hex, hgrant, hkey, hdrew, hhash⟩ := hsound.shared.kept key entry hentry
    exact ⟨id, salt, hex, hkey, logsIn_of_grant run hids hgrant, hdrew, hhash⟩

/-- The admin's tokens go back to the login. -/
theorem tokens_granted_promotion :
    (promoting 8 le_rfl).shared.signed = [⟨adminRow.id, "a@b.c", .ADMIN, none⟩] ∧
    (∀ payload ∈ (promoting 8 le_rfl).shared.signed, promotedFacts.Honest payload ∧
      promotedFacts.LogsIn samplePlatform sampleExpress payload.sub) ∧
    ∀ key entry, (promoting 8 le_rfl).shared.auth.tokens.redis key = some entry →
      ∃ id salt hex, key = id.text ∧ promotedFacts.LogsIn samplePlatform sampleExpress id ∧
        (∃ req, promotedFacts.called req ∧ promotedFacts.drew req hex) ∧
          entry.value = samplePlatform.crypto.Hash salt (TokenService.refreshTokenOf id hex) :=
  ⟨by decide +kernel, tokens_granted (promoting_run 8 le_rfl) fun id _ => dif_neg id.nonempty⟩

end LogisticsDispatch
