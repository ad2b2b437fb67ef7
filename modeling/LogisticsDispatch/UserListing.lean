/-
Listing users: `UsersService.findAll`.

The two other lists bring the limit between one and a hundred first; this one takes it as it
comes. It asks for one row more than the limit, and says that there are more rows if it gets more
than the limit. From a limit of one on that is keyset pagination, with a cursor that is as precise
as the rows (`listsSafely_of_pos`). A limit of zero pops the only row that was asked for and then
reads the last of none. Minus one asks for zero rows, with a `LIMIT` or without one: either way
the call gets more rows than its limit. What is less is a negative `LIMIT`, which Postgres rejects.
-/
import LogisticsDispatch.AccountServices
import LogisticsDispatch.Lib.Separated
import LogisticsDispatch.Pagination

set_option autoImplicit false

namespace LogisticsDispatch

open Keyset (under Descending)

/-! ## Cursors -/

/-- What Node and the database do with the cursors of users, and TypeORM with the limit. -/
structure UserCursors where
  /-- `Buffer.from(text).toString('base64url')`. -/
  toBase64url : String → String
  /-- `Buffer.from(cursor, 'base64url').toString('utf-8')`. -/
  fromBase64url : String → String
  toISOString : ℕ → String
  /-- The timestamp that the database takes a query parameter for, if it takes it for one. -/
  toTimestamp : String → Option ℤ
  /-- The uuid that the database takes a query parameter for, if it takes it for one. -/
  toUuid : String → Option String
  /-- Whether a `take` of zero is a `LIMIT 0`, as in the pinned version, or none at all. -/
  limitsZero : Bool

/-- What `findAll` returns. -/
structure UserPage where
  data : List UserResponse
  nextCursor : Option String
deriving DecidableEq

namespace UsersService

variable (codec : UserCursors)

/-- Where a user is in the list. -/
def position (row : UserRow) : Position := toLex ((row.createdAt : ℤ), row.id.text)

/-- The cursor of a user. -/
def encodeCursor (user : User) : String :=
  codec.toBase64url (codec.toISOString user.createdAt ++ "_" ++ user.id.text)

/-- The date and the id of a cursor: the first two parts of it, of which the second may be
missing. -/
def decodeCursor (cursor : String) : String × Option String :=
  let cursorBuffer := (codec.fromBase64url cursor).toList
  (String.ofList (Separated.before '_' cursorBuffer),
    (Separated.after '_' cursorBuffer).map fun rest => String.ofList (Separated.before '_' rest))

/-- `user.createdAt < :cursorCreatedAt OR (user.createdAt = :cursorCreatedAt AND
user.id < :cursorId)`. A missing id is null, and below null there is nothing. -/
def below (cursorCreatedAt : ℤ) (cursorId : Option String) (row : UserRow) : Bool :=
  decide ((row.createdAt : ℤ) < cursorCreatedAt) ||
    decide ((row.createdAt : ℤ) = cursorCreatedAt) &&
      cursorId.any fun id => decide (row.id.text < id)

/-- The condition of the query. The database rejects what it cannot compare. -/
def condition : Option String → Except AccountError (UserRow → Bool)
  | none => .ok fun _ => true
  | some cursor =>
      let (cursorCreatedAt, cursorId) := decodeCursor codec cursor
      match codec.toTimestamp cursorCreatedAt, cursorId.mapM codec.toUuid with
      | some createdAt, some id => .ok (below createdAt id)
      | _, _ => .error .QueryFailedError

/-- `getMany` with `take`: the database rejects a `LIMIT` that is negative or no `bigint`. -/
def getMany (users : Table UserRow.id) (condition : UserRow → Bool) (take : ℤ) :
    Except AccountError (List User) :=
  let rows := ((users.toList.filter condition).insertionSort
    fun v w => position w ≤ position v).map (UserRow.load [])
  if take = 0 then .ok (if codec.limitsZero then [] else rows)
  else if take < 0 ∨ 2 ^ 63 ≤ take then .error .QueryFailedError
  else .ok (rows.take take.toNat)

/-- What is made of the users that were found. -/
def toPage (limit : ℤ) (users : List User) : Except AccountError UserPage :=
  let hasMore := decide ((users.length : ℤ) > limit)
  let users := if hasMore then users.dropLast else users
  if hasMore then
    match users.getLast? with
    -- `users[users.length - 1].createdAt`, of no user
    | none => .error .TypeError
    | some user =>
        .ok { data := users.map toUserResponse, nextCursor := some (encodeCursor codec user) }
  else .ok { data := users.map toUserResponse, nextCursor := none }

/-- `findAll`. -/
def findAll (users : Table UserRow.id) (limit : ℤ) (cursor : Option String) :
    Except AccountError UserPage := do
  let condition ← condition codec (cursor.filter fun cursor => cursor ≠ "")
  let found ← getMany codec users condition (limit + 1)
  toPage codec limit found

end UsersService

/-! ## What a list is to be -/

/-- Who follows the cursors from one on is shown these users, up to where there is none. -/
inductive Follows (find : Option String → Except AccountError UserPage) :
    Option String → List UserResponse → Prop
  | stop : Follows find none []
  | next {cursor : String} {page : UserPage} {rest : List UserResponse}
      (hpage : find (some cursor) = .ok page) (hrest : Follows find page.nextCursor rest) :
      Follows find (some cursor) (page.data ++ rest)

/-- How a user is answered. -/
def UserRow.response (row : UserRow) : UserResponse := toUserResponse (row.load [])

/-- The list is safe for a limit: the limit is rejected, or the newest users are listed, no more
than the limit, with a cursor exactly if there are more; and who follows the cursors is shown each
of the others once, in order. -/
inductive ListsSafely (find : Option String → Except AccountError UserPage)
    (users : List UserRow) (limit : ℤ) : Prop
  | rejected (h : find none = .error .QueryFailedError)
  | listed (rows : List UserRow) (page : UserPage) (hperm : rows.Perm users)
      (hdesc : Descending UsersService.position rows) (hpage : find none = .ok page)
      (hfew : (page.data.length : ℤ) ≤ limit)
      (hdata : page.data = (rows.take page.data.length).map UserRow.response)
      (hnext : page.nextCursor ≠ none ↔ page.data.length < rows.length)
      (hrest : Follows find page.nextCursor
        ((rows.drop page.data.length).map UserRow.response))

/-- The cursor of a user is read as what it was made from: base64 is undone, neither part holds
an underscore, and the database takes the date for that of the user and the id for itself. -/
structure UserCursors.RoundTrips (codec : UserCursors) (row : UserRow) : Prop where
  decoded : codec.fromBase64url (UsersService.encodeCursor codec (row.load []))
    = codec.toISOString row.createdAt ++ "_" ++ row.id.text
  printed : UsersService.encodeCursor codec (row.load []) ≠ ""
  date_plain : '_' ∉ (codec.toISOString row.createdAt).toList
  id_plain : '_' ∉ row.id.text.toList
  timestamp : codec.toTimestamp (codec.toISOString row.createdAt) = some (row.createdAt : ℤ)
  uuid : codec.toUuid row.id.text = some row.id.text

namespace UsersService

variable {codec : UserCursors} {users : Table UserRow.id} {row : UserRow} {limit : ℤ}

/-! ## The condition of a page -/

/-- A cursor is read as the date and the id it was made from. -/
theorem decodeCursor_encodeCursor (h : codec.RoundTrips row) :
    decodeCursor codec (encodeCursor codec (row.load []))
      = (codec.toISOString row.createdAt, some row.id.text) := by
  have hlist : (codec.toISOString row.createdAt ++ "_" ++ row.id.text).toList
      = (codec.toISOString row.createdAt).toList ++ '_' :: row.id.text.toList := by
    simp [String.toList_append]
  rw [decodeCursor, h.decoded, hlist, Separated.before_append h.date_plain,
    Separated.after_append h.date_plain, Option.map_some, Separated.before_eq_self h.id_plain,
    String.ofList_toList, String.ofList_toList]

/-- The condition says that a row is below the position of the cursor. -/
theorem below_eq (row v : UserRow) :
    below (row.createdAt : ℤ) (some row.id.text) v = decide (position v < position row) := by
  rw [below, Option.any_some, Bool.eq_iff_iff, Bool.or_eq_true, Bool.and_eq_true,
    decide_eq_true_eq, decide_eq_true_eq, decide_eq_true_eq, decide_eq_true_eq, position,
    position, Prod.Lex.toLex_lt_toLex]

theorem condition_encodeCursor (h : codec.RoundTrips row) :
    condition codec (some (encodeCursor codec (row.load [])))
      = .ok fun v => decide (position v < position row) := by
  rw [condition, decodeCursor_encodeCursor h]
  simp only [h.timestamp, Option.mapM_some, h.uuid]
  exact congrArg Except.ok (funext (below_eq row))

/-! ## One page -/

/-- The users, as the list has them. -/
def sorted (users : Table UserRow.id) : List UserRow :=
  users.toList.insertionSort fun v w => position w ≤ position v

theorem positions_nodup (users : Table UserRow.id) : (users.toList.map position).Nodup := by
  have hids : users.toList.Pairwise fun v w => v.id ≠ w.id :=
    List.pairwise_map.mp users.nodup_toList
  refine List.pairwise_map.mpr (hids.imp fun hne heq => hne ?_)
  have htext := congrArg (fun p => (ofLex p).2) heq
  exact Uuid.ext htext

theorem descending_sorted (users : Table UserRow.id) : Descending position (sorted users) :=
  Keyset.descending_insertionSort (positions_nodup users)

/-- For a limit that a `bigint` holds, the query returns one row more than the limit. -/
theorem getMany_under {n : ℕ} (hn : ((n : ℤ) + 1) < 2 ^ 63) (bound : Option Position) :
    getMany codec users (fun v => bound.all fun b => decide (position v < b)) ((n : ℤ) + 1)
      = .ok (((under position bound (sorted users)).take (n + 1)).map (UserRow.load [])) := by
  have hzero : ¬ (n : ℤ) + 1 = 0 := by omega
  have hreject : ¬ ((n : ℤ) + 1 < 0 ∨ 2 ^ 63 ≤ (n : ℤ) + 1) := by omega
  have htake : ((n : ℤ) + 1).toNat = n + 1 := by omega
  rw [getMany, if_neg hzero, if_neg hreject, htake, List.map_take, sorted,
    ← Keyset.under_insertionSort (positions_nodup users)]
  rfl

/-- From a limit of one on, there is a last user on a page that has another after it. -/
theorem toPage_eq {n : ℕ} (hn : 0 < n) (found : List User) : toPage codec n found
      = .ok { data := (Page.of (encodeCursor codec) n found).data.map toUserResponse
              nextCursor := (Page.of (encodeCursor codec) n found).nextCursor } := by
  rw [toPage, Page.of]
  by_cases hmore : found.length > n
  · have hlt : (found.length : ℤ) > (n : ℤ) := by omega
    have hlen : found.dropLast.length ≠ 0 := by
      rw [List.length_dropLast]
      omega
    have hne : found.dropLast ≠ [] := by
      intro hnil
      rw [hnil] at hlen
      exact hlen rfl
    simp only [hlt, hmore, decide_true, if_true, List.getLast?_eq_getLast_of_ne_nil hne,
      Option.map_some]
  · have hle : ¬ (found.length : ℤ) > (n : ℤ) := by omega
    simp only [hle, hmore, decide_false, Bool.false_eq_true, if_false]

/-- A cursor says where a bound is. -/
def Says (codec : UserCursors) (users : Table UserRow.id) :
    Option String → Option Position → Prop
  | none, none => True
  | some cursor, some b =>
      ∃ row ∈ users.toList, cursor = encodeCursor codec (row.load []) ∧ b = position row
  | _, _ => False

section Pages

variable (hround : ∀ row ∈ users.toList, codec.RoundTrips row) {n : ℕ} (hpos : 0 < n)
  (hn : ((n : ℤ) + 1) < 2 ^ 63) {cursor : Option String} {bound : Option Position}
include hround hpos hn

omit hpos in
/-- What a page shows of the users below its bound. -/
theorem findAll_of_start (hstart : Says codec users cursor bound) : findAll codec users n cursor =
    toPage codec n
      (((under position bound (sorted users)).take (n + 1)).map (UserRow.load [])) := by
  have hcondition : condition codec (cursor.filter fun cursor => cursor ≠ "")
      = .ok fun v => bound.all fun b => decide (position v < b) := by
    match cursor, bound, hstart with
    | none, none, _ => rfl
    | some _, some _, ⟨row, hrow, rfl, rfl⟩ =>
        have hprinted := (hround row hrow).printed
        have hfilter : (some (encodeCursor codec (row.load []))).filter
            (fun cursor => cursor ≠ "") = some (encodeCursor codec (row.load [])) := by
          simp [hprinted]
        rw [hfilter, condition_encodeCursor (hround row hrow)]
        rfl
  rw [findAll, hcondition]
  exact congrArg (fun found => found >>= toPage codec n) (getMany_under hn bound)

theorem findAll_of_fit (hstart : Says codec users cursor bound)
    (hfit : (under position bound (sorted users)).length ≤ n) : findAll codec users n cursor
      = .ok ⟨(under position bound (sorted users)).map UserRow.response, none⟩ := by
  have hlen : ((under position bound (sorted users)).map (UserRow.load [])).length ≤ n := by
    simpa using hfit
  rw [findAll_of_start hround hn hstart, toPage_eq hpos, List.map_take,
    Page.of_fit _ hlen, List.map_map]
  rfl

theorem findAll_of_more {row : UserRow} (hstart : Says codec users cursor bound)
    (hmore : n < (under position bound (sorted users)).length)
    (hlast : (under position bound (sorted users))[n - 1]? = some row) :
    findAll codec users n cursor
      = .ok ⟨((under position bound (sorted users)).take n).map UserRow.response,
          some (encodeCursor codec (row.load []))⟩ := by
  have hlen : n < ((under position bound (sorted users)).map (UserRow.load [])).length := by
    simpa using hmore
  have hloaded : ((under position bound (sorted users)).map (UserRow.load []))[n - 1]?
      = some (row.load []) := by
    simp [hlast]
  rw [findAll_of_start hround hn hstart, toPage_eq hpos, List.map_take,
    Page.of_more _ hlen hpos hloaded, ← List.map_take, List.map_map]
  rfl

/-- **Following the cursors** shows the pages of keyset pagination. -/
theorem follows_of_pages {pages : List (List UserRow)}
    (h : Keyset.Pages position position n (sorted users) bound pages)
    (hstart : Says codec users cursor bound) :
    ∃ page rest, findAll codec users n cursor = .ok page ∧
      Follows (findAll codec users n) page.nextCursor rest ∧
      page.data = ((under position bound (sorted users)).take n).map UserRow.response ∧
      (page.nextCursor ≠ none ↔ n < (under position bound (sorted users)).length) ∧
      page.data ++ rest = pages.flatten.map UserRow.response := by
  induction h generalizing cursor with
  | @last bound hfit =>
      refine ⟨_, [], findAll_of_fit hround hpos hn hstart hfit, .stop, ?_, ?_, ?_⟩
      · rw [List.take_of_length_le hfit]
      · simpa using hfit
      · simp
  | @next bound row pages hmore hlast hrest ih =>
      have hrow : row ∈ users.toList := by
        have hmem := (Keyset.under_sublist _ _ _).subset (List.mem_of_getElem? hlast)
        exact (List.perm_insertionSort _ _).mem_iff.mp hmem
      have hsaid : Says codec users (some (encodeCursor codec (row.load [])))
          (some (position row)) := ⟨row, hrow, rfl, rfl⟩
      obtain ⟨page, rest, hpage, hfollows, -, -, hdata⟩ := ih hsaid
      refine ⟨_, page.data ++ rest, findAll_of_more hround hpos hn hstart hmore hlast,
        .next hpage hfollows, rfl, ?_, ?_⟩
      · simpa using hmore
      · rw [hdata, List.flatten_cons, List.map_append]

/-- **A limit of one or more is safe**, up to the last one that a `bigint` holds. -/
theorem listsSafely_of_pos :
    ListsSafely (fun cursor => findAll codec users n cursor) users.toList n := by
  have hdesc := descending_sorted users
  have hmark : ∀ row, position row ≤ position row := fun _ => le_rfl
  obtain ⟨pages, hpages⟩ := Keyset.exists_pages hdesc hmark hpos none
  -- the mark of a row is its position, so every row after it is below its mark
  have hseparated : Keyset.Separated position position n (sorted users) := by
    intro k v w _ hv hw
    obtain ⟨hk, rfl⟩ := List.getElem?_eq_some_iff.mp hv
    obtain ⟨hk', rfl⟩ := List.getElem?_eq_some_iff.mp hw
    exact List.pairwise_iff_getElem.mp hdesc k (k + 1) hk hk' (Nat.lt_succ_self k)
  have hall := hpages.flatten_eq_iff hdesc hmark hpos
  have hstart : Says codec users none none := trivial
  obtain ⟨page, rest, hpage, hfollows, hdata, hnext, happend⟩ :=
    follows_of_pages hround hpos hn hpages hstart
  rw [Keyset.under_none] at hall hdata hnext
  rw [hall.mpr hseparated] at happend
  have hlen : page.data.length = min n (sorted users).length := by
    rw [hdata, List.length_map, List.length_take]
  have htake : (sorted users).take page.data.length = (sorted users).take n := by
    rw [List.take_eq_take_iff, hlen]
    omega
  have hrest : rest = ((sorted users).drop page.data.length).map UserRow.response := by
    rw [← List.take_append_drop page.data.length (sorted users), List.map_append, htake,
      ← hdata] at happend
    exact List.append_cancel_left happend
  refine .listed (sorted users) page (List.perm_insertionSort _ _) hdesc hpage ?_ ?_ ?_ ?_
  · omega
  · rw [htake, hdata]
  · rw [hnext, hlen]
    omega
  · rw [← hrest]
    exact hfollows

end Pages

/-! ## Every limit -/

/-- A query for a negative number of users, or for one that no `bigint` holds, is rejected. -/
theorem findAll_rejected (codec : UserCursors) (users : Table UserRow.id)
    (hlimit : limit + 1 < 0 ∨ 2 ^ 63 ≤ limit + 1) :
    findAll codec users limit none = .error .QueryFailedError := by
  have hzero : ¬ limit + 1 = 0 := by omega
  have hmany : getMany codec users (fun _ => true) (limit + 1) = .error .QueryFailedError := by
    rw [getMany, if_neg hzero, if_pos hlimit]
  rw [findAll, Option.filter_none, condition]
  exact congrArg (fun found => found >>= toPage codec limit) hmany

/-- What is made of users that were found is no error of the query. -/
theorem toPage_ne (codec : UserCursors) (limit : ℤ) (found : List User) :
    toPage codec limit found ≠ .error .QueryFailedError := by
  rw [toPage]
  split
  · split
    · simp
    · simp
  · simp

/-- A limit of zero reads the date of no user, where there are users. -/
theorem findAll_zero (codec : UserCursors) (hsome : users.toList ≠ []) :
    findAll codec users 0 none = .error .TypeError := by
  have hmany := @getMany_under codec users 0 (by norm_num) none
  have hperm : (sorted users).Perm users.toList := List.perm_insertionSort _ _
  rw [Keyset.under_none] at hmany
  have hfind : findAll codec users 0 none
      = toPage codec 0 (((sorted users).take (0 + 1)).map (UserRow.load [])) :=
    congrArg (fun found => found >>= toPage codec 0) hmany
  rw [hfind]
  cases hsorted : sorted users with
  | nil =>
      rw [hsorted] at hperm
      exact absurd hperm.nil_eq.symm hsome
  | cons row rest => rfl

/-- A limit of zero lists no users where there are none. -/
theorem findAll_zero_empty (codec : UserCursors) (hnone : users.toList = []) :
    findAll codec users 0 none = .ok ⟨[], none⟩ := by
  have hmany : getMany codec users (fun _ => true) (0 + 1) = .ok [] := by
    simp [getMany, hnone]
  exact congrArg (fun found => found >>= toPage codec 0) hmany

/-- A limit of minus one is not rejected. -/
theorem findAll_minus_one (codec : UserCursors) (users : Table UserRow.id) :
    findAll codec users (-1) none ≠ .error .QueryFailedError := by
  obtain ⟨found, hmany⟩ : ∃ found, getMany codec users (fun _ => true) (-1 + 1) = .ok found :=
    ⟨_, by rw [getMany, if_pos (by norm_num)]⟩
  rw [findAll, Option.filter_none, condition]
  show (getMany codec users (fun _ => true) (-1 + 1) >>= toPage codec (-1)) ≠ _
  rw [hmany]
  exact toPage_ne codec (-1) found

/-- **A list of users is safe exactly if** the limit is one or more, or so far below zero that it
is rejected, or zero where there are no users. -/
theorem listsSafely_iff (codec : UserCursors) (users : Table UserRow.id) (limit : ℤ)
    (hround : ∀ row ∈ users.toList, codec.RoundTrips row) :
    ListsSafely (fun cursor => findAll codec users limit cursor) users.toList limit ↔
      1 ≤ limit ∨ limit ≤ -2 ∨ (limit = 0 ∧ users.toList = []) := by
  constructor
  · intro hsafe
    by_contra hnot
    obtain ⟨hlow, hhigh, hempty⟩ : ¬ 1 ≤ limit ∧ ¬ limit ≤ -2 ∧
        ¬ (limit = 0 ∧ users.toList = []) := by tauto
    by_cases hzero : limit = 0
    · subst hzero
      have herror := findAll_zero codec fun hnone => hempty ⟨rfl, hnone⟩
      cases hsafe with
      | rejected h =>
          rw [herror] at h
          cases h
      | listed rows page hperm hdesc hpage hfew hdata hnext hrest =>
          rw [herror] at hpage
          cases hpage
    · obtain rfl : limit = -1 := by omega
      cases hsafe with
      | rejected h => exact findAll_minus_one codec users h
      | listed rows page hperm hdesc hpage hfew hdata hnext hrest => omega
  · rintro (hpos | hneg | ⟨rfl, hnone⟩)
    · obtain ⟨n, rfl⟩ := Int.eq_ofNat_of_zero_le (by omega : 0 ≤ limit)
      by_cases hbig : (n : ℤ) + 1 < 2 ^ 63
      · exact listsSafely_of_pos hround (by omega) hbig
      · exact .rejected (findAll_rejected codec users (.inr (by omega)))
    · exact .rejected (findAll_rejected codec users (.inl (by omega)))
    · refine .listed [] ⟨[], none⟩ ?_ List.Pairwise.nil (findAll_zero_empty codec hnone) ?_ rfl
        ?_ .stop
      · rw [hnone]
      · simp
      · simp

end UsersService

/-! ### Two users -/

/-- The cursor of a user who registered as 2026 began. -/
def userCursor (id : String) : String :=
  if id = firstId.text then
    "MjAyNi0wMS0wMVQwMDowMDowMC4wMDBaXzAxOTdhMDAwLTAwMDAtNzAwMC04MDAwLTAwMDAwMDAwMDAwMQ"
  else
    "MjAyNi0wMS0wMVQwMDowMDowMC4wMDBaXzAxOTdhMDAwLTAwMDAtNzAwMC04MDAwLTAwMDAwMDAwMDAwMg"

/-- Node and the database, on these cursors. -/
def userCursors : UserCursors where
  toBase64url text :=
    if text = "2026-01-01T00:00:00.000Z" ++ "_" ++ firstId.text then userCursor firstId.text
    else userCursor secondId.text
  fromBase64url cursor :=
    if cursor = userCursor firstId.text then "2026-01-01T00:00:00.000Z" ++ "_" ++ firstId.text
    else "2026-01-01T00:00:00.000Z" ++ "_" ++ secondId.text
  toISOString _ := "2026-01-01T00:00:00.000Z"
  toTimestamp date := if date = "2026-01-01T00:00:00.000Z" then some 1767225600000 else none
  toUuid id := if id = firstId.text ∨ id = secondId.text then some id else none
  limitsZero := true

/-- A user who registered as 2026 began. -/
def newYearUser (id : UserId) (email : String) : UserRow where
  id := id
  name := "user"
  email := email
  passwordHash := none
  role := .CUSTOMER
  googleId := none
  provider := .LOCAL
  isEmailVerified := true
  emailVerificationTokenHash := none
  emailVerificationExpiresAt := none
  emailVerifiedAt := none
  passwordResetTokenHash := none
  passwordResetExpiresAt := none
  createdAt := 1767225600000
  updatedAt := 1767225600000

/-- Two users who registered in the same millisecond. -/
def twoUsers : Table UserRow.id :=
  (Table.empty.put (newYearUser firstId "ada@mail")).put (newYearUser secondId "bob@mail")

theorem roundTrips_twoUsers : ∀ row ∈ twoUsers.toList, userCursors.RoundTrips row := by
  have hrows : twoUsers.toList
      = [newYearUser secondId "bob@mail", newYearUser firstId "ada@mail"] := rfl
  rw [hrows]
  simp only [List.mem_cons, List.not_mem_nil, or_false]
  rintro row (rfl | rfl)
  · exact ⟨by decide, by decide, by decide, by decide, by decide, by decide⟩
  · exact ⟨by decide, by decide, by decide, by decide, by decide, by decide⟩

/-- Two users are listed safely, one on each page. -/
theorem listsSafely_iff_two : ListsSafely
    (fun cursor => UsersService.findAll userCursors twoUsers 1 cursor) twoUsers.toList 1 :=
  (UsersService.listsSafely_iff userCursors twoUsers 1 roundTrips_twoUsers).mpr (.inl le_rfl)

/-- With a limit of zero the call fails on them. -/
theorem limit_zero_fails :
    UsersService.findAll userCursors twoUsers 0 none = .error .TypeError ∧
    ¬ ListsSafely (fun cursor => UsersService.findAll userCursors twoUsers 0 cursor)
      twoUsers.toList 0 := by
  have hfails : UsersService.findAll userCursors twoUsers 0 none = .error .TypeError := rfl
  refine ⟨hfails, fun hsafe => ?_⟩
  cases hsafe with
  | rejected h =>
      rw [hfails] at h
      cases h
  | listed rows page hperm hdesc hpage hfew hdata hnext hrest =>
      rw [hfails] at hpage
      cases hpage

end LogisticsDispatch
