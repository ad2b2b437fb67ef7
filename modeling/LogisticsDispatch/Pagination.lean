/-
Reading a list to its end: `findAll` of `OrdersService` and `findAll` of `DriversService`.

Both services ask for one row more than fits on a page, pop it, and make the cursor from the last
row that is left. The rows are compared by the timestamp of the column, which Postgres keeps to
the microsecond; the cursor is made from a `Date`, which keeps the milliseconds
(`Runtime.toDate`). So a cursor may say less than the position of its row, and the next page
starts below what it says: `Keyset` with `mark` the position of the row as it was loaded.

A client that follows the cursors always comes to an end, and sees no row twice
(`browsing_ends`). It sees every row exactly if at the end of each page the next row is below
what the cursor says (`findAll_lists_all_iff`), so rows that were created within a millisecond
of each other are lost at the end of a page (`cursor_skips`).
-/
import LogisticsDispatch.Lib.Keyset
import LogisticsDispatch.Listing

set_option autoImplicit false

namespace LogisticsDispatch

open Keyset (under Descending Separated)

/-! ## The list of drivers -/

/-- A row of `drivers` joined with its user, as `findAll` selects it: what dispatching reads, and
what only the list shows. -/
structure DriverRecord where
  driver : Driver
  licenseNumber : String
  rating : ℚ
  createdAt : ℕ
  updatedAt : ℕ
  name : String
  email : String
deriving DecidableEq

/-- `driver.id`. -/
def DriverRecord.id (record : DriverRecord) : DriverId := record.driver.id

/-- `DriverResponse`. -/
structure DriverResponse where
  id : DriverId
  userId : UserId
  name : String
  email : String
  vehincleType : VehincleType
  licenseNumber : String
  onlineStatus : Bool
  currentLatitude : Option ℚ
  currentLongitude : Option ℚ
  rating : ℚ
  isSuspended : Bool
  createdAt : ℕ
  updatedAt : ℕ
deriving DecidableEq

/-- `toDriverResponse`. -/
def toDriverResponse (record : DriverRecord) : DriverResponse where
  id := record.driver.id
  userId := record.driver.userId
  name := record.name
  email := record.email
  vehincleType := record.driver.vehincleType
  licenseNumber := record.licenseNumber
  onlineStatus := record.driver.onlineStatus
  currentLatitude := record.driver.currentLatitude
  currentLongitude := record.driver.currentLongitude
  rating := record.rating
  isSuspended := record.driver.isSuspended
  createdAt := record.createdAt
  updatedAt := record.updatedAt

/-! ## What the two services share -/

/-- The rows of a table that is listed: by what they are sorted, and how the repository returns
them. -/
structure Entity (rt : Runtime) (V : Type) where
  createdAt : V → ℕ
  id : V → Uuid
  loaded : V → V
  createdAt_loaded : ∀ v, createdAt (loaded v) = rt.toDate (createdAt v)
  id_loaded : ∀ v, id (loaded v) = id v

namespace Entity

variable {rt : Runtime} {V : Type} (ent : Entity rt V)

/-- Where a row is in the list. -/
def position (v : V) : Position := toLex ((ent.createdAt v : ℤ), (ent.id v).text)

/-- Where the cursor of a row says the row is. -/
def mark (v : V) : Position := ent.position (ent.loaded v)

/-- `encodeCursor`. -/
def encodeCursor (v : V) : String := rt.print (ent.createdAt v) (ent.id v).text

/-- `findAll`, from the rows that match and the number of them that fit on a page. -/
def findAll {R : Type} (response : V → R) (matching : List V) (safeLimit : ℕ)
    (cursor : Option String) : Except Error (Page R) :=
  let page (bound : Option Position) : Page R :=
    let rows := queryPage ent.position bound (safeLimit + 1) matching
    let page := Page.of ent.encodeCursor safeLimit (rows.map ent.loaded)
    { page with data := page.data.map response }
  match cursor.filter fun cursor => cursor ≠ "" with
  | none => .ok (page none)
  | some cursor =>
      match OrdersService.decodeCursor rt cursor with
      | .error err => .error err
      | .ok (createdAt, id) =>
          match (rt.toUuid id).filter fun _ => rt.inRange createdAt with
          | none => .error .Unavailable
          | some id => .ok (page (some (toLex (createdAt, id))))

end Entity

namespace OrdersService

variable (rt : Runtime)

/-- Orders, as they are listed. -/
def entity : Entity rt Order where
  createdAt := Order.createdAt
  id := Order.id
  loaded := loaded rt
  createdAt_loaded _ := rfl
  id_loaded _ := rfl

/-- How many rows fit on a page. -/
def safeLimit (limit : ℤ) : ℕ := (min (max limit 1) MAX_LIMIT).toNat

theorem findAll_eq (db : Db) (user : JwtUser) (limit : ℤ) (cursor : Option String)
    (status : Option OrderStatus) :
    findAll rt db user limit cursor status =
      (entity rt).findAll toOrderResponse (listed user status db) (safeLimit limit) cursor := rfl

end OrdersService

namespace DriversService

variable (rt : Runtime)

def MAX_LIMIT : ℤ := 100

/-- A driver as the repository returns it. -/
def loaded (record : DriverRecord) : DriverRecord :=
  { record with
    createdAt := rt.toDate record.createdAt
    updatedAt := rt.toDate record.updatedAt }

/-- Drivers, as they are listed. -/
def entity : Entity rt DriverRecord where
  createdAt := DriverRecord.createdAt
  id := DriverRecord.id
  loaded := loaded rt
  createdAt_loaded _ := rfl
  id_loaded _ := rfl

/-- The rows `findAll` asks for: those that are online if it asks for them only. -/
def listed (onlineOnly : Option Bool) (drivers : Table DriverRecord.id) : List DriverRecord :=
  drivers.toList.filter fun record =>
    decide (onlineOnly = some true → record.driver.onlineStatus = true)

/-- How many rows fit on a page. -/
def safeLimit (limit : ℤ) : ℕ := (min (max limit 1) MAX_LIMIT).toNat

/-- `findAll`. -/
def findAll (drivers : Table DriverRecord.id) (limit : ℤ) (cursor : Option String)
    (onlineOnly : Option Bool) : Except Error (Page DriverResponse) :=
  (entity rt).findAll toDriverResponse (listed onlineOnly drivers) (safeLimit limit) cursor

end DriversService

/-! ## Following the cursors -/

/-- The pages a client reads from a cursor on that follows `nextCursor` until it is null. -/
inductive Browsed {R : Type} (find : Option String → Except Error (Page R)) :
    Option String → List (Page R) → Prop
  | last {cursor : Option String} {page : Page R} (hpage : find cursor = .ok page)
      (hnone : page.nextCursor = none) : Browsed find cursor [page]
  | next {cursor : Option String} {page : Page R} {next : String} {pages : List (Page R)}
      (hpage : find cursor = .ok page) (hnext : page.nextCursor = some next)
      (hrest : Browsed find (some next) pages) : Browsed find cursor (page :: pages)

/-- A client reads the same pages whenever it reads them. -/
theorem Browsed.unique {R : Type} {find : Option String → Except Error (Page R)}
    {cursor : Option String} {pages pages' : List (Page R)} (h : Browsed find cursor pages)
    (h' : Browsed find cursor pages') : pages = pages' := by
  induction h generalizing pages' with
  | last hpage hnone =>
      cases h' with
      | last hpage' _ =>
          rw [hpage] at hpage'
          rw [Except.ok.inj hpage']
      | next hpage' hnext _ =>
          rw [hpage] at hpage'
          rw [← Except.ok.inj hpage', hnone] at hnext
          cases hnext
  | next hpage hnext _ ih =>
      cases h' with
      | last hpage' hnone =>
          rw [hpage] at hpage'
          rw [← Except.ok.inj hpage', hnext] at hnone
          cases hnone
      | next hpage' hnext' hrest' =>
          rw [hpage] at hpage'
          obtain rfl := Except.ok.inj hpage'
          rw [hnext] at hnext'
          obtain rfl := Option.some.inj hnext'
          rw [ih hrest']

/-- Following the cursors from none comes to an end, the pages list every row that matches
exactly once and in descending order, and none holds more rows than it may. -/
def ListsAll {V R : Type} (position : V → Position) (response : V → R) (matching : List V)
    (limit : ℤ) (find : Option String → Except Error (Page R)) : Prop :=
  ∃ pages, Browsed find none pages ∧
    (∃ rows, rows.Perm matching ∧ Descending position rows ∧
      pages.flatMap Page.data = rows.map response) ∧
    ∀ page ∈ pages, (page.data.length : ℤ) ≤ min (max limit 1) 100

/-- What `encodeCursor` prints of a date and an id comes back as it was: JSON and base64 are read
as they were written, the date is that of its text, and the database takes the id for itself and
has a timestamp for the date. -/
structure Runtime.RoundTrips (rt : Runtime) (time : ℕ) (id : Uuid) : Prop where
  printed : rt.print time id.text ≠ ""
  parsed : ∃ createdAt, createdAt ≠ "" ∧ rt.getTime (.str createdAt) = some (time : ℤ) ∧
    rt.parse (rt.print time id.text) =
      some (.obj [("createdAt", .str createdAt), ("id", .str id.text)])
  uuid : rt.toUuid (.str id.text) = some id.text
  inRange : rt.inRange time = true

/-- A cursor is decoded to the date and the id it was made from. -/
theorem Runtime.RoundTrips.decodeCursor {rt : Runtime} {time : ℕ} {id : Uuid}
    (h : rt.RoundTrips time id) :
    OrdersService.decodeCursor rt (rt.print time id.text) = .ok ((time : ℤ), .str id.text) := by
  obtain ⟨createdAt, hne, htime, hparse⟩ := h.parsed
  have hid := id.nonempty
  simp [OrdersService.decodeCursor, hparse, Json.get, Json.falsy, htime, hne, hid]

/-! ## One page -/

section OnePage

variable {V : Type} {safeLimit : ℕ} {rows : List V} {v : V}

/-- What fits on a page is the last page. -/
theorem Page.of_fit (encodeCursor : V → String) (h : rows.length ≤ safeLimit) :
    Page.of encodeCursor safeLimit (rows.take (safeLimit + 1)) = ⟨rows, none, false⟩ := by
  have htake : rows.take (safeLimit + 1) = rows := List.take_of_length_le (by omega)
  simp [Page.of, htake, Nat.not_lt.mpr h]

/-- What does not fit is cut off, and the cursor is that of the last row on the page. -/
theorem Page.of_more (encodeCursor : V → String) (h : safeLimit < rows.length)
    (hpos : 0 < safeLimit) (hlast : rows[safeLimit - 1]? = some v) :
    Page.of encodeCursor safeLimit (rows.take (safeLimit + 1)) =
      ⟨rows.take safeLimit, some (encodeCursor v), true⟩ := by
  have hlen : (rows.take (safeLimit + 1)).length > safeLimit := by
    rw [List.length_take]
    omega
  have hdrop : (rows.take (safeLimit + 1)).dropLast = rows.take safeLimit := by
    rw [List.dropLast_eq_take, List.take_take, List.length_take]
    congr 1
    omega
  have hgetLast : (rows.take safeLimit).getLast? = some v := by
    rw [List.getLast?_take, if_neg (by omega), hlast]
    rfl
  simp only [Page.of, hlen, decide_true, if_true, hdrop, hgetLast, Option.map_some]

end OnePage

/-! ## All the pages -/

namespace Entity

section Pages

variable {rt : Runtime} {V R : Type} {ent : Entity rt V} {response : V → R} {matching : List V}
  {safeLimit : ℕ} {bound : Option Position} {cursor : Option String}

/-- The rows that match, as the list has them. -/
def sorted (ent : Entity rt V) (matching : List V) : List V :=
  matching.insertionSort fun v w => ent.position w ≤ ent.position v

/-- The page below a bound. -/
def pageBelow (ent : Entity rt V) (response : V → R) (matching : List V) (safeLimit : ℕ)
    (bound : Option Position) : Page R :=
  let rows := (under ent.position bound (ent.sorted matching)).map ent.loaded
  let page := Page.of ent.encodeCursor safeLimit (rows.take (safeLimit + 1))
  { page with data := page.data.map response }

/-- A cursor says where a bound is. -/
def Says (ent : Entity rt V) (matching : List V) : Option String → Option Position → Prop
  | none, none => True
  | some cursor, some b =>
      ∃ v ∈ matching, cursor = ent.encodeCursor (ent.loaded v) ∧ b = ent.mark v
  | _, _ => False

/-- A row is not above where its cursor says it is. -/
theorem mark_le (hdate : ∀ t, rt.toDate t ≤ t) (v : V) : ent.mark v ≤ ent.position v := by
  have hle := hdate (ent.createdAt v)
  rw [mark, position, position, Prod.Lex.toLex_le_toLex, ent.createdAt_loaded, ent.id_loaded]
  rcases lt_or_eq_of_le hle with hlt | heq
  · exact .inl (by simpa using hlt)
  · exact .inr ⟨by simp [heq], le_rfl⟩

/-- What a page shows of the rows below its bound. -/
theorem findAll_of_says (response : V → R) (safeLimit : ℕ)
    (hdistinct : (matching.map ent.position).Nodup)
    (hround : ∀ v ∈ matching, rt.RoundTrips (rt.toDate (ent.createdAt v)) (ent.id v))
    (h : ent.Says matching cursor bound) :
    ent.findAll response matching safeLimit cursor =
      .ok (ent.pageBelow response matching safeLimit bound) := by
  have hquery : (queryPage ent.position bound (safeLimit + 1) matching).map ent.loaded =
      ((under ent.position bound (ent.sorted matching)).map ent.loaded).take (safeLimit + 1) := by
    rw [← List.map_take, sorted, ← Keyset.under_insertionSort hdistinct]
    rfl
  rw [pageBelow, ← hquery]
  match cursor, bound, h with
  | none, none, _ => rfl
  | some _, some _, ⟨v, hv, rfl, rfl⟩ =>
      have hr := hround v hv
      have hcursor : ent.encodeCursor (ent.loaded v) =
          rt.print (rt.toDate (ent.createdAt v)) (ent.id v).text := by
        rw [encodeCursor, ent.createdAt_loaded, ent.id_loaded]
      have hmark : ent.mark v =
          toLex ((rt.toDate (ent.createdAt v) : ℤ), (ent.id v).text) := by
        rw [mark, position, ent.createdAt_loaded, ent.id_loaded]
      have hfilter : (some (rt.print (rt.toDate (ent.createdAt v)) (ent.id v).text)).filter
          (fun cursor => cursor ≠ "") =
          some (rt.print (rt.toDate (ent.createdAt v)) (ent.id v).text) := by
        simp [hr.printed]
      rw [findAll, hcursor, hmark]
      simp only [hfilter, hr.decodeCursor, hr.uuid, hr.inRange, Option.filter_some, if_true]

theorem descending_sorted (hdistinct : (matching.map ent.position).Nodup) :
    Descending ent.position (ent.sorted matching) := Keyset.descending_insertionSort hdistinct

theorem sorted_perm : (ent.sorted matching).Perm matching := List.perm_insertionSort _ _

/-- Following the cursors reads the pages of keyset pagination. -/
theorem browsed_of_pages (response : V → R) (hdistinct : (matching.map ent.position).Nodup)
    (hround : ∀ v ∈ matching, rt.RoundTrips (rt.toDate (ent.createdAt v)) (ent.id v))
    (hpos : 0 < safeLimit) {pages : List (List V)}
    (h : Keyset.Pages ent.position ent.mark safeLimit (ent.sorted matching) bound pages)
    (hbound : ent.Says matching cursor bound) :
    ∃ browsed, Browsed (ent.findAll response matching safeLimit) cursor browsed ∧
      browsed.map Page.data = pages.map fun page => (page.map ent.loaded).map response := by
  induction h generalizing cursor with
  | @last bound hfit =>
      have hpage := findAll_of_says response safeLimit hdistinct hround hbound
      have hlen : ((under ent.position bound (ent.sorted matching)).map ent.loaded).length ≤
          safeLimit := by simpa using hfit
      have hof := Page.of_fit ent.encodeCursor hlen
      refine ⟨_, .last hpage ?_, ?_⟩
      · simp [pageBelow, hof]
      · simp [pageBelow, hof]
  | @next bound v pages hmore hlast hrest ih =>
      have hpage := findAll_of_says response safeLimit hdistinct hround hbound
      have hlen : safeLimit <
          ((under ent.position bound (ent.sorted matching)).map ent.loaded).length := by
        simpa using hmore
      have hloaded : ((under ent.position bound (ent.sorted matching)).map
          ent.loaded)[safeLimit - 1]? = some (ent.loaded v) := by simp [hlast]
      have hof := Page.of_more ent.encodeCursor hlen hpos hloaded
      have hv : v ∈ matching := sorted_perm.mem_iff.mp
        ((Keyset.under_sublist _ _ _).subset (List.mem_of_getElem? hlast))
      have hnext : ent.Says matching (some (ent.encodeCursor (ent.loaded v)))
          (some (ent.mark v)) := ⟨v, hv, rfl, rfl⟩
      obtain ⟨browsed, hbrowsed, hdata⟩ := ih hnext
      refine ⟨_, .next hpage ?_ hbrowsed, ?_⟩
      · simp [pageBelow, hof]
      · simp [pageBelow, hof, hdata]

variable (hdate : ∀ t, rt.toDate t ≤ t) (hdistinct : (matching.map ent.position).Nodup)
  (hround : ∀ v ∈ matching, rt.RoundTrips (rt.toDate (ent.createdAt v)) (ent.id v))
  (hpos : 0 < safeLimit)
include hdate hdistinct hround hpos

/-- **A client that follows the cursors comes to an end**, sees no row twice and none out of
order, and no page holds more rows than it may. It has seen every row exactly if the end of
every page is one its cursor is precise enough for. -/
theorem browsing_ends (response : V → R) :
    ∃ browsed rows, Browsed (ent.findAll response matching safeLimit) none browsed ∧
      rows.Sublist (ent.sorted matching) ∧
      browsed.flatMap Page.data = rows.map (fun v => response (ent.loaded v)) ∧
      (∀ page ∈ browsed, page.data.length ≤ safeLimit) ∧
      (rows = ent.sorted matching ↔
        Separated ent.position ent.mark safeLimit (ent.sorted matching)) := by
  have hrows := descending_sorted hdistinct
  have hmark : ∀ v, ent.mark v ≤ ent.position v := mark_le hdate
  obtain ⟨pages, hpages⟩ := Keyset.exists_pages hrows hmark hpos none
  have hbound : ent.Says matching none none := trivial
  obtain ⟨browsed, hbrowsed, hdata⟩ :=
    browsed_of_pages response hdistinct hround hpos hpages hbound
  have hsub := hpages.flatten_sublist hrows hmark hpos
  have hiff := hpages.flatten_eq_iff hrows hmark hpos
  rw [Keyset.under_none] at hsub hiff
  refine ⟨browsed, pages.flatten, hbrowsed, hsub, ?_, ?_, hiff⟩
  · rw [List.flatMap_def, hdata, List.map_flatten]
    simp [Function.comp_def]
  · intro page hpage
    have hmem : page.data ∈ browsed.map Page.data := List.mem_map_of_mem hpage
    rw [hdata, List.mem_map] at hmem
    obtain ⟨rows, hin, heq⟩ := hmem
    rw [← heq, List.length_map, List.length_map]
    exact hpages.length_le rows hin

/-- **The list is complete exactly if** at the end of every page the next row is below what the
cursor says. -/
theorem listsAll_iff {limit : ℤ} (hlimit : (safeLimit : ℤ) = min (max limit 1) 100)
    (response : V → R) :
    ListsAll ent.position (fun v => response (ent.loaded v)) matching limit
        (ent.findAll response matching safeLimit) ↔
      Separated ent.position ent.mark safeLimit (ent.sorted matching) := by
  obtain ⟨browsed, rows, hbrowsed, hsub, hdata, hlen, hiff⟩ :=
    browsing_ends hdate hdistinct hround hpos response
  rw [← hiff]
  constructor
  · rintro ⟨pages, hpages, ⟨all, hperm, hdesc, hall⟩, -⟩
    obtain rfl := hpages.unique hbrowsed
    have hsorted : all = ent.sorted matching :=
      hdesc.eq_of_perm (descending_sorted hdistinct) (hperm.trans sorted_perm.symm)
    rw [hdata, hsorted] at hall
    -- as many rows have been seen as there are
    have hlength := congrArg List.length hall
    rw [List.length_map, List.length_map] at hlength
    exact hsub.eq_of_length hlength
  · intro heq
    refine ⟨browsed, hbrowsed, ⟨rows, ?_, ?_, hdata⟩, ?_⟩
    · rw [heq]
      exact sorted_perm
    · rw [heq]
      exact descending_sorted hdistinct
    · intro page hpage
      have hle := hlen page hpage
      omega

end Pages

end Entity

/-! ## Orders and drivers -/

section Listings

variable {rt : Runtime}

/-- Rows with ids of their own have positions of their own. -/
theorem Entity.positions_nodup {V : Type} (ent : Entity rt V) {matching : List V}
    (h : (matching.map ent.id).Nodup) : (matching.map ent.position).Nodup := by
  have hids : matching.Pairwise fun v w => ent.id v ≠ ent.id w := List.pairwise_map.mp h
  refine List.pairwise_map.mpr (hids.imp fun hne heq => hne ?_)
  have htext := congrArg (fun p => (ofLex p).2) heq
  exact Uuid.ext htext

/-- Orders and drivers are each listed once. -/
theorem OrdersService.positions_nodup (rt : Runtime) (user : JwtUser)
    (status : Option OrderStatus) (db : Db) :
    ((OrdersService.listed user status db).map (OrdersService.entity rt).position).Nodup :=
  Entity.positions_nodup _ (db.orders.nodup_toList.sublist (List.filter_sublist.map Order.id))

theorem DriversService.positions_nodup (rt : Runtime) (onlineOnly : Option Bool)
    (drivers : Table DriverRecord.id) :
    ((DriversService.listed onlineOnly drivers).map (DriversService.entity rt).position).Nodup :=
  Entity.positions_nodup _ (drivers.nodup_toList.sublist (List.filter_sublist.map DriverRecord.id))

/-- A `Date` has the milliseconds of a timestamp, which are not after it. -/
theorem toDate_le (hdate : ∀ t, rt.toDate t = t / 1000 * 1000) (t : ℕ) : rt.toDate t ≤ t := by
  have h := hdate t
  omega

/-- How many rows fit on a page is what the limit says, from one to a hundred. -/
theorem toNat_safeLimit (limit : ℤ) : 0 < (min (max limit 1) 100).toNat ∧
    ((min (max limit 1) 100).toNat : ℤ) = min (max limit 1) 100 := by
  omega

/-- When the pages of `findAll` list every order that matches. -/
theorem OrdersService.listsAll_iff (hdate : ∀ t, rt.toDate t = t / 1000 * 1000) (db : Db)
    (user : JwtUser) (limit : ℤ) (status : Option OrderStatus)
    (hround : ∀ order ∈ db.orders.toList, rt.RoundTrips (rt.toDate order.createdAt) order.id) :
    ListsAll OrdersService.position
        (fun order => toOrderResponse (OrdersService.loaded rt order))
        (OrdersService.listed user status db) limit
        (fun cursor => OrdersService.findAll rt db user limit cursor status) ↔
      Separated OrdersService.position
        (fun order => OrdersService.position (OrdersService.loaded rt order))
        (OrdersService.safeLimit limit)
        ((OrdersService.entity rt).sorted (OrdersService.listed user status db)) := by
  obtain ⟨hpos, hlimit⟩ := toNat_safeLimit limit
  have hlisted : ∀ order ∈ OrdersService.listed user status db,
      rt.RoundTrips (rt.toDate order.createdAt) order.id :=
    fun order horder => hround order (List.mem_of_mem_filter horder)
  exact Entity.listsAll_iff (toDate_le hdate) (OrdersService.positions_nodup rt user status db)
    hlisted hpos hlimit toOrderResponse

/-- When the pages of `findAll` list every driver that matches. -/
theorem DriversService.listsAll_iff (hdate : ∀ t, rt.toDate t = t / 1000 * 1000)
    (drivers : Table DriverRecord.id) (limit : ℤ) (onlineOnly : Option Bool)
    (hround : ∀ record ∈ drivers.toList, rt.RoundTrips (rt.toDate record.createdAt) record.id) :
    ListsAll (DriversService.entity rt).position
        (fun record => toDriverResponse (DriversService.loaded rt record))
        (DriversService.listed onlineOnly drivers) limit
        (fun cursor => DriversService.findAll rt drivers limit cursor onlineOnly) ↔
      Separated (DriversService.entity rt).position
        (fun record => (DriversService.entity rt).position (DriversService.loaded rt record))
        (DriversService.safeLimit limit)
        ((DriversService.entity rt).sorted (DriversService.listed onlineOnly drivers)) := by
  obtain ⟨hpos, hlimit⟩ := toNat_safeLimit limit
  have hlisted : ∀ record ∈ DriversService.listed onlineOnly drivers,
      rt.RoundTrips (rt.toDate record.createdAt) record.id :=
    fun record hrecord => hround record (List.mem_of_mem_filter hrecord)
  exact Entity.listsAll_iff (toDate_le hdate) (DriversService.positions_nodup rt onlineOnly drivers)
    hlisted hpos hlimit toDriverResponse

/-- **A list that is read page by page is complete exactly if** at the end of every page the row
that follows is below the position its cursor says: it was created before the millisecond of the
last row on the page, or just as that millisecond began and has the smaller id. -/
theorem findAll_lists_all_iff (rt : Runtime) (hdate : ∀ t, rt.toDate t = t / 1000 * 1000) :
    (∀ (db : Db) (user : JwtUser) (limit : ℤ) (status : Option OrderStatus),
      (∀ order ∈ db.orders.toList, rt.RoundTrips (rt.toDate order.createdAt) order.id) →
      (ListsAll OrdersService.position
          (fun order => toOrderResponse (OrdersService.loaded rt order))
          (OrdersService.listed user status db) limit
          (fun cursor => OrdersService.findAll rt db user limit cursor status) ↔
        Separated OrdersService.position
          (fun order => OrdersService.position (OrdersService.loaded rt order))
          (OrdersService.safeLimit limit)
          ((OrdersService.entity rt).sorted (OrdersService.listed user status db)))) ∧
    ∀ (drivers : Table DriverRecord.id) (limit : ℤ) (onlineOnly : Option Bool),
      (∀ record ∈ drivers.toList, rt.RoundTrips (rt.toDate record.createdAt) record.id) →
      (ListsAll (DriversService.entity rt).position
          (fun record => toDriverResponse (DriversService.loaded rt record))
          (DriversService.listed onlineOnly drivers) limit
          (fun cursor => DriversService.findAll rt drivers limit cursor onlineOnly) ↔
        Separated (DriversService.entity rt).position
          (fun record => (DriversService.entity rt).position (DriversService.loaded rt record))
          (DriversService.safeLimit limit)
          ((DriversService.entity rt).sorted (DriversService.listed onlineOnly drivers))) :=
  ⟨OrdersService.listsAll_iff hdate, DriversService.listsAll_iff hdate⟩

end Listings

/-! ### Two rows -/

/-- A cursor beside what it was printed from, and the text of its date. -/
structure CursorText where
  time : ℤ
  date : String
  id : String
  cursor : String

def firstId : Uuid := ⟨"0197a000-0000-7000-8000-000000000001", by decide⟩
def secondId : Uuid := ⟨"0197a000-0000-7000-8000-000000000002", by decide⟩

/-- The beginning of 2026, in microseconds. -/
def newYear : ℕ := 1767225600000000

/-- The cursors of the two rows, in the first and in the second millisecond of the year. -/
def cursorTexts : List CursorText :=
  [⟨newYear, "2026-01-01T00:00:00.000Z", firstId.text,
      "eyJjcmVhdGVkQXQiOiIyMDI2LTAxLTAxVDAwOjAwOjAwLjAwMFoiLCJpZCI6IjAxOTdhMDAwLTAwMDAtNzAwMC04M" ++
        "DAwLTAwMDAwMDAwMDAwMSJ9"⟩,
    ⟨newYear, "2026-01-01T00:00:00.000Z", secondId.text,
      "eyJjcmVhdGVkQXQiOiIyMDI2LTAxLTAxVDAwOjAwOjAwLjAwMFoiLCJpZCI6IjAxOTdhMDAwLTAwMDAtNzAwMC04M" ++
        "DAwLTAwMDAwMDAwMDAwMiJ9"⟩,
    ⟨newYear + 1000, "2026-01-01T00:00:00.001Z", firstId.text,
      "eyJjcmVhdGVkQXQiOiIyMDI2LTAxLTAxVDAwOjAwOjAwLjAwMVoiLCJpZCI6IjAxOTdhMDAwLTAwMDAtNzAwMC04M" ++
        "DAwLTAwMDAwMDAwMDAwMSJ9"⟩,
    ⟨newYear + 1000, "2026-01-01T00:00:00.001Z", secondId.text,
      "eyJjcmVhdGVkQXQiOiIyMDI2LTAxLTAxVDAwOjAwOjAwLjAwMVoiLCJpZCI6IjAxOTdhMDAwLTAwMDAtNzAwMC04M" ++
        "DAwLTAwMDAwMDAwMDAwMiJ9"⟩]

/-- The runtime, on these cursors. -/
def cursorRuntime : Runtime where
  parse cursor := (cursorTexts.find? fun text => text.cursor = cursor).map fun text =>
    .obj [("createdAt", .str text.date), ("id", .str text.id)]
  print time id :=
    match cursorTexts.find? fun text => text.time = time ∧ text.id = id with
    | some text => text.cursor
    | none => ""
  getTime
    | .str date => (cursorTexts.find? fun text => text.date = date).map CursorText.time
    | _ => none
  toDate t := t / 1000 * 1000
  toUuid
    | .str id => some id
    | _ => none
  inRange _ := true

/-- An order that was created at a time. -/
def orderAt (id : OrderId) (createdAt : ℕ) : Order where
  id := id
  customerId := sampleCustomer
  notes := none
  orderType := .PERSON
  vehincleType := .CAR
  pickupAddress := "here"
  deliveryAddress := "there"
  pickupLatitude := 0
  pickupLongitude := 0
  deliveryLatitude := 0
  deliveryLongitude := 0
  orderStatus := .PENDING
  assignedDriverId := none
  estimatedPrice := 0
  dispatchAttempts := 0
  attemptedDriverIds := []
  version := 1
  createdAt := createdAt
  updatedAt := createdAt
  deletedAt := none

/-- A database with two orders. -/
def twoOrders (first second : ℕ) : Db where
  orders := (Table.empty.put (orderAt firstId first)).put (orderAt secondId second)
  history := []
  drivers := Table.empty
  outbox := Table.empty

/-- A driver who was registered at a time. -/
def driverAt (id : DriverId) (createdAt : ℕ) : DriverRecord where
  driver := { carDriver with id := id }
  licenseNumber := "license"
  rating := 5
  createdAt := createdAt
  updatedAt := createdAt
  name := "driver"
  email := "driver@mail"

/-- The table with one driver. -/
def oneDriver : Table DriverRecord.id := Table.empty.put (driverAt firstId newYear)

/-- The cursors of the two rows are read as they were printed. -/
theorem roundTrips_sample (id : Uuid) (hid : id = firstId ∨ id = secondId) (time : ℕ)
    (htime : time = newYear ∨ time = newYear + 1000) : cursorRuntime.RoundTrips time id := by
  rcases hid with rfl | rfl <;> rcases htime with rfl | rfl
  · exact ⟨by decide, ⟨"2026-01-01T00:00:00.000Z", by decide, by rfl, by rfl⟩, rfl, rfl⟩
  · exact ⟨by decide, ⟨"2026-01-01T00:00:00.001Z", by decide, by rfl, by rfl⟩, rfl, rfl⟩
  · exact ⟨by decide, ⟨"2026-01-01T00:00:00.000Z", by decide, by rfl, by rfl⟩, rfl, rfl⟩
  · exact ⟨by decide, ⟨"2026-01-01T00:00:00.001Z", by decide, by rfl, by rfl⟩, rfl, rfl⟩

/-- Two rows are separated if the second is below the mark of the first. -/
theorem separated_pair {V : Type} {position mark : V → Position} {limit : ℕ} {v w : V}
    (h : position w < mark v) : Separated position mark limit [v, w] := by
  intro n x y _ hx hy
  have hn : n + 1 < 2 := (List.getElem?_eq_some_iff.mp hy).1
  obtain rfl : n = 0 := by omega
  obtain rfl : v = x := by simpa using hx
  obtain rfl : w = y := by simpa using hy
  exact h

/-- What the two orders are sorted to, the second having been created last. -/
theorem sorted_twoOrders (first second : ℕ) (h : first < second) :
    (OrdersService.entity cursorRuntime).sorted
        (OrdersService.listed sampleAdmin none (twoOrders first second)) =
      [orderAt secondId second, orderAt firstId first] := by
  have hlisted : OrdersService.listed sampleAdmin none (twoOrders first second) =
      [orderAt secondId second, orderAt firstId first] := rfl
  rw [hlisted, Entity.sorted]
  refine List.Pairwise.insertionSort_eq (List.pairwise_pair.mpr ?_)
  refine (Prod.Lex.toLex_lt_toLex.mpr (.inl ?_)).le
  exact Int.ofNat_lt.mpr h

/-- The cursors of the two orders are read as they were printed. -/
theorem roundTrips_twoOrders (first second : ℕ)
    (hfirst : first / 1000 * 1000 = newYear ∨ first / 1000 * 1000 = newYear + 1000)
    (hsecond : second / 1000 * 1000 = newYear ∨ second / 1000 * 1000 = newYear + 1000) :
    ∀ order ∈ (twoOrders first second).orders.toList,
      cursorRuntime.RoundTrips (cursorRuntime.toDate order.createdAt) order.id := by
  have hrows : (twoOrders first second).orders.toList =
      [orderAt secondId second, orderAt firstId first] := rfl
  rw [hrows]
  simp only [List.mem_cons, List.not_mem_nil, or_false]
  rintro order (rfl | rfl)
  · exact roundTrips_sample secondId (.inr rfl) _ hsecond
  · exact roundTrips_sample firstId (.inl rfl) _ hfirst

/-- Two rows a millisecond apart are listed in full, one on each page. -/
theorem findAll_lists_all_of_two :
    ListsAll OrdersService.position
        (fun order => toOrderResponse (OrdersService.loaded cursorRuntime order))
        (OrdersService.listed sampleAdmin none (twoOrders (newYear + 700) (newYear + 1400))) 1
        (fun cursor => OrdersService.findAll cursorRuntime
          (twoOrders (newYear + 700) (newYear + 1400)) sampleAdmin 1 cursor none) ∧
      ListsAll (DriversService.entity cursorRuntime).position
        (fun record => toDriverResponse (DriversService.loaded cursorRuntime record))
        (DriversService.listed (some true) oneDriver) 1
        (fun cursor => DriversService.findAll cursorRuntime oneDriver 1 cursor (some true)) := by
  have hboth := findAll_lists_all_iff cursorRuntime fun _ => rfl
  constructor
  · refine (hboth.1 _ sampleAdmin 1 none (roundTrips_twoOrders _ _ (.inl rfl) (.inr rfl))).mpr ?_
    rw [sorted_twoOrders _ _ (by decide)]
    refine separated_pair (Prod.Lex.toLex_lt_toLex.mpr (.inl ?_))
    decide
  · refine (hboth.2 oneDriver 1 (some true) ?_).mpr ?_
    · have hrows : oneDriver.toList = [driverAt firstId newYear] := rfl
      intro record hrecord
      rw [hrows, List.mem_singleton] at hrecord
      subst hrecord
      exact roundTrips_sample firstId (.inl rfl) _ (.inl rfl)
    · intro n v w _ _ hw
      have hlt := (List.getElem?_eq_some_iff.mp hw).1
      have hlen : ((DriversService.entity cursorRuntime).sorted
          (DriversService.listed (some true) oneDriver)).length = 1 := rfl
      omega

/-- **Rows of one millisecond are lost at the end of a page.** Two orders were created 300
microseconds apart. The first page shows the later one, and its cursor says the beginning of the
millisecond, which both were created after. The next page is empty, and the last. -/
theorem cursor_skips :
    (∀ t, cursorRuntime.toDate t = t / 1000 * 1000) ∧
      (∀ order ∈ (twoOrders (newYear + 400) (newYear + 700)).orders.toList,
        cursorRuntime.RoundTrips (cursorRuntime.toDate order.createdAt) order.id) ∧
      ¬ ListsAll OrdersService.position
        (fun order => toOrderResponse (OrdersService.loaded cursorRuntime order))
        (OrdersService.listed sampleAdmin none (twoOrders (newYear + 400) (newYear + 700))) 1
        (fun cursor => OrdersService.findAll cursorRuntime
          (twoOrders (newYear + 400) (newYear + 700)) sampleAdmin 1 cursor none) := by
  have hround := roundTrips_twoOrders (newYear + 400) (newYear + 700) (.inl rfl) (.inl rfl)
  refine ⟨fun _ => rfl, hround, ?_⟩
  rw [OrdersService.listsAll_iff (fun _ => rfl) _ sampleAdmin 1 none hround,
    sorted_twoOrders _ _ (by decide)]
  intro hsep
  -- the order that is left is not before the beginning of the millisecond
  have hlt := hsep 0 _ _ ⟨1, rfl⟩ rfl rfl
  rcases Prod.Lex.toLex_lt_toLex.mp hlt with hbefore | ⟨hsame, -⟩
  · exact absurd hbefore (by decide)
  · exact absurd hsame (by decide)

end LogisticsDispatch
