/-
What `decodeCursor` lets through to the database.

It checks that the JSON it reads has a date and an id, and that the date is one; of the id it asks
only that it is not falsy (`decodeCursor_eq_ok_iff`). The query compares both with columns, and the
database rejects an id that is no uuid and a date it has no timestamp for. So a string is answered
with a page or with `Invalid pagination cursor` exactly if what it is read as can be compared
(`findAll_checked_iff`); a cursor of the service itself is such a string.
-/
import LogisticsDispatch.Pagination

set_option autoImplicit false

namespace LogisticsDispatch

variable {rt : Runtime} {V R : Type}

/-! ## What is checked -/

/-- The cursor is read as an object with a date and an id, neither of them falsy, and the date is
that time. -/
structure Reads (rt : Runtime) (cursor : String) (time : ℤ) (id : Json) : Prop where
  parsed : ∃ decoded createdAt, rt.parse cursor = some decoded ∧
    decoded.get "createdAt" = some createdAt ∧ decoded.get "id" = some id ∧
    createdAt.falsy = false ∧ rt.getTime createdAt = some time
  id_truthy : id.falsy = false

/-- What `decodeCursor` throws. -/
abbrev invalidCursor : Error := .UnprocessableEntityException "Invalid pagination cursor"

/-- `decodeCursor` returns what it reads, and checks no more than that. -/
theorem decodeCursor_eq_ok_iff {cursor : String} {time : ℤ} {id : Json} :
    OrdersService.decodeCursor rt cursor = .ok (time, id) ↔ Reads rt cursor time id := by
  constructor
  · intro h
    unfold OrdersService.decodeCursor at h
    split at h
    · cases h
    · next decoded hparse =>
        split at h
        · next createdAt id' hdate hid =>
            by_cases hfalsy : (createdAt.falsy || id'.falsy) = true
            · rw [if_pos hfalsy] at h
              cases h
            · rw [if_neg hfalsy] at h
              rw [Bool.or_eq_true, not_or, Bool.not_eq_true, Bool.not_eq_true] at hfalsy
              split at h
              · cases h
              · next time' htime =>
                  obtain ⟨rfl, rfl⟩ := Prod.mk.inj (Except.ok.inj h)
                  exact ⟨⟨decoded, createdAt, hparse, hdate, hid, hfalsy.1, htime⟩, hfalsy.2⟩
        · cases h
  · rintro ⟨⟨decoded, createdAt, hparse, hdate, hid, hcreated, htime⟩, hfalsy⟩
    simp [OrdersService.decodeCursor, hparse, hdate, hid, hcreated, hfalsy, htime]

/-- All that `decodeCursor` throws is one error. -/
theorem decodeCursor_error {cursor : String} {err : Error}
    (h : OrdersService.decodeCursor rt cursor = .error err) : err = invalidCursor := by
  unfold OrdersService.decodeCursor at h
  split at h
  · exact (Except.error.inj h).symm
  · split at h
    · split at h
      · exact (Except.error.inj h).symm
      · split at h
        · exact (Except.error.inj h).symm
        · cases h
    · exact (Except.error.inj h).symm

/-! ## What can be compared -/

/-- The database takes the date for a timestamp and the id, a string, for a uuid. -/
structure Comparable (rt : Runtime) (time : ℤ) (id : Json) : Prop where
  text : ∃ text, id = .str text
  uuid : (rt.toUuid id).isSome
  inRange : rt.inRange time = true

/-- What is read from the cursor, if it is read, can be compared. An empty cursor is none. -/
def Admissible (rt : Runtime) (cursor : String) : Prop :=
  cursor ≠ "" → ∀ time id, Reads rt cursor time id → Comparable rt time id

/-- How a call may end: with the first page where the cursor is empty, with the page below the
instant and the uuid it says, or with the error for a cursor. -/
inductive Checked (rt : Runtime) (page : Option Position → Page R) (cursor : String) :
    Except Error (Page R) → Prop
  | first (hempty : cursor = "") : Checked rt page cursor (.ok (page none))
  | below {time : ℤ} {text uuid : String} (hreads : Reads rt cursor time (.str text))
      (huuid : rt.toUuid (.str text) = some uuid) (hrange : rt.inRange time = true) :
      Checked rt page cursor (.ok (page (some (toLex (time, uuid)))))
  | rejected : Checked rt page cursor (.error invalidCursor)

namespace Entity

variable (ent : Entity rt V) (response : V → R) (matching : List V) (safeLimit : ℕ)

/-- The page that the query below a bound returns. -/
def page (bound : Option Position) : Page R :=
  let rows := queryPage ent.position bound (safeLimit + 1) matching
  let page := Page.of ent.encodeCursor safeLimit (rows.map ent.loaded)
  { page with data := page.data.map response }

theorem findAll_empty : ent.findAll response matching safeLimit (some "")
    = .ok (ent.page response matching safeLimit none) := rfl

variable {cursor : String}

/-- A cursor that is not empty is decoded first. -/
theorem findAll_some (hne : cursor ≠ "") : ent.findAll response matching safeLimit (some cursor) =
    match OrdersService.decodeCursor rt cursor with
    | .error err => .error err
    | .ok (createdAt, id) =>
        match (rt.toUuid id).filter fun _ => rt.inRange createdAt with
        | none => .error .Unavailable
        | some id => .ok (ent.page response matching safeLimit (some (toLex (createdAt, id)))) := by
  have hfilter : (some cursor).filter (fun cursor => cursor ≠ "") = some cursor := by simp [hne]
  rw [findAll, hfilter]
  rfl

/-- What is read and can be compared is what the query is run with. -/
theorem findAll_below (hne : cursor ≠ "") {time : ℤ} {id : Json} {uuid : String}
    (hreads : Reads rt cursor time id) (huuid : rt.toUuid id = some uuid)
    (hrange : rt.inRange time = true) : ent.findAll response matching safeLimit (some cursor)
      = .ok (ent.page response matching safeLimit (some (toLex (time, uuid)))) := by
  rw [findAll_some ent response matching safeLimit hne, decodeCursor_eq_ok_iff.mpr hreads]
  simp only [huuid, hrange, Option.filter_some, if_true]

/-- **A string is answered with a page or rejected as a cursor** exactly if what it is read as can
be compared. -/
theorem checked_iff : Checked rt (ent.page response matching safeLimit) cursor
      (ent.findAll response matching safeLimit (some cursor)) ↔ Admissible rt cursor := by
  by_cases hne : cursor = ""
  · subst hne
    rw [findAll_empty]
    simp only [Admissible, ne_eq, not_true_eq_false, false_implies, iff_true]
    exact .first rfl
  constructor
  · intro h _ time id hreads
    have hdecode := decodeCursor_eq_ok_iff.mpr hreads
    rw [findAll_some ent response matching safeLimit hne, hdecode] at h
    dsimp only at h
    -- the query has been run, so it could be
    split at h
    · cases h
    · next uuid hfilter =>
        rw [Option.filter_eq_some_iff] at hfilter
        generalize hresult : (Except.ok (ent.page response matching safeLimit
          (some (toLex (time, uuid)))) : Except Error (Page R)) = result at h
        cases h with
        | first hempty => exact absurd hempty hne
        | rejected => cases hresult
        | @below time' text uuid' hreads' huuid' hrange' =>
            have hdecode' := decodeCursor_eq_ok_iff.mpr hreads'
            rw [hdecode] at hdecode'
            obtain ⟨rfl, rfl⟩ := Prod.mk.inj (Except.ok.inj hdecode')
            exact ⟨⟨text, rfl⟩, by rw [huuid', Option.isSome_some], hrange'⟩
  · intro hadmissible
    cases hdecode : OrdersService.decodeCursor rt cursor with
    | error err =>
        rw [findAll_some ent response matching safeLimit hne, hdecode, decodeCursor_error hdecode]
        exact .rejected
    | ok read =>
        obtain ⟨time, id⟩ := read
        have hreads := decodeCursor_eq_ok_iff.mp hdecode
        obtain ⟨⟨text, rfl⟩, huuid, hrange⟩ := hadmissible hne time id hreads
        obtain ⟨uuid, huuid⟩ := Option.isSome_iff_exists.mp huuid
        rw [findAll_below ent response matching safeLimit hne hreads huuid hrange]
        exact .below hreads huuid hrange

/-- A cursor of the service itself is read as the position it was made from. -/
theorem findAll_own_cursor {v : V} (h : rt.RoundTrips (ent.createdAt v) (ent.id v)) :
    ent.findAll response matching safeLimit (some (ent.encodeCursor v))
      = .ok (ent.page response matching safeLimit (some (ent.position v))) :=
  ent.findAll_below response matching safeLimit h.printed
    (decodeCursor_eq_ok_iff.mp h.decodeCursor) h.uuid h.inRange

end Entity

/-! ## Orders and drivers -/

/-- **Cursors are checked** exactly as far as what they are read as can be compared, for orders
and for drivers; and the cursors that the two services make are read as they were made. -/
theorem findAll_checked_iff (rt : Runtime) :
    (∀ (db : Db) (user : JwtUser) (limit : ℤ) (cursor : String) (status : Option OrderStatus),
      Checked rt ((OrdersService.entity rt).page toOrderResponse
          (OrdersService.listed user status db) (OrdersService.safeLimit limit)) cursor
        (OrdersService.findAll rt db user limit (some cursor) status) ↔ Admissible rt cursor) ∧
    (∀ (drivers : Table DriverRecord.id) (limit : ℤ) (cursor : String)
      (onlineOnly : Option Bool),
      Checked rt ((DriversService.entity rt).page toDriverResponse
          (DriversService.listed onlineOnly drivers) (DriversService.safeLimit limit)) cursor
        (DriversService.findAll rt drivers limit (some cursor) onlineOnly) ↔
      Admissible rt cursor) ∧
    (∀ (db : Db) (user : JwtUser) (limit : ℤ) (status : Option OrderStatus) (order : Order),
      rt.RoundTrips order.createdAt order.id →
      OrdersService.findAll rt db user limit (some (OrdersService.encodeCursor rt order)) status
        = .ok ((OrdersService.entity rt).page toOrderResponse
          (OrdersService.listed user status db) (OrdersService.safeLimit limit)
          (some (OrdersService.position order)))) ∧
    ∀ (drivers : Table DriverRecord.id) (limit : ℤ) (onlineOnly : Option Bool)
      (record : DriverRecord), rt.RoundTrips record.createdAt record.id →
      DriversService.findAll rt drivers limit
          (some ((DriversService.entity rt).encodeCursor record)) onlineOnly
        = .ok ((DriversService.entity rt).page toDriverResponse
          (DriversService.listed onlineOnly drivers) (DriversService.safeLimit limit)
          (some ((DriversService.entity rt).position record))) := by
  refine ⟨fun db user limit cursor status => ?_, fun drivers limit cursor onlineOnly => ?_,
    fun db user limit status order h => ?_, fun drivers limit onlineOnly record h => ?_⟩
  · rw [OrdersService.findAll_eq]
    exact Entity.checked_iff _ _ _ _
  · exact Entity.checked_iff _ _ _ _
  · exact Entity.findAll_own_cursor (OrdersService.entity rt) _ _ _ h
  · exact Entity.findAll_own_cursor (DriversService.entity rt) _ _ _ h

/-! ### Cursors of the services, and an id that is no uuid -/

/-- The cursors of an order and of a driver are read as they were made. -/
theorem findAll_checked_iff_own :
    OrdersService.findAll cursorRuntime (twoOrders newYear newYear) sampleAdmin 20
        (some (OrdersService.encodeCursor cursorRuntime (orderAt secondId newYear))) none
      = .ok ((OrdersService.entity cursorRuntime).page toOrderResponse
        (OrdersService.listed sampleAdmin none (twoOrders newYear newYear))
        (OrdersService.safeLimit 20)
        (some (OrdersService.position (orderAt secondId newYear)))) ∧
    DriversService.findAll cursorRuntime oneDriver 20
        (some ((DriversService.entity cursorRuntime).encodeCursor (driverAt firstId newYear))) none
      = .ok ((DriversService.entity cursorRuntime).page toDriverResponse
        (DriversService.listed none oneDriver) (DriversService.safeLimit 20)
        (some ((DriversService.entity cursorRuntime).position (driverAt firstId newYear)))) := by
  obtain ⟨-, -, horders, hdrivers⟩ := findAll_checked_iff cursorRuntime
  constructor
  · exact horders _ sampleAdmin 20 none (orderAt secondId newYear)
      (roundTrips_sample secondId (.inr rfl) newYear (.inl rfl))
  · exact hdrivers oneDriver 20 none (driverAt firstId newYear)
      (roundTrips_sample firstId (.inl rfl) newYear (.inl rfl))

/-- The cursor `{"createdAt":"2026-01-01T00:00:00.000Z","id":"abc"}`. -/
def wrongCursor : String :=
  "eyJjcmVhdGVkQXQiOiIyMDI2LTAxLTAxVDAwOjAwOjAwLjAwMFoiLCJpZCI6ImFiYyJ9"

/-- The runtime, on this cursor. -/
def wrongCursorRuntime : Runtime :=
  { cursorRuntime with
    parse := fun cursor => if cursor = wrongCursor then
      some (.obj [("createdAt", .str "2026-01-01T00:00:00.000Z"), ("id", .str "abc")]) else none
    toUuid := fun
      | .str id => if id = firstId.text ∨ id = secondId.text then some id else none
      | _ => none }

/-- The checks let the cursor through, and the query fails. -/
theorem wrong_id_fails :
    OrdersService.findAll wrongCursorRuntime (twoOrders newYear newYear) sampleAdmin 20
        (some wrongCursor) none = .error .Unavailable ∧
    ¬ Checked wrongCursorRuntime ((OrdersService.entity wrongCursorRuntime).page toOrderResponse
        (OrdersService.listed sampleAdmin none (twoOrders newYear newYear))
        (OrdersService.safeLimit 20)) wrongCursor
      (OrdersService.findAll wrongCursorRuntime (twoOrders newYear newYear) sampleAdmin 20
        (some wrongCursor) none) := by
  have hfails : OrdersService.findAll wrongCursorRuntime (twoOrders newYear newYear) sampleAdmin 20
      (some wrongCursor) none = .error .Unavailable := rfl
  refine ⟨hfails, fun h => ?_⟩
  rw [hfails] at h
  cases h

end LogisticsDispatch
