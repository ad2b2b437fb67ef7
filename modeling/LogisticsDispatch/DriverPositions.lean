/-
The positions of drivers, as the two routes that report them write them.

`PATCH drivers/me/location` passes the `ValidationPipe`, so what `updateLocation` stores are two
coordinates. `handleDriverLocationUpdate` hands the payload of the socket on as it is: a number out
of range, `"NaN"`, a `null` beside a number, and one coordinate without the other all reach the
columns. So the positions stay real exactly as long as each payload says a point itself, or nothing
that is stored (`positions_real_iff`).
-/
import LogisticsDispatch.Gateway

set_option autoImplicit false

namespace LogisticsDispatch

open Transition EventsGateway

/-! ## Rounding -/

section Rounding

variable {scale : ℕ} {x : ℚ}

/-- The size of a number is rounded as a number that is not negative is. -/
theorem abs_numeric (scale : ℕ) (x : ℚ) :
    |numeric scale x| = (⌊|x| * 10 ^ scale + 1 / 2⌋ : ℚ) / 10 ^ scale := by
  have hpos : ∀ y : ℚ, 0 ≤ y → (0 : ℚ) ≤ (⌊y * 10 ^ scale + 1 / 2⌋ : ℚ) / 10 ^ scale := by
    intro y hy
    have hfloor : 0 ≤ ⌊y * 10 ^ scale + 1 / 2⌋ := by
      apply Int.floor_nonneg.mpr
      positivity
    have hcast : (0 : ℚ) ≤ (⌊y * 10 ^ scale + 1 / 2⌋ : ℚ) := by exact_mod_cast hfloor
    positivity
  by_cases hx : 0 ≤ x
  · rw [numeric, if_pos hx, abs_of_nonneg hx, abs_of_nonneg (hpos x hx)]
  · have hneg : 0 ≤ -x := by linarith
    rw [numeric, if_neg hx, abs_neg, abs_of_nonpos (by linarith : x ≤ 0),
      abs_of_nonneg (hpos (-x) hneg)]

/-- What is rounded stays within a bound if it lies less than half a unit over it. -/
theorem abs_numeric_le_iff (bound : ℕ) :
    |numeric scale x| ≤ bound ↔ |x| < bound + 1 / (2 * 10 ^ scale) := by
  have hunit : (0 : ℚ) < 10 ^ scale := by positivity
  have hcast : (bound : ℚ) * 10 ^ scale = ((bound * 10 ^ scale : ℤ) : ℚ) := by push_cast; ring
  have hbound : (bound : ℚ) + 1 / (2 * 10 ^ scale) = (bound * 10 ^ scale + 1 / 2) / 10 ^ scale := by
    field_simp
  rw [abs_numeric, div_le_iff₀ hunit, hcast, Int.cast_le, ← Int.lt_add_one_iff, Int.floor_lt,
    Int.cast_add, ← hcast, Int.cast_one, hbound, lt_div_iff₀ hunit]
  constructor
  · intro h
    linarith
  · intro h
    linarith

/-- What is rounded stays below a bound if it lies more than half a unit below it. -/
theorem abs_numeric_lt_iff (bound : ℕ) :
    |numeric scale x| < bound ↔ |x| < bound - 1 / (2 * 10 ^ scale) := by
  have hunit : (0 : ℚ) < 10 ^ scale := by positivity
  have hcast : (bound : ℚ) * 10 ^ scale = ((bound * 10 ^ scale : ℤ) : ℚ) := by push_cast; ring
  have hbound : (bound : ℚ) - 1 / (2 * 10 ^ scale) = (bound * 10 ^ scale - 1 / 2) / 10 ^ scale := by
    field_simp
  rw [abs_numeric, div_lt_iff₀ hunit, hcast, Int.cast_lt, Int.floor_lt, ← hcast, hbound,
    lt_div_iff₀ hunit]
  constructor
  · intro h
    linarith
  · intro h
    linarith

end Rounding

/-! ## The columns -/

/-- What a `numeric` column of a given precision holds beside `NULL`. -/
inductive Numeric
  | NaN
  | finite (x : ℚ)
deriving DecidableEq

/-- A driver, as far as positions go. -/
structure DriverPosition where
  id : DriverId
  userId : UserId
  currentLatitude : Option Numeric
  currentLongitude : Option Numeric
deriving DecidableEq

/-- The `drivers` table. -/
abbrev DriverPositions : Type := Table DriverPosition.id

/-- What is not decided by the code: the validators, the tokens, and what the database reads. -/
structure Intake where
  /-- `isLatitude` and `isLongitude` of `class-validator`. -/
  isLatitude : Json → Bool
  isLongitude : Json → Bool
  /-- `jwtService.verify`, `none` where it throws. -/
  verify : String → Option Decoded
  /-- The uuid that the database takes a text for. -/
  toUuid : String → Option DriverId
  /-- The number that the database takes a text for, unless it is infinite. -/
  numericIn : String → Option Numeric

section Columns

variable (I : Intake)

/-- What the database reads a parameter as: `NULL`, or a number. The text of anything but a
number or a string is not one. -/
def Intake.read : Json → Option (Option Numeric)
  | .null => some none
  | .num x => some (some (.finite x))
  | .str text => (I.numericIn text).map some
  | _ => none

/-- What a column `numeric(10,7)` keeps of a number, if it takes it. -/
def Numeric.fit : Numeric → Option Numeric
  | NaN => some NaN
  | finite x => if |numeric 7 x| < 1000 then some (finite (numeric 7 x)) else none

/-- What such a column keeps of a parameter, unless the statement fails. -/
def Intake.column (value : Json) : Option (Option Numeric) :=
  match I.read value with
  | none => none
  | some none => some none
  | some (some number) => number.fit.map some

/-- What an update leaves in the column. A value that is `undefined` is left out of it. -/
def Intake.written (old : Option Numeric) : Option Json → Option (Option Numeric)
  | none => some old
  | some value => I.column value

/-- The row after an update of the two columns, unless the statement fails. -/
def DriverPosition.update (row : DriverPosition) (currentLatitude currentLongitude : Option Json) :
    Option DriverPosition :=
  match I.written row.currentLatitude currentLatitude,
    I.written row.currentLongitude currentLongitude with
  | some latitude, some longitude =>
      some { row with currentLatitude := latitude, currentLongitude := longitude }
  | _, _ => none

/-- `driverRepo.update` of the two columns of a driver. -/
def updatePosition (rows : DriverPositions) (id : DriverId)
    (currentLatitude currentLongitude : Option Json) : DriverPositions :=
  match rows.find id with
  | none => rows
  | some row => ((row.update I currentLatitude currentLongitude).map rows.put).getD rows

/-! ## The two routes -/

/-- `UpdateLocationDto`. Nothing converts the values. -/
structure UpdateLocationDto where
  latitude : Json
  longitude : Json

/-- What the `ValidationPipe` makes of a body: it takes the fields of the dto and no others. -/
def UpdateLocationDto.ofBody : Json → Option UpdateLocationDto
  | .obj fields =>
      if fields.all fun field => field.1 = "latitude" || field.1 = "longitude" then
        match Json.get "latitude" (.obj fields), Json.get "longitude" (.obj fields) with
        | some latitude, some longitude =>
            if I.isLatitude latitude && I.isLongitude longitude then some ⟨latitude, longitude⟩
            else none
        | _, _ => none
      else none
  | _ => none

/-- `PATCH drivers/me/location`: the role, the pipe and `updateLocation`. -/
def DriversController.updateLocation (rows : DriverPositions) (user : JwtUser) (body : Json) :
    DriverPositions :=
  if user.role ≠ .DRIVER then rows
  else
    match UpdateLocationDto.ofBody I body with
    | none => rows
    | some dto =>
        match rows.toList.find? fun driver => driver.userId = user.userId with
        | none => rows
        | some driver => updatePosition I rows driver.id (some dto.latitude) (some dto.longitude)

/-- The token of a handshake, where there is one. -/
def handshakeToken (auth : Json) : Option String :=
  match auth.get "token" with
  | some (.str token) => some token
  | _ => none

/-- `handleDriverLocationUpdate`, up to the call of `handleLocationUpdate`: the driver of the token
with what the payload says, or the reason for the error that is emitted, if one is. -/
def EventsGateway.handleDriverLocationUpdate (auth : Json) (payload : Option Json) :
    Except (Option String) (String × Option Json × Option Json) :=
  match payload.filter fun payload => !payload.falsy with
  | none => .error none
  | some payload =>
      match (handshakeToken auth).filter fun token => token ≠ "" with
      | none => .error (some "missing_token")
      | some token =>
          match I.verify token with
          | none => .error none
          | some decoded =>
              match decoded.driverProfileId.filter fun id => id ≠ "" with
              | none => .error (some "not_driver")
              | some driverProfileId =>
                  if decoded.role ≠ some .DRIVER then .error (some "not_driver")
                  -- nothing is asked of the coordinates
                  else .ok (driverProfileId, payload.get "lat", payload.get "lng")

/-- The driver that a socket reports for, and the coordinates as they are handed on. -/
def socketReport (rows : DriverPositions) (auth : Json) (payload : Option Json) :
    Option (DriverPosition × Option Json × Option Json) :=
  match EventsGateway.handleDriverLocationUpdate I auth payload with
  | .error _ => none
  | .ok (driverProfileId, lat, lng) =>
      ((I.toUuid driverProfileId).bind rows.find).map fun row => (row, lat, lng)

/-- The event `driverLocationUpdate`, as far as the write of `handleLocationUpdate`. -/
def EventsGateway.driverLocationUpdate (rows : DriverPositions) (auth : Json)
    (payload : Option Json) : DriverPositions :=
  match socketReport I rows auth payload with
  | none => rows
  | some (row, lat, lng) => updatePosition I rows row.id lat lng

/-- A report of a location. -/
inductive PositionReport
  | updateLocation (user : JwtUser) (body : Json)
  | driverLocationUpdate (auth : Json) (payload : Option Json)

/-- What a report makes of the table. -/
def PositionReport.apply (rows : DriverPositions) : PositionReport → DriverPositions
  | updateLocation user body => DriversController.updateLocation I rows user body
  | driverLocationUpdate auth payload => EventsGateway.driverLocationUpdate I rows auth payload

end Columns

/-- The position of a driver, among whose coordinates no `NaN` is. -/
def Driver.position (driver : Driver) : DriverPosition where
  id := driver.id
  userId := driver.userId
  currentLatitude := driver.currentLatitude.map .finite
  currentLongitude := driver.currentLongitude.map .finite

/-- A number that the column stores as it is. -/
structure Fits (x : ℚ) : Prop where
  rounded : numeric 7 x = x
  small : |x| < 1000

/-- Where a point fits the columns, an update writes it as it is. -/
theorem update_position (I : Intake) (driver : Driver) {lat lng : ℚ} (hlat : Fits lat)
    (hlng : Fits lng) :
    driver.position.update I (some (.num lat)) (some (.num lng))
      = some { driver with
          currentLatitude := some lat, currentLongitude := some lng }.position := by
  have hcolumn : ∀ {x : ℚ}, Fits x → I.column (.num x) = some (some (.finite x)) := by
    intro x hx
    rw [Intake.column, Intake.read]
    dsimp only
    rw [Numeric.fit, hx.rounded, if_pos hx.small, Option.map_some]
  rw [DriverPosition.update, Intake.written, Intake.written, hcolumn hlat, hcolumn hlng]
  rfl

/-! ## Real positions -/

/-- A column holds a coordinate: a number within a bound. -/
def Coordinate (bound : ℕ) : Option Numeric → Prop
  | some (.finite x) => |x| ≤ bound
  | _ => False

/-- The columns of a driver hold the coordinates of a point, or none. -/
def DriverPosition.Real (row : DriverPosition) : Prop :=
  (row.currentLatitude = none ∧ row.currentLongitude = none) ∨
    (Coordinate 90 row.currentLatitude ∧ Coordinate 180 row.currentLongitude)

/-- Those of all drivers do. -/
def RealPositions (rows : DriverPositions) : Prop :=
  ∀ id row, rows.find id = some row → row.Real

section Values

variable (I : Intake)

/-- **The two routes**, from positions that are real. -/
def positionReports : System DriverPositions PositionReport where
  Init := RealPositions
  step rows report := some (report.apply I rows)

/-- What the validators accept is in range, where it is a number at all. -/
structure Intake.Lawful : Prop where
  latitude : ∀ value number, I.isLatitude value = true → I.read value = some number →
    ∃ x, number = some (.finite x) ∧ |x| ≤ 90
  longitude : ∀ value number, I.isLongitude value = true → I.read value = some number →
    ∃ x, number = some (.finite x) ∧ |x| ≤ 180

/-- The database refuses a value: it is no number, or one that is too large for the column. -/
def Intake.Refuses : Option Json → Prop
  | none => False
  | some value => I.read value = none ∨
      ∃ x, I.read value = some (some (.finite x)) ∧ 1000 - 1 / (2 * 10 ^ 7) ≤ |x|

/-- A value says a coordinate: it is a number that is in range once it is rounded, or it leaves the
coordinate that is there. -/
def Intake.SaysCoordinate (bound : ℕ) (old : Option Numeric) : Option Json → Prop
  | none => old ≠ none
  | some value => ∃ x, I.read value = some (some (.finite x)) ∧ |x| < bound + 1 / (2 * 10 ^ 7)

/-- A value says that there is no coordinate. -/
def SaysNone (old : Option Numeric) : Option Json → Prop
  | none => old = none
  | some value => value = .null

/-- A report says a point, or no point, or nothing that is stored. -/
inductive SoundReport (row : DriverPosition) (lat lng : Option Json) : Prop
  | refused (h : I.Refuses lat ∨ I.Refuses lng)
  | point (hlat : I.SaysCoordinate 90 row.currentLatitude lat)
      (hlng : I.SaysCoordinate 180 row.currentLongitude lng)
  | unknown (hlat : SaysNone row.currentLatitude lat) (hlng : SaysNone row.currentLongitude lng)

/-- A report by a socket is sound. Nothing is asked of those over HTTP. -/
def SoundMove (m : Move DriverPositions PositionReport) : Prop :=
  ∀ auth payload row lat lng, m.act = .driverLocationUpdate auth payload →
    socketReport I m.src auth payload = some (row, lat, lng) → SoundReport I row lat lng

end Values

/-! ## One value -/

section OneValue

variable {I : Intake} {old : Option Numeric} {bound : ℕ}

/-- The column takes every number but one that is too large. -/
theorem Numeric.fit_eq_none {number : Numeric} :
    number.fit = none ↔ ∃ x, number = .finite x ∧ 1000 - 1 / (2 * 10 ^ 7) ≤ |x| := by
  have hbound := fun x : ℚ => (abs_numeric_lt_iff (x := x) 1000 : |numeric 7 x| < _ ↔ _)
  cases number with
  | NaN => simp [Numeric.fit]
  | finite x =>
      rw [Numeric.fit]
      by_cases hx : |numeric 7 x| < 1000
      · rw [if_pos hx]
        have hlt := (hbound x).mp (by exact_mod_cast hx)
        refine iff_of_false (Option.some_ne_none _) ?_
        rintro ⟨y, hy, hle⟩
        obtain rfl := Numeric.finite.inj hy
        push_cast at hlt
        linarith
      · rw [if_neg hx]
        refine iff_of_true rfl ⟨x, rfl, ?_⟩
        by_contra hlt
        exact hx (by exact_mod_cast (hbound x).mpr (by push_cast; linarith))

/-- It keeps a coordinate exactly of a number that is in range once it is rounded. -/
theorem Numeric.fit_coordinate {number : Numeric} (hbound : bound < 1000) :
    (∃ kept, number.fit = some kept ∧ Coordinate bound (some kept)) ↔
      ∃ x, number = .finite x ∧ |x| < bound + 1 / (2 * 10 ^ 7) := by
  cases number with
  | NaN => simp [Numeric.fit, Coordinate]
  | finite x =>
      have hiff := (abs_numeric_le_iff (x := x) bound : |numeric 7 x| ≤ _ ↔ _)
      constructor
      · rintro ⟨kept, hfit, hkept⟩
        refine ⟨x, rfl, hiff.mp ?_⟩
        rw [Numeric.fit] at hfit
        split at hfit
        · obtain rfl := Option.some.inj hfit
          exact hkept
        · cases hfit
      · rintro ⟨y, hy, hlt⟩
        obtain rfl := Numeric.finite.inj hy
        have hle := hiff.mpr hlt
        have hfits : |numeric 7 x| < 1000 := by
          have hcast : (bound : ℚ) < 1000 := by exact_mod_cast hbound
          linarith
        exact ⟨.finite (numeric 7 x), if_pos hfits, hle⟩

/-- The update fails on the values that the database refuses. -/
theorem written_eq_none (value : Option Json) :
    I.written old value = none ↔ I.Refuses value := by
  cases value with
  | none => simp [Intake.written, Intake.Refuses]
  | some value =>
      rw [Intake.written, Intake.column, Intake.Refuses]
      cases hread : I.read value with
      | none => simp
      | some number =>
          cases number with
          | none => simp
          | some number =>
              simp only [Option.map_eq_none_iff, Numeric.fit_eq_none, reduceCtorEq, false_or,
                Option.some.injEq]

/-- It leaves a coordinate exactly of the values that say one. -/
theorem written_coordinate (hbound : bound < 1000) (hold : old ≠ none → Coordinate bound old)
    (value : Option Json) :
    (∃ cell, I.written old value = some cell ∧ Coordinate bound cell) ↔
      I.SaysCoordinate bound old value := by
  cases value with
  | none =>
      rw [Intake.written, Intake.SaysCoordinate]
      constructor
      · rintro ⟨cell, hcell, hcoordinate⟩ rfl
        obtain rfl := Option.some.inj hcell
        exact hcoordinate
      · intro hsome
        exact ⟨old, rfl, hold hsome⟩
  | some value =>
      rw [Intake.written, Intake.column, Intake.SaysCoordinate]
      cases hread : I.read value with
      | none => simp
      | some number =>
          cases number with
          | none => simp [Coordinate]
          | some number =>
              have hfit := @Numeric.fit_coordinate bound number hbound
              simp only [Option.some.injEq]
              rw [← hfit]
              constructor
              · rintro ⟨cell, hcell, hcoordinate⟩
                obtain ⟨kept, hkept, rfl⟩ := Option.map_eq_some_iff.mp hcell
                exact ⟨kept, hkept, hcoordinate⟩
              · rintro ⟨kept, hkept, hcoordinate⟩
                exact ⟨some kept, by rw [hkept, Option.map_some], hcoordinate⟩

/-- It leaves no coordinate exactly of the values that say so. -/
theorem written_eq_some_none (value : Option Json) :
    I.written old value = some none ↔ SaysNone old value := by
  cases value with
  | none => rw [Intake.written, SaysNone, Option.some.injEq]
  | some value =>
      rw [Intake.written, SaysNone]
      cases value with
      | null => simp [Intake.column, Intake.read]
      | num x => simp [Intake.column, Intake.read]
      | str text => cases h : I.numericIn text <;> simp [Intake.column, Intake.read, h]
      | bool b => simp [Intake.column, Intake.read]
      | arr items => simp [Intake.column, Intake.read]
      | obj fields => simp [Intake.column, Intake.read]

end OneValue

/-! ## One update -/

section OneUpdate

variable {I : Intake} {rows : DriverPositions} {row : DriverPosition} {lat lng : Option Json}

theorem DriverPosition.Real.latitude (h : row.Real) (hsome : row.currentLatitude ≠ none) :
    Coordinate 90 row.currentLatitude := by
  rcases h with ⟨hnone, -⟩ | ⟨hlat, -⟩
  · exact absurd hnone hsome
  · exact hlat

theorem DriverPosition.Real.longitude (h : row.Real) (hsome : row.currentLongitude ≠ none) :
    Coordinate 180 row.currentLongitude := by
  rcases h with ⟨-, hnone⟩ | ⟨-, hlng⟩
  · exact absurd hnone hsome
  · exact hlng

/-- **An update leaves a position real** exactly if what it is given is sound. -/
theorem update_real_iff (hrow : row.Real) :
    (∀ row', row.update I lat lng = some row' → row'.Real) ↔ SoundReport I row lat lng := by
  have hlat := written_coordinate (I := I) (by norm_num : 90 < 1000) hrow.latitude lat
  have hlng := written_coordinate (I := I) (by norm_num : 180 < 1000) hrow.longitude lng
  cases hlatitude : I.written row.currentLatitude lat with
  | none =>
      refine iff_of_true ?_ (.refused (.inl ((written_eq_none lat).mp hlatitude)))
      intro row' hupdate
      rw [DriverPosition.update, hlatitude] at hupdate
      cases hupdate
  | some latitude =>
      cases hlongitude : I.written row.currentLongitude lng with
      | none =>
          refine iff_of_true ?_ (.refused (.inr ((written_eq_none lng).mp hlongitude)))
          intro row' hupdate
          rw [DriverPosition.update, hlatitude, hlongitude] at hupdate
          cases hupdate
      | some longitude =>
          have hupdate : row.update I lat lng = some
              { row with currentLatitude := latitude, currentLongitude := longitude } := by
            rw [DriverPosition.update, hlatitude, hlongitude]
          constructor
          · intro h
            rcases h _ hupdate with ⟨hnone, hnone'⟩ | ⟨hcoordinate, hcoordinate'⟩
            · obtain rfl : latitude = none := hnone
              obtain rfl : longitude = none := hnone'
              exact .unknown ((written_eq_some_none lat).mp hlatitude)
                ((written_eq_some_none lng).mp hlongitude)
            · exact .point (hlat.mp ⟨latitude, hlatitude, hcoordinate⟩)
                (hlng.mp ⟨longitude, hlongitude, hcoordinate'⟩)
          · intro h row' hrow'
            obtain rfl := Option.some.inj (hupdate.symm.trans hrow')
            cases h with
            | refused h =>
                rcases h with h | h
                · rw [(written_eq_none (I := I) lat).mpr h] at hlatitude
                  cases hlatitude
                · rw [(written_eq_none (I := I) lng).mpr h] at hlongitude
                  cases hlongitude
            | point hgiven hgiven' =>
                obtain ⟨cell, hcell, hcoordinate⟩ := hlat.mpr hgiven
                obtain ⟨cell', hcell', hcoordinate'⟩ := hlng.mpr hgiven'
                obtain rfl := Option.some.inj (hlatitude.symm.trans hcell)
                obtain rfl := Option.some.inj (hlongitude.symm.trans hcell')
                exact .inr ⟨hcoordinate, hcoordinate'⟩
            | unknown hnone hnone' =>
                rw [(written_eq_some_none (I := I) lat).mpr hnone] at hlatitude
                rw [(written_eq_some_none (I := I) lng).mpr hnone'] at hlongitude
                exact .inl ⟨(Option.some.inj hlatitude).symm, (Option.some.inj hlongitude).symm⟩

theorem update_id {row' : DriverPosition} (h : row.update I lat lng = some row') :
    row'.id = row.id := by
  unfold DriverPosition.update at h
  split at h
  · obtain rfl := Option.some.inj h
    rfl
  · cases h

/-- What the pipe lets through, the validators accept. -/
theorem accepted_of_ofBody {body : Json} {dto : UpdateLocationDto}
    (h : UpdateLocationDto.ofBody I body = some dto) :
    I.isLatitude dto.latitude = true ∧ I.isLongitude dto.longitude = true := by
  unfold UpdateLocationDto.ofBody at h
  split at h
  · split at h
    · split at h
      · split at h
        · next hvalid =>
            obtain rfl := Option.some.inj h
            exact Bool.and_eq_true_iff.mp hvalid
        · cases h
      · cases h
    · cases h
  · cases h

/-- Two values that the validators accept are sound. -/
theorem sound_of_accepted (hlawful : I.Lawful) (row : DriverPosition) {latitude longitude : Json}
    (hlat : I.isLatitude latitude = true) (hlng : I.isLongitude longitude = true) :
    SoundReport I row (some latitude) (some longitude) := by
  have hhalf : (0 : ℚ) < 1 / (2 * 10 ^ 7) := by norm_num
  cases hreadLat : I.read latitude with
  | none => exact .refused (.inl (.inl hreadLat))
  | some number =>
      cases hreadLng : I.read longitude with
      | none => exact .refused (.inr (.inl hreadLng))
      | some number' =>
          obtain ⟨x, rfl, hx⟩ := hlawful.latitude latitude number hlat hreadLat
          obtain ⟨y, rfl, hy⟩ := hlawful.longitude longitude number' hlng hreadLng
          refine .point ⟨x, hreadLat, ?_⟩ ⟨y, hreadLng, ?_⟩
          · push_cast
            linarith
          · push_cast
            linarith

/-- The statement leaves all positions real exactly if what it is given is sound. -/
theorem updatePosition_real_iff (hrows : RealPositions rows) (hfind : rows.find row.id = some row) :
    RealPositions (updatePosition I rows row.id lat lng) ↔ SoundReport I row lat lng := by
  rw [← update_real_iff (hrows row.id row hfind), updatePosition, hfind]
  dsimp only
  cases hupdate : row.update I lat lng with
  | none =>
      refine iff_of_true hrows ?_
      intro row' h
      cases h
  | some row' =>
      have hid := update_id hupdate
      simp only [Option.map_some, Option.getD_some, Option.some.injEq, forall_eq']
      constructor
      · intro h
        exact h row'.id row' (Table.find_put_self rows row')
      · intro hreal id other hother
        rw [Table.find_put] at hother
        split at hother
        · obtain rfl := Option.some.inj hother
          exact hreal
        · exact hrows id other hother

/-- What a socket reports for is a row of the table. -/
theorem find_of_socketReport {auth : Json} {payload : Option Json}
    (h : socketReport I rows auth payload = some (row, lat, lng)) :
    rows.find row.id = some row := by
  unfold socketReport at h
  split at h
  · cases h
  · obtain ⟨found, hfound, heq⟩ := Option.map_eq_some_iff.mp h
    obtain ⟨rfl, -⟩ := Prod.mk.inj heq
    obtain ⟨id, -, hfind⟩ := Option.bind_eq_some_iff.mp hfound
    rw [Table.key_of_find hfind]
    exact hfind

/-- A report over HTTP keeps all positions real. -/
theorem updateLocation_real (hlawful : I.Lawful) (hrows : RealPositions rows) (user : JwtUser)
    (body : Json) : RealPositions (DriversController.updateLocation I rows user body) := by
  unfold DriversController.updateLocation
  split
  · exact hrows
  · split
    · exact hrows
    · next dto hdto =>
        split
        · exact hrows
        · next driver hdriver =>
            have hfind := Table.mem_toList.mp (List.mem_of_find?_eq_some hdriver)
            refine (updatePosition_real_iff hrows hfind).mpr ?_
            obtain ⟨hlat, hlng⟩ := accepted_of_ofBody hdto
            exact sound_of_accepted hlawful driver hlat hlng

end OneUpdate

/-! ## Every run -/

section EveryRun

variable {I : Intake} {rows : DriverPositions}

/-- **One report keeps all positions real** exactly if it is sound. -/
theorem apply_real_iff (hlawful : I.Lawful) (hrows : RealPositions rows)
    (report : PositionReport) :
    RealPositions (report.apply I rows) ↔ SoundMove I ⟨rows, report, report.apply I rows⟩ := by
  cases report with
  | updateLocation user body =>
      refine iff_of_true (updateLocation_real hlawful hrows user body) ?_
      intro auth payload row lat lng hact
      cases hact
  | driverLocationUpdate auth payload =>
      rw [PositionReport.apply, EventsGateway.driverLocationUpdate]
      cases hreport : socketReport I rows auth payload with
      | none =>
          refine iff_of_true hrows ?_
          intro auth' payload' row lat lng hact hsome
          obtain ⟨rfl, rfl⟩ := PositionReport.driverLocationUpdate.inj hact
          rw [hreport] at hsome
          cases hsome
      | some report =>
          obtain ⟨row, lat, lng⟩ := report
          dsimp only
          rw [updatePosition_real_iff hrows (find_of_socketReport hreport)]
          constructor
          · intro hsound auth' payload' row' lat' lng' hact hsome
            obtain ⟨rfl, rfl⟩ := PositionReport.driverLocationUpdate.inj hact
            rw [hreport] at hsome
            obtain ⟨rfl, rfl, rfl⟩ : row = row' ∧ lat = lat' ∧ lng = lng' := by
              simpa using hsome
            exact hsound
          · intro h
            exact h auth payload row lat lng rfl hreport

/-- **The positions are real in every state of a run** exactly if each report by a socket says a
point, or no point, or nothing that is stored. -/
theorem positions_real_iff {tr : List (Move DriverPositions PositionReport)} {s : DriverPositions}
    (hlawful : I.Lawful) (run : Run (positionReports I) tr s) :
    (RealPositions s ∧ ∀ m ∈ tr, RealPositions m.src ∧ RealPositions m.dst) ↔
      ∀ m ∈ tr, SoundMove I m := by
  constructor
  · rintro ⟨-, hreal⟩ ⟨rows, report, rows'⟩ hm
    obtain ⟨hsrc, hdst⟩ := hreal _ hm
    obtain ⟨-, hstep⟩ := run.of_mem hm
    obtain rfl : report.apply I rows = rows' := Option.some.inj hstep
    exact (apply_real_iff hlawful hsrc report).mp hdst
  · intro hsound
    refine run.invariant_of (fun _ hinit => hinit) ?_ hsound
    intro rows report rows' _ hrows hm hstep
    obtain rfl : report.apply I rows = rows' := Option.some.inj hstep
    exact (apply_real_iff hlawful hrows report).mpr hm

end EveryRun

/-! ### One driver -/

/-- Validators that take the numbers in range, and a database that reads `NaN`. -/
def sampleIntake : Intake where
  isLatitude
    | .num x => decide (|x| ≤ 90)
    | _ => false
  isLongitude
    | .num x => decide (|x| ≤ 180)
    | _ => false
  verify token :=
    if token = "driver-token" then some ⟨some carDriver.userId.text, some .DRIVER, some "driver"⟩
    else none
  toUuid text := if text = "driver" then some sampleDriver else none
  numericIn text := if text = "NaN" then some .NaN else none

/-- What is accepted as a latitude or a longitude is a number in range. -/
theorem sampleIntake_num {value : Json} : (sampleIntake.isLatitude value = true →
      ∃ x, value = .num x ∧ |x| ≤ 90) ∧
    (sampleIntake.isLongitude value = true → ∃ x, value = .num x ∧ |x| ≤ 180) := by
  cases value with
  | num x =>
      exact ⟨fun h => ⟨x, rfl, of_decide_eq_true h⟩, fun h => ⟨x, rfl, of_decide_eq_true h⟩⟩
  | null => exact ⟨nofun, nofun⟩
  | bool b => exact ⟨nofun, nofun⟩
  | str text => exact ⟨nofun, nofun⟩
  | arr items => exact ⟨nofun, nofun⟩
  | obj fields => exact ⟨nofun, nofun⟩

theorem sampleIntake_lawful : sampleIntake.Lawful := by
  constructor
  · intro value number hvalid hread
    obtain ⟨x, rfl, hx⟩ := sampleIntake_num.1 hvalid
    exact ⟨x, (Option.some.inj hread).symm, hx⟩
  · intro value number hvalid hread
    obtain ⟨x, rfl, hx⟩ := sampleIntake_num.2 hvalid
    exact ⟨x, (Option.some.inj hread).symm, hx⟩

/-- A driver who has never been located. -/
def unlocated : DriverPositions :=
  Table.empty.put ⟨sampleDriver, carDriver.userId, none, none⟩

theorem unlocated_real : RealPositions unlocated := by
  intro id row hfind
  rw [unlocated, Table.find_put] at hfind
  split at hfind
  · obtain rfl := Option.some.inj hfind
    exact .inl ⟨rfl, rfl⟩
  · cases hfind

/-- The driver reports two values by the socket. -/
def socketSays (lat lng : Json) : PositionReport :=
  .driverLocationUpdate (.obj [("token", .str "driver-token")])
    (some (.obj [("lat", lat), ("lng", lng)]))

/-- The first report of the driver. -/
def firstReport (lat lng : Json) : Move DriverPositions PositionReport :=
  ⟨unlocated, socketSays lat lng, (socketSays lat lng).apply sampleIntake unlocated⟩

theorem firstReport_run (lat lng : Json) :
    Run (positionReports sampleIntake) [firstReport lat lng] (firstReport lat lng).dst :=
  (Run.init unlocated_real).snoc rfl

theorem positions_real_iff_first :
    (RealPositions (firstReport (.num 45) (.num 90)).dst ∧
      ∀ m ∈ [firstReport (.num 45) (.num 90)], RealPositions m.src ∧ RealPositions m.dst) ↔
      ∀ m ∈ [firstReport (.num 45) (.num 90)], SoundMove sampleIntake m :=
  positions_real_iff sampleIntake_lawful (firstReport_run (.num 45) (.num 90))

/-- A latitude of 500 degrees and `"NaN"` for the longitude are both stored. -/
theorem nowhere_stored : ∃ tr s, Run (positionReports sampleIntake) tr s ∧
    s.find sampleDriver
      = some ⟨sampleDriver, carDriver.userId, some (.finite 500), some .NaN⟩ ∧
    ¬ RealPositions s := by
  have hstored : (firstReport (.num 500) (.str "NaN")).dst.find sampleDriver
      = some ⟨sampleDriver, carDriver.userId, some (.finite 500), some .NaN⟩ := by
    decide +kernel
  refine ⟨_, _, firstReport_run (.num 500) (.str "NaN"), hstored, ?_⟩
  intro hreal
  rcases hreal sampleDriver _ hstored with ⟨hnone, -⟩ | ⟨-, hnan⟩
  · cases hnone
  · exact hnan

end LogisticsDispatch
