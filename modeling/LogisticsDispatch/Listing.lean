/-
Reading orders: `findById` and `findAll` of `OrdersService`.

A page of a list is what comes after the last row of the page before, in the order of
`createdAt` and `id`, both descending. The position of that row is handed to the client as an
opaque string, `cursor`, and comes back from the client as any string whatever. What Node and
the driver of the database make of such strings is `Runtime`; the checks of `decodeCursor` are
here.

What a customer is listed is the customer's own (`findAll_own`), whatever the cursor says, since
the cursor only narrows the query.
-/
import Mathlib.Data.Prod.Lex
import Mathlib.Data.String.Basic
import LogisticsDispatch.System

set_option autoImplicit false

namespace LogisticsDispatch

/-! ## Cursors -/

/-- A value that `JSON.parse` returns. -/
inductive Json
  | null
  | bool (b : Bool)
  | num (x : ℚ)
  | str (s : String)
  | arr (items : List Json)
  | obj (fields : List (String × Json))

namespace Json

/-- A value is falsy: `null`, `false`, `0` or the empty string. -/
def falsy : Json → Bool
  | null => true
  | bool b => !b
  | num x => decide (x = 0)
  | str s => decide (s = "")
  | arr _ => false
  | obj _ => false

/-- `value?.name`, `none` for `undefined`. Only objects have the properties of a cursor. -/
def get (name : String) : Json → Option Json
  | obj fields => (fields.find? fun field => field.1 = name).map Prod.snd
  | _ => none

end Json

/-- Where a row is in a list: by its date, and by its id where dates agree. -/
abbrev Position : Type := ℤ ×ₗ String

/-- What Node and the driver of the database do with cursors. -/
structure Runtime where
  /-- `JSON.parse(Buffer.from(cursor, 'base64').toString('utf8'))`, unless it throws. -/
  parse : String → Option Json
  /-- `Buffer.from(JSON.stringify({ createdAt, id })).toString('base64')`. -/
  print : ℤ → String → String
  /-- The instant `new Date(value)`, in microseconds as the columns have it, unless `getTime` of it
  is `NaN`. -/
  getTime : Json → Option ℤ
  /-- What a `Date` keeps of the timestamp of a column. -/
  toDate : ℕ → ℕ
  /-- The uuid that the database takes a query parameter for, if it takes it for one. -/
  toUuid : Json → Option String
  /-- Whether the database has a timestamp for a date. A `Date` goes farther back. -/
  inRange : ℤ → Bool

namespace OrdersService

variable (rt : Runtime)

/-- An order as the repository returns it. -/
def loaded (order : Order) : Order :=
  { order with createdAt := rt.toDate order.createdAt, updatedAt := rt.toDate order.updatedAt }

/-- `encodeCursor`. -/
def encodeCursor (order : Order) : String := rt.print order.createdAt order.id.text

/-- `decodeCursor`: the date and the id of a cursor. -/
def decodeCursor (cursor : String) : Except Error (ℤ × Json) :=
  match rt.parse cursor with
  | none => .error (.UnprocessableEntityException "Invalid pagination cursor")
  | some decoded =>
      match decoded.get "createdAt", decoded.get "id" with
      | some createdAt, some id =>
          if createdAt.falsy || id.falsy then
            .error (.UnprocessableEntityException "Invalid pagination cursor")
          else
            match rt.getTime createdAt with
            | none => .error (.UnprocessableEntityException "Invalid pagination cursor")
            | some time => .ok (time, id)
      | _, _ => .error (.UnprocessableEntityException "Invalid pagination cursor")

end OrdersService

/-! ## Pages -/

section Pages

variable {V : Type} (position : V → Position)

/-- The rows that come after a position, the newest first, as many as are asked for. -/
def queryPage (bound : Option Position) (take : ℕ) (rows : List V) : List V :=
  ((rows.filter fun v => bound.all fun b => decide (position v < b)).insertionSort
    fun v w => position w ≤ position v).take take

/-- What `findAll` returns. -/
structure Page (V : Type) where
  data : List V
  nextCursor : Option String
  hasNextPage : Bool
deriving DecidableEq

/-- A page of the rows a query for one more than fit on it has returned. -/
def Page.of (encodeCursor : V → String) (safeLimit : ℕ) (rows : List V) : Page V :=
  let hasNextPage := decide (rows.length > safeLimit)
  -- the row too many is popped
  let rows := if hasNextPage then rows.dropLast else rows
  { data := rows
    nextCursor := if hasNextPage then rows.getLast?.map encodeCursor else none
    hasNextPage := hasNextPage }

variable {position} {bound : Option Position} {take : ℕ} {rows : List V} {v : V}

/-- A query returns rows there are. -/
theorem mem_of_queryPage (h : v ∈ queryPage position bound take rows) : v ∈ rows := by
  have hsorted := List.mem_of_mem_take h
  rw [List.mem_insertionSort] at hsorted
  exact List.mem_of_mem_filter hsorted

/-- A page shows rows the query has returned. -/
theorem Page.mem_of {encodeCursor : V → String} {safeLimit : ℕ}
    (h : v ∈ (Page.of encodeCursor safeLimit rows).data) : v ∈ rows := by
  simp only [Page.of] at h
  split at h
  · exact List.dropLast_subset _ h
  · exact h

end Pages

/-! ## `findById` and `findAll` -/

namespace OrdersService

variable {rt : Runtime} {db : Db} {user : JwtUser}

def MAX_LIMIT : ℤ := 100

/-- `findById`. -/
def findById (rt : Runtime) (db : Db) (orderId : OrderId) (user : JwtUser) :
    Except Error OrderResponse :=
  match db.findOrder orderId with
  | none => .error (.NotFoundException "Order not found")
  | some order =>
      if user.role = .CUSTOMER ∧ order.customerId ≠ user.userId then
        .error (.ForbiddenException "You do not have access to this order")
      else .ok (toOrderResponse (loaded rt order))

/-- The rows `findAll` asks for: none that is soft-deleted, those of the customer if a customer
asks, and those with the status if there is one. -/
def listed (user : JwtUser) (status : Option OrderStatus) (db : Db) : List Order :=
  db.orders.toList.filter fun order =>
    order.deletedAt.isNone &&
      decide (user.role = .CUSTOMER → order.customerId = user.userId) &&
      decide (∀ s ∈ status, order.orderStatus = s)

/-- Where an order is in the list. -/
def position (order : Order) : Position := toLex ((order.createdAt : ℤ), order.id.text)

/-- `findAll`. -/
def findAll (rt : Runtime) (db : Db) (user : JwtUser) (limit : ℤ) (cursor : Option String)
    (status : Option OrderStatus) : Except Error (Page OrderResponse) :=
  let safeLimit := (min (max limit 1) MAX_LIMIT).toNat
  let page (bound : Option Position) : Page OrderResponse :=
    let orders := queryPage position bound (safeLimit + 1) (listed user status db)
    let page := Page.of (encodeCursor rt) safeLimit (orders.map (loaded rt))
    { page with data := page.data.map toOrderResponse }
  -- an empty cursor is none
  match cursor.filter fun cursor => cursor ≠ "" with
  | none => .ok (page none)
  | some cursor =>
      match decodeCursor rt cursor with
      | .error err => .error err
      | .ok (createdAt, id) =>
          match (rt.toUuid id).filter fun _ => rt.inRange createdAt with
          -- the database rejects the query
          | none => .error .Unavailable
          | some id => .ok (page (some (toLex (createdAt, id))))

/-- What a customer finds is the customer's own. -/
theorem findById_own {o : OrderId} {data : OrderResponse} (hrole : user.role = .CUSTOMER)
    (h : findById rt db o user = .ok data) : data.customerId = user.userId := by
  unfold findById at h
  split at h
  · cases h
  · next order horder =>
      split at h
      · cases h
      · next hallowed =>
          obtain rfl := Except.ok.inj h
          rw [not_and, not_not] at hallowed
          exact hallowed hrole

/-- What is listed for a customer is the customer's own. -/
theorem customerId_of_listed {status : Option OrderStatus} {order : Order}
    (hrole : user.role = .CUSTOMER) (h : order ∈ listed user status db) :
    order.customerId = user.userId := by
  have hkept := List.of_mem_filter h
  simp only [Bool.and_eq_true, decide_eq_true_eq] at hkept
  exact hkept.1.2 hrole

/-- **A customer is listed the customer's own orders**, whatever the limit, the cursor and the
status. -/
theorem findAll_own {limit : ℤ} {cursor : Option String} {status : Option OrderStatus}
    {page : Page OrderResponse} (hrole : user.role = .CUSTOMER)
    (h : findAll rt db user limit cursor status = .ok page) :
    ∀ data ∈ page.data, data.customerId = user.userId := by
  -- the page is cut out of the rows that are listed
  have hpage : ∃ bound take safeLimit, page.data =
      (Page.of (encodeCursor rt) safeLimit ((queryPage position bound take
        (listed user status db)).map (loaded rt))).data.map toOrderResponse := by
    unfold findAll at h
    dsimp only at h
    split at h
    · obtain rfl := Except.ok.inj h
      exact ⟨_, _, _, rfl⟩
    · split at h
      · cases h
      · split at h
        · cases h
        · obtain rfl := Except.ok.inj h
          exact ⟨_, _, _, rfl⟩
  obtain ⟨bound, take, safeLimit, heq⟩ := hpage
  intro data hdata
  rw [heq] at hdata
  obtain ⟨order, horder, rfl⟩ := List.mem_map.mp hdata
  obtain ⟨row, hrow, rfl⟩ := List.mem_map.mp (Page.mem_of horder)
  have hown : row.customerId = user.userId := customerId_of_listed hrole (mem_of_queryPage hrow)
  exact hown

end OrdersService

end LogisticsDispatch
