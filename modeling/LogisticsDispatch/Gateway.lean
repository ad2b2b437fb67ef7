/-
Who sees the data of an order: the reads of a customer, and the rooms of `EventsGateway`.

`findById` and `findAll` ask whose order it is. The events of an order go to whoever is in the
room `order:{orderId}`, and `handleJoin` puts a socket into any room it names, once the token is
valid: whose order it is it does not ask.

`Live` is the system of the orders together with the sockets: the rooms they are in, and the
joins under way. A customer sees no other customer's data as long as no join of a customer names
the order of another (`customers_isolated`). Whatever comes after a join, up to the events that
others cause, follows from who is in which room or about to join it (`OwnRooms`).
-/
import LogisticsDispatch.ProgramSafety
import LogisticsDispatch.Listing

set_option autoImplicit false

namespace LogisticsDispatch

open Resumable

/-! ## Rooms -/

/-- The rooms of the gateway. -/
inductive Room
  | ROOM_DRIVER (driverId : String)
  | ROOM_ORDER (orderId : String)
deriving DecidableEq

/-- The order an event is about. -/
def Event.orderId : Event → OrderId
  | .driverAssigned orderId _ => orderId
  | .customerStatusChanged orderId _ => orderId
  | .driverTimeout orderId _ => orderId
  | .locationBroadcast orderId _ _ _ => orderId

/-- The room `EventPublisherService` sends an event to. -/
def Event.room : Event → Room
  | .driverAssigned _ driverId => .ROOM_DRIVER driverId.text
  | .customerStatusChanged orderId _ => .ROOM_ORDER orderId.text
  | .driverTimeout _ driverId => .ROOM_DRIVER driverId.text
  | .locationBroadcast orderId _ _ _ => .ROOM_ORDER orderId.text

/-! ## The values of a payload -/

namespace Json

/-- What `for (const item of value)` goes through, unless it throws. -/
def iterate : Json → Option (List Json)
  | str s => some (s.toList.map fun c => str (String.singleton c))
  | arr items => some items
  | _ => none

/-- `value.length === 0`. -/
def lengthIsZero : Json → Bool
  | str s => decide (s = "")
  | arr items => items.isEmpty
  | obj fields =>
      match get "length" (obj fields) with
      | some (num x) => decide (x = 0)
      | _ => false
  | _ => false

/-- `value ?? undefined`. -/
def nonNull : Json → Option Json
  | null => none
  | value => some value

/-- `value === null`. -/
def isNull : Json → Bool
  | null => true
  | _ => false

mutual

/-- The text of a value in a template, unless it throws, which an object with a field `toString`
does. -/
def text (numberText : ℚ → String) : Json → Option String
  | null => some "null"
  | bool b => some (if b then "true" else "false")
  | num x => some (numberText x)
  | str s => some s
  | arr items => (texts numberText items).map (String.intercalate ",")
  | obj fields => if (get "toString" (obj fields)).isSome then none else some "[object Object]"

/-- The texts that `join` puts between commas. -/
def texts (numberText : ℚ → String) : List Json → Option (List String)
  | [] => some []
  | item :: rest =>
      match if item.isNull then some "" else text numberText item, texts numberText rest with
      | some t, some ts => some (t :: ts)
      | _, _ => none

end

end Json

/-! ## `handleJoin` -/

namespace EventsGateway

/-- What `jwtService.verify` returns for a token. -/
structure Decoded where
  sub : Option String
  role : Option UserRole
  driverProfileId : Option String

/-- What is not decided by the code of the gateway. -/
structure SocketRuntime where
  /-- `jwtService.verify`, `none` where it throws. -/
  verify : String → Option Decoded
  /-- The text of a number in a template. -/
  numberText : ℚ → String

/-- `JoinRoomPayload`, as it is found in what a socket sends: nothing checks the types of the
fields, and what is no object has none of them. -/
structure JoinRoomPayload where
  token : Option Json
  orderId : Option Json
  orderIds : Option Json

/-- The user of a socket, from the token it has joined with. -/
structure SocketUser where
  userId : String
  role : UserRole
deriving DecidableEq

/-- `payload.orderIds ?? (payload.orderId ? [payload.orderId] : [])`. -/
def JoinRoomPayload.ids (payload : JoinRoomPayload) : Json :=
  (payload.orderIds.bind Json.nonNull).getD
    (.arr (payload.orderId.filter fun id => !id.falsy).toList)

section Join

variable (io : SocketRuntime)

/-- `jwtService.verify` of any value: a token is a string. -/
def SocketRuntime.verifyToken : Json → Option Decoded
  | .str token => io.verify token
  | _ => none

/-- The texts of the ids a payload names. -/
def JoinRoomPayload.texts (payload : JoinRoomPayload) : List (Option String) :=
  (payload.ids.iterate.getD []).map (Json.text io.numberText)

/-- The orders whose rooms a payload asks for: those before the first id without a text. -/
def JoinRoomPayload.named (payload : JoinRoomPayload) : List String :=
  ((payload.texts io).takeWhile Option.isSome).reduceOption

/-- Whether the loop over the ids throws. -/
def JoinRoomPayload.throws (payload : JoinRoomPayload) : Bool :=
  payload.ids.iterate.isNone || (payload.texts io).any Option.isNone

/-- What a join comes to: who joins, the rooms one after the other, and whether it throws behind
them. -/
structure Admission where
  user : SocketUser
  rooms : List Room
  throws : Bool

/-- `handleJoin`, up to the rooms it is about to join one after the other, or the reason it refuses
for. -/
def handleJoin (payload : Option JoinRoomPayload) : Except String Admission :=
  match (payload.bind JoinRoomPayload.token).filter fun token => !token.falsy, payload with
  | some token, some payload =>
      match io.verifyToken token with
      | none => .error "invalid_token"
      | some decoded =>
          match decoded.sub.filter (fun userId => userId ≠ ""), decoded.role with
          | some userId, some role =>
              if role = .DRIVER then
                match decoded.driverProfileId.filter fun id => id ≠ "" with
                | none => .error "no_driver_profile"
                | some driverProfileId =>
                    .ok ⟨⟨userId, role⟩, [.ROOM_DRIVER driverProfileId], false⟩
              else if payload.ids.lengthIsZero then .error "missing_order_id"
              -- nothing is asked of the order
              else .ok ⟨⟨userId, role⟩, (payload.named io).map .ROOM_ORDER, payload.throws io⟩
          | _, _ => .error "invalid_token_payload"
  | _, _ => .error "missing_token"

end Join

end EventsGateway

open EventsGateway

/-! ## The orders together with the sockets -/

/-- A socket in a room, and the user it has joined the room as. -/
structure Member where
  client : ℕ
  user : SocketUser
  room : Room
deriving DecidableEq

/-- A join that is under way: the rooms still to join, those joined, and whether it throws in the
end. -/
structure Joining where
  client : ℕ
  user : SocketUser
  left : List Room
  joined : List Room
  throws : Bool

/-- What the gateway answers a join with. -/
inductive Reply
  | JOIN_ACK (rooms : List Room)
  | JOIN_ERROR (reason : String)

/-- The state of the orders and of the sockets. -/
structure Live (Q : Type) where
  sys : Sys Q
  joins : AList fun _ : ℕ => Joining
  members : List Member
  replies : List (ℕ × Reply)

/-- One step: of the orders, of a socket, or a request that reads orders. -/
inductive LiveAction
  | sys (a : Action)
  /-- Socket `client` sends a `join`; it is handled as join `n`. -/
  | join (n : ℕ) (client : ℕ) (payload : Option JoinRoomPayload)
  /-- Join `n` joins its next room, or is acknowledged. -/
  | joinNext (n : ℕ)
  | disconnect (client : ℕ)
  | findById (orderId : OrderId) (user : JwtUser)
  | findAll (user : JwtUser) (limit : ℤ) (cursor : Option String) (status : Option OrderStatus)

section System

variable {Q : Type} [JobQueue Q JobId JobData]

/-- The successor of a state under an action. -/
def Live.step (cfg : DispatchConfig) (io : SocketRuntime) (s : Live Q) :
    LiveAction → Option (Live Q)
  | .sys a => (LogisticsDispatch.step cfg s.sys a).map fun sys => { s with sys := sys }
  | .join n client payload =>
      if (s.joins.lookup n).isSome then none
      else
        match handleJoin io payload with
        | .error reason => some { s with replies := (client, .JOIN_ERROR reason) :: s.replies }
        | .ok ⟨user, rooms, throws⟩ =>
            some { s with joins := s.joins.insert n ⟨client, user, rooms, [], throws⟩ }
  | .joinNext n =>
      match s.joins.lookup n with
      | none => none
      | some joining =>
          match joining.left with
          | [] =>
              let reply := if joining.throws then .JOIN_ERROR "invalid_token"
                else .JOIN_ACK joining.joined
              some { s with
                joins := s.joins.erase n
                replies := (joining.client, reply) :: s.replies }
          | room :: left =>
              some { s with
                joins := s.joins.insert n
                  { joining with left := left, joined := joining.joined ++ [room] }
                members := ⟨joining.client, joining.user, room⟩ :: s.members }
  -- a socket that is gone has no join under way: its rooms are joined without a turn in between
  | .disconnect client =>
      if s.joins.entries.any fun en => en.2.client = client then none
      else some { s with members := s.members.filter fun member => member.client ≠ client }
  -- reads change nothing
  | .findById _ _ => some s
  | .findAll _ _ _ _ => some s

/-- No order and no call is there, and no socket. -/
structure Live.Initial (s : Live Q) : Prop where
  sys : LogisticsDispatch.Initial s.sys
  joins : s.joins = ∅
  members : s.members = []

variable (Q) in
/-- **The system with its sockets.** -/
def live (cfg : DispatchConfig) (io : SocketRuntime) :
    Transition.System (Live Q) LiveAction where
  Init := Live.Initial
  step := Live.step cfg io

end System

/-! ## What a customer sees -/

section Isolation

variable {Q : Type} [JobQueue Q JobId JobData] {rt : Runtime} {cfg : DispatchConfig}
  {io : SocketRuntime} {s s' : Live Q} {a : LiveAction} {user : SocketUser}
  {room : Room} {tr : List (Transition.Move (Live Q) LiveAction)}

/-- In a move, an event is sent to a member of its room. -/
def Receives (m : Transition.Move (Live Q) LiveAction) (member : Member) (event : Event) : Prop :=
  (∃ i ch, m.act = .sys (.exec i ch) ∧ m.src.sys.next i = some (.emit event)) ∧
    member ∈ m.src.members ∧ member.room = event.room

/-- In a move, customers see the data of their own orders only: what they read, the rooms they
are in after it, and what is sent to them. -/
structure Isolated (rt : Runtime) (m : Transition.Move (Live Q) LiveAction) : Prop where
  findById : ∀ o user data, m.act = .findById o user → user.role = .CUSTOMER →
    OrdersService.findById rt m.src.sys.shared.db o user = .ok data →
      data.customerId = user.userId
  findAll : ∀ user limit cursor status page, m.act = .findAll user limit cursor status →
    user.role = .CUSTOMER →
    OrdersService.findAll rt m.src.sys.shared.db user limit cursor status = .ok page →
      ∀ data ∈ page.data, data.customerId = user.userId
  rooms : ∀ member ∈ m.dst.members, member.user.role = .CUSTOMER → ∀ o row,
    member.room = .ROOM_ORDER o.text → m.dst.sys.order o = some row →
      row.customerId.text = member.user.userId
  events : ∀ member event, Receives m member event → member.user.role = .CUSTOMER →
    ∀ row, m.src.sys.order event.orderId = some row → row.customerId.text = member.user.userId

/-- The user is in the room, or about to join it. -/
def Live.At (s : Live Q) (user : SocketUser) (room : Room) : Prop :=
  (∃ member ∈ s.members, member.user = user ∧ member.room = room) ∨
    ∃ n joining, s.joins.lookup n = some joining ∧ joining.user = user ∧ room ∈ joining.left

/-- The joins of customers name no order of others, and no order of another is committed under
an id that is named in one. -/
structure NamesOwn (io : SocketRuntime) (m : Transition.Move (Live Q) LiveAction) : Prop where
  joins : ∀ n client payload token decoded userId, m.act = .join n client (some payload) →
    payload.token = some (.str token) → io.verify token = some decoded →
    decoded.role = some .CUSTOMER → decoded.sub = some userId →
    ∀ o row, o.text ∈ payload.named io → m.src.sys.order o = some row →
      row.customerId.text = userId
  commits : ∀ o row user, m.src.sys.order o = none → m.dst.sys.order o = some row →
    user.role = .CUSTOMER → m.src.At user (.ROOM_ORDER o.text) → row.customerId.text = user.userId

/-- Customers are in rooms of their own orders only, and about to join no other. -/
def OwnRooms (s : Live Q) : Prop :=
  ∀ user room, s.At user room → user.role = .CUSTOMER → ∃ orderId, room = .ROOM_ORDER orderId ∧
    ∀ o row, o.text = orderId → s.sys.order o = some row → row.customerId.text = user.userId

/-! ### Joins -/

/-- A customer's join is for the rooms of the orders it names. -/
theorem handleJoin_customer {payload : Option JoinRoomPayload} {rooms : List Room} {throws : Bool}
    (h : handleJoin io payload = .ok ⟨user, rooms, throws⟩) (hrole : user.role = .CUSTOMER) :
    ∃ p token decoded, payload = some p ∧ p.token = some (.str token) ∧
      io.verify token = some decoded ∧ decoded.role = some .CUSTOMER ∧
      decoded.sub = some user.userId ∧ rooms = (p.named io).map .ROOM_ORDER := by
  unfold handleJoin at h
  split at h
  · next value p hvalue =>
      have hgiven : p.token = some value := (Option.filter_eq_some_iff.mp hvalue).1
      split at h
      · cases h
      next decoded hdecoded =>
      obtain ⟨token, rfl, hverify⟩ : ∃ token, value = .str token ∧
          io.verify token = some decoded := by
        cases value with
        | str token => exact ⟨token, rfl, hdecoded⟩
        | _ => cases hdecoded
      split at h
      · next userId role hsub hdrole =>
          split at h
          · next hdriver =>
              -- a driver's join is none of a customer
              split at h
              · cases h
              · cases h
                rw [hdriver] at hrole
                cases hrole
          · split at h
            · cases h
            · cases h
              refine ⟨p, token, decoded, rfl, hgiven, hverify, ?_,
                (Option.filter_eq_some_iff.mp hsub).1, rfl⟩
              rw [hdrole]
              exact congrArg some hrole
      · cases h
  · cases h

omit [JobQueue Q JobId JobData] in
/-- Who is in a room, or about to join it, after a join is put under a number. -/
theorem at_of_insert {n : ℕ} {joining : Joining} {members : List Member}
    {replies : List (ℕ × Reply)}
    (h : Live.At { s with joins := s.joins.insert n joining, members, replies } user room) :
    (∃ member ∈ members, member.user = user ∧ member.room = room) ∨
      (joining.user = user ∧ room ∈ joining.left) ∨ s.At user room := by
  rcases h with h | ⟨n', joining', hlookup, huser, hroom⟩
  · exact .inl h
  · rcases Pool.lookup_insert_cases hlookup with ⟨-, rfl⟩ | ⟨-, hlookup⟩
    · exact .inr (.inl ⟨huser, hroom⟩)
    · exact .inr (.inr (.inr ⟨n', joining', hlookup, huser, hroom⟩))

/-- A join goes on: it puts nobody anywhere that was not about to join. -/
theorem at_of_joinNext {n : ℕ} (hstep : s.step cfg io (.joinNext n) = some s')
    (h : s'.At user room) : s.At user room := by
  simp only [Live.step] at hstep
  split at hstep
  · cases hstep
  next joining hjoining =>
  split at hstep
  -- the join is done
  · obtain rfl := Option.some.inj hstep
    rcases h with h | ⟨n', joining', hlookup, huser, hroom⟩
    · exact .inl h
    · by_cases hn : n' = n
      · subst hn
        rw [AList.lookup_erase] at hlookup
        cases hlookup
      · rw [AList.lookup_erase_ne hn] at hlookup
        exact .inr ⟨n', joining', hlookup, huser, hroom⟩
  · next room' left hleft =>
      obtain rfl := Option.some.inj hstep
      rcases at_of_insert h with ⟨member, hmember, huser, hroom⟩ | ⟨huser, hroom⟩ | h
      -- the room that is joined was still to join
      · rcases List.mem_cons.mp hmember with rfl | hmember
        · obtain rfl := hroom
          exact .inr ⟨n, joining, hjoining, huser, by rw [hleft]; exact List.mem_cons_self⟩
        · exact .inl ⟨member, hmember, huser, hroom⟩
      · refine .inr ⟨n, joining, hjoining, huser, ?_⟩
        rw [hleft]
        exact List.mem_cons_of_mem _ hroom
      · exact h

/-- **All that puts a user into a room**: a join that names it. -/
theorem at_of_step (hstep : s.step cfg io a = some s') (h : s'.At user room) :
    s.At user room ∨ ∃ n client payload rooms, a = .join n client payload ∧
      ∃ throws, handleJoin io payload = .ok ⟨user, rooms, throws⟩ ∧ room ∈ rooms := by
  cases a with
  | sys a =>
      obtain ⟨sys, -, rfl⟩ := Option.map_eq_some_iff.mp hstep
      exact .inl h
  | join n client payload =>
      simp only [Live.step] at hstep
      split at hstep
      · cases hstep
      split at hstep
      · obtain rfl := Option.some.inj hstep
        exact .inl h
      · next user' rooms throws hjoin =>
          obtain rfl := Option.some.inj hstep
          rcases at_of_insert h with h | ⟨huser, hroom⟩ | h
          · exact .inl (.inl h)
          · obtain rfl := huser
            exact .inr ⟨n, client, payload, rooms, rfl, throws, hjoin, hroom⟩
          · exact .inl h
  | joinNext n => exact .inl (at_of_joinNext hstep h)
  | disconnect client =>
      simp only [Live.step] at hstep
      split at hstep
      · cases hstep
      · obtain rfl := Option.some.inj hstep
        rcases h with ⟨member, hmember, huser, hroom⟩ | h
        · exact .inl (.inl ⟨member, List.mem_of_mem_filter hmember, huser, hroom⟩)
        · exact .inl (.inr h)
  | findById o user =>
      obtain rfl := Option.some.inj hstep
      exact .inl h
  | findAll user limit cursor status =>
      obtain rfl := Option.some.inj hstep
      exact .inl h

/-! ### Along a run -/

/-- The orders move by a step of their own, or stay. -/
theorem sys_of_step (hstep : s.step cfg io a = some s') :
    (∃ b, a = .sys b ∧ LogisticsDispatch.step cfg s.sys b = some s'.sys) ∨ s'.sys = s.sys := by
  cases a with
  | sys b =>
      obtain ⟨sys, hsys, rfl⟩ := Option.map_eq_some_iff.mp hstep
      exact .inl ⟨b, rfl, hsys⟩
  | join n client payload =>
      right
      simp only [Live.step] at hstep
      split at hstep
      · cases hstep
      split at hstep <;> obtain rfl := Option.some.inj hstep <;> rfl
  | joinNext n =>
      right
      simp only [Live.step] at hstep
      split at hstep
      · cases hstep
      split at hstep <;> obtain rfl := Option.some.inj hstep <;> rfl
  | disconnect client =>
      right
      simp only [Live.step] at hstep
      split at hstep
      · cases hstep
      · obtain rfl := Option.some.inj hstep
        rfl
  | findById o user =>
      obtain rfl := Option.some.inj hstep
      exact .inr rfl
  | findAll user limit cursor status =>
      obtain rfl := Option.some.inj hstep
      exact .inr rfl

/-- The orders are in a state they can reach without the sockets. -/
theorem sys_reachable (hs : Transition.Reachable (live Q cfg io) s) :
    Transition.Reachable (logistics Q cfg) s.sys := by
  refine hs.invariant (P := fun s => Transition.Reachable (logistics Q cfg) s.sys) ?_ ?_
  · intro s hinit
    exact .init hinit.sys
  · intro s a s' _ ih hstep
    rcases sys_of_step hstep with ⟨b, -, hb⟩ | hsame
    · exact ih.step hb
    · rwa [hsame]

/-- After a step, an order is new, or it is of the customer it was of before. -/
theorem customer_of_step (hs : Transition.Reachable (live Q cfg io) s)
    (hstep : s.step cfg io a = some s') {o : OrderId} {row' : Order}
    (hrow' : s'.sys.order o = some row') :
    s.sys.order o = none ∨ ∃ row, s.sys.order o = some row ∧ row'.customerId = row.customerId := by
  cases hrow : s.sys.order o with
  | none => exact .inl rfl
  | some row =>
      refine .inr ⟨row, rfl, ?_⟩
      rcases sys_of_step hstep with ⟨b, -, hb⟩ | hsame
      · obtain ⟨row₁, hrow₁, hbecomes⟩ := (rely_of_step (sys_reachable hs) hb).db.orders o row hrow
        have hrow₁ : s'.sys.order o = some row₁ := hrow₁
        rw [hrow'] at hrow₁
        obtain rfl := Option.some.inj hrow₁
        exact hbecomes.customerId
      · rw [hsame, hrow] at hrow'
        obtain rfl := Option.some.inj hrow'
        rfl

/-- A step whose join names own orders leaves customers in rooms of their own. -/
theorem OwnRooms.step (hs : Transition.Reachable (live Q cfg io) s)
    (hstep : s.step cfg io a = some s') (hown : NamesOwn io ⟨s, a, s'⟩) (h : OwnRooms s) :
    OwnRooms s' := by
  intro user room hat hrole
  rcases at_of_step hstep hat with hold | ⟨n, client, payload, rooms, rfl, throws, hjoin, hroom⟩
  · obtain ⟨orderId, rfl, hcustomer⟩ := h user room hold hrole
    refine ⟨orderId, rfl, fun o row' ho hrow' => ?_⟩
    subst ho
    rcases customer_of_step hs hstep hrow' with hnone | ⟨row, hrow, hsame⟩
    · exact hown.commits o row' user hnone hrow' hrole hold
    · rw [hsame]
      exact hcustomer o row rfl hrow
  · obtain ⟨p, token, decoded, rfl, htoken, hverify, hdrole, hsub, rfl⟩ :=
      handleJoin_customer hjoin hrole
    obtain ⟨orderId, hnamed, rfl⟩ := List.mem_map.mp hroom
    refine ⟨orderId, rfl, fun o row' ho hrow' => ?_⟩
    subst ho
    -- a join leaves the orders alone
    have hsys : s'.sys = s.sys := by
      rcases sys_of_step hstep with ⟨b, ha, -⟩ | hsame
      · cases ha
      · exact hsame
    rw [hsys] at hrow'
    exact hown.joins n client p token decoded user.userId rfl htoken hverify hdrole hsub o row'
      hnamed hrow'

/-- **When customers are isolated**: in every run in which no join of a customer names an order
of another, and no order is committed under an id that another customer's join has named, all
that customers see is of their own orders. -/
theorem customers_isolated (run : Transition.Run (live Q cfg io) tr s)
    (hown : ∀ m ∈ tr, NamesOwn io m) : ∀ m ∈ tr, Isolated rt m := by
  have hrooms : OwnRooms s ∧ ∀ m ∈ tr, OwnRooms m.src ∧ OwnRooms m.dst := by
    refine run.invariant_of (C := NamesOwn io) ?_ ?_ hown
    · rintro s hinit user room (⟨member, hmember, -⟩ | ⟨n, joining, hlookup, -⟩) -
      · rw [hinit.members] at hmember
        cases hmember
      · rw [hinit.joins, AList.lookup_empty] at hlookup
        cases hlookup
    · intro s a s' hs h hown hstep
      exact h.step hs hstep hown
  intro m hm
  obtain ⟨hsrc, hdst⟩ := hrooms.2 m hm
  refine ⟨?_, ?_, ?_, ?_⟩
  · intro o user data _ hrole hfound
    exact OrdersService.findById_own hrole hfound
  · intro user limit cursor status page _ hrole hfound
    exact OrdersService.findAll_own hrole hfound
  · intro member hmember hrole o row hroom hrow
    obtain ⟨orderId, horder, hcustomer⟩ :=
      hdst member.user member.room (.inl ⟨member, hmember, rfl, rfl⟩) hrole
    rw [hroom] at horder
    exact hcustomer o row (Room.ROOM_ORDER.inj horder) hrow
  · rintro member event ⟨-, hmember, hroom⟩ hrole row hrow
    obtain ⟨orderId, horder, hcustomer⟩ :=
      hsrc member.user member.room (.inl ⟨member, hmember, rfl, rfl⟩) hrole
    rw [hroom] at horder
    -- the rooms of drivers are for other events
    cases event with
    | driverAssigned o d => cases horder
    | driverTimeout o d => cases horder
    | customerStatusChanged o status => exact hcustomer o row (Room.ROOM_ORDER.inj horder) hrow
    | locationBroadcast o lat lng eta => exact hcustomer o row (Room.ROOM_ORDER.inj horder) hrow

end Isolation

/-! ### In the small system -/

/-- Two customers' tokens. -/
def sampleVerify (token : String) : Option Decoded :=
  if token = "customer-token" then some ⟨some "customer", some .CUSTOMER, none⟩
  else if token = "other-token" then some ⟨some "other-customer", some .CUSTOMER, none⟩
  else none

/-- The sockets of the small system. Nobody sends a number. -/
def sampleSockets : SocketRuntime := ⟨sampleVerify, fun x => toString x.num⟩

/-- The start, with one driver and no socket. -/
def liveStart : Live BullQueue := ⟨start [carDriver], ∅, [], []⟩

theorem liveStart_initial : liveStart.Initial := ⟨start_initial _, rfl, rfl⟩

/-- The trip is ordered, a socket joins its room with a token, and the trip is offered and
accepted. -/
def watchTrip (token : String) : List LiveAction :=
  orderTrip.map .sys ++
    [.join 0 7 (some ⟨some (.str token), some (.str sampleOrder.text), none⟩), .joinNext 0,
      .joinNext 0] ++
    (offerTrip ++ .invoke 3 (.acceptDispatch sampleOrder sampleDriver) ::
      proceed 3 6 sampleChoice).map .sys

/-- The moves in which the trip is watched. -/
def watchMoves (token : String) : List (Transition.Move (Live BullQueue) LiveAction) :=
  (live BullQueue (sampleConfig 3) sampleSockets).moves [] liveStart (watchTrip token)

theorem watchTrip_run (token : String)
    (h : ((live BullQueue (sampleConfig 3) sampleSockets).exec liveStart (watchTrip token)).isSome) :
    ∃ s, Transition.Run (live BullQueue (sampleConfig 3) sampleSockets) (watchMoves token) s :=
  ⟨_, (Transition.Run.init liveStart_initial).exec (Option.some_get h).symm⟩

/-- Whether a move sends an event of an order to a customer whose order it is not, as a
computation. -/
def leaks {Q : Type} (m : Transition.Move (Live Q) LiveAction) : Bool :=
  match m.act with
  | .sys (.exec i _) =>
      match m.src.sys.next i with
      | some (.emit event) => m.src.members.any fun member =>
          decide (member.room = event.room) && decide (member.user.role = .CUSTOMER) &&
            (m.src.sys.order event.orderId).any fun row =>
              decide (row.customerId.text ≠ member.user.userId)
      | _ => false
  | _ => false

theorem leaks_eq_true {Q : Type} {m : Transition.Move (Live Q) LiveAction} (h : leaks m = true) :
    ∃ member event row, Receives m member event ∧ member.user.role = .CUSTOMER ∧
      m.src.sys.order event.orderId = some row ∧ row.customerId.text ≠ member.user.userId := by
  unfold leaks at h
  split at h
  · next i ch hact =>
      split at h
      · next event hnext =>
          rw [List.any_eq_true] at h
          obtain ⟨member, hmember, h⟩ := h
          simp only [Bool.and_eq_true, decide_eq_true_eq, Option.any_eq_true] at h
          obtain ⟨⟨hroom, hrole⟩, row, hrow, hne⟩ := h
          exact ⟨member, event, row, ⟨⟨i, ch, hact, hnext⟩, hmember, hroom⟩, hrole, hrow, hne⟩
      · cases h
  · cases h

/-- Another customer joins the room of an order, and is sent what becomes of it. -/
theorem other_customer_watches : ∃ tr s,
    Transition.Run (live BullQueue (sampleConfig 3) sampleSockets) tr s ∧
    ∃ m ∈ tr, ∃ member event row, Receives m member event ∧ member.user.role = .CUSTOMER ∧
      m.src.sys.order event.orderId = some row ∧ row.customerId.text ≠ member.user.userId ∧
      ∀ rt, ¬ Isolated rt m := by
  obtain ⟨s, run⟩ := watchTrip_run "other-token" (by decide +kernel)
  have hleak : (watchMoves "other-token").any leaks = true := by decide +kernel
  rw [List.any_eq_true] at hleak
  obtain ⟨m, hm, hleaks⟩ := hleak
  obtain ⟨member, event, row, hreceives, hrole, hrow, hne⟩ := leaks_eq_true hleaks
  exact ⟨_, s, run, m, hm, member, event, row, hreceives, hrole, hrow, hne,
    fun rt h => hne (h.events member event hreceives hrole row hrow)⟩

/-- Whether a join names the user's orders only, and an order is committed only while no socket
is in a room, as a computation. -/
def namesOwnOnly {Q : Type} (m : Transition.Move (Live Q) LiveAction) : Bool :=
  (match m.act with
    | .join _ _ (some payload) => m.src.sys.shared.db.orders.toList.all fun row =>
        decide (row.id.text ∉ payload.named sampleSockets) ||
          decide ((payload.token.bind sampleSockets.verifyToken).bind Decoded.sub
            = some row.customerId.text)
    | _ => true) &&
  m.dst.sys.shared.db.orders.toList.all fun row =>
    (m.src.sys.order row.id).isSome || m.src.members.isEmpty && m.src.joins.entries.isEmpty

theorem namesOwn_of_namesOwnOnly {Q : Type} {m : Transition.Move (Live Q) LiveAction}
    (h : namesOwnOnly m = true) : NamesOwn sampleSockets m := by
  rw [namesOwnOnly, Bool.and_eq_true] at h
  obtain ⟨hjoins, hcommits⟩ := h
  refine ⟨?_, ?_⟩
  · intro n client payload token decoded userId hact htoken hverify hrole hsub o row hnamed hrow
    simp only [hact, List.all_eq_true, Bool.or_eq_true, decide_eq_true_eq] at hjoins
    have hid : row.id = o := Table.key_of_find hrow
    rcases hjoins row (Table.mem_toList_of_find hrow) with hnot | heq
    · rw [hid] at hnot
      exact absurd hnamed hnot
    · have hdecoded : payload.token.bind sampleSockets.verifyToken = some decoded := by
        rw [htoken]
        exact hverify
      rw [hdecoded] at heq
      exact Option.some.inj (heq.symm.trans hsub)
  · intro o row user hnone hrow hrole hat
    rw [List.all_eq_true] at hcommits
    have hid : row.id = o := Table.key_of_find hrow
    have hempty := hcommits row (Table.mem_toList_of_find hrow)
    rw [hid, hnone, Option.isSome_none, Bool.false_or, Bool.and_eq_true, List.isEmpty_iff,
      List.isEmpty_iff] at hempty
    rcases hat with ⟨member, hmember, -⟩ | ⟨n, joining, hlookup, -⟩
    · rw [hempty.1] at hmember
      cases hmember
    · have hentry := AList.mem_lookup_iff.mp hlookup
      rw [hempty.2] at hentry
      cases hentry

/-- A runtime that knows no cursor. -/
def sampleRuntime : Runtime where
  parse _ := none
  print _ _ := ""
  getTime _ := none
  toDate := id
  toUuid _ := none
  inRange _ := true

/-- The customer of the trip watches it, and sees no one else's. -/
theorem customers_isolated_of_trip : (watchMoves "customer-token").isEmpty = false ∧
    ∀ m ∈ watchMoves "customer-token", Isolated sampleRuntime m := by
  have hall : (watchMoves "customer-token").all namesOwnOnly = true := by decide +kernel
  rw [List.all_eq_true] at hall
  obtain ⟨s, run⟩ := watchTrip_run "customer-token" (by decide +kernel)
  refine ⟨by decide +kernel, customers_isolated run fun m hm => ?_⟩
  exact namesOwn_of_namesOwnOnly (hall m hm)

end LogisticsDispatch
