/-
How many orders a driver has at a time.

`TrackingService` looks up one active order of a driver and keeps it under one key, so a
driver should be booked for one order only. The dispatch service asks of a candidate to
be online, not suspended, and of the vehicle that is needed. Whether the candidate has an
order already, it does not ask.

A driver is booked twice exactly when an assignment comes to a candidate who is booked:
no other step books a driver.
-/
import LogisticsDispatch.Refinement

set_option autoImplicit false

namespace LogisticsDispatch

open OrderStatus Lifecycle DispatchService Resumable

variable {Q : Type} [JobQueue Q JobId JobData] {cfg : DispatchConfig} {s s' : Sys Q} {a : Action}
  {o o' : OrderId} {d : DriverId} {row row' : Order}

/-- The statuses in which an order takes up its driver. -/
def bookedStatuses : List OrderStatus := [DRIVER_ASSIGNED, DRIVER_ARRIVING, PICKED_UP, IN_TRANSIT]

/-- The order takes up the driver. -/
def Booked (s : Sys Q) (o : OrderId) (d : DriverId) : Prop :=
  ∃ row, s.order o = some row ∧ row.assignedDriverId = some d ∧ row.orderStatus ∈ bookedStatuses

/-- Every driver is taken up by at most one order. -/
def SingleBooking (s : Sys Q) : Prop := ∀ d o o', Booked s o d → Booked s o' d → o = o'

/-- The step is an assignment of an order that waits, and `d` is the first of its
candidates who is free for it. -/
def Picks (s : Sys Q) (a : Action) (o : OrderId) (d : DriverId) : Prop :=
  ∃ i ch passed candidate rest row, a = .exec i ch ∧
    s.next i = some (.transaction (.assignDriverWithLock o (passed ++ candidate :: rest))) ∧
    s.shared.db.findOrder o = some row ∧ row.orderStatus = PENDING ∧
    (∀ c ∈ passed, ¬ Free ch s.shared.db row c) ∧ Free ch s.shared.db row candidate ∧
    candidate.id = d

omit [JobQueue Q JobId JobData] in
/-- A step assigns one order. -/
theorem Picks.inj {d' : DriverId} (h : Picks s a o d) (h' : Picks s a o' d') : o = o' := by
  obtain ⟨i, ch, _, _, _, _, rfl, hnext, -⟩ := h
  obtain ⟨i', ch', _, _, _, _, ha, hnext', -⟩ := h'
  obtain ⟨rfl, rfl⟩ := Action.exec.inj ha
  rw [hnext] at hnext'
  -- the call has one next effect
  exact (Transaction.assignDriverWithLock.inj
    (Effect.transaction.inj (Option.some.inj hnext'))).1

/-- No move but an offer books a driver. -/
theorem booked_of_apply {m : Move DriverId} {max : ℕ} {t t' : Ticket DriverId}
    (h : m.apply max t = some t') (hd : t'.driver = some d) (hs : t'.status ∈ bookedStatuses) :
    m = .offer d ∨ t.driver = some d ∧ t.status ∈ bookedStatuses := by
  -- a refusal leaves no driver
  have hrefused : ∀ d', m ≠ .timeout d' ∧ m ≠ .reject d' := by
    intro d'
    constructor
    · rintro rfl
      rw [(refuse_eq_some (.inl rfl) h).2.2.2.1] at hd
      cases hd
    · rintro rfl
      rw [(refuse_eq_some (.inr rfl) h).2.2.2.1] at hd
      cases hd
  cases m with
  | offer d' =>
      rw [(offer_eq_some h).2.2.2.1] at hd
      obtain rfl := Option.some.inj hd
      exact .inl rfl
  | expire =>
      rw [(expire_eq_some h).2.2.1] at hd
      cases hd
  | timeout d' => exact absurd rfl (hrefused d').1
  | reject d' => exact absurd rfl (hrefused d').2
  | accept d' =>
      obtain ⟨hs₀, hd₀, -, hd', -⟩ := accept_eq_some h
      rw [hd'] at hd
      refine .inr ⟨hd₀.trans hd, ?_⟩
      rw [hs₀]
      decide
  | advance newStatus =>
      obtain ⟨hmem, hne, -, hs', hd', -⟩ := advance_eq_some h
      rw [hd'] at hd
      rw [hs'] at hs
      refine .inr ⟨hd, ?_⟩
      -- the statuses of a booked order follow each other in `ORDER_TRANSITIONS`
      revert hmem hne hs
      cases t.status <;> cases newStatus <;> decide
  | reassign =>
      rw [(reassign_eq_some h).2.2.1] at hd
      cases hd

/-- **All that books a driver**: after a step the order took the driver up before, or the
step has picked the driver for it. -/
theorem booked_of_step (hs : Transition.Reachable (logistics Q cfg) s)
    (hstep : step cfg s a = some s') (h : Booked s' o d) : Booked s o d ∨ Picks s a o d := by
  obtain ⟨row', hrow', hd, hstatus⟩ := h
  cases order_step hs hstep o with
  | same horder _ => exact .inl ⟨row', horder.symm.trans hrow', hd, hstatus⟩
  | created _ _ _ hrow hticket _ _ =>
      rw [hrow] at hrow'
      obtain rfl := Option.some.inj hrow'
      have hnone := congrArg Ticket.driver hticket
      exact absurd (hd.symm.trans hnone) (by simp [Ticket.new])
  | deleted _ _ hrow hrow₁ _ =>
      rw [hrow₁] at hrow'
      obtain rfl := Option.some.inj hrow'
      exact .inl ⟨_, hrow, hd, hstatus⟩
  | @moved i ch call t m actor row tk ha _ hnext _ hmakes hoffer _ _ hrow hlive hticket hrow₁ _ =>
      rw [hrow₁] at hrow'
      obtain rfl := Option.some.inj hrow'
      -- an offer means that the loop over the candidates stopped at `d`
      rcases booked_of_apply hticket hd hstatus with rfl | ⟨hd₀, hs₀⟩
      · right
        obtain ⟨cands, driver, ht, hlock, hid⟩ := hoffer d rfl
        obtain ⟨passed, candidate, rest, rfl, hpassed, hfree, hcand⟩ :=
          lockFirst_eq_some_iff.mp hlock
        have hcandidate : driver.id = candidate.id := (lockDriver_eq_some hcand).1
        have ho : row.id = o := Table.key_of_find hrow
        rw [ht, ho] at hnext
        exact ⟨i, ch, passed, candidate, rest, row, ha, hnext,
          Db.findOrder_eq_some.mpr ⟨hrow, hlive⟩, (offer_eq_some hticket).1, hpassed, hfree,
          hcandidate.symm.trans hid⟩
      · exact .inl ⟨row, hrow, hd₀, hs₀⟩

/-- A step that picks a driver for an order books the driver for it, and leaves the other
orders as they are. -/
theorem Picks.booked (hstep : step cfg s a = some s') (h : Picks s a o d) :
    Booked s' o d ∧ ∀ o', o' ≠ o → s'.order o' = s.order o' := by
  obtain ⟨i, ch, passed, candidate, rest, row, rfl, hnext, hrow, hs, hpassed, hfree, rfl⟩ := h
  obtain ⟨driver, hlock⟩ := Option.isSome_iff_exists.mp hfree.2
  have hid : driver.id = candidate.id := (lockDriver_eq_some hlock).1
  have hfirst := lockFirst_eq_some_iff.mpr ⟨passed, candidate, rest, rfl, hpassed, hfree, hlock⟩
  obtain ⟨db', hrun, hmove⟩ := assignDriverWithLockTx_waiting hrow hs hfirst
  have hmove : s.shared.db.move cfg o (.offer driver.id) "system" ch.now = some db' := hmove
  -- the effect that is performed is the assignment
  have hdb : s'.shared.db = db' := by
    obtain ⟨call, e, k, hi, hsh, -⟩ := Pool.advance_eq_some hstep
    rw [Sys.next_of_lookup hi] at hnext
    obtain rfl := Option.some.inj hnext
    have hsh : s'.shared = (perform cfg ch _ s.shared).2 := hsh
    simp only [hsh, perform, Transaction.run, hrun]
  obtain ⟨row₁, tk, -, -, hticket, hrow', -, hother, -⟩ := Db.move_spec hmove
  obtain ⟨-, -, hstatus, hdriver, -⟩ := offer_eq_some hticket
  refine ⟨⟨{ row₁.withTicket tk with updatedAt := ch.now }, ?_, ?_, ?_⟩, ?_⟩
  · rw [Sys.order, hdb]
    exact hrow'
  · rw [← hid]
    exact hdriver
  · show tk.status ∈ bookedStatuses
    rw [hstatus]
    decide
  · intro o' hne
    rw [Sys.order, hdb]
    exact (hother o' hne).1

/-! ## When no driver is booked twice -/

/-- A step of a run picks no driver who is booked. -/
def PicksFree (m : Transition.Move (Sys Q) Action) : Prop :=
  ∀ o d, Picks m.src m.act o d → ∀ o', ¬ Booked m.src o' d

/-- A step that picks no booked driver books no driver twice. -/
theorem SingleBooking.step (hs : Transition.Reachable (logistics Q cfg) s)
    (hstep : step cfg s a = some s') (hfree : PicksFree ⟨s, a, s'⟩) (h : SingleBooking s) :
    SingleBooking s' := by
  intro d o o' hbooked hbooked'
  -- each of the two orders took the driver up before, or is the one that is assigned
  rcases booked_of_step hs hstep hbooked with hold | hpicks
  · rcases booked_of_step hs hstep hbooked' with hold' | hpicks'
    · exact h d o o' hold hold'
    · exact absurd hold (hfree o' d hpicks' o)
  · rcases booked_of_step hs hstep hbooked' with hold' | hpicks'
    · exact absurd hold' (hfree o d hpicks o')
    · exact hpicks.inj hpicks'

/-- A step that picks a booked driver books the driver twice. -/
theorem Picks.not_single (hstep : step cfg s a = some s') (h : Picks s a o d)
    (hbooked : Booked s o' d) : ¬ SingleBooking s' := by
  intro hsingle
  obtain ⟨hbooked₁, hother⟩ := h.booked hstep
  -- the order that is assigned was waiting, so the booked one is another
  have hne : o' ≠ o := by
    rintro rfl
    obtain ⟨_, _, _, _, _, row, -, -, hrow, hs, -⟩ := h
    obtain ⟨row', hrow', -, hstatus⟩ := hbooked
    have hfind : s.order o' = some row := (Db.findOrder_eq_some.mp hrow).1
    rw [hfind] at hrow'
    obtain rfl := Option.some.inj hrow'
    rw [hs] at hstatus
    exact absurd hstatus (by decide)
  refine hne (hsingle d o' o ?_ hbooked₁)
  obtain ⟨row', hrow', hbooked⟩ := hbooked
  exact ⟨row', (hother o' hne).trans hrow', hbooked⟩

/-- Initially no driver is booked. -/
theorem single_of_initial (h : Initial s) : SingleBooking s := by
  rintro d o o' ⟨row, hrow, -⟩ -
  rw [Sys.order, h.orders, Table.find_empty] at hrow
  cases hrow

/-- **When no driver is booked twice**: in every state of a run, exactly if no step of it
picks a driver who is booked. -/
theorem single_booking_iff {tr : List (Transition.Move (Sys Q) Action)}
    (run : Transition.Run (logistics Q cfg) tr s) :
    (SingleBooking s ∧ ∀ m ∈ tr, SingleBooking m.src ∧ SingleBooking m.dst) ↔
      ∀ m ∈ tr, PicksFree m := by
  constructor
  · rintro ⟨-, h⟩ m hm o d hpicks o' hbooked
    exact hpicks.not_single (run.of_mem hm).2 hbooked (h m hm).2
  · refine run.invariant_of (C := PicksFree) (fun s hinit => single_of_initial hinit) ?_
    intro s₁ a s₂ hs₁ hsingle hfree hstep
    exact hsingle.step hs₁ hstep hfree

/-! ### In the small system -/

/-- The id of a second order. -/
def secondOrder : OrderId := ⟨"second-order", by decide⟩

/-- The uuids that are drawn for it. -/
def secondChoice : Choice :=
  { sampleChoice with orderId := secondOrder, outboxId := ⟨"second-outbox", by decide⟩ }

/-- Two trips are ordered, and both are offered to the only driver. -/
def twoTrips : List Action :=
  .invoke 0 (.createOrder carTrip sampleCustomer none) :: proceed 0 1 sampleChoice ++
    .invoke 1 (.createOrder carTrip sampleCustomer none) :: proceed 1 1 secondChoice ++
    .invoke 2 .processOutbox :: proceed 2 7 sampleChoice ++
    .deliver 3 .DISPATCH_QUEUE (.assignDriver sampleOrder) :: proceed 3 3 sampleChoice ++
    .deliver 4 .DISPATCH_QUEUE (.assignDriver secondOrder) :: proceed 4 3 sampleChoice

theorem trips_offered : ((logistics BullQueue (sampleConfig 3)).exec (start [carDriver])
    twoTrips).isSome := by
  decide +kernel

omit [JobQueue Q JobId JobData] in
/-- An order that is offered takes up its driver. -/
theorem booked_of_map
    (h : (s.order o).map (fun row => (row.orderStatus, row.assignedDriverId))
      = some (DRIVER_ASSIGNED, some d)) : Booked s o d := by
  obtain ⟨row, hrow, heq⟩ := Option.map_eq_some_iff.mp h
  obtain ⟨hs, hd⟩ := Prod.mk.inj heq
  refine ⟨row, hrow, hd, ?_⟩
  rw [hs]
  decide

/-- With one driver and two trips, the driver is booked twice. -/
theorem trips_double_booked : ∃ s, Transition.Reachable (logistics BullQueue (sampleConfig 3)) s ∧
    ¬ SingleBooking s := by
  refine ⟨_, after_reachable trips_offered, fun h => ?_⟩
  have hfirst : Booked (after _ _ _ trips_offered) sampleOrder sampleDriver :=
    booked_of_map (by decide +kernel)
  have hsecond : Booked (after _ _ _ trips_offered) secondOrder sampleDriver :=
    booked_of_map (by decide +kernel)
  have heq := h _ _ _ hfirst hsecond
  exact absurd heq (by decide)

/-- Whether no driver is booked where a step assigns an order, as a computation. -/
def assignsFirst (m : Transition.Move (Sys Q) Action) : Bool :=
  match m.act with
  | .exec i _ =>
      match m.src.next i with
      | some (.transaction (.assignDriverWithLock _ _)) =>
          -- stronger than `PicksFree`, but a search through one table
          m.src.shared.db.orders.toList.all fun row => decide (row.orderStatus ∉ bookedStatuses)
      | _ => true
  | _ => true

omit [JobQueue Q JobId JobData] in
theorem picksFree_of_assignsFirst {m : Transition.Move (Sys Q) Action}
    (h : assignsFirst m = true) : PicksFree m := by
  rintro o d ⟨i, ch, passed, candidate, rest, row, ha, hnext, -⟩ o' ⟨row', hrow', -, hbooked⟩
  unfold assignsFirst at h
  simp only [ha, hnext, List.all_eq_true, decide_eq_true_eq] at h
  exact h row' (Table.mem_toList_of_find hrow') hbooked

/-- Where one trip is offered, its driver is booked once. -/
theorem single_booking_of_trip : SingleBooking (after _ _ _ trip_offered) := by
  have hall : ((logistics BullQueue (sampleConfig 3)).moves [] (start [carDriver])
      (orderTrip ++ offerTrip)).all assignsFirst = true := by decide +kernel
  rw [List.all_eq_true] at hall
  exact ((single_booking_iff (after_run trip_offered)).mpr fun m hm =>
    picksFree_of_assignsFirst (hall m hm)).1

end LogisticsDispatch
