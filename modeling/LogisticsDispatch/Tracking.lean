/-
Whose position is broadcast, and to whom.

`handleLocationUpdate` takes the order of a driver from a key that is kept for a minute and
that no status change deletes. `handleEtaRecalculation` reads the order and looks at its
driver, but not at its status. Both go on with what they have read while others go on with
the order.

So a position that is broadcast to an order is that of a driver who delivers it, as long as
what is read is still so, and stays so until the call is through (`TrackingClear`). That is
shown by what a call has read (`Names`), and by what is left of its program.
-/
import Mathlib.Data.List.Rotate
import LogisticsDispatch.Footprint

set_option autoImplicit false

namespace LogisticsDispatch

open OrderStatus Resumable Resumable.Program

variable {Q : Type} [JobQueue Q JobId JobData] {cfg : DispatchConfig} {s s' : Sys Q} {a : Action}
  {o : OrderId} {d : DriverId} {i : ℕ} {tr : List (Transition.Move (Sys Q) Action)}

/-! ## Delivering and tracking -/

/-- The driver is delivering the order, or on the way to its pickup. -/
def Delivering (s : Sys Q) (o : OrderId) (d : DriverId) : Prop :=
  ∃ row, s.order o = some row ∧ row.assignedDriverId = some d ∧
    row.orderStatus ∈ activeTrackingStatuses

/-- The call is a location update of the driver, or recalculates an ETA for the driver. -/
def Call.Locates (call : Call) (d : DriverId) : Prop :=
  (∃ lat lng, call = .request (.handleLocationUpdate d lat lng)) ∨
    ∃ o, call.Handles (.recalculate_eta o d)

/-- The effects by which such a call tracks an order for a driver: it broadcasts a position of
its driver, or adds an ETA job. -/
inductive Call.Tracks (call : Call) : OrderId × DriverId → Effect → Prop
  | broadcast (o : OrderId) (d : DriverId) (lat lng : ℚ) (eta : Option ℤ) (h : call.Locates d) :
      call.Tracks (o, d) (.emit (.locationBroadcast o lat lng eta))
  | schedule (o : OrderId) (d d' : DriverId) (delay : ℕ) (h : call.Locates d') :
      call.Tracks (o, d) (.addJob .TRACKING_QUEUE (.recalculateEta o) (.recalculate_eta o d) delay)

/-- The answers from which such a call takes that a driver has an order: the key of the
driver, the query, and the row with its driver. -/
def Names : OrderId × DriverId → (e : Effect) → Except Error e.Resp → Prop
  | (o, d), .redisGet (.ACTIVE_ORDER_KEY d'), r => d' = d ∧ r = .ok (some o)
  | (o, d), .findActiveOrder d', r => d' = d ∧ ∃ row : Order, r = .ok (some row) ∧ row.id = o
  | (o, d), .findOrder o', r =>
      o' = o ∧ ∃ row : Order, r = .ok (some row) ∧ row.assignedDriverId = some d
  | _, _, _ => False

/-- In a move, a read is answered with the order and the driver. -/
def NamedIn (cfg : DispatchConfig) (x : OrderId × DriverId) (m : Transition.Move (Sys Q) Action) :
    Prop :=
  ∃ i ch e, m.act = .exec i ch ∧ m.src.next i = some e ∧ Names x e (perform cfg ch e m.src.shared).1

/-- Call `i` has read that the driver has the order, and may still track it. -/
def Tracking (cfg : DispatchConfig) (earlier : List (Transition.Move (Sys Q) Action)) (s : Sys Q)
    (i : ℕ) (o : OrderId) (d : DriverId) : Prop :=
  DoneBy (NamedIn cfg) i earlier (o, d) ∧
    ∃ th, s.threads.lookup i = some th ∧ ¬ th.prog.All fun e => ¬ th.call.Tracks (o, d) e

/-- What a tracking call reads is so: the order that the key of a driver names is being
delivered by the driver, and so is an order whose row names the driver of the job. And no step
ends a delivery that a call is tracking. -/
structure TrackingClear (cfg : DispatchConfig) (earlier : List (Transition.Move (Sys Q) Action))
    (m : Transition.Move (Sys Q) Action) : Prop where
  cached : ∀ i ch o d, m.act = .exec i ch → m.src.next i = some (.redisGet (.ACTIVE_ORDER_KEY d)) →
    m.src.shared.redis.lookup (.ACTIVE_ORDER_KEY d) = some o → Delivering m.src o d
  found : ∀ i ch call o d row, m.act = .exec i ch → m.src.call i = some call → call.Locates d →
    m.src.next i = some (.findOrder o) → m.src.shared.db.findOrder o = some row →
    row.assignedDriverId = some d → row.orderStatus ∈ activeTrackingStatuses
  kept : ∀ i o d, Tracking cfg earlier m.src i o d → Delivering m.src o d → Delivering m.dst o d

/-- An order that is tracked for a driver in a move is being delivered by the driver. -/
def TracksDelivering (m : Transition.Move (Sys Q) Action) : Prop :=
  ∀ i ch call o d e, m.act = .exec i ch → m.src.call i = some call → m.src.next i = some e →
    call.Tracks (o, d) e → Delivering m.src o d

/-! ## A call tracks what it has read -/

/-- What is left of a call tracks orders that it has read, for its driver, and those of `G`. -/
abbrev TracksRead {α : Type} (call : Call) (p : Prog α) (G : OrderId × DriverId → Prop) : Prop :=
  p.Earns (fun x e r => Names x e r ∧ call.Locates x.2) call.Tracks (fun _ _ => True) G

section Methods

variable {call : Call} {G : OrderId × DriverId → Prop} {α : Type}

/-- An effect by which no call tracks an order. -/
def NoTracking : Effect → Prop
  | .emit (.locationBroadcast _ _ _ _) => False
  | .addJob .TRACKING_QUEUE _ _ _ => False
  | _ => True

theorem not_tracks {e : Effect} (h : NoTracking e) (x : OrderId × DriverId) :
    ¬ call.Tracks x e := by
  rintro (_ | _) <;> exact h

/-- A program without tracking. -/
theorem tracksRead_of_all {p : Prog α} (h : p.All NoTracking) : TracksRead call p G :=
  earns_of_all (h.mono fun _ he x => not_tracks he x)

theorem cancelEtaJob_noTracking (o : OrderId) :
    (TrackingService.cancelEtaJob o).All NoTracking :=
  cancelEtaJob_all trivial (fun _ => trivial) (fun _ => trivial) trivial

/-- All that is tracked is in `G`. -/
theorem tracksRead_of_granted {p : Prog α} (h : p.All fun e => ∀ x, call.Tracks x e → G x) :
    TracksRead call p G :=
  earns_of_granted h

/-- To broadcast a position of the driver to an order of `G`, and to add its ETA job. -/
theorem track_read (hcall : ∀ d', call.Locates d' → d' = d) (hG : G (o, d)) (lat lng : ℚ) :
    TracksRead call (do
      EventPublisherService.notifyLocationBroadcast o lat lng none
      TrackingService.ensureEtaJobScheduled o d
      return some o : Prog (Option OrderId)) G := by
  have hask : ∀ {e : Effect}, NoTracking e → (ask e).All fun e => ∀ x, call.Tracks x e → G x :=
    fun he => all_perform fun x hx => absurd hx (not_tracks he x)
  refine tracksRead_of_granted (.bind (.tryCatch (all_perform ?_) fun _ => trivial) fun _ =>
    .bind (.bind (hask trivial) fun existing => ?_) fun _ => trivial)
  · rintro x (⟨_, d', _, _, _, h⟩ | _)
    rw [hcall d' h]
    exact hG
  · split
    · trivial
    · refine .bind (all_perform ?_) fun jobId => hask trivial
      rintro x (_ | _)
      exact hG

theorem handleLocationUpdate_read {lat lng : ℚ}
    (hcall : call = .request (.handleLocationUpdate d lat lng)) :
    TracksRead call (TrackingService.handleLocationUpdate d lat lng) G := by
  have hlocates : ∀ d', call.Locates d' → d' = d := by
    rintro d' (⟨_, _, h⟩ | ⟨_, h | ⟨_, _, h⟩⟩) <;> rw [hcall] at h <;> cases h
    rfl
  have hself : call.Locates d := .inl ⟨lat, lng, hcall⟩
  refine earns_perform_bind (fun x h => by cases h) fun _ _ => ?_
  refine ⟨fun x h => (by cases h), fun r _ => ?_⟩
  rcases r with err | _ | orderId
  · trivial
  -- nothing is kept under the key, and the query finds an order or none
  · refine ⟨fun x h => (by cases h), fun r _ => ?_⟩
    rcases r with err | _ | active
    · trivial
    · trivial
    · refine ⟨fun x h => (by cases h), fun r _ => ?_⟩
      cases r with
      | error err => trivial
      | ok u => exact track_read hlocates (.inl (.inr ⟨⟨rfl, active, rfl, rfl⟩, hself⟩)) lat lng
  · exact track_read hlocates (.inr ⟨⟨rfl, rfl⟩, hself⟩) lat lng

theorem handleEtaRecalculation_read (hcall : call.Handles (.recalculate_eta o d)) :
    TracksRead call (TrackingService.handleEtaRecalculation cfg o d) G := by
  have hlocates : ∀ d', call.Locates d' → d' = d := by
    rcases hcall with rfl | ⟨_, _, rfl⟩ <;>
      rintro d' (⟨_, _, h⟩ | ⟨_, h | ⟨_, _, h⟩⟩) <;> cases h <;> rfl
  have hcancel : ∀ {G}, TracksRead call (TrackingService.cancelEtaJob o) G := fun {_} =>
    tracksRead_of_all (cancelEtaJob_noTracking o)
  refine earns_perform_bind (fun x h => by cases h) fun found _ => ?_
  cases found with
  | none => exact hcancel
  | some order =>
      dsimp only
      split
      · exact hcancel
      next hdriver =>
      -- the row has named the driver
      have hnamed : Names (o, d) (.findOrder o) (.ok (some order)) ∧ call.Locates d :=
        ⟨⟨rfl, order, rfl, not_not.mp hdriver⟩, .inr ⟨o, hcall⟩⟩
      refine earns_perform_bind (fun x h => by cases h) fun driver _ => ?_
      cases driver with
      | none => exact hcancel
      | some driver =>
          dsimp only
          split
          · refine tracksRead_of_granted (.bind (.tryCatch (all_perform ?_) fun _ => trivial)
              fun _ => .bind (all_perform ?_) fun jobId => all_perform fun x h => by cases h)
            · rintro x (⟨_, d', _, _, _, h⟩ | _)
              rw [hlocates d' h]
              exact .inl (.inr hnamed)
            · rintro x (_ | _)
              exact .inl (.inr hnamed)
          · exact hcancel

/-- **Every call tracks only orders that it has read.** -/
theorem program_read (call : Call) : TracksRead call (call.program cfg) G := by
  by_cases hcall : ∃ d, call.Locates d
  · obtain ⟨d, ⟨lat, lng, rfl⟩ | ⟨o, hhandles⟩⟩ := hcall
    · exact .bind (handleLocationUpdate_read rfl) fun _ => trivial
    · have heta : TracksRead call (process cfg (.recalculate_eta o d)) G :=
        handleEtaRecalculation_read hhandles
      rcases hhandles with rfl | ⟨queue, jobId, rfl⟩
      · exact .bind heta fun _ => trivial
      · refine .bind (.bind (.tryCatch (.bind heta fun _ => trivial) fun _ => trivial) fun ok => ?_)
          fun _ => trivial
        exact earns_of_all (all_perform fun x h => by cases h)
  · have hnone : ∀ e x, ¬ call.Tracks x e := by
      rintro e x (⟨_, d, _, _, _, h⟩ | ⟨_, _, d, _, h⟩) <;> exact hcall ⟨d, h⟩
    exact earns_of_all ((program_performs call).mono fun e _ x => hnone e x)

end Methods

/-! ## A delivery that is tracked goes on -/

/-- A call tracks orders for its own driver. -/
theorem tracks_own (call : Call) :
    (call.program cfg).All fun e => ∀ x, call.Tracks x e → call.Locates x.2 :=
  (program_read (G := fun _ => False) call).all (fun _ h => h.elim) fun _ _ _ h => h.2

/-- The reads and the tracking of the calls of a run go together. -/
theorem tracking_earnings : Earnings (Q := Q) cfg Names Call.Tracks (fun _ _ => True) (NamedIn cfg)
    fun _ => True where
  program call := (program_read call).imp fun _ _ _ h => h.1
  step _ i ch _ _ e _ _ _ _ hi := ⟨trivial, fun _ hx => ⟨i, ch, e, rfl, Sys.next_of_lookup hi, hx⟩⟩
  fail e := by
    refine ⟨trivial, fun x hx => ?_⟩
    cases e <;> try exact hx
    · obtain ⟨-, row, h, -⟩ := hx
      cases h
    · obtain ⟨-, row, h, -⟩ := hx
      cases h
    · next key =>
        cases key with
        | ACTIVE_ORDER_KEY d => cases hx.2
        | _ => exact hx

/-- A call that has gone on in a run is there. -/
theorem lookup_of_done {ch : Choice} (run : Transition.Run (logistics Q cfg) tr s)
    {m : Transition.Move (Sys Q) Action} (hm : m ∈ tr) (ha : m.act = .exec i ch) :
    s.threads.lookup i ≠ none := by
  induction run with
  | init h => cases hm
  | @snoc tr s s' a run hstep ih =>
      have hkeep : s.threads.lookup i ≠ none → s'.threads.lookup i ≠ none := by
        intro hi
        have hinsert : ∀ {j th}, s'.threads = s.threads.insert j th →
            s'.threads.lookup i ≠ none := by
          intro j th hth
          rw [hth]
          by_cases hij : i = j
          · subst hij
            rw [AList.lookup_insert]
            exact Option.some_ne_none _
          · rwa [AList.lookup_insert_ne hij]
        cases call_step hstep with
        | same hth => rwa [hth]
        | made _ hth => exact hinsert hth
        | went _ _ _ hth => exact hinsert hth
        | failed _ _ _ hth => exact hinsert hth
      rcases List.mem_cons.mp hm with rfl | hm
      · refine hkeep ?_
        obtain rfl : a = .exec i ch := ha
        obtain ⟨call, e, k, hi, -⟩ := Pool.advance_eq_some hstep
        rw [hi]
        exact Option.some_ne_none _
      · exact hkeep (ih hm)

/-- Where a read names an order and a driver who may be tracked, the driver delivers the
order. -/
theorem delivering_of_named {earlier : List (Transition.Move (Sys Q) Action)} {ch : Choice}
    {call : Call} {e : Effect} {k : Except Error e.Resp → Prog Response}
    (hclear : TrackingClear cfg earlier ⟨s, .exec i ch, s'⟩)
    (hi : s.threads.lookup i = some ⟨call, .op e k⟩) (hlocates : call.Locates d)
    (hnames : Names (o, d) e (perform cfg ch e s.shared).1) : Delivering s o d := by
  have hnext := Sys.next_of_lookup hi
  unfold Names at hnames
  split at hnames
  · next o' d₁ d₂ r heq =>
      obtain ⟨rfl, rfl⟩ := Prod.mk.inj heq
      obtain ⟨rfl, hread⟩ := hnames
      exact hclear.cached i ch _ _ rfl hnext (Except.ok.inj hread)
  · next o' d₁ d₂ r heq =>
      obtain ⟨rfl, rfl⟩ := Prod.mk.inj heq
      obtain ⟨rfl, row, hread, rfl⟩ := hnames
      -- the query has asked for the driver and the status
      have hmem := List.mem_rotate.mp (List.mem_of_mem_head? (Except.ok.inj hread))
      simp only [List.mem_filter, Bool.and_eq_true, decide_eq_true_eq] at hmem
      obtain ⟨hrow, ⟨-, hd⟩, hstatus⟩ := hmem
      exact ⟨row, Table.mem_toList.mp hrow, hd, hstatus⟩
  · next o' d₁ o'' r heq =>
      obtain ⟨rfl, rfl⟩ := Prod.mk.inj heq
      obtain ⟨rfl, row, hread, hd⟩ := hnames
      have hfound := Except.ok.inj hread
      exact ⟨row, (Db.findOrder_eq_some.mp hfound).1, hd,
        hclear.found i ch call _ _ row rfl (Sys.call_of_lookup hi) hlocates hnext hfound hd⟩
  · exact hnames.elim

/-- A read leaves deliveries as they are. -/
theorem delivering_of_read {ch : Choice} {call : Call} {e : Effect}
    {k : Except Error e.Resp → Prog Response} {x : OrderId × DriverId}
    {r : Except Error e.Resp} (hi : s.threads.lookup i = some ⟨call, .op e k⟩)
    (hstep : step cfg s (.exec i ch) = some s') (hnames : Names x e r)
    (h : Delivering s o d) : Delivering s' o d := by
  have horders : s'.shared.db.orders = s.shared.db.orders := by
    rw [(exec_eq_some hi hstep).1]
    refine (perform_orders ?_ ?_).1
    · rintro t rfl
      exact hnames
    · rintro o rfl
      exact hnames
  obtain ⟨row, hrow, hd⟩ := h
  refine ⟨row, ?_, hd⟩
  rw [Sys.order, horders]
  exact hrow

/-- All along a run in which what tracking calls read is so and stays so, what a call has read
and may still track is being delivered. -/
theorem delivering_of_tracking (run : Transition.Run (logistics Q cfg) tr s)
    (hclear : ∀ later earlier m, tr = later ++ m :: earlier → TrackingClear cfg earlier m)
    (h : Tracking cfg tr s i o d) : Delivering s o d := by
  refine run.invariant_trace (P := fun tr s => (∀ later earlier m, tr = later ++ m :: earlier →
    TrackingClear cfg earlier m) → ∀ i o d, Tracking cfg tr s i o d → Delivering s o d) ?_ ?_
    hclear i o d h
  · rintro s - - i o d ⟨⟨m, hm, -⟩, -⟩
    cases hm
  intro tr s a s' run ih hstep hclear i o d ⟨hdone, th', hi', hmay⟩
  have hlast := hclear [] tr _ rfl
  have ih := ih fun later earlier m htr => hclear (_ :: later) earlier m (by rw [htr]; rfl)
  -- what is left of the call now was left of it before
  have hback : ∀ {call e k r}, s.threads.lookup i = some ⟨call, .op e k⟩ → th' = ⟨call, k r⟩ →
      ¬ (op e k : Prog Response).All fun e => ¬ call.Tracks (o, d) e := by
    rintro call e k r - rfl hall
    exact hmay (hall.2 r)
  have hkept : DoneBy (NamedIn cfg) i tr (o, d) →
      (∃ th, s.threads.lookup i = some th ∧ ¬ th.prog.All fun e => ¬ th.call.Tracks (o, d) e) →
      Delivering s' o d :=
    fun hold hmay => hlast.kept i o d ⟨hold, hmay⟩ (ih i o d ⟨hold, hmay⟩)
  obtain ⟨m, hm, ⟨ch, ha⟩, hnamed⟩ := hdone
  rcases List.mem_cons.mp hm with rfl | hm
  -- this step is the read
  · obtain rfl : a = .exec i ch := ha
    obtain ⟨i', ch', e', ha', hnext, hnames⟩ := hnamed
    obtain ⟨rfl, rfl⟩ := Action.exec.inj ha'
    obtain ⟨call, k, hi⟩ := Sys.lookup_of_next hnext
    obtain ⟨-, hth⟩ := exec_eq_some hi hstep
    rw [hth, AList.lookup_insert] at hi'
    obtain rfl := Option.some.inj hi'
    have hlocates : call.Locates d := by
      by_contra hno
      have hall := forallThreads_of_reachable
        (T := fun call p => p.All fun e => ∀ x, call.Tracks x e → call.Locates x.2)
        (fun _ _ _ h => h.2) tracks_own run.reachable i _ hi
      exact hback hi rfl (hall.mono fun e he htracks => hno (he _ htracks))
    exact delivering_of_read hi hstep hnames (delivering_of_named hlast hi hlocates hnames)
  · have hold : DoneBy (NamedIn cfg) i tr (o, d) := ⟨m, hm, ⟨ch, ha⟩, hnamed⟩
    have hthere := lookup_of_done run hm ha
    refine hkept hold ?_
    cases call_step hstep with
    | same hth => exact ⟨th', by rwa [hth] at hi', hmay⟩
    | @made j call hfree hth =>
        have hij : i ≠ j := by
          rintro rfl
          exact hthere hfree
        exact ⟨th', by rwa [hth, AList.lookup_insert_ne hij] at hi', hmay⟩
    | @went j ch call e k _ hj _ hth =>
        rw [hth] at hi'
        rcases Pool.lookup_insert_cases hi' with ⟨rfl, rfl⟩ | ⟨-, hi'⟩
        · exact ⟨_, hj, hback hj rfl⟩
        · exact ⟨th', hi', hmay⟩
    | @failed j call e k _ hj _ hth =>
        rw [hth] at hi'
        rcases Pool.lookup_insert_cases hi' with ⟨rfl, rfl⟩ | ⟨-, hi'⟩
        · exact ⟨_, hj, hback hj rfl⟩
        · exact ⟨th', hi', hmay⟩

/-- **When tracking is of a delivery**: in every run in which what tracking calls read is so,
and no delivery ends while it is tracked. -/
theorem tracking_while_delivering (run : Transition.Run (logistics Q cfg) tr s)
    (hclear : ∀ later earlier m, tr = later ++ m :: earlier → TrackingClear cfg earlier m) :
    ∀ m ∈ tr, TracksDelivering m := by
  intro m hm i ch call o d e hact hcall hnext htracks
  obtain ⟨later, earlier, rfl⟩ := List.append_of_mem hm
  obtain ⟨run₁, -, -⟩ := run.of_suffix
  obtain ⟨call', k, hi⟩ := Sys.lookup_of_next hnext
  rw [Sys.call_of_lookup hi] at hcall
  obtain rfl := Option.some.inj hcall
  -- what is tracked has been read before
  have hread := (earns_of_run tracking_earnings run₁ (fun _ _ => trivial) i _ hi).1 _ htracks
  refine delivering_of_tracking run₁ (fun later' earlier' m' h => ?_) ⟨hread, _, hi, ?_⟩
  · exact hclear (later ++ m :: later') earlier' m' (by rw [h, List.append_assoc]; rfl)
  · exact fun hall => hall.1 htracks

/-! ### In the small system -/

/-- The driver accepts the trip, call `3`, and sends a position, call `4`, which leaves the
trip under the key of the driver. -/
def locatedTrip : List Action :=
  orderTrip ++ offerTrip ++
    .invoke 3 (.acceptDispatch sampleOrder sampleDriver) :: proceed 3 9 sampleChoice ++
    .invoke 4 (.handleLocationUpdate sampleDriver 1 1) :: proceed 4 5 sampleChoice

/-- The trip is cancelled by an admin, and the driver sends another position: call `6`. -/
def locatedOnce : List Action :=
  locatedTrip ++ .exec 4 sampleChoice ::
    .invoke 5 (.cancelOrder sampleOrder sampleAdmin) :: proceed 5 6 sampleChoice ++
    .invoke 6 (.handleLocationUpdate sampleDriver 2 2) :: proceed 6 3 sampleChoice

theorem trip_located : ((logistics BullQueue (sampleConfig 3)).exec (start [carDriver])
    locatedTrip).isSome := by
  decide +kernel

theorem located_once : ((logistics BullQueue (sampleConfig 3)).exec (start [carDriver])
    locatedOnce).isSome := by
  decide +kernel

/-- The order and the driver of a position that a location update broadcasts in a move, as a
computation. -/
def broadcastIn (m : Transition.Move (Sys Q) Action) : Option (OrderId × DriverId) :=
  match m.act with
  | .exec i _ =>
      match m.src.call i, m.src.next i with
      | some (.request (.handleLocationUpdate d _ _)), some (.emit (.locationBroadcast o _ _ _)) =>
          some (o, d)
      | _, _ => none
  | _ => none

omit [JobQueue Q JobId JobData] in
theorem broadcastIn_eq_some {m : Transition.Move (Sys Q) Action} (h : broadcastIn m = some (o, d)) :
    ∃ i ch call e, m.act = .exec i ch ∧ m.src.call i = some call ∧ m.src.next i = some e ∧
      call.Tracks (o, d) e := by
  unfold broadcastIn at h
  split at h
  · next i ch hact =>
      split at h
      · next d' lat lng o' lat' lng' eta hcall hnext =>
          obtain ⟨rfl, rfl⟩ := Prod.mk.inj (Option.some.inj h)
          exact ⟨i, ch, _, _, hact, hcall, hnext, .broadcast _ _ _ _ _ (.inl ⟨lat, lng, rfl⟩)⟩
      · cases h
  · cases h

/-- A position is broadcast to a trip that was cancelled. -/
theorem cancelled_trip_tracked : ∃ tr s m,
    Transition.Run (logistics BullQueue (sampleConfig 3)) tr s ∧ m ∈ tr ∧ ¬ TracksDelivering m := by
  let moves := (logistics BullQueue (sampleConfig 3)).moves [] (start [carDriver]) locatedOnce
  have hhead : (moves.head?.bind fun m => (broadcastIn m).map fun x =>
      (x, m.src.status sampleOrder))
      = some ((sampleOrder, sampleDriver), some CANCELLED) := by decide +kernel
  obtain ⟨m, hm, hbroadcast⟩ := Option.bind_eq_some_iff.mp hhead
  obtain ⟨x, hbroadcast, heq⟩ := Option.map_eq_some_iff.mp hbroadcast
  obtain ⟨rfl, hstatus⟩ := Prod.mk.inj heq
  obtain ⟨i, ch, call, e, hact, hcall, hnext, htracks⟩ := broadcastIn_eq_some hbroadcast
  refine ⟨moves, _, m, after_run located_once, List.mem_of_mem_head? hm, fun h => ?_⟩
  obtain ⟨row, hrow, -, hactive⟩ := h i ch call _ _ e hact hcall hnext htracks
  rw [Sys.status, hrow, Option.map_some, Option.some.injEq] at hstatus
  rw [hstatus] at hactive
  exact absurd hactive (by decide)

/-- Whether a step finds nothing under the key of a driver, begins no recalculation of an ETA,
and leaves all deliveries as they are, as a computation. -/
def deliveriesKept (m : Transition.Move (Sys Q) Action) : Bool :=
  (match m.act with
  | .exec i _ =>
      match m.src.call i, m.src.next i with
      | _, some (.redisGet (.ACTIVE_ORDER_KEY d)) =>
          (m.src.shared.redis.lookup (.ACTIVE_ORDER_KEY d)).isNone
      | some (.worker _ _ (.ASSIGN_DRIVER _)), some (.findOrder _) => true
      | _, some (.findOrder _) => false
      | _, _ => true
  | _ => true) &&
  m.src.shared.db.orders.toList.all fun row =>
    decide (row.orderStatus ∉ activeTrackingStatuses) ||
      decide (m.dst.shared.db.orders.find row.id = some row)

theorem trackingClear_of_deliveriesKept
    {earlier : List (Transition.Move (Sys Q) Action)} {m : Transition.Move (Sys Q) Action}
    (h : deliveriesKept m = true) : TrackingClear cfg earlier m := by
  unfold deliveriesKept at h
  rw [Bool.and_eq_true, List.all_eq_true] at h
  refine ⟨?_, ?_, ?_⟩
  · intro i ch o d hact hnext hkey
    obtain ⟨call, k, hi⟩ := Sys.lookup_of_next hnext
    simp [hact, hnext, Sys.call_of_lookup hi, hkey] at h
  · intro i ch call o d row hact hcall hlocates hnext _ _
    rcases hlocates with ⟨_, _, rfl⟩ | ⟨_, rfl | ⟨_, _, rfl⟩⟩ <;> simp [hact, hnext, hcall] at h
  · rintro i o d - ⟨row, hrow, hd, hstatus⟩
    have hkept := h.2 row (Table.mem_toList_of_find hrow)
    rw [Bool.or_eq_true, decide_eq_true_eq, decide_eq_true_eq] at hkept
    have hid : row.id = o := Table.key_of_find hrow
    rw [hid] at hkept
    exact ⟨row, hkept.resolve_left fun hno => hno hstatus, hd, hstatus⟩

/-- The position of the driver who has accepted the trip is broadcast to it. -/
theorem tracking_while_delivering_of_trip : ∃ m : Transition.Move (Sys BullQueue) Action,
    broadcastIn m = some (sampleOrder, sampleDriver) ∧ TracksDelivering m := by
  let moves := (logistics BullQueue (sampleConfig 3)).moves [] (start [carDriver]) locatedTrip
  have hhead : (moves.head?.bind broadcastIn) = some (sampleOrder, sampleDriver) := by
    decide +kernel
  have hall : moves.all deliveriesKept = true := by decide +kernel
  rw [List.all_eq_true] at hall
  obtain ⟨m, hm, hbroadcast⟩ := Option.bind_eq_some_iff.mp hhead
  refine ⟨m, hbroadcast, tracking_while_delivering (after_run trip_located) ?_ m
    (List.mem_of_mem_head? hm)⟩
  intro later earlier m' h
  have hmem : m' ∈ moves := by
    rw [show moves = later ++ m' :: earlier from h]
    exact List.mem_append_right _ List.mem_cons_self
  exact trackingClear_of_deliveriesKept (hall m' hmem)

end LogisticsDispatch
