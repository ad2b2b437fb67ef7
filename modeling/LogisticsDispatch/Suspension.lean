/-
A suspension is not lost.

`toggleAvailability` reads the driver without a lock, looks at the flag on its copy, and
saves the whole entity, the flag included. What would make its copy stale is a
`toggleSuspension` in between. That call locks the driver with the user joined to it by a
left join, which PostgreSQL refuses, so it fails for every driver and changes nothing
(`toggleSuspensionTx_refused`).

So the flag of a driver stays what it was, in the table and in every copy that a call
holds, and of a driver who is suspended no copy is ever saved: `toggleAvailability` refuses
who is suspended and offline. That is the invariant (`FlagKept`), for a driver of either
flag, and from it a suspension is kept over every run (`suspension_kept`).
-/
import LogisticsDispatch.Bookings
import LogisticsDispatch.Footprint

set_option autoImplicit false

namespace LogisticsDispatch

open Resumable Resumable.Program

variable {Q : Type} [JobQueue Q JobId JobData] {cfg : DispatchConfig} {s s' : Sys Q} {a : Action}
  {d : DriverId}

/-! ## One step, seen by one driver -/

/-- The row of a driver. -/
def Sys.driver (s : Sys Q) (d : DriverId) : Option Driver := s.shared.db.drivers.find d

/-- All that a step can do to a driver. -/
inductive DriverStep (s : Sys Q) (a : Action) (s' : Sys Q) (d : DriverId) : Prop
  | same (hsame : s'.driver d = s.driver d)
  | created {row : Driver} (hnone : s.driver d = none) (hrow : s'.driver d = some row)
      (hoffline : row.onlineStatus = false) (hfree : row.isSuspended = false)
  | saved {i : ℕ} {ch : Choice} {driver row : Driver} (ha : a = .exec i ch)
      (hnext : s.next i = some (.saveDriver driver)) (hid : driver.id = d)
      (hrow : s.driver d = some row) (hrow' : s'.driver d = some driver)
  | located {row : Driver} (lat lng : ℚ) (hrow : s.driver d = some row)
      (hrow' : s'.driver d
        = some { row with currentLatitude := some lat, currentLongitude := some lng })

/-- Only a promotion writes drivers. -/
theorem run_drivers {t : Transaction} {ch : Choice} {db db' : Db} {res : t.Result}
    (hchecked : t.Checked db) (h : t.run cfg ch db = .ok (res, db'))
    (hp : ∀ u v, t ≠ .promoteToDriver u v) :
    db'.drivers = db.drivers := by
  have hmoved : ∀ {o m actor now}, db.move cfg o m actor now = some db' →
      db'.drivers = db.drivers := by
    intro o m actor now hmove
    obtain ⟨-, -, -, -, -, -, -, -, hdrivers, -⟩ := Db.move_spec hmove
    exact hdrivers
  cases t with
  | toggleSuspension d => cases (DriversService.toggleSuspensionTx_refused d db).symm.trans h
  | promoteToDriver u v => exact absurd rfl (hp u v)
  | createOrder dto c p =>
      obtain ⟨-, -, -, -, -, -, -, hdrivers, -⟩ := OrdersService.createOrderTx_ok h
      exact hdrivers
  | assignDriverWithLock o cands =>
      rcases DispatchService.assignDriverWithLockTx_ok h with ⟨-, rfl⟩ | ⟨_, _, -, -, -, -, hmove⟩
      · rfl
      · exact hmoved hmove
  | expireOrder o =>
      have hdb := (Prod.mk.inj (Except.ok.inj
        ((DispatchService.expireOrderTx_eq cfg).symm.trans h))).2
      cases hmove : db.move cfg o .expire "system" ch.now with
      | none =>
          rw [hmove] at hdb
          rw [← hdb]
          rfl
      | some db'' =>
          rw [hmove] at hdb
          obtain rfl : db'' = db' := hdb
          exact hmoved hmove
  | handleDispatchTimeout o d =>
      rcases DispatchService.handleDispatchTimeoutTx_ok h with ⟨-, rfl⟩ | ⟨-, hmove⟩
      · rfl
      · exact hmoved hmove
  | acceptDispatch o d =>
      rcases DispatchService.acceptDispatchTx_ok h with ⟨-, rfl⟩ | ⟨-, hmove⟩
      · rfl
      · exact hmoved hmove
  | rejectDispatch o d =>
      rcases DispatchService.rejectDispatchTx_ok h with ⟨-, rfl⟩ | ⟨-, hmove⟩
      · rfl
      · exact hmoved hmove
  | updateStatus o order newStatus user =>
      obtain ⟨hcopy, hactor, htransition⟩ := hchecked
      obtain ⟨⟨_, -, -, -, hmove⟩, -⟩ := OrdersService.updateStatusTx_ok
        (copy_status hcopy) (may_advance hactor htransition) h
      exact hmoved hmove
  | reassignOrder o order user =>
      obtain ⟨hcopy, hexp⟩ := hchecked
      obtain ⟨⟨_, -, -, -, hmove⟩, -⟩ := OrdersService.reassignOrderTx_ok (copy_status hcopy) hexp h
      exact hmoved hmove

/-- What a transaction does to a driver. -/
theorem driver_step_of_transaction {i : ℕ} {ch : Choice} {t : Transaction}
    {call : Call} {k : Except Error t.Result → Prog Response}
    (hs : Transition.Reachable (logistics Q cfg) s)
    (hi : s.threads.lookup i = some ⟨call, .op (.transaction t) k⟩)
    (hsh : s'.shared = (perform cfg ch (.transaction t) s.shared).2) (d : DriverId) :
    DriverStep s (.exec i ch) s' d := by
  obtain ⟨-, hchecked⟩ := guar_of_next hs hi
  simp only [perform] at hsh
  split at hsh
  · exact .same (by rw [Sys.driver, hsh]; rfl)
  next res db' hrun =>
  have hdb : s'.shared.db = db' := by rw [hsh]
  by_cases hp : ∃ u v, t = .promoteToDriver u v
  · obtain ⟨u, v, rfl⟩ := hp
    have hrun : UsersService.promoteToDriverTx ch u v s.shared.db = .ok (res, db') := hrun
    unfold UsersService.promoteToDriverTx at hrun
    split at hrun
    · cases hrun
    split at hrun
    · cases hrun
    next hnew =>
      obtain ⟨-, rfl⟩ := Prod.mk.inj (Except.ok.inj hrun)
      by_cases hd : d = ch.driverId
      · subst hd
        have hrow : s'.driver ch.driverId
            = some ⟨ch.driverId, u, v, false, none, none, false⟩ := by
          rw [Sys.driver, hdb]
          exact Table.find_put_of_eq rfl
        exact .created (Option.not_isSome_iff_eq_none.mp hnew) hrow rfl rfl
      · refine .same ?_
        rw [Sys.driver, hdb]
        exact Table.find_put_of_ne hd
  · refine .same ?_
    rw [Sys.driver, hdb, run_drivers hchecked hrun fun u v h => hp ⟨u, v, h⟩]
    rfl

/-- **All that a step does to a driver.** -/
theorem driver_step (hs : Transition.Reachable (logistics Q cfg) s) (h : step cfg s a = some s')
    (d : DriverId) : DriverStep s a s' d := by
  by_cases ha : ∀ i ch, a ≠ .exec i ch
  · exact .same (by rw [Sys.driver, step_db_eq h ha]; rfl)
  obtain ⟨i, ch, rfl⟩ : ∃ i ch, a = .exec i ch := by
    simpa only [ne_eq, not_forall, not_not] using ha
  obtain ⟨call, e, k, hi, hsh, -⟩ := Pool.advance_eq_some h
  have hsh : s'.shared = (perform cfg ch e s.shared).2 := hsh
  have hsame : (perform cfg ch e s.shared).2.db.drivers = s.shared.db.drivers →
      DriverStep s (.exec i ch) s' d := by
    intro heq
    rw [← hsh] at heq
    exact .same (by rw [Sys.driver, heq]; rfl)
  cases e with
  | transaction t => exact driver_step_of_transaction hs hi hsh d
  | saveDriver driver =>
      obtain ⟨row, hrow, -⟩ := guar_of_next hs hi
      have hdrivers : s'.shared.db.drivers = s.shared.db.drivers.put driver := by rw [hsh]; rfl
      by_cases hd : d = driver.id
      · subst hd
        refine .saved rfl (Sys.next_of_lookup hi) rfl hrow ?_
        rw [Sys.driver, hdrivers]
        exact Table.find_put_self _ _
      · refine .same ?_
        rw [Sys.driver, hdrivers]
        exact Table.find_put_of_ne hd
  | updateDriverLocation d' lat lng =>
      cases hrow : s.shared.db.drivers.find d' with
      | none =>
          refine hsame ?_
          simp only [perform, hrow]
      | some row =>
          simp only [perform, hrow] at hsh
          have hid : row.id = d' := Table.key_of_find hrow
          have hdrivers : s'.shared.db.drivers = s.shared.db.drivers.put
              { row with currentLatitude := some lat, currentLongitude := some lng } := by
            rw [hsh]
            rfl
          by_cases hd : d = d'
          · subst hd
            refine .located lat lng hrow ?_
            rw [Sys.driver, hdrivers]
            exact Table.find_put_of_eq hid
          · refine .same ?_
            rw [Sys.driver, hdrivers]
            exact Table.find_put_of_ne fun heq => hd (heq.trans hid)
  | softDelete o =>
      refine hsame ?_
      simp only [perform, OrdersService.softDeleteRow]
      split <;> rfl
  | addJob queue j data delay => cases queue <;> exact hsame rfl
  | removeJob queue j =>
      refine hsame ?_
      simp only [perform]
      split
      · rfl
      · cases queue <;> rfl
  | finishJob queue j ok => cases queue <;> exact hsame rfl
  | _ => exact hsame rfl

/-! ## The flag stays -/

/-- The driver has the flag, and is offline if it is set. -/
structure Driver.Keeps (flag : Bool) (driver : Driver) : Prop where
  isSuspended : driver.isSuspended = flag
  offline : flag = true → driver.onlineStatus = false

/-- To save the driver with the other flag, or as suspended and online. -/
def SavesOther (d : DriverId) (flag : Bool) (_ : Unit) (e : Effect) : Prop :=
  ∃ driver, e = .saveDriver driver ∧ driver.id = d ∧ ¬ driver.Keeps flag

/-- The answers while the driver has the flag. -/
def FlagAnswer (d : DriverId) (flag : Bool) : (e : Effect) → Except Error e.Resp → Prop
  | .findDriverOfUser _, .ok (some driver) => driver.id = d → driver.Keeps flag
  | _, _ => True

/-- As long as what the program reads of the driver has the flag, what it saves has it. -/
abbrev SavesFlag (d : DriverId) (flag : Bool) (p : Prog Response) : Prop :=
  p.Earns (fun _ _ _ => False) (SavesOther d flag) (FlagAnswer d flag) fun _ => False

/-- `toggleAvailability` saves the flag that it has read, and refuses who is suspended and
offline. -/
theorem toggleAvailability_savesFlag (flag : Bool) (user : JwtUser) :
    SavesFlag d flag (DriversService.toggleAvailability user) := by
  refine earns_perform_bind (fun _ h => ?_) fun found hfound => ?_
  · obtain ⟨driver, h, -⟩ := h
    cases h
  · cases found with
    | none => trivial
    | some driver =>
        have hkeeps : driver.id = d → driver.Keeps flag := hfound
        dsimp only
        split
        · trivial
        next hmay =>
          refine earns_perform_bind ?_ fun _ _ => trivial
          rintro _ ⟨saved, hsaved, hid, hother⟩
          obtain rfl := Effect.saveDriver.inj hsaved
          have hkept := hkeeps hid
          refine (hother ⟨hkept.isSuspended, fun hflag => ?_⟩).elim
          -- the copy of who is suspended is offline, and was not let through
          rw [hkept.isSuspended, hflag, hkept.offline hflag] at hmay
          exact absurd rfl hmay

/-- Every call saves the driver with the flag it has read, if it saves the driver. -/
theorem program_savesFlag (flag : Bool) (call : Call) : SavesFlag d flag (call.program cfg) := by
  by_cases hcall : ∃ user, call = .request (.toggleAvailability user)
  · obtain ⟨user, rfl⟩ := hcall
    exact toggleAvailability_savesFlag flag user
  · refine earns_of_all ((program_performs call).mono fun e he _ h => ?_)
    obtain ⟨driver, rfl, -⟩ := h
    exact hcall he

/-- The driver has the flag, in the table and in every copy that a call holds. A driver who
is not there yet will be free. -/
structure FlagKept (flag : Bool) (s : Sys Q) (d : DriverId) : Prop where
  row : ∀ row, s.driver d = some row → row.Keeps flag
  absent : s.driver d = none → flag = false
  calls : Pool.ForallThreads (fun _ p => SavesFlag d flag p) s

omit [JobQueue Q JobId JobData] in
/-- No step changes the flag of a driver. -/
theorem DriverStep.keeps {flag : Bool} (h : DriverStep s a s' d) (hkept : FlagKept flag s d) :
    (∀ row, s'.driver d = some row → row.Keeps flag) ∧ (s'.driver d = none → flag = false) := by
  cases h with
  | same hsame =>
      rw [hsame]
      exact ⟨hkept.row, hkept.absent⟩
  | created hnone hrow hoffline hfree =>
      rw [hrow]
      refine ⟨fun row hrow' => ?_, fun h => by cases h⟩
      obtain rfl := Option.some.inj hrow'
      exact ⟨hfree.trans (hkept.absent hnone).symm, fun _ => hoffline⟩
  | saved _ hnext hid _ hrow =>
      rw [hrow]
      refine ⟨fun row hrow' => ?_, fun h => by cases h⟩
      obtain rfl := Option.some.inj hrow'
      obtain ⟨call, k, hi⟩ := Sys.lookup_of_next hnext
      by_contra hother
      exact (hkept.calls _ _ hi).1 () ⟨_, rfl, hid, hother⟩
  | located _ _ hrow hrow' =>
      rw [hrow']
      refine ⟨fun row hrow'' => ?_, fun h => by cases h⟩
      obtain rfl := Option.some.inj hrow''
      have hrest := hkept.row _ hrow
      exact ⟨hrest.isSuspended, hrest.offline⟩

/-- What a call reads of the driver has the flag the row has. -/
theorem flagAnswer_of_perform {flag : Bool} {ch : Choice} {e : Effect} (h : FlagKept flag s d) :
    FlagAnswer d flag e (perform cfg ch e s.shared).1 := by
  unfold FlagAnswer
  split
  · next e r u driver heq =>
      intro hid
      have hfound : (s.shared.db.drivers.toList.find? fun driver => decide (driver.userId = u))
          = some driver := Except.ok.inj heq
      have hrow := Table.mem_toList.mp (List.mem_of_find?_eq_some hfound)
      rw [hid] at hrow
      exact h.row driver hrow
  · trivial

theorem FlagKept.step {flag : Bool} (hs : Transition.Reachable (logistics Q cfg) s)
    (hstep : step cfg s a = some s') (h : FlagKept flag s d) : FlagKept flag s' d := by
  obtain ⟨hrow, habsent⟩ := (driver_step hs hstep d).keeps h
  refine ⟨hrow, habsent, ?_⟩
  cases call_step hstep with
  | same hth => exact h.calls.same hth
  | made _ hth => exact h.calls.insert hth (program_savesFlag _ _)
  | went _ hi _ hth =>
      refine h.calls.insert hth (((h.calls _ _ hi).2 _ ?_).mono fun _ => ?_)
      · exact flagAnswer_of_perform h
      · rintro (hno | hno) <;> exact hno
  -- a call that fails has read nothing
  | failed _ hi _ hth =>
      refine h.calls.insert hth (((h.calls _ _ hi).2 _ ?_).mono fun _ => ?_)
      · unfold FlagAnswer
        split
        · next heq => cases heq
        · trivial
      · rintro (hno | hno) <;> exact hno

/-- A driver who is suspended is offline. -/
def SuspendedOffline (s : Sys Q) (d : DriverId) : Prop :=
  ∀ row, s.driver d = some row → row.isSuspended = true → row.onlineStatus = false

/-- The flag a driver starts with. -/
def Sys.flag (s : Sys Q) (d : DriverId) : Bool := (s.driver d).any Driver.isSuspended

omit [JobQueue Q JobId JobData] in
theorem FlagKept.suspendedOffline {flag : Bool} (h : FlagKept flag s d) :
    SuspendedOffline s d := by
  intro row hrow hsuspended
  have hkeeps := h.row row hrow
  exact hkeeps.offline (hkeeps.isSuspended.symm.trans hsuspended)

/-- At the start no call holds a copy. -/
theorem FlagKept.of_initial (h₀ : Initial s) (hoffline : SuspendedOffline s d) :
    FlagKept (s.flag d) s d := by
  refine ⟨fun row hrow => ?_, fun hnone => ?_, fun i th hi => ?_⟩
  · have hflag : s.flag d = row.isSuspended := by rw [Sys.flag, hrow, Option.any_some]
    rw [hflag]
    exact ⟨rfl, hoffline row hrow⟩
  · rw [Sys.flag, hnone, Option.any_none]
  · rw [h₀.threads, AList.lookup_empty] at hi
    cases hi

section Runs

variable {s₀ : Sys Q} {tr : List (Transition.Move (Sys Q) Action)}

/-- The flag of a driver stays what it was, over every run. -/
theorem flagKept (h₀ : Initial s₀) (hoffline : SuspendedOffline s₀ d)
    (path : Transition.Path (logistics Q cfg) s₀ tr s) : FlagKept (s₀.flag d) s d := by
  refine path.invariant_trace (P := fun _ s => FlagKept (s₀.flag d) s d) (.init h₀) ?_ ?_
  · exact .of_initial h₀ hoffline
  · exact fun _ _ _ _ _ hs h hstep => h.step hs hstep

/-- The step changes whether the driver is suspended only as the commit of a
`toggleSuspension` of the driver. -/
def LiftsByToggle (d : DriverId) (m : Transition.Move (Sys Q) Action) : Prop :=
  ∀ row row', m.src.driver d = some row → m.dst.driver d = some row' →
    row'.isSuspended ≠ row.isSuspended →
    ∃ i ch, m.act = .exec i ch ∧ m.src.next i = some (.transaction (.toggleSuspension d))

/-- The step does not choose the driver for an order while the driver is suspended. -/
def PassesSuspended (d : DriverId) (m : Transition.Move (Sys Q) Action) : Prop :=
  ∀ row o, m.src.driver d = some row → row.isSuspended = true → ¬ Picks m.src m.act o d

omit [JobQueue Q JobId JobData] in
/-- Dispatch locks no driver who is suspended. -/
theorem passesSuspended (d : DriverId) (m : Transition.Move (Sys Q) Action) :
    PassesSuspended d m := by
  rintro row o hrow hsuspended ⟨_, ch, _, candidate, _, order, _, _, _, _, _, hfree, rfl⟩
  obtain ⟨driver, hlock⟩ := Option.isSome_iff_exists.mp hfree.2
  unfold DispatchService.lockDriver at hlock
  split at hlock
  · cases hlock
  · obtain ⟨hfind, hok⟩ := Option.filter_eq_some_iff.mp hlock
    have hrow : m.src.shared.db.drivers.find candidate.id = some row := hrow
    rw [hrow] at hfind
    obtain rfl := Option.some.inj hfind
    simp [hsuspended] at hok

/-- What suspension is for, all along a run: who is suspended is offline, stays suspended
until a `toggleSuspension` commits, and is not chosen by dispatch. -/
structure SuspensionKept (d : DriverId) (tr : List (Transition.Move (Sys Q) Action)) (s : Sys Q) :
    Prop where
  offline : SuspendedOffline s d ∧ ∀ m ∈ tr, SuspendedOffline m.src d ∧ SuspendedOffline m.dst d
  lifted : ∀ m ∈ tr, LiftsByToggle d m
  passed : ∀ m ∈ tr, PassesSuspended d m

/-- **A suspension is kept**, in every run from a state where the driver is offline if
suspended, as one who is offline and free is. -/
theorem suspension_kept (h₀ : Initial s₀) (hoffline : SuspendedOffline s₀ d)
    (path : Transition.Path (logistics Q cfg) s₀ tr s) : SuspensionKept d tr s := by
  -- the run up to a move, and up to behind it
  have hends : ∀ m ∈ tr, FlagKept (s₀.flag d) m.src d ∧ FlagKept (s₀.flag d) m.dst d := by
    intro m hm
    obtain ⟨later, earlier, rfl⟩ := List.append_of_mem hm
    obtain ⟨hbefore, hstep, -⟩ := path.before
    exact ⟨flagKept h₀ hoffline hbefore, flagKept h₀ hoffline (hbefore.snoc hstep)⟩
  refine ⟨⟨(flagKept h₀ hoffline path).suspendedOffline, fun m hm => ?_⟩, fun m hm => ?_,
    fun m _ => passesSuspended d m⟩
  · exact ⟨(hends m hm).1.suspendedOffline, (hends m hm).2.suspendedOffline⟩
  · intro row row' hrow hrow' hne
    have hsrc := ((hends m hm).1.row row hrow).isSuspended
    have hdst := ((hends m hm).2.row row' hrow').isSuspended
    exact absurd (hdst.trans hsrc.symm) hne

end Runs

/-! ### In the small system -/

/-- The driver of the small system, offline. -/
def restingDriver : Driver := { carDriver with onlineStatus := false }

/-- The driver is about to go online, an admin tries to suspend them, and the driver goes
on. -/
def toggledInBetween : List Action :=
  .invoke 0 (.toggleAvailability carDriverUser) :: proceed 0 1 sampleChoice ++
    .invoke 1 (.toggleSuspension sampleDriver) :: proceed 1 1 sampleChoice ++
    proceed 0 1 sampleChoice

theorem toggled_in_between : ((logistics BullQueue (sampleConfig 3)).exec
    (start [restingDriver]) toggledInBetween).isSome := by
  decide +kernel

/-- The driver goes online, and the suspension in between has left no trace. -/
theorem suspension_kept_in_between :
    SuspensionKept sampleDriver
      ((logistics BullQueue (sampleConfig 3)).moves [] (start [restingDriver]) toggledInBetween)
      (after (sampleConfig 3) [restingDriver] toggledInBetween toggled_in_between) := by
  refine suspension_kept (start_initial _) (fun row hrow _ => ?_)
    (Transition.Path.refl.exec (Option.some_get toggled_in_between).symm)
  have hfind : (start [restingDriver]).driver sampleDriver = some restingDriver := by
    decide +kernel
  rw [hfind] at hrow
  obtain rfl := Option.some.inj hrow
  rfl

end LogisticsDispatch
