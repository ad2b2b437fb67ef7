/-
Whose offer a timeout ends.

The job of a timeout is named after the order and the driver, not after the offer, and
`handleDispatchTimeout` compares the status and the driver. So it cannot tell an offer
from an earlier one to the same driver, and a driver can be asked again once the order was
reassigned.

Read off a run are the call that made the offer that is open (`offeredBy`), the call that
added the timeout (`enqueuedBy`), and that of the job a turn on the timeout was begun for
(`jobFrom`). They agree wherever a timeout ends an offer, if of the earlier offers nothing
was left when the offer was made (`OffersClear`).
-/
import LogisticsDispatch.Bookings
import LogisticsDispatch.Footprint
import LogisticsDispatch.QueueAndOutbox

set_option autoImplicit false

namespace LogisticsDispatch

open OrderStatus Lifecycle DispatchService Resumable Resumable.Program

variable {Q : Type} [JobQueue Q JobId JobData] {cfg : DispatchConfig} {s s' : Sys Q} {a : Action}
  {o : OrderId} {d : DriverId} {i w : ℕ} {tr : List (Transition.Move (Sys Q) Action)}

/-! ## Offers and timeouts, read off a run -/

/-- The call that made the latest offer of an order. -/
def offeredBy (o : OrderId) : List (Transition.Move (Sys Q) Action) → Option ℕ
  | [] => none
  | m :: tr =>
      if m.src.status o = some PENDING ∧ m.dst.status o = some DRIVER_ASSIGNED then
        match m.act with
        | .exec i _ => some i
        | _ => none
      else offeredBy o tr

/-- The call that adds the job in a move, if none is there under its id. -/
def adds (j : JobId) (m : Transition.Move (Sys Q) Action) : Option ℕ :=
  match m.act with
  | .exec i _ =>
      match m.src.next i with
      | some (.addJob .DISPATCH_QUEUE j' _ _) =>
          if j' = j ∧ (JobQueue.find m.src.shared.dispatchQueue j).isNone then some i else none
      | _ => none
  | _ => none

/-- The call that added the latest job under an id. -/
def enqueuedBy (j : JobId) : List (Transition.Move (Sys Q) Action) → Option ℕ
  | [] => none
  | m :: tr => (adds j m).or (enqueuedBy j tr)

/-- The call that added the job which call `w` was begun for: the one a worker has taken, or,
where a timeout is delivered once more, the latest under its id. -/
def jobFrom (w : ℕ) : List (Transition.Move (Sys Q) Action) → Option ℕ
  | [] => none
  | m :: tr =>
      match m.act with
      | .deliver i .DISPATCH_QUEUE j => if i = w then enqueuedBy j tr else jobFrom w tr
      | .invoke i (.process (.DISPATCH_TIMEOUT o d)) =>
          if i = w then enqueuedBy (.dispatchTimeout o d) tr else jobFrom w tr
      | _ => jobFrom w tr

/-- The order is assigned to the driver, who has not answered. -/
def AssignedTo (s : Sys Q) (o : OrderId) (d : DriverId) : Prop :=
  ∃ row, s.order o = some row ∧ row.orderStatus = DRIVER_ASSIGNED ∧ row.assignedDriverId = some d

/-- The call is a turn on the timeout of an order and a driver. -/
def Call.Times (call : Call) (o : OrderId) (d : DriverId) : Prop :=
  call = .worker .DISPATCH_QUEUE (.dispatchTimeout o d) (.DISPATCH_TIMEOUT o d) ∨
    call = .request (.process (.DISPATCH_TIMEOUT o d))

/-- The offer that a timeout ends in a move is that of the call which added the timeout. -/
def EndsOwnOffer (earlier : List (Transition.Move (Sys Q) Action))
    (m : Transition.Move (Sys Q) Action) : Prop :=
  ∀ w ch call o d, m.act = .exec w ch → m.src.call w = some call → call.Times o d →
    m.dst.history o ≠ m.src.history o →
    ∃ i, offeredBy o earlier = some i ∧ jobFrom w earlier = some i

/-- When an order is offered to a driver, nothing is left of earlier offers of the two: no
timeout in the queue that is not finished, no call that is about to run one, and none that
is about to add one. And a timeout that is delivered once more is not finished. -/
structure OffersClear (m : Transition.Move (Sys Q) Action) : Prop where
  jobs : ∀ o d, Picks m.src m.act o d →
    ¬ JobQueue.Live m.src.shared.dispatchQueue (.dispatchTimeout o d)
  turns : ∀ o d w, Picks m.src m.act o d →
    m.src.next w ≠ some (.transaction (.handleDispatchTimeout o d))
  added : ∀ o d w data delay, Picks m.src m.act o d →
    m.src.next w ≠ some (.addJob .DISPATCH_QUEUE (.dispatchTimeout o d) data delay)
  again : ∀ w o d, m.act = .invoke w (.process (.DISPATCH_TIMEOUT o d)) →
    JobQueue.Live m.src.shared.dispatchQueue (.dispatchTimeout o d)

/-! ## What leads to a timeout -/

/-- To add the timeout of an offer. -/
def AddsTimeout (o : OrderId) (d : DriverId) (e : Effect) : Prop :=
  ∃ data delay, e = .addJob .DISPATCH_QUEUE (.dispatchTimeout o d) data delay

/-- The answer of an assignment that offers the order to the driver. -/
def Offers (o : OrderId) (d : DriverId) : (e : Effect) → Except Error e.Resp → Prop
  | .transaction (.assignDriverWithLock o' _), r => o' = o ∧ r = .ok (some d)
  | _, _ => False

theorem not_offers_error {e : Effect} {err : Error} : ¬ Offers o d e (.error err) := by
  intro h
  unfold Offers at h
  split at h
  · cases h.2
  · exact h

theorem expireAndNotify_addsNone {o' : OrderId} :
    (expireAndNotify o').All fun e => ¬ AddsTimeout o d e := by
  have hask : ∀ {e : Effect}, (∀ data delay, e ≠ .addJob .DISPATCH_QUEUE (.dispatchTimeout o d)
      data delay) → (ask e).All fun e => ¬ AddsTimeout o d e :=
    fun he => all_perform fun ⟨data, delay, h⟩ => he data delay h
  refine .bind (.bind (hask nofun) fun _ => .tryCatch (.bind (hask nofun) fun jobId => ?_)
    fun _ => trivial) fun _ => .tryCatch (hask nofun) fun _ => trivial
  split
  · trivial
  · refine .bind (.tryCatch (.bind (hask nofun) fun job => ?_) fun _ => trivial)
      fun _ => hask nofun
    split
    · exact hask nofun
    · trivial

/-- `handleAssignDriver` adds a timeout directly after its offer. -/
theorem handleAssignDriver_directly (o' : OrderId) :
    (handleAssignDriver cfg o').Directly (AddsTimeout o d) (Offers o d) := by
  have hno : ∀ {e : Effect}, (∀ data delay, e ≠ .addJob .DISPATCH_QUEUE (.dispatchTimeout o d)
      data delay) → ¬ AddsTimeout o d e := fun he ⟨data, delay, h⟩ => he data delay h
  have hexpire : ∀ {o'}, ¬ (expireAndNotify o').Starts (AddsTimeout o d) ∧
      (expireAndNotify o').Directly (AddsTimeout o d) (Offers o d) := fun {o'} =>
    ⟨not_starts_of_all expireAndNotify_addsNone, directly_of_all expireAndNotify_addsNone⟩
  refine directly_perform_bind fun found => ?_
  cases found with
  | none => exact ⟨False.elim, trivial⟩
  | some order =>
      dsimp only
      split
      · exact ⟨False.elim, trivial⟩
      split
      · exact ⟨fun h => absurd h hexpire.1, hexpire.2⟩
      refine ⟨fun h => absurd h (hno nofun), ?_⟩
      refine .bind (directly_perform_bind fun _ => ⟨False.elim, trivial⟩) fun cands => ?_
      split
      · exact hexpire
      refine ⟨hno nofun, directly_perform_bind fun driverId => ?_⟩
      cases driverId with
      | none => exact ⟨fun h => absurd h hexpire.1, hexpire.2⟩
      | some d' =>
          refine ⟨?_, directly_perform_bind fun jobId => ⟨fun h => absurd h (hno nofun), ?_⟩⟩
          · rintro ⟨data, delay, h⟩
            cases h
            exact ⟨rfl, rfl⟩
          · refine directly_perform_bind fun _ => ⟨fun h => absurd h (hno nofun), ?_⟩
            exact directly_of_all (.tryCatch (all_perform (hno nofun)) fun _ => trivial)

/-- **Every call adds a timeout directly after its offer**, and not as its first effect. -/
theorem program_directly (call : Call) :
    ¬ (call.program cfg).Starts (AddsTimeout o d) ∧
      (call.program cfg).Directly (AddsTimeout o d) (Offers o d) := by
  have hno : ∀ {e : Effect}, (∀ data delay, e ≠ .addJob .DISPATCH_QUEUE (.dispatchTimeout o d)
      data delay) → ¬ AddsTimeout o d e := fun he ⟨data, delay, h⟩ => he data delay h
  by_cases hcall : ∃ o', call.Handles (.ASSIGN_DRIVER o')
  · obtain ⟨o', rfl | ⟨queue, jobId, rfl⟩⟩ := hcall
    · exact ⟨hno nofun, .bind (handleAssignDriver_directly o') fun _ => ⟨id, trivial⟩⟩
    -- a worker reports to the queue how the handler has ended
    · refine ⟨hno nofun, .bind (.bind (.tryCatch (.bind (handleAssignDriver_directly o')
        fun _ => ⟨id, trivial⟩) fun _ => ⟨id, trivial⟩) fun ok => ⟨hno nofun, ?_⟩)
        fun _ => ⟨id, trivial⟩⟩
      exact directly_of_all (all_perform (hno nofun))
  · have hall : (call.program cfg).All fun e => ¬ AddsTimeout o d e := by
      refine (program_performs call).mono ?_
      rintro e he ⟨data, delay, rfl⟩
      exact hcall he
    exact ⟨not_starts_of_all hall, directly_of_all hall⟩

/-- A turn on a timeout runs one transaction, as its first effect. -/
theorem times_directly {call : Call} (h : call.Times o d) :
    (call.program cfg).Directly (fun e => ¬ NoTransaction e) fun _ _ => False := by
  have hrest : ∀ res, (afterTimeout o d res).All fun e => ¬ ¬ NoTransaction e :=
    fun res => (afterTimeout_noTransaction res).mono fun _ he hno => hno he
  have hdirectly : (handleDispatchTimeout o d).Directly (fun e => ¬ NoTransaction e)
      fun _ _ => False := by
    rw [handleDispatchTimeout_bind]
    exact directly_perform_bind fun res =>
      ⟨fun h => absurd h (not_starts_of_all (hrest res)), directly_of_all (hrest res)⟩
  rcases h with rfl | rfl
  · exact .bind (.bind (.tryCatch (.bind hdirectly fun _ => ⟨id, trivial⟩)
      fun _ => ⟨id, trivial⟩) fun ok => ⟨fun h => h trivial,
        directly_of_all (all_perform fun h => h trivial)⟩) fun _ => ⟨id, trivial⟩
  · exact .bind hdirectly fun _ => ⟨id, trivial⟩

/-- A call that handles a timeout runs no transaction but that of the timeout. -/
theorem timeout_of_belongs {t : Transaction} {call : Call} (hbelongs : t.BelongsTo call)
    (h : call.Handles (.DISPATCH_TIMEOUT o d)) : t = .handleDispatchTimeout o d := by
  cases t with
  | handleDispatchTimeout o' d' =>
      rcases hbelongs with rfl | ⟨_, _, rfl⟩ <;> rcases h with h | ⟨_, _, h⟩ <;> cases h <;> rfl
  | assignDriverWithLock o' cands =>
      rcases hbelongs with rfl | ⟨_, _, rfl⟩ <;> rcases h with h | ⟨_, _, h⟩ <;> cases h
  | expireOrder o' =>
      rcases hbelongs with rfl | ⟨_, _, rfl⟩ <;> rcases h with h | ⟨_, _, h⟩ <;> cases h
  | createOrder dto c p =>
      obtain ⟨key, rfl⟩ := hbelongs
      rcases h with h | ⟨_, _, h⟩ <;> cases h
  | updateStatus o' order newStatus user =>
      rcases hbelongs with rfl | ⟨-, rfl⟩ <;> rcases h with h | ⟨_, _, h⟩ <;> cases h
  | _ =>
      obtain rfl : call = _ := hbelongs
      rcases h with h | ⟨_, _, h⟩ <;> cases h

/-! ## What a step does -/

/-- A call that is about to perform an effect that comes only directly after certain answers
was about to before, or has just been made, or has just got such an answer. -/
theorem starts_step {P : Effect → Prop} {B : (e : Effect) → Except Error e.Resp → Prop}
    {th : Resumable.Thread Call Effect Effect.Resp Error Response}
    (hdirectly : ∀ p, s.threads.lookup w = some ⟨th.call, p⟩ → p.Directly P B)
    (hstep : step cfg s a = some s') (hw : s'.threads.lookup w = some th)
    (hstarts : th.prog.Starts P) :
    s.threads.lookup w = some th ∨
      s.threads.lookup w = none ∧ th.prog = th.call.program cfg ∨
      (∃ ch e, a = .exec w ch ∧ s.next w = some e ∧ B e (perform cfg ch e s.shared).1) ∨
      ∃ e, B e (.error .Unavailable) := by
  cases call_step hstep with
  | same hth => exact .inl (by rwa [hth] at hw)
  | @made i call hfree hth =>
      rw [hth] at hw
      rcases Pool.lookup_insert_cases hw with ⟨rfl, rfl⟩ | ⟨-, hw⟩
      · exact .inr (.inl ⟨hfree, rfl⟩)
      · exact .inl hw
  | @went i ch call e k ha hi hsh hth =>
      rw [hth] at hw
      rcases Pool.lookup_insert_cases hw with ⟨rfl, rfl⟩ | ⟨-, hw⟩
      · exact .inr (.inr (.inl ⟨ch, e, ha, Sys.next_of_lookup hi, (hdirectly _ hi _).1 hstarts⟩))
      · exact .inl hw
  | @failed i call e k ha hi hsh hth =>
      rw [hth] at hw
      rcases Pool.lookup_insert_cases hw with ⟨rfl, rfl⟩ | ⟨-, hw⟩
      · exact .inr (.inr (.inr ⟨e, (hdirectly _ hi _).1 hstarts⟩))
      · exact .inl hw

/-- Going on with a call makes none. -/
theorem lookup_of_exec {ch : Choice}
    {th : Resumable.Thread Call Effect Effect.Resp Error Response}
    (hstep : step cfg s (.exec i ch) = some s') (hw : s'.threads.lookup w = some th) :
    s.threads.lookup w ≠ none := by
  obtain ⟨call, e, k, hi, -, hth⟩ := Pool.advance_eq_some hstep
  intro hnone
  rw [hth] at hw
  rcases Pool.lookup_insert_cases hw with ⟨rfl, -⟩ | ⟨-, hw⟩
  · rw [hi] at hnone
    cases hnone
  · rw [hnone] at hw
    cases hw

/-- The call that adds a job in a move. -/
theorem adds_eq_some {j : JobId} {m : Transition.Move (Sys Q) Action} (h : adds j m = some i) :
    ∃ data delay, m.src.next i = some (.addJob .DISPATCH_QUEUE j data delay) := by
  unfold adds at h
  split at h
  · next i' ch hact =>
      split at h
      · next j' data delay hnext =>
          obtain ⟨⟨rfl, -⟩, rfl⟩ : (j' = j ∧ _) ∧ i' = i := by
            simpa only [Option.ite_none_right_eq_some, Option.some.injEq] using h
          exact ⟨data, delay, hnext⟩
      · cases h
  · cases h

/-- A job that is not finished was not before the step, or the step has added it. -/
theorem live_step {j : JobId} (hstep : step cfg s a = some s')
    (h : JobQueue.Live s'.shared.dispatchQueue j) :
    JobQueue.Live s.shared.dispatchQueue j ∨ ∃ i, adds j ⟨s, a, s'⟩ = some i := by
  cases queue_step hstep with
  | same hq => exact .inl (by rwa [hq] at h)
  | @add i ch j' data delay ha hnext hq =>
      rw [hq] at h
      rcases JobQueue.live_of_add h with h | ⟨rfl, hnone⟩
      · exact .inl h
      · exact .inr ⟨i, by simp [adds, ha, hnext, hnone]⟩
  | remove _ _ hq => exact .inl (JobQueue.live_of_remove (hq ▸ h))
  | finish hq => exact .inl (JobQueue.live_of_finish (hq ▸ h))
  | take _ _ hq => exact .inl (JobQueue.live_of_take (hq ▸ h))
  | promote hq => exact .inl (JobQueue.live_of_promote (hq ▸ h))
  | evict hq => exact .inl (JobQueue.live_of_evict (hq ▸ h))

/-- What a call was begun for does not change. -/
theorem jobFrom_step {th : Resumable.Thread Call Effect Effect.Resp Error Response}
    (hstep : step cfg s a = some s') (hw : s.threads.lookup w = some th) :
    jobFrom w (⟨s, a, s'⟩ :: tr) = jobFrom w tr := by
  have hne : ∀ {i}, s.threads.lookup i = none → i ≠ w := by
    rintro i hnone rfl
    rw [hw] at hnone
    cases hnone
  simp only [jobFrom]
  split
  · next i j =>
      simp only [step] at hstep
      split at hstep
      · exact if_neg (hne (Pool.spawn_eq_some hstep).1)
      · cases hstep
  · exact if_neg (hne (Pool.spawn_eq_some hstep).1)
  · rfl

/-- A turn on a timeout is begun for the latest job under its id, which is not finished. -/
theorem jobFrom_made (tr : List (Transition.Move (Sys Q) Action))
    {th : Resumable.Thread Call Effect Effect.Resp Error Response}
    (hs : Transition.Reachable (logistics Q cfg) s) (hstep : step cfg s a = some s')
    (hclear : OffersClear ⟨s, a, s'⟩) (hfree : s.threads.lookup w = none)
    (hw : s'.threads.lookup w = some th) (htimes : th.call.Times o d) :
    JobQueue.Live s.shared.dispatchQueue (.dispatchTimeout o d) ∧
      jobFrom w (⟨s, a, s'⟩ :: tr) = enqueuedBy (.dispatchTimeout o d) tr := by
  -- the call that is put in is `w`, since `w` was not there
  have hmade : ∀ {i th'}, s'.threads = s.threads.insert i th' → i = w ∧ th' = th := by
    intro i th' hth
    rw [hth] at hw
    rcases Pool.lookup_insert_cases hw with ⟨rfl, rfl⟩ | ⟨-, hw⟩
    · exact ⟨rfl, rfl⟩
    · rw [hfree] at hw
      cases hw
  have hsame : s'.threads ≠ s.threads := by
    intro hth
    rw [hth, hfree] at hw
    cases hw
  cases a with
  | invoke i req =>
      obtain ⟨-, -, hth⟩ := Pool.spawn_eq_some hstep
      obtain ⟨rfl, rfl⟩ := hmade hth
      rcases htimes with h | h
      · cases h
      · obtain rfl := Call.request.inj h
        exact ⟨hclear.again i o d rfl, if_pos rfl⟩
  | exec i ch => exact absurd hfree (lookup_of_exec hstep hw)
  | fail i =>
      simp only [step, Option.ite_none_right_eq_some] at hstep
      obtain ⟨l, e, k, hi, -, hth⟩ := Pool.interrupt_eq_some hstep.2
      obtain ⟨rfl, -⟩ := hmade hth
      rw [hfree] at hi
      cases hi
  | deliver i queue j =>
      cases queue with
      | DISPATCH_QUEUE =>
          obtain ⟨data, hfind, -, -, hth⟩ := deliver_eq_some hs hstep
          obtain ⟨rfl, rfl⟩ := hmade hth
          rcases htimes with h | h
          · obtain ⟨-, rfl, rfl⟩ := Call.worker.inj h
            exact ⟨⟨_, _, hfind, rfl⟩, if_pos rfl⟩
          · cases h
      | TRACKING_QUEUE =>
          simp only [step] at hstep
          split at hstep
          · obtain ⟨-, -, hth⟩ := Pool.spawn_eq_some hstep
            obtain ⟨rfl, rfl⟩ := hmade hth
            rcases htimes with h | h <;> cases h
          · cases hstep
  | promote queue j =>
      obtain rfl := Option.some.inj hstep
      exact absurd rfl hsame
  | evict queue j =>
      obtain rfl := Option.some.inj hstep
      exact absurd rfl hsame
  | expire key =>
      obtain rfl := Option.some.inj hstep
      exact absurd rfl hsame

/-- The one transaction of a turn on a timeout. -/
theorem next_of_times {call : Call} {p : Prog Response}
    (hs : Transition.Reachable (logistics Q cfg) s) (hw : s.threads.lookup w = some ⟨call, p⟩)
    (htimes : call.Times o d) (hstarts : p.Starts fun e => ¬ NoTransaction e) :
    s.next w = some (.transaction (.handleDispatchTimeout o d)) := by
  cases p with
  | ret a => exact hstarts.elim
  | fail err => exact hstarts.elim
  | op e k =>
      rw [Sys.next_of_lookup hw]
      cases e with
      | transaction t =>
          obtain ⟨hbelongs, -⟩ := guar_of_next hs hw
          have hhandles : call.Handles (.DISPATCH_TIMEOUT o d) :=
            htimes.symm.imp id fun h => ⟨_, _, h⟩
          rw [timeout_of_belongs hbelongs hhandles]
      | _ => exact absurd trivial hstarts

/-- An order that is assigned to a driver was before the step, or is offered by it. -/
theorem assigned_of_step (hs : Transition.Reachable (logistics Q cfg) s)
    (hstep : step cfg s a = some s') (h : AssignedTo s' o d) :
    AssignedTo s o d ∨ Picks s a o d := by
  obtain ⟨row', hrow', hs', hd'⟩ := h
  have hbooked : Booked s' o d := ⟨row', hrow', hd', by rw [hs']; decide⟩
  rcases booked_of_step hs hstep hbooked with ⟨row, hrow, hd, hstatus⟩ | hpicks
  · refine .inl ⟨row, hrow, ?_, hd⟩
    by_contra hne
    have hchange := legal_change hs hstep hrow hrow' (by rw [hs']; exact fun h => hne h.symm)
    rw [hs'] at hchange
    -- no status of a booked order leads to `DRIVER_ASSIGNED`
    rcases hchange with hmem | ⟨-, h | h, -⟩ | ⟨-, h, -⟩
    · revert hmem hstatus hne
      cases row.orderStatus <;> decide
    · cases h
    · cases h
    · cases h
  · exact .inr hpicks

/-- An order that is offered was waiting. -/
theorem pending_of_offers {ch : Choice} {e : Effect}
    (h : Offers o d e (perform cfg ch e s.shared).1) : s.status o = some PENDING := by
  unfold Offers at h
  split at h
  · next r o' cands =>
      obtain ⟨rfl, hok⟩ := h
      simp only [perform] at hok
      split at hok
      · cases hok
      · next res db' hrun =>
          obtain rfl := Except.ok.inj hok
          rcases assignDriverWithLockTx_ok hrun with ⟨hres, -⟩ | ⟨_, driver, -, -, -, -, hmove⟩
          · cases hres
          · have hmove : s.shared.db.move cfg o' (.offer driver.id) "system" ch.now = some db' :=
              hmove
            obtain ⟨row, tk, hrow, -, hticket, -⟩ := Db.move_spec hmove
            rw [Sys.status, Sys.order, hrow, Option.map_some]
            exact congrArg some (offer_eq_some hticket).1
  · exact h.elim

/-! ## While an order is offered -/

/-- All there is of timeouts of the order and the driver is of call `i`, which has made the
offer: the job, the calls that are about to run it, and those that are about to add it. -/
structure OwnOnly (s : Sys Q) (tr : List (Transition.Move (Sys Q) Action)) (o : OrderId)
    (d : DriverId) (i : ℕ) : Prop where
  offered : offeredBy o tr = some i
  job : JobQueue.Live s.shared.dispatchQueue (.dispatchTimeout o d) →
    enqueuedBy (.dispatchTimeout o d) tr = some i
  turn : ∀ w th, s.threads.lookup w = some th → th.call.Times o d →
    th.prog.Starts (fun e => ¬ NoTransaction e) → jobFrom w tr = some i
  add : ∀ w th, s.threads.lookup w = some th → th.prog.Starts (AddsTimeout o d) → w = i

omit [JobQueue Q JobId JobData] in
/-- The effect a program starts with. -/
theorem next_of_adds {th : Resumable.Thread Call Effect Effect.Resp Error Response}
    (hw : s.threads.lookup w = some th) (h : th.prog.Starts (AddsTimeout o d)) :
    ∃ data delay, s.next w
      = some (.addJob .DISPATCH_QUEUE (.dispatchTimeout o d) data delay) := by
  obtain ⟨call, p⟩ := th
  cases p with
  | ret a => exact h.elim
  | fail err => exact h.elim
  | op e k =>
      obtain ⟨data, delay, rfl⟩ := h
      exact ⟨data, delay, Sys.next_of_lookup hw⟩

/-- What the calls of a reachable state do directly after what. -/
theorem directly_of_reachable (hs : Transition.Reachable (logistics Q cfg) s) (w : ℕ)
    (call : Call) (p : Prog Response) (hw : s.threads.lookup w = some ⟨call, p⟩) :
    p.Directly (AddsTimeout o d) (Offers o d) ∧
      (call.Times o d → p.Directly (fun e => ¬ NoTransaction e) fun _ _ => False) :=
  ⟨forallThreads_of_reachable (T := fun _ p => p.Directly (AddsTimeout o d) (Offers o d))
      (fun _ _ _ h r => (h r).2) (fun call => (program_directly call).2) hs w _ hw,
    forallThreads_of_reachable (T := fun call p => call.Times o d →
      p.Directly (fun e => ¬ NoTransaction e) fun _ _ => False)
      (fun _ _ _ h r htimes => (h htimes r).2) (fun _ => times_directly) hs w _ hw⟩

/-- A step leaves the timeouts of an offer to the call that has made it, while the offer is
open. -/
theorem OwnOnly.step (hs : Transition.Reachable (logistics Q cfg) s)
    (hstep : LogisticsDispatch.step cfg s a = some s') (hclear : OffersClear ⟨s, a, s'⟩)
    (hassigned : AssignedTo s o d) (h : OwnOnly s tr o d i) :
    OwnOnly s' (⟨s, a, s'⟩ :: tr) o d i := by
  have hstatus : s.status o = some DRIVER_ASSIGNED := by
    obtain ⟨row, hrow, hs, -⟩ := hassigned
    rw [Sys.status, hrow, Option.map_some, hs]
  have hnew : adds (.dispatchTimeout o d) ⟨s, a, s'⟩ = none ∨
      adds (.dispatchTimeout o d) ⟨s, a, s'⟩ = some i := by
    cases hadds : adds (.dispatchTimeout o d) ⟨s, a, s'⟩ with
    | none => exact .inl rfl
    | some w =>
        -- the call that adds it was about to
        obtain ⟨data, delay, hnext⟩ := adds_eq_some hadds
        obtain ⟨call, k, hw⟩ := Sys.lookup_of_next hnext
        rw [h.add w _ hw ⟨data, delay, rfl⟩]
        exact .inr rfl
  refine ⟨?_, ?_, ?_, ?_⟩
  · rw [offeredBy, if_neg]
    · exact h.offered
    · rintro ⟨hpending, -⟩
      rw [hstatus] at hpending
      cases hpending
  · intro hlive
    rw [enqueuedBy]
    rcases hnew with hnone | hsome
    · rw [hnone, Option.none_or]
      rcases live_step hstep hlive with hlive | ⟨w, hw⟩
      · exact h.job hlive
      · rw [hnone] at hw
        cases hw
    · rw [hsome]
      rfl
  · intro w th hw htimes hstarts
    rcases starts_step (fun p hp => (directly_of_reachable hs w _ p hp).2 htimes) hstep hw hstarts
      with hold | ⟨hfree, -⟩ | ⟨_, _, -, -, hfalse⟩ | ⟨_, hfalse⟩
    · rw [jobFrom_step hstep hold]
      exact h.turn w th hold htimes hstarts
    · obtain ⟨hlive, hfrom⟩ := jobFrom_made tr hs hstep hclear hfree hw htimes
      rw [hfrom]
      exact h.job hlive
    · exact hfalse.elim
    · exact hfalse.elim
  · intro w th hw hstarts
    rcases starts_step (fun p hp => (directly_of_reachable hs w _ p hp).1) hstep hw hstarts
      with hold | ⟨-, hprog⟩ | ⟨_, _, -, -, hoffers⟩ | ⟨e, hoffers⟩
    · exact h.add w th hold hstarts
    · rw [hprog] at hstarts
      exact absurd hstarts (program_directly th.call).1
    -- an order that is assigned is not offered
    · have hpending := pending_of_offers hoffers
      rw [hstatus] at hpending
      cases hpending
    · exact absurd hoffers not_offers_error

/-- When an order is offered, all there is of timeouts is of the call that offers it. -/
theorem ownOnly_of_picks (hs : Transition.Reachable (logistics Q cfg) s)
    (hstep : step cfg s a = some s') (hclear : OffersClear ⟨s, a, s'⟩) (hpicks : Picks s a o d)
    (h' : AssignedTo s' o d) : ∃ i, OwnOnly s' (⟨s, a, s'⟩ :: tr) o d i := by
  obtain ⟨i, ch, passed, cand, rest, row, rfl, hnext, hrow, hpending, -⟩ := id hpicks
  have hbefore : s.status o = some PENDING := by
    rw [Sys.status, Sys.order, (Db.findOrder_eq_some.mp hrow).1, Option.map_some, hpending]
  have hafter : s'.status o = some DRIVER_ASSIGNED := by
    obtain ⟨row', hrow', hs', -⟩ := h'
    rw [Sys.status, hrow', Option.map_some, hs']
  refine ⟨i, ?_, ?_, ?_, ?_⟩
  · rw [offeredBy, if_pos ⟨hbefore, hafter⟩]
  · intro hlive
    rcases live_step hstep hlive with hlive | ⟨w, hadds⟩
    · exact absurd hlive (hclear.jobs o d hpicks)
    -- the step is the assignment
    · simp [adds, hnext] at hadds
  · intro w th hw htimes hstarts
    rcases starts_step (fun p hp => (directly_of_reachable hs w _ p hp).2 htimes) hstep hw hstarts
      with hold | ⟨hfree, -⟩ | ⟨_, _, -, -, hfalse⟩ | ⟨_, hfalse⟩
    · exact absurd (next_of_times hs hold htimes hstarts) (hclear.turns o d w hpicks)
    · exact absurd hfree (lookup_of_exec hstep hw)
    · exact hfalse.elim
    · exact hfalse.elim
  · intro w th hw hstarts
    rcases starts_step (fun p hp => (directly_of_reachable hs w _ p hp).1) hstep hw hstarts
      with hold | ⟨hfree, -⟩ | ⟨_, _, ha, -, -⟩ | ⟨e, hoffers⟩
    · obtain ⟨data, delay, hadd⟩ := next_of_adds hold hstarts
      exact absurd hadd (hclear.added o d w data delay hpicks)
    · exact absurd hfree (lookup_of_exec hstep hw)
    · exact ((Action.exec.inj ha).1).symm
    · exact absurd hoffers not_offers_error

/-- All along a run that leaves nothing of earlier offers, the timeouts of an offer that is
open are of the call that has made it. -/
theorem ownOnly_of_run (run : Transition.Run (logistics Q cfg) tr s)
    (hclear : ∀ m ∈ tr, OffersClear m) (h : AssignedTo s o d) : ∃ i, OwnOnly s tr o d i := by
  refine run.invariant_trace (P := fun tr s => (∀ m ∈ tr, OffersClear m) → AssignedTo s o d →
    ∃ i, OwnOnly s tr o d i) ?_ ?_ hclear h
  · rintro s hinit - ⟨row, hrow, -⟩
    rw [Sys.order, hinit.orders, Table.find_empty] at hrow
    cases hrow
  · intro tr s a s' run ih hstep hclear h'
    have hlast := hclear _ List.mem_cons_self
    have ih := ih fun m hm => hclear m (List.mem_cons_of_mem _ hm)
    -- the order was assigned already, or is offered by this step
    rcases assigned_of_step run.reachable hstep h' with hold | hpicks
    · obtain ⟨i, hown⟩ := ih hold
      exact ⟨i, hown.step run.reachable hstep hlast hold⟩
    · exact ownOnly_of_picks run.reachable hstep hlast hpicks h'

/-- **When a timeout ends its own offer**: in every run in which, whenever an order is offered
to a driver, nothing is left of earlier offers of the two. -/
theorem timeouts_end_own_offers (run : Transition.Run (logistics Q cfg) tr s)
    (hclear : ∀ m ∈ tr, OffersClear m)
    (later earlier : List (Transition.Move (Sys Q) Action)) (m : Transition.Move (Sys Q) Action)
    (htr : tr = later ++ m :: earlier) : EndsOwnOffer earlier m := by
  subst htr
  obtain ⟨run₁, hstep, -⟩ := run.of_suffix
  intro w ch call o d hact hcall htimes hcommits
  cases order_step run₁.reachable hstep o with
  | same _ hhistory => exact absurd hhistory hcommits
  | deleted _ _ _ _ hhistory => exact absurd hhistory hcommits
  | created ha hcall' _ _ _ _ _ _ =>
      obtain ⟨rfl, rfl⟩ := Action.exec.inj (ha.symm.trans hact)
      rw [hcall] at hcall'
      obtain rfl := Option.some.inj hcall'
      rcases htimes with h | h <;> cases h
  | @moved i ch' call' t mv actor row tk ha hcall' hnext hbelongs hmakes _ _ _ hrow _ hticket _ _ =>
      obtain ⟨rfl, rfl⟩ := Action.exec.inj (ha.symm.trans hact)
      rw [hcall] at hcall'
      obtain rfl := Option.some.inj hcall'
      -- the transaction is that of the timeout, so the order was offered to the driver
      have hhandles : call.Handles (.DISPATCH_TIMEOUT o d) :=
        htimes.symm.imp id fun h => ⟨_, _, h⟩
      obtain rfl := timeout_of_belongs hbelongs hhandles
      cases hmakes
      obtain ⟨hs, hd, -⟩ := refuse_eq_some (.inl rfl) hticket
      obtain ⟨j, hown⟩ := ownOnly_of_run run₁ (fun m' hm' => hclear m'
        (List.mem_append_right _ (List.mem_cons_of_mem _ hm'))) ⟨row, hrow, hs, hd⟩
      obtain ⟨call', k, hw⟩ := Sys.lookup_of_next hnext
      rw [Sys.call_of_lookup hw] at hcall
      obtain rfl := Option.some.inj hcall
      exact ⟨j, hown.offered, hown.turn _ _ hw htimes id⟩

/-! ### In the small system -/

/-- The trip is offered by call `2`. Before the call adds the timeout, the driver rejects the
offer, which is all the attempts there are: call `3`. The trip is reassigned by call `4` and
offered to the driver again by call `5`, whose timeout is not added, since that of call `2` is
there. -/
def offeredAgain : List Action :=
  orderTrip ++
    .deliver 2 .DISPATCH_QUEUE (.assignDriver sampleOrder) :: proceed 2 3 sampleChoice ++
    .invoke 3 (.rejectDispatch sampleOrder sampleDriver) :: proceed 3 4 sampleChoice ++
    proceed 2 4 sampleChoice ++ .evict .DISPATCH_QUEUE (.assignDriver sampleOrder) ::
    .invoke 4 (.reassignOrder sampleOrder sampleAdmin) :: proceed 4 3 sampleChoice ++
    .deliver 5 .DISPATCH_QUEUE (.assignDriver sampleOrder) :: proceed 5 4 sampleChoice

/-- The delay of the timeout is over, and a worker runs it. -/
def runTimeout (w : ℕ) : List Action :=
  [.promote .DISPATCH_QUEUE (.dispatchTimeout sampleOrder sampleDriver),
    .deliver w .DISPATCH_QUEUE (.dispatchTimeout sampleOrder sampleDriver), .exec w sampleChoice]

theorem offered_again : ((logistics BullQueue (sampleConfig 1)).exec (start [carDriver])
    (offeredAgain ++ runTimeout 6)).isSome := by
  decide +kernel

/-- The turn of a worker on a timeout that a move is a step of, as a computation. -/
def timeoutIn (m : Transition.Move (Sys Q) Action) : Option (ℕ × OrderId × DriverId) :=
  match m.act with
  | .exec w _ =>
      match m.src.call w with
      | some (.worker .DISPATCH_QUEUE (.dispatchTimeout o d) (.DISPATCH_TIMEOUT o' d')) =>
          if o = o' ∧ d = d' then some (w, o, d) else none
      | _ => none
  | _ => none

omit [JobQueue Q JobId JobData] in
theorem timeoutIn_eq_some {m : Transition.Move (Sys Q) Action} (h : timeoutIn m = some (w, o, d)) :
    ∃ ch call, m.act = .exec w ch ∧ m.src.call w = some call ∧ call.Times o d := by
  unfold timeoutIn at h
  split at h
  · next w' ch hact =>
      split at h
      · next o₁ d₁ o₂ d₂ hcall =>
          split at h
          · next heq =>
              obtain ⟨rfl, rfl⟩ := heq
              obtain ⟨rfl, rfl, rfl⟩ : w' = w ∧ o₁ = o ∧ d₁ = d := by simpa using h
              exact ⟨ch, _, hact, hcall, .inl rfl⟩
          · cases h
      · cases h
  · cases h

/-- The timeout that call `2` has added ends the offer of call `5`. -/
theorem later_offer_ended : ∃ tr s m earlier,
    Transition.Run (logistics BullQueue (sampleConfig 1)) tr s ∧ tr = [] ++ m :: earlier ∧
      ¬ EndsOwnOffer earlier m := by
  let moves := (logistics BullQueue (sampleConfig 1)).moves [] (start [carDriver])
    (offeredAgain ++ runTimeout 6)
  have hhead : (moves.head?.bind fun m => (timeoutIn m).map fun turn =>
      (turn, decide (m.dst.history sampleOrder = m.src.history sampleOrder)))
      = some ((6, sampleOrder, sampleDriver), false) := by decide +kernel
  have hcalls : (offeredBy sampleOrder moves.tail, jobFrom 6 moves.tail) = (some 5, some 2) := by
    decide +kernel
  obtain ⟨m, hm, hturn⟩ := Option.bind_eq_some_iff.mp hhead
  obtain ⟨earlier, hmoves⟩ := List.head?_eq_some_iff.mp hm
  obtain ⟨turn, hturn, heq⟩ := Option.map_eq_some_iff.mp hturn
  obtain ⟨rfl, hcommits⟩ := Prod.mk.inj heq
  obtain ⟨ch, call, hact, hcall, htimes⟩ := timeoutIn_eq_some hturn
  obtain ⟨hoffered, hfrom⟩ := Prod.mk.inj hcalls
  rw [hmoves, List.tail_cons] at hoffered hfrom
  refine ⟨moves, _, m, earlier, after_run offered_again, hmoves, fun h => ?_⟩
  obtain ⟨i, hi, hi'⟩ := h 6 ch call _ _ hact hcall htimes (of_decide_eq_false hcommits)
  rw [hoffered] at hi
  rw [hfrom] at hi'
  cases hi
  cases hi'

/-- Whether nothing at all is there of timeouts where a step assigns an order, and no job is
delivered once more, as a computation. -/
def noTimeouts (m : Transition.Move (Sys BullQueue) Action) : Bool :=
  match m.act with
  | .exec i _ =>
      match m.src.next i with
      | some (.transaction (.assignDriverWithLock _ _)) =>
          (m.src.shared.dispatchQueue.jobs.entries.all fun en =>
            match en.1 with
            | .dispatchTimeout _ _ => false
            | _ => true) &&
          m.src.threads.entries.all fun en =>
            match en.2.prog with
            | .op (.transaction (.handleDispatchTimeout _ _)) _ => false
            | .op (.addJob _ _ _ _) _ => false
            | _ => true
      | _ => true
  | .invoke _ (.process _) => false
  | _ => true

theorem offersClear_of_noTimeouts {m : Transition.Move (Sys BullQueue) Action}
    (h : noTimeouts m = true) : OffersClear m := by
  have hpicks : ∀ o d, Picks m.src m.act o d →
      (∀ en ∈ m.src.shared.dispatchQueue.jobs.entries, en.1 ≠ .dispatchTimeout o d) ∧
      ∀ w e, m.src.next w = some e → (∀ o d, e ≠ .transaction (.handleDispatchTimeout o d)) ∧
        ∀ queue j data delay, e ≠ .addJob queue j data delay := by
    rintro o d ⟨i, ch, passed, cand, rest, row, ha, hnext, -⟩
    unfold noTimeouts at h
    simp only [ha, hnext, Bool.and_eq_true, List.all_eq_true] at h
    refine ⟨fun en hen heq => ?_, fun w e hw => ?_⟩
    · have hnot := h.1 en hen
      rw [heq] at hnot
      cases hnot
    · obtain ⟨call, k, hi⟩ := Sys.lookup_of_next hw
      have hnot := h.2 _ (AList.mem_lookup_iff.mp hi)
      refine ⟨?_, ?_⟩
      · rintro o d rfl
        cases hnot
      · rintro queue j data delay rfl
        cases hnot
  refine ⟨?_, ?_, ?_, ?_⟩
  · rintro o d h ⟨st, data, hfind, -⟩
    exact (hpicks o d h).1 _ (AList.mem_lookup_iff.mp hfind) rfl
  · exact fun o d w h hw => ((hpicks o d h).2 w _ hw).1 o d rfl
  · exact fun o d w data delay h hw => ((hpicks o d h).2 w _ hw).2 _ _ _ _ rfl
  · intro w o d ha
    unfold noTimeouts at h
    simp [ha] at h

theorem trip_ended : ((logistics BullQueue (sampleConfig 3)).exec (start [carDriver])
    (orderTrip ++ offerTrip ++ runTimeout 3)).isSome := by
  decide +kernel

/-- The offer of the trip is ended by its own timeout. -/
theorem timeouts_end_own_offers_of_trip :
    ∃ (earlier : List (Transition.Move (Sys BullQueue) Action))
      (m : Transition.Move (Sys BullQueue) Action),
      m.dst.history sampleOrder ≠ m.src.history sampleOrder ∧
        timeoutIn m = some (3, sampleOrder, sampleDriver) ∧ EndsOwnOffer earlier m := by
  let moves := (logistics BullQueue (sampleConfig 3)).moves [] (start [carDriver])
    (orderTrip ++ offerTrip ++ runTimeout 3)
  have hhead : (moves.head?.bind fun m => (timeoutIn m).map fun turn =>
      (turn, decide (m.dst.history sampleOrder = m.src.history sampleOrder)))
      = some ((3, sampleOrder, sampleDriver), false) := by decide +kernel
  have hall : moves.all noTimeouts = true := by decide +kernel
  rw [List.all_eq_true] at hall
  obtain ⟨m, hm, hturn⟩ := Option.bind_eq_some_iff.mp hhead
  obtain ⟨earlier, hmoves⟩ := List.head?_eq_some_iff.mp hm
  obtain ⟨turn, hturn, heq⟩ := Option.map_eq_some_iff.mp hturn
  obtain ⟨rfl, hcommits⟩ := Prod.mk.inj heq
  exact ⟨earlier, m, of_decide_eq_false hcommits, hturn,
    timeouts_end_own_offers (after_run trip_ended)
      (fun m' hm' => offersClear_of_noTimeouts (hall m' hm')) [] earlier m hmoves⟩

end LogisticsDispatch
