/-
How long the history of an order can get.

Dispatch takes an order back and forth between `PENDING` and `DRIVER_ASSIGNED`, jobs are
delivered more than once, and users ask for what they like. Still an order changes its
status only a bounded number of times between two reassignments. `Ticket.ahead` bounds what
an order has before it, by its status and by the attempts it has left, and every move but
`reassign` lowers it. An offer that is refused takes two attempts and two changes, which is
where half of `max` comes from.
-/
import LogisticsDispatch.AuditTrail

set_option autoImplicit false

namespace LogisticsDispatch

namespace Lifecycle

open OrderStatus Transition

variable {D : Type} [DecidableEq D] {max : ℕ} {t t' : Ticket D} {m : Move D} {d : D}

/-- The number of status changes a ticket has before it at most, if it is not reassigned. -/
def Ticket.ahead (max : ℕ) (t : Ticket D) : ℕ :=
  match t.status with
  | PENDING => 3 + 2 * ((max + 1 - t.attempts) / 2)
  | DRIVER_ASSIGNED => 4 + 2 * ((max - t.attempts) / 2)
  | DRIVER_ARRIVING => 3
  | PICKED_UP => 2
  | IN_TRANSIT => 1
  | _ => 0

/-- The number of rows a round leaves in the history at most, with the one that begins it. -/
def roundLength (max : ℕ) : ℕ := 4 + 2 * ((max + 1) / 2)

omit [DecidableEq D] in
theorem ahead_pending (hs : t.status = PENDING) :
    t.ahead max = 3 + 2 * ((max + 1 - t.attempts) / 2) := by
  simp only [Ticket.ahead, hs]

omit [DecidableEq D] in
theorem ahead_assigned (hs : t.status = DRIVER_ASSIGNED) :
    t.ahead max = 4 + 2 * ((max - t.attempts) / 2) := by
  simp only [Ticket.ahead, hs]

omit [DecidableEq D] in
theorem ahead_expired (hs : t.status = EXPIRED) : t.ahead max = 0 := by
  simp only [Ticket.ahead, hs]

/-- A refusal leaves two changes fewer, and the order expires when that was the last offer. -/
theorem ahead_refused (hm : m = .timeout d ∨ m = .reject d) (h : m.apply max t = some t') :
    t'.ahead max < t.ahead max := by
  obtain ⟨hs, -, hs', -, ha, -⟩ := refuse_eq_some hm h
  rw [ahead_assigned hs]
  by_cases hlast : t.attempts + 1 ≥ max
  · rw [if_pos hlast] at hs'
    rw [ahead_expired hs']
    omega
  · rw [if_neg hlast] at hs'
    rw [ahead_pending hs', ha]
    omega

omit [DecidableEq D] in
/-- Where the table of transitions leads, fewer changes are before the order. -/
theorem ahead_advance {newStatus : OrderStatus} (hmem : newStatus ∈ ORDER_TRANSITIONS t.status)
    (hne : newStatus ≠ DRIVER_ASSIGNED) (hs' : t'.status = newStatus) :
    t'.ahead max < t.ahead max := by
  simp only [Ticket.ahead, hs']
  revert hmem hne
  cases t.status <;> cases newStatus <;> simp [ORDER_TRANSITIONS]
  -- an offer that is accepted may have been the first one
  omega

/-- **Every move but a reassignment lowers what is ahead.** -/
theorem ahead_lt (h : m.apply max t = some t') (hm : m ≠ .reassign)
    (hbelow : t.status = PENDING → t.attempts < max) : t'.ahead max < t.ahead max := by
  cases m with
  | offer d =>
      obtain ⟨hs, -, hs', -, ha, -⟩ := offer_eq_some h
      have hlt := hbelow hs
      rw [ahead_pending hs, ahead_assigned hs', ha]
      omega
  | expire =>
      obtain ⟨hs, hs', -⟩ := expire_eq_some h
      rw [ahead_pending hs, ahead_expired hs']
      omega
  | timeout d => exact ahead_refused (.inl rfl) h
  | reject d => exact ahead_refused (.inr rfl) h
  | accept d =>
      obtain ⟨hs, -, hs', -⟩ := accept_eq_some h
      rw [ahead_assigned hs]
      simp only [Ticket.ahead, hs']
      omega
  | advance newStatus =>
      obtain ⟨hmem, hne, -, hs', -⟩ := advance_eq_some h
      exact ahead_advance hmem hne hs'
  | reassign => exact absurd rfl hm

/-- A change of status that begins a round anew. -/
def reassigns (change : Option OrderStatus × OrderStatus) : Bool :=
  change.1 = some EXPIRED ∧ change.2 = PENDING

/-- Only a reassignment looks like one. -/
theorem reassigns_eq_false (h : m.apply max t = some t') (hm : m ≠ .reassign) :
    reassigns (some t.status, t'.status) = false := by
  rcases apply_edge h with hmem | ⟨-, hs, -⟩ | ⟨rfl, -⟩
  · revert hmem
    cases t.status <;> cases t'.status <;> simp [ORDER_TRANSITIONS, reassigns]
  · rw [hs]
    simp [reassigns]
  · exact absurd rfl hm

/-- The trail of a life, together with what is ahead, stays within the rounds begun. -/
theorem trail_bounded (hmax : 1 ≤ max) {l : Ledger D} (hl : Reachable (life max) (some l)) :
    l.trail.length + l.ticket.ahead max ≤
      (l.trail.countP reassigns + 1) * roundLength max := by
  -- along a life that goes on, so that its books are known to add up
  have hall : Reachable (life max) (some l) ∧ l.trail.length + l.ticket.ahead max ≤
      (l.trail.countP reassigns + 1) * roundLength max := by
    refine life_invariant (P := fun l => Reachable (life max) (some l) ∧
      l.trail.length + l.ticket.ahead max ≤
        (l.trail.countP reassigns + 1) * roundLength max) ?_ ?_ hl
    · refine ⟨(Reachable.init rfl).step (a := none) rfl, ?_⟩
      simp [Ledger.new, Ticket.new, Ticket.ahead, roundLength, reassigns]
      omega
    · intro l m t ⟨hreach, ih⟩ ht
      have hcounted := counted_of_reachable hmax hreach
      refine ⟨hreach.step (a := some m) (by simp [life, ht]), ?_⟩
      simp only [Ledger.after, List.length_append, List.length_singleton, List.countP_append,
        List.countP_singleton]
      by_cases hm : m = .reassign
      · -- a whole round more
        subst hm
        obtain ⟨hs, hs', -, ha, -⟩ := reassign_eq_some ht
        have hone : reassigns (some l.ticket.status, t.status) = true := by
          rw [hs, hs']
          rfl
        rw [ahead_expired hs] at ih
        have hround : t.ahead max + 1 = roundLength max := by
          rw [ahead_pending hs', ha, roundLength, Nat.sub_zero]
          omega
        rw [if_pos hone, Nat.add_mul _ 1]
        omega
      · have hbelow : l.ticket.status = PENDING → l.ticket.attempts < max := by
          intro hs
          obtain ⟨hatt, -, hlt⟩ := hcounted.idle hs
          omega
        have hlt := ahead_lt ht hm hbelow
        rw [reassigns_eq_false ht hm]
        simp only [Bool.false_eq_true, if_false, Nat.add_zero]
        omega
  exact hall.2

end Lifecycle

open OrderStatus Lifecycle

variable {Q : Type} [JobQueue Q JobId JobData] {cfg : DispatchConfig} {s : Sys Q} {o : OrderId}

/-- How often an order was reassigned after it had expired, by its history. -/
def Sys.reassignments (s : Sys Q) (o : OrderId) : ℕ :=
  (s.history o).countP fun row => row.previousStatus = some EXPIRED ∧ row.newStatus = PENDING

/-- **The history of an order is bounded by the number of its reassignments.** -/
theorem history_bounded (hmax : 1 ≤ cfg.maxDispatchAttempts)
    (hs : Transition.Reachable (logistics Q cfg) s) (o : OrderId) :
    (s.history o).length ≤
      (s.reassignments o + 1) * roundLength cfg.maxDispatchAttempts := by
  cases hrow : s.order o with
  | none =>
      rw [history_of_none hs hrow]
      exact Nat.zero_le _
  | some row =>
      obtain ⟨tr, run⟩ := hs
      obtain ⟨l, hl, -, htrail, -⟩ := books_of_order run hrow
      have hbound := trail_bounded hmax hl
      rw [htrail, List.length_map, List.countP_map] at hbound
      have hcount : List.countP (reassigns ∘ fun r => (r.previousStatus, r.newStatus))
          (s.history o) = s.reassignments o := rfl
      rw [hcount] at hbound
      omega

/-- The trip of the small system is carried to its end by its driver: calls `3` to `6`. -/
def deliverTrip : List Action :=
  .invoke 3 (.updateStatus sampleOrder DRIVER_ARRIVING carDriverUser) :: proceed 3 2 sampleChoice ++
    .invoke 4 (.updateStatus sampleOrder PICKED_UP carDriverUser) :: proceed 4 2 sampleChoice ++
    .invoke 5 (.updateStatus sampleOrder IN_TRANSIT carDriverUser) :: proceed 5 2 sampleChoice ++
    .invoke 6 (.updateStatus sampleOrder DELIVERED carDriverUser) :: proceed 6 2 sampleChoice

theorem trip_delivered : ((logistics BullQueue (sampleConfig 1)).exec (start [carDriver])
    (orderTrip ++ offerTrip ++ deliverTrip)).isSome := by
  decide +kernel

/-- With one attempt allowed, a trip that is delivered has as many rows as a round can have. -/
theorem history_bounded_of_trip :
    ((after _ _ _ trip_delivered).history sampleOrder).length = roundLength 1 ∧
      ((after _ _ _ trip_delivered).history sampleOrder).length ≤
        ((after _ _ _ trip_delivered).reassignments sampleOrder + 1) * roundLength 1 :=
  ⟨by decide +kernel, history_bounded (by decide) (after_reachable trip_delivered) sampleOrder⟩

end LogisticsDispatch
