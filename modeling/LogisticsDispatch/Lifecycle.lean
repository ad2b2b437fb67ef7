/-
What an order is to dispatch, and the life it leads: the abstract model.

A `Ticket` is the part of an order that the two services take turns in writing. A
`Move` is something that can happen to it, with the condition under which it may and
what it does; which call makes a move, and how it locks, is not said here. A `Ledger`
is a ticket with what a good bookkeeper would have written down: the trail of status
changes, and for the present round (since the order was created, or reassigned after
it had expired) the drivers it was offered to and the number of offers made and
refused.

The section on invariants is what this says about every life. The rest of the
development shows that the orders of the system lead such lives (`Refinement.lean`).
-/
import Mathlib.Data.List.Chain
import LogisticsDispatch.Lib.Transition
import LogisticsDispatch.OrderRules

set_option autoImplicit false

namespace LogisticsDispatch

namespace Lifecycle

open OrderStatus Transition

variable {D : Type} [DecidableEq D]

/-! ## Tickets and moves -/

/-- What dispatch reads and writes of an order. -/
@[ext] structure Ticket (D : Type) where
  status : OrderStatus
  driver : Option D
  attempts : ℕ
  attempted : List D
  version : ℕ

/-- The ticket of an order that was just created. -/
def Ticket.new : Ticket D where
  status := PENDING
  driver := none
  attempts := 0
  attempted := []
  version := 1

/-- What can happen to an order. -/
inductive Move (D : Type)
  /-- It is offered to a driver. -/
  | offer (d : D)
  /-- No driver is found for it. -/
  | expire
  /-- The driver it is offered to does not answer. -/
  | timeout (d : D)
  /-- The driver it is offered to rejects it. -/
  | reject (d : D)
  /-- The driver it is offered to accepts it. -/
  | accept (d : D)
  /-- A user moves it along, or cancels it. -/
  | advance (newStatus : OrderStatus)
  /-- An admin has it dispatched again. -/
  | reassign

/-- The ticket after an offer was refused: the round goes on unless the attempts are
used up. -/
def Ticket.refused (max : ℕ) (t : Ticket D) (attempted : List D) : Ticket D where
  status := if t.attempts + 1 ≥ max then EXPIRED else PENDING
  driver := none
  attempts := t.attempts + 1
  attempted := attempted
  version := t.version + 1

/-- The ticket after a move, if the move can be made. -/
def Move.apply (max : ℕ) (t : Ticket D) : Move D → Option (Ticket D)
  | offer d =>
      if t.status = PENDING ∧ d ∉ t.attempted then
        some {
          status := DRIVER_ASSIGNED
          driver := some d
          attempts := t.attempts + 1
          -- a driver who rejected is listed twice, and the set of the source drops that
          attempted := t.attempted.eraseDups ++ [d]
          version := t.version + 1 }
      else none
  | expire =>
      if t.status = PENDING then
        some { t with
          status := EXPIRED
          driver := none
          attempts := t.attempts + 1
          version := t.version + 1 }
      else none
  | timeout d =>
      if t.status = DRIVER_ASSIGNED ∧ t.driver = some d then some (t.refused max t.attempted)
      else none
  | reject d =>
      if t.status = DRIVER_ASSIGNED ∧ t.driver = some d then
        -- who rejects is listed once more; who does not answer is not
        some (t.refused max (t.attempted ++ [d]))
      else none
  | accept d =>
      if t.status = DRIVER_ASSIGNED ∧ t.driver = some d then
        some { t with status := DRIVER_ARRIVING, version := t.version + 1 }
      else none
  | advance newStatus =>
      if newStatus ∈ ORDER_TRANSITIONS t.status ∧ newStatus ≠ DRIVER_ASSIGNED ∧
          newStatus ≠ EXPIRED then
        some { t with status := newStatus, version := t.version + 1 }
      else none
  | reassign =>
      if t.status = EXPIRED then
        some {
          status := PENDING
          driver := none
          attempts := 0
          attempted := []
          version := t.version + 1 }
      else none

/-- A move refuses an offer. -/
def Move.refuses : Move D → Bool
  | timeout _ => true
  | reject _ => true
  | _ => false

variable {max : ℕ} {t t' : Ticket D} {m : Move D} {d : D} {newStatus : OrderStatus}

omit [DecidableEq D] in
theorem refused_of_ge {att : List D} (h : t.attempts + 1 ≥ max) :
    t.refused max att = ⟨EXPIRED, none, t.attempts + 1, att, t.version + 1⟩ := by
  rw [Ticket.refused, if_pos h]

omit [DecidableEq D] in
theorem refused_of_not_ge {att : List D} (h : ¬ t.attempts + 1 ≥ max) :
    t.refused max att = ⟨PENDING, none, t.attempts + 1, att, t.version + 1⟩ := by
  rw [Ticket.refused, if_neg h]

/-! ### When a move can be made -/

theorem apply_offer (hs : t.status = PENDING) (hd : d ∉ t.attempted) :
    (Move.offer d).apply max t = some {
      status := DRIVER_ASSIGNED
      driver := some d
      attempts := t.attempts + 1
      attempted := t.attempted.eraseDups ++ [d]
      version := t.version + 1 } :=
  if_pos ⟨hs, hd⟩

theorem apply_expire (hs : t.status = PENDING) :
    (Move.expire : Move D).apply max t = some { t with
      status := EXPIRED
      driver := none
      attempts := t.attempts + 1
      version := t.version + 1 } :=
  if_pos hs

theorem apply_expire_eq_none (hs : t.status ≠ PENDING) :
    (Move.expire : Move D).apply max t = none :=
  if_neg hs

theorem apply_timeout (hs : t.status = DRIVER_ASSIGNED) (hd : t.driver = some d) :
    (Move.timeout d).apply max t = some (t.refused max t.attempted) :=
  if_pos ⟨hs, hd⟩

theorem apply_reject (hs : t.status = DRIVER_ASSIGNED) (hd : t.driver = some d) :
    (Move.reject d).apply max t = some (t.refused max (t.attempted ++ [d])) :=
  if_pos ⟨hs, hd⟩

theorem apply_accept (hs : t.status = DRIVER_ASSIGNED) (hd : t.driver = some d) :
    (Move.accept d).apply max t
      = some { t with status := DRIVER_ARRIVING, version := t.version + 1 } :=
  if_pos ⟨hs, hd⟩

theorem apply_advance (hmem : newStatus ∈ ORDER_TRANSITIONS t.status)
    (hne : newStatus ≠ DRIVER_ASSIGNED) (hne' : newStatus ≠ EXPIRED) :
    (Move.advance newStatus : Move D).apply max t
      = some { t with status := newStatus, version := t.version + 1 } :=
  if_pos ⟨hmem, hne, hne'⟩

theorem apply_reassign (hs : t.status = EXPIRED) :
    (Move.reassign : Move D).apply max t = some {
      status := PENDING
      driver := none
      attempts := 0
      attempted := []
      version := t.version + 1 } :=
  if_pos hs

/-! ### All that a move can do -/

theorem offer_eq_some (h : (Move.offer d).apply max t = some t') :
    t.status = PENDING ∧ d ∉ t.attempted ∧ t'.status = DRIVER_ASSIGNED ∧ t'.driver = some d ∧
      t'.attempts = t.attempts + 1 ∧ t'.attempted = t.attempted.eraseDups ++ [d] ∧
      t'.version = t.version + 1 := by
  simp only [Move.apply, Option.ite_none_right_eq_some, Option.some.injEq] at h
  obtain ⟨⟨hs, hd⟩, rfl⟩ := h
  exact ⟨hs, hd, rfl, rfl, rfl, rfl, rfl⟩

theorem expire_eq_some (h : (Move.expire : Move D).apply max t = some t') :
    t.status = PENDING ∧ t'.status = EXPIRED ∧ t'.driver = none ∧
      t'.attempted = t.attempted ∧ t'.version = t.version + 1 := by
  simp only [Move.apply, Option.ite_none_right_eq_some, Option.some.injEq] at h
  obtain ⟨hs, rfl⟩ := h
  exact ⟨hs, rfl, rfl, rfl, rfl⟩

theorem accept_eq_some (h : (Move.accept d).apply max t = some t') :
    t.status = DRIVER_ASSIGNED ∧ t.driver = some d ∧ t'.status = DRIVER_ARRIVING ∧
      t'.driver = some d ∧ t'.attempts = t.attempts ∧ t'.attempted = t.attempted ∧
      t'.version = t.version + 1 := by
  simp only [Move.apply, Option.ite_none_right_eq_some, Option.some.injEq] at h
  obtain ⟨⟨hs, hd⟩, rfl⟩ := h
  exact ⟨hs, hd, rfl, hd, rfl, rfl, rfl⟩

theorem advance_eq_some (h : (Move.advance newStatus).apply max t = some t') :
    newStatus ∈ ORDER_TRANSITIONS t.status ∧ newStatus ≠ DRIVER_ASSIGNED ∧ newStatus ≠ EXPIRED ∧
      t'.status = newStatus ∧ t'.driver = t.driver ∧ t'.attempts = t.attempts ∧
      t'.attempted = t.attempted ∧ t'.version = t.version + 1 := by
  simp only [Move.apply, Option.ite_none_right_eq_some, Option.some.injEq] at h
  obtain ⟨⟨hmem, hne, hne'⟩, rfl⟩ := h
  exact ⟨hmem, hne, hne', rfl, rfl, rfl, rfl, rfl⟩

theorem reassign_eq_some (h : (Move.reassign : Move D).apply max t = some t') :
    t.status = EXPIRED ∧ t'.status = PENDING ∧ t'.driver = none ∧ t'.attempts = 0 ∧
      t'.attempted = [] ∧ t'.version = t.version + 1 := by
  simp only [Move.apply, Option.ite_none_right_eq_some, Option.some.injEq] at h
  obtain ⟨hs, rfl⟩ := h
  exact ⟨hs, rfl, rfl, rfl, rfl, rfl⟩

/-- The two refusals differ only in what they write of the drivers attempted. -/
theorem refuse_eq_some (hm : m = .timeout d ∨ m = .reject d) (h : m.apply max t = some t') :
    t.status = DRIVER_ASSIGNED ∧ t.driver = some d ∧
      t'.status = (if t.attempts + 1 ≥ max then EXPIRED else PENDING) ∧ t'.driver = none ∧
      t'.attempts = t.attempts + 1 ∧ (∀ d', d' ∈ t.attempted → d' ∈ t'.attempted) ∧
      t'.version = t.version + 1 := by
  rcases hm with rfl | rfl
  · simp only [Move.apply, Option.ite_none_right_eq_some, Option.some.injEq] at h
    obtain ⟨⟨hs, hd⟩, rfl⟩ := h
    exact ⟨hs, hd, rfl, rfl, rfl, fun d' hd' => hd', rfl⟩
  · simp only [Move.apply, Option.ite_none_right_eq_some, Option.some.injEq] at h
    obtain ⟨⟨hs, hd⟩, rfl⟩ := h
    exact ⟨hs, hd, rfl, rfl, rfl, fun d' hd' => List.mem_append_left _ hd', rfl⟩

/-- Every move takes a new version. -/
theorem apply_version (h : m.apply max t = some t') : t'.version = t.version + 1 := by
  cases m with
  | offer d => exact (offer_eq_some h).2.2.2.2.2.2
  | expire => exact (expire_eq_some h).2.2.2.2
  | timeout d => exact (refuse_eq_some (.inl rfl) h).2.2.2.2.2.2
  | reject d => exact (refuse_eq_some (.inr rfl) h).2.2.2.2.2.2
  | accept d => exact (accept_eq_some h).2.2.2.2.2.2
  | advance newStatus => exact (advance_eq_some h).2.2.2.2.2.2.2
  | reassign => exact (reassign_eq_some h).2.2.2.2.2

/-- Every move leads to another status. -/
theorem apply_status_ne (h : m.apply max t = some t') : t'.status ≠ t.status := by
  have hrefused : ∀ d, m = .timeout d ∨ m = .reject d → t'.status ≠ t.status := by
    intro d hm
    obtain ⟨hs, -, hs', -⟩ := refuse_eq_some hm h
    rw [hs, hs']
    split <;> decide
  cases m with
  | offer d =>
      obtain ⟨hs, -, hs', -⟩ := offer_eq_some h
      rw [hs, hs']
      decide
  | expire =>
      obtain ⟨hs, hs', -⟩ := expire_eq_some h
      rw [hs, hs']
      decide
  | timeout d => exact hrefused d (.inl rfl)
  | reject d => exact hrefused d (.inr rfl)
  | accept d =>
      obtain ⟨hs, -, hs', -⟩ := accept_eq_some h
      rw [hs, hs']
      decide
  | advance newStatus =>
      obtain ⟨hmem, -, -, hs', -⟩ := advance_eq_some h
      rw [hs']
      -- the table has no edge from a status to itself
      intro heq
      rw [heq] at hmem
      revert hmem
      cases t.status <;> decide
  | reassign =>
      obtain ⟨hs, hs', -⟩ := reassign_eq_some h
      rw [hs, hs']
      decide

/-- The status changes a life is made of, by the move that makes them. -/
theorem apply_edge (h : m.apply max t = some t') :
    t'.status ∈ ORDER_TRANSITIONS t.status ∨
      m.refuses = true ∧ t.status = DRIVER_ASSIGNED ∧ (t'.status = PENDING ∨ t'.status = EXPIRED) ∨
      m = .reassign ∧ t.status = EXPIRED ∧ t'.status = PENDING := by
  -- the two refusals go back, or give up
  have hrefused : ∀ d, m = .timeout d ∨ m = .reject d → t.status = DRIVER_ASSIGNED ∧
      (t'.status = PENDING ∨ t'.status = EXPIRED) := by
    intro d hm
    obtain ⟨hs, -, hs', -⟩ := refuse_eq_some hm h
    rw [hs']
    refine ⟨hs, ?_⟩
    split
    · exact .inr rfl
    · exact .inl rfl
  cases m with
  | offer d =>
      obtain ⟨hs, -, hs', -⟩ := offer_eq_some h
      rw [hs, hs']
      exact .inl (by decide)
  | expire =>
      obtain ⟨hs, hs', -⟩ := expire_eq_some h
      rw [hs, hs']
      exact .inl (by decide)
  | timeout d => exact .inr (.inl ⟨rfl, hrefused d (.inl rfl)⟩)
  | reject d => exact .inr (.inl ⟨rfl, hrefused d (.inr rfl)⟩)
  | accept d =>
      obtain ⟨hs, -, hs', -⟩ := accept_eq_some h
      rw [hs, hs']
      exact .inl (by decide)
  | advance newStatus =>
      obtain ⟨hmem, -, -, hs', -⟩ := advance_eq_some h
      rw [hs']
      exact .inl hmem
  | reassign =>
      obtain ⟨hs, hs', -⟩ := reassign_eq_some h
      exact .inr (.inr ⟨rfl, hs, hs'⟩)

/-- Only an offer leads to `DRIVER_ASSIGNED`. -/
theorem offer_of_apply (h : m.apply max t = some t') (hs : t'.status = DRIVER_ASSIGNED) :
    ∃ d, m = .offer d ∧ t.status = PENDING ∧ t'.driver = some d := by
  have hrefused : ∀ d, ¬ (m = .timeout d ∨ m = .reject d) := by
    intro d hm
    rw [(refuse_eq_some hm h).2.2.1] at hs
    split at hs <;> cases hs
  cases m with
  | offer d =>
      obtain ⟨hs₀, -, -, hd, -⟩ := offer_eq_some h
      exact ⟨d, rfl, hs₀, hd⟩
  | expire => exact absurd ((expire_eq_some h).2.1.symm.trans hs) (by decide)
  | timeout d => exact absurd (.inl rfl) (hrefused d)
  | reject d => exact absurd (.inr rfl) (hrefused d)
  | accept d => exact absurd ((accept_eq_some h).2.2.1.symm.trans hs) (by decide)
  | advance newStatus =>
      obtain ⟨-, hne, -, hs', -⟩ := advance_eq_some h
      exact absurd (hs'.symm.trans hs) hne
  | reassign => exact absurd ((reassign_eq_some h).2.1.symm.trans hs) (by decide)

/-- **No move can be made twice in a row.** -/
theorem apply_apply_eq_none (h : m.apply max t = some t') : m.apply max t' = none := by
  -- every move leaves the status it starts from
  have hrefused : ∀ d, m = .timeout d ∨ m = .reject d → t'.status ≠ DRIVER_ASSIGNED := by
    intro d hm
    rw [(refuse_eq_some hm h).2.2.1]
    split <;> decide
  cases m with
  | offer d =>
      have hs' := (offer_eq_some h).2.2.1
      exact if_neg fun hc => by rw [hs'] at hc; cases hc.1
  | expire =>
      have hs' := (expire_eq_some h).2.1
      exact if_neg fun hc => by rw [hs'] at hc; cases hc
  | timeout d => exact if_neg fun hc => hrefused d (.inl rfl) hc.1
  | reject d => exact if_neg fun hc => hrefused d (.inr rfl) hc.1
  | accept d =>
      have hs' := (accept_eq_some h).2.2.1
      exact if_neg fun hc => by rw [hs'] at hc; cases hc.1
  | advance newStatus =>
      have hs' := (advance_eq_some h).2.2.2.1
      refine if_neg fun hc => not_mem_transitions_self newStatus ?_
      rw [hs'] at hc
      exact hc.1
  | reassign =>
      have hs' := (reassign_eq_some h).2.1
      exact if_neg fun hc => by rw [hs'] at hc; cases hc

/-- Nothing happens any more to an order that was delivered, cancelled or failed. -/
theorem apply_of_absorbing (ht : t.status = DELIVERED ∨ t.status = CANCELLED ∨ t.status = FAILED) :
    m.apply max t = none := by
  cases h : m.apply max t with
  | none => rfl
  | some t' =>
      -- no edge leaves these statuses, and the two exceptions start elsewhere
      have hno : ORDER_TRANSITIONS t.status = [] := by
        rcases ht with ht | ht | ht <;> rw [ht] <;> rfl
      have hne : t.status ≠ DRIVER_ASSIGNED ∧ t.status ≠ EXPIRED := by
        rcases ht with ht | ht | ht <;> rw [ht] <;> decide
      rcases apply_edge h with hmem | ⟨-, hs, -⟩ | ⟨-, hs, -⟩
      · rw [hno] at hmem
        cases hmem
      · exact absurd hs hne.1
      · exact absurd hs hne.2

/-! ## Ledgers and lives -/

/-- A ticket with its books. -/
@[ext] structure Ledger (D : Type) where
  ticket : Ticket D
  /-- Every status change so far, as the status before and the status after. -/
  trail : List (Option OrderStatus × OrderStatus)
  /-- The drivers it was offered to in the present round, the latest first. -/
  offers : List D
  /-- The offers made and refused in the present round. -/
  turns : ℕ

/-- The books of an order that was just created. -/
def Ledger.new : Ledger D where
  ticket := .new
  trail := [(none, PENDING)]
  offers := []
  turns := 0

/-- The drivers of the round after a move. -/
def Move.offersAfter (offers : List D) : Move D → List D
  | offer d => d :: offers
  | reassign => []
  | _ => offers

/-- The offers made and refused in the round after a move. -/
def Move.turnsAfter (turns : ℕ) : Move D → ℕ
  | offer _ => turns + 1
  | timeout _ => turns + 1
  | reject _ => turns + 1
  | reassign => 0
  | _ => turns

/-- The books after a move that led to the ticket `t`. -/
def Ledger.after (l : Ledger D) (m : Move D) (t : Ticket D) : Ledger D where
  ticket := t
  trail := l.trail ++ [(some l.ticket.status, t.status)]
  offers := m.offersAfter l.offers
  turns := m.turnsAfter l.turns

/-- The life of an order: first there is none, then it is created, and then it makes
moves. -/
def life (max : ℕ) : System (Option (Ledger D)) (Option (Move D)) where
  Init l := l = none
  step
    | none, none => some (some .new)
    | some l, some m => (m.apply max l.ticket).map fun t => some (l.after m t)
    | _, _ => none

/-- What holds of a new order and is kept by every move holds of every order. -/
theorem life_invariant {P : Ledger D → Prop} (hnew : P .new)
    (hmove : ∀ l m t, P l → m.apply max l.ticket = some t → P (l.after m t)) {l : Ledger D}
    (hl : Reachable (life max) (some l)) : P l := by
  have hall : ∀ x : Option (Ledger D), Reachable (life max) x → ∀ l, x = some l → P l := by
    intro x hx
    -- stated for a life that may not have begun, to have an induction on its moves
    refine hx.invariant (P := fun x => ∀ l, x = some l → P l) ?_ ?_
    · intro x hx l hl
      rw [hx] at hl
      cases hl
    · intro x a x' _ ih h l' hl'
      subst hl'
      match x, a, h with
      | none, none, h =>
          obtain rfl : Ledger.new = l' := by simpa [life] using h
          exact hnew
      | some l, some m, h =>
          simp only [life, Option.map_eq_some_iff, Option.some.injEq] at h
          obtain ⟨t, ht, rfl⟩ := h
          exact hmove l m t (ih l rfl) ht
  exact hall _ hl l rfl

/-! ## What holds along every life -/

/-- The trail is one unbroken chain up to the present status, with one entry for each
version. -/
structure Ledger.Chained (l : Ledger D) : Prop where
  first : l.trail.head? = some (none, PENDING)
  linked : l.trail.IsChain fun a b => b.1 = some a.2
  last : l.trail.getLast?.map Prod.snd = some l.ticket.status
  version : l.ticket.version = l.trail.length

theorem chained_of_reachable {l : Ledger D} (hl : Reachable (life max) (some l)) :
    l.Chained := by
  refine life_invariant (P := Ledger.Chained) ?_ ?_ hl
  · exact ⟨rfl, List.isChain_singleton _, rfl, rfl⟩
  · intro l m t ih ht
    -- a trail is never empty, so appending to it keeps its head
    have hne : l.trail ≠ [] := by
      intro hnil
      have hfirst := ih.first
      rw [hnil] at hfirst
      cases hfirst
    refine ⟨?_, ?_, ?_, ?_⟩
    · have hhead : (l.after m t).trail.head? = l.trail.head? := List.head?_append_of_ne_nil _ hne
      exact hhead.trans ih.first
    · refine ih.linked.append (List.isChain_singleton _) ?_
      intro a ha b hb
      -- the new entry starts from the status the last one led to
      have hlast := ih.last
      rw [ha] at hlast
      obtain rfl : (some l.ticket.status, t.status) = b := by simpa using hb
      exact hlast.symm
    · simp [Ledger.after]
    · have hv := ih.version
      have hv' := apply_version ht
      simp only [Ledger.after, List.length_append, List.length_singleton]
      omega

/-- The driver of a ticket fits its status: there is none while the order waits or
after it expired, and there is one, who was offered the order, from the offer on. -/
structure Ticket.Agrees (t : Ticket D) : Prop where
  idle : t.status = PENDING ∨ t.status = EXPIRED → t.driver = none
  engaged : t.status ∈ [DRIVER_ASSIGNED, DRIVER_ARRIVING, PICKED_UP, IN_TRANSIT, DELIVERED,
    FAILED] → ∃ d, t.driver = some d ∧ d ∈ t.attempted

omit [DecidableEq D] in
/-- Where the table of transitions lets a user lead an order, its driver still fits. -/
theorem Ticket.Agrees.advance (h : t.Agrees) (hmem : newStatus ∈ ORDER_TRANSITIONS t.status)
    (hne : newStatus ≠ DRIVER_ASSIGNED) (hne' : newStatus ≠ EXPIRED) :
    Ticket.Agrees { t with status := newStatus, version := t.version + 1 } := by
  -- a user never sets an order back, and cancels it or has a driver lead it along
  have hcases : newStatus = CANCELLED ∨ newStatus ≠ PENDING ∧
      t.status ∈ [DRIVER_ASSIGNED, DRIVER_ARRIVING, PICKED_UP, IN_TRANSIT] := by
    revert hmem hne hne'
    cases t.status <;> cases newStatus <;> decide
  refine ⟨?_, ?_⟩
  · rintro (hs | hs)
    · rcases hcases with hc | ⟨hp, -⟩
      · rw [hc] at hs
        cases hs
      · exact absurd hs hp
    · exact absurd hs hne'
  · intro hs
    rcases hcases with hc | ⟨-, hsrc⟩
    · have hno : CANCELLED ∉ [DRIVER_ASSIGNED, DRIVER_ARRIVING, PICKED_UP, IN_TRANSIT, DELIVERED,
          FAILED] := by decide
      rw [hc] at hs
      exact absurd hs hno
    · refine h.engaged ?_
      revert hsrc
      cases t.status <;> decide

theorem agrees_of_reachable {l : Ledger D} (hl : Reachable (life max) (some l)) :
    l.ticket.Agrees := by
  refine life_invariant (P := fun l => l.ticket.Agrees) ?_ ?_ hl
  · have hno : PENDING ∉ [DRIVER_ASSIGNED, DRIVER_ARRIVING, PICKED_UP, IN_TRANSIT, DELIVERED,
        FAILED] := by decide
    exact ⟨fun _ => rfl, fun h => absurd h hno⟩
  · intro l m t ih ht
    -- moves come in four kinds: to a status without driver, to one with, refusals, `advance`
    have hidle : (t.status = PENDING ∨ t.status = EXPIRED) → t.driver = none → t.Agrees := by
      intro hs hd
      refine ⟨fun _ => hd, fun hmem => ?_⟩
      rcases hs with hs | hs <;> rw [hs] at hmem <;> exact absurd hmem (by decide)
    have hengaged : ∀ d, t.status = DRIVER_ASSIGNED ∨ t.status = DRIVER_ARRIVING →
        t.driver = some d → d ∈ t.attempted → t.Agrees := by
      intro d hs hd hmem
      refine ⟨fun hp => ?_, fun _ => ⟨d, hd, hmem⟩⟩
      rcases hs with hs | hs <;> rw [hs] at hp <;> exact absurd hp (by decide)
    have hrefused : ∀ d, m = .timeout d ∨ m = .reject d → t.Agrees := by
      intro d hm
      obtain ⟨-, -, hs, hd, -⟩ := refuse_eq_some hm ht
      refine hidle ?_ hd
      rw [hs]
      split
      · exact .inr rfl
      · exact .inl rfl
    show t.Agrees
    cases m with
    | offer d =>
        obtain ⟨-, -, hs, hd, -, hatt, -⟩ := offer_eq_some ht
        refine hengaged d (.inl hs) hd ?_
        rw [hatt]
        exact List.mem_append_right _ List.mem_cons_self
    | expire =>
        obtain ⟨-, hs, hd, -⟩ := expire_eq_some ht
        exact hidle (.inr hs) hd
    | timeout d => exact hrefused d (.inl rfl)
    | reject d => exact hrefused d (.inr rfl)
    | accept d =>
        obtain ⟨hs, hd, hs', hd', -, hatt, -⟩ := accept_eq_some ht
        -- accepted by the driver it was offered to, who is listed since the offer
        obtain ⟨d', hd₁, hmem⟩ := ih.engaged (by rw [hs]; decide)
        rw [hd] at hd₁
        obtain rfl := Option.some.inj hd₁
        refine hengaged d (.inr hs') hd' ?_
        rw [hatt]
        exact hmem
    | advance newStatus =>
        obtain ⟨hmem, hne, hne', hs, hd, ha, hatt, hv⟩ := advance_eq_some ht
        have hagrees := ih.advance hmem hne hne'
        have heq : t = { l.ticket with status := newStatus, version := l.ticket.version + 1 } :=
          Ticket.ext hs hd ha hatt hv
        rw [heq]
        exact hagrees
    | reassign =>
        obtain ⟨-, hs, hd, -⟩ := reassign_eq_some ht
        exact hidle (.inl hs) hd

/-- How the books of a round add up. Each offer counts once when it is made and once
more when it is refused, so the attempts are about twice the offers, and a round ends
when about half of `max` offers were made. -/
structure Ledger.Counted (max : ℕ) (l : Ledger D) : Prop where
  nodup : l.offers.Nodup
  listed : ∀ d ∈ l.offers, d ∈ l.ticket.attempted
  idle : l.ticket.status = PENDING → l.ticket.attempts = 2 * l.offers.length ∧
    l.turns = 2 * l.offers.length ∧ 2 * l.offers.length < max
  offered : l.ticket.status = DRIVER_ASSIGNED → l.ticket.attempts + 1 = 2 * l.offers.length ∧
    l.turns + 1 = 2 * l.offers.length
  bound : 2 * l.offers.length ≤ max + 1
  turns_le : l.turns ≤ 2 * l.offers.length
  fresh : l.offers = [] → l.ticket.attempted = []
  single : l.ticket.status = DRIVER_ASSIGNED → l.offers.length = 1 →
    l.ticket.attempted.length = 1

omit [DecidableEq D] in
/-- A move that neither makes nor refuses an offer, and leads to no status in which
offers are counted, keeps the books of the round. -/
theorem Ledger.Counted.settled {l : Ledger D} (h : l.Counted max)
    (hoffers : m.offersAfter l.offers = l.offers) (hturns : m.turnsAfter l.turns = l.turns)
    (hatt : t.attempted = l.ticket.attempted) (hp : t.status ≠ PENDING)
    (ha : t.status ≠ DRIVER_ASSIGNED) : (l.after m t).Counted max := by
  simp only [Ledger.after, hoffers, hturns]
  refine ⟨h.nodup, ?_, fun hs => absurd hs hp, fun hs => absurd hs ha, h.bound, h.turns_le, ?_,
    fun hs => absurd hs ha⟩
  · simp only [hatt]
    exact h.listed
  · simp only [hatt]
    exact h.fresh

omit [DecidableEq D] in
/-- The books of a round in which nothing was offered yet. -/
theorem counted_of_fresh (hmax : 1 ≤ max) {l : Ledger D} (hoffers : l.offers = [])
    (hturns : l.turns = 0) (hs : l.ticket.status = PENDING) (ha : l.ticket.attempts = 0)
    (hatt : l.ticket.attempted = []) : l.Counted max := by
  have hne : l.ticket.status ≠ DRIVER_ASSIGNED := by
    rw [hs]
    decide
  refine ⟨?_, ?_, fun _ => ?_, fun h => absurd h hne, ?_, ?_, fun _ => hatt,
    fun h => absurd h hne⟩
  · rw [hoffers]
    exact List.nodup_nil
  · intro d hd
    rw [hoffers] at hd
    cases hd
  · simp only [hoffers, List.length_nil]
    omega
  · simp [hoffers]
  · simp [hturns]

/-- A refusal counts once more, and ends the round when the attempts are used up. -/
theorem Ledger.Counted.refused {l : Ledger D} (h : l.Counted max)
    (hm : m = .timeout d ∨ m = .reject d) (ht : m.apply max l.ticket = some t) :
    (l.after m t).Counted max := by
  obtain ⟨hs, -, hs', -, ha, hatt, -⟩ := refuse_eq_some hm ht
  obtain ⟨hcount, hturns⟩ := h.offered hs
  have hoffers : m.offersAfter l.offers = l.offers := by rcases hm with rfl | rfl <;> rfl
  have hturns' : m.turnsAfter l.turns = l.turns + 1 := by rcases hm with rfl | rfl <;> rfl
  have hbound := h.bound
  have hne : t.status ≠ DRIVER_ASSIGNED := by
    rw [hs']
    split <;> decide
  -- where the round goes on the attempts are not used up
  have hlt : t.status = PENDING → l.ticket.attempts + 1 < max := by
    intro hp
    rw [hs'] at hp
    split at hp
    · cases hp
    · omega
  simp only [Ledger.after, hoffers, hturns']
  refine ⟨h.nodup, fun d' hd' => hatt d' (h.listed d' hd'), fun hp => ?_, fun hp => absurd hp hne,
    hbound, ?_, fun hnil => ?_, fun hp => absurd hp hne⟩
  · have hmax := hlt hp
    simp only
    omega
  · simp only
    omega
  · -- something was offered, or it could not be refused
    simp only at hnil
    rw [hnil] at hcount
    simp at hcount

/-- An offer adds a driver who was not attempted, and counts once. -/
theorem Ledger.Counted.offer {l : Ledger D} (h : l.Counted max)
    (ht : (Move.offer d).apply max l.ticket = some t) : (l.after (.offer d) t).Counted max := by
  obtain ⟨hs, hd, hs', -, ha, hatt, -⟩ := offer_eq_some ht
  obtain ⟨hcount, hturns, hlt⟩ := h.idle hs
  have hne : t.status ≠ PENDING := by
    rw [hs']
    decide
  simp only [Ledger.after, Move.offersAfter, Move.turnsAfter]
  refine ⟨?_, ?_, fun hp => absurd hp hne, fun _ => ?_, ?_, ?_, fun hnil => ?_, fun _ hone => ?_⟩
  -- the driver is not listed, and all drivers of the round are
  · exact List.nodup_cons.mpr ⟨fun hmem => hd (h.listed d hmem), h.nodup⟩
  · intro d' hd'
    simp only [hatt, List.mem_append, List.mem_eraseDups, List.mem_singleton]
    rcases List.mem_cons.mp hd' with rfl | hd'
    · exact .inr rfl
    · exact .inl (h.listed d' hd')
  · simp only [List.length_cons]
    omega
  · simp only [List.length_cons]
    omega
  · simp only [List.length_cons]
    omega
  · cases hnil
  · -- the first offer of a round finds no driver attempted
    have hnil : l.offers = [] := by
      rw [← List.length_eq_zero_iff]
      simpa using hone
    simp only [hatt, h.fresh hnil]
    rfl

/-- **Along every life the books of a round add up.** -/
theorem counted_of_reachable (hmax : 1 ≤ max) {l : Ledger D}
    (hl : Reachable (life max) (some l)) : l.Counted max := by
  refine life_invariant (P := Ledger.Counted max) ?_ ?_ hl
  · exact counted_of_fresh hmax rfl rfl rfl rfl rfl
  · intro l m t ih ht
    -- offers and refusals count, a reassignment starts afresh, the rest leaves the round alone
    cases m with
    | offer d => exact ih.offer ht
    | timeout d => exact ih.refused (.inl rfl) ht
    | reject d => exact ih.refused (.inr rfl) ht
    | reassign =>
        obtain ⟨-, hs', -, ha, hatt, -⟩ := reassign_eq_some ht
        exact counted_of_fresh hmax rfl rfl hs' ha hatt
    | expire =>
        obtain ⟨-, hs', -, hatt, -⟩ := expire_eq_some ht
        exact ih.settled rfl rfl hatt (by rw [hs']; decide) (by rw [hs']; decide)
    | accept d =>
        obtain ⟨-, -, hs', -, -, hatt, -⟩ := accept_eq_some ht
        exact ih.settled rfl rfl hatt (by rw [hs']; decide) (by rw [hs']; decide)
    | advance newStatus =>
        obtain ⟨hmem, hne, -, hs', -, -, hatt, -⟩ := advance_eq_some ht
        have hp : newStatus ≠ PENDING := by
          rintro rfl
          exact pending_not_mem_transitions _ hmem
        exact ih.settled rfl rfl hatt (by rw [hs']; exact hp) (by rw [hs']; exact hne)

end Lifecycle

end LogisticsDispatch
