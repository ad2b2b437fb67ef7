/-
How often an order is offered, and what its counter counts.

A round of an order begins when it is created, and anew when it is reassigned after it
had expired. In a round no driver is offered the order twice, and the round ends: after
at most `maxDispatchAttempts` offers, in fact after about half of them. For
`dispatchAttempts` counts an offer when it is made (`assignDriverWithLock`) and again
when it is refused (`handleDispatchTimeout`, `rejectDispatch`). It is the number of
offers only as long as none was refused, or if one attempt is all there is.
-/
import LogisticsDispatch.Refinement

set_option autoImplicit false

namespace LogisticsDispatch

open OrderStatus Lifecycle

variable {Q : Type} [JobQueue Q JobId JobData] {cfg : DispatchConfig} {s s' : Sys Q} {a : Action}
  {o : OrderId} {tr : List (Transition.Move (Sys Q) Action)} {row : Order}

/-! ## Rounds are short -/

/-- The round of an order that was not created is empty. -/
theorem round_of_none (run : Transition.Run (logistics Q cfg) tr s) (h : s.order o = none) :
    offers o tr = [] ∧ turns o tr = 0 := by
  refine run.invariant_trace (P := fun tr s => s.order o = none → offers o tr = [] ∧
    turns o tr = 0) (fun _ _ _ => ⟨rfl, rfl⟩) ?_ h
  intro tr s a s' run ih hstep hnone
  -- rows are never dropped, so the order was not there before either
  have hbefore : s.order o = none := by
    cases hrow : s.order o with
    | none => rfl
    | some row =>
        obtain ⟨row', hrow', -⟩ := (rely_of_step run.reachable hstep).db.orders o row hrow
        have hrow' : s'.order o = some row' := hrow'
        rw [hnone] at hrow'
        cases hrow'
  have hsrc : s.status o = none := by rw [Sys.status, hbefore]; rfl
  have hdst : s'.status o = none := by rw [Sys.status, hnone]; rfl
  simp only [offers, turns, hsrc, hdst, roundAfter_self, countAfter_self]
  exact ih hbefore

/-- **No driver is offered an order twice in a round**, and a round has at most
`maxDispatchAttempts` offers and at most twice as many assignments, rejections and
timeouts. -/
theorem round_bounded (hmax : 1 ≤ cfg.maxDispatchAttempts)
    (run : Transition.Run (logistics Q cfg) tr s) (o : OrderId) :
    (offers o tr).Nodup ∧ (offers o tr).length ≤ cfg.maxDispatchAttempts ∧
      turns o tr ≤ 2 * cfg.maxDispatchAttempts := by
  cases hrow : s.order o with
  | none =>
      obtain ⟨hoffers, hturns⟩ := round_of_none run hrow
      rw [hoffers, hturns]
      exact ⟨List.nodup_nil, Nat.zero_le _, Nat.zero_le _⟩
  | some row =>
      obtain ⟨l, hl, -, -, hoffers, hturns⟩ := books_of_order run hrow
      have hcounted := counted_of_reachable hmax hl
      have hnodup := hcounted.nodup
      have hbound := hcounted.bound
      have hle := hcounted.turns_le
      rw [hoffers] at hnodup hbound hle
      rw [hturns] at hle
      refine ⟨hnodup, ?_, ?_⟩
      · omega
      · omega

/-- In the small system the one offer of the trip is the whole round. -/
theorem round_bounded_of_trip : ∃ tr : List (Transition.Move (Sys BullQueue) Action),
    offers sampleOrder tr = [sampleDriver] ∧ (offers sampleOrder tr).Nodup ∧
      (offers sampleOrder tr).length ≤ 3 ∧ turns sampleOrder tr ≤ 6 := by
  refine ⟨(logistics BullQueue (sampleConfig 3)).moves [] (start [carDriver])
    (orderTrip ++ offerTrip), by decide +kernel, ?_⟩
  exact round_bounded (by decide) (after_run trip_offered) sampleOrder

/-! ## What the counter counts -/

/-- The step lets the driver an order is offered to refuse it: it is the transaction of
`handleDispatchTimeout` or of `rejectDispatch`, and finds the order assigned to the
driver it names. -/
def RefusesOffer (s : Sys Q) (a : Action) (o : OrderId) : Prop :=
  ∃ i ch d row, a = .exec i ch ∧
    (s.next i = some (.transaction (.handleDispatchTimeout o d)) ∨
      s.next i = some (.transaction (.rejectDispatch o d))) ∧
    DispatchService.OfferedIn s.shared.db o d row

/-- A refusal was made: one move of the order's life. -/
def Refused (cfg : DispatchConfig) (s s' : Sys Q) (o : OrderId) : Prop :=
  ∃ (d : DriverId) (m : Move DriverId) (row row' : Order), (m = .timeout d ∨ m = .reject d) ∧
    s.order o = some row ∧ s'.order o = some row' ∧
    m.apply cfg.maxDispatchAttempts row.ticket = some row'.ticket

omit [JobQueue Q JobId JobData] in
theorem Refused.of_move {d : DriverId} {m : Move DriverId} {actor : String} {now : ℕ} {db : Db}
    (hm : m = .timeout d ∨ m = .reject d) (hdb : s'.shared.db = db)
    (hmove : s.shared.db.move cfg o m actor now = some db) : Refused cfg s s' o := by
  obtain ⟨row, t, hrow, -, ht, hrow', -⟩ := Db.move_spec hmove
  rw [← hdb] at hrow'
  exact ⟨d, m, row, _, hm, hrow, hrow', ht⟩

/-- A refusal of the driver the order is offered to goes through. -/
theorem RefusesOffer.refused (h : RefusesOffer s a o) (hstep : step cfg s a = some s') :
    Refused cfg s s' o := by
  obtain ⟨i, ch, d, row, rfl, hnext, hoffered⟩ := h
  obtain ⟨call, e, k, hi, hsh, -⟩ := Resumable.Pool.advance_eq_some hstep
  have hsh : s'.shared = (perform cfg ch e s.shared).2 := hsh
  rw [Sys.next_of_lookup hi] at hnext
  rcases hnext with hnext | hnext
  · obtain rfl := Option.some.inj hnext
    obtain ⟨res, db', hrun, hmove⟩ : ∃ res db',
        DispatchService.handleDispatchTimeoutTx cfg ch o d s.shared.db = .ok (res, db') ∧
          s.shared.db.move cfg o (.timeout d) "system" ch.now = some db' :=
      DispatchService.handleDispatchTimeoutTx_offered hoffered
    have hdb : s'.shared.db = db' := by
      simp only [hsh, perform, Transaction.run, hrun]
    exact .of_move (.inl rfl) hdb hmove
  · obtain rfl := Option.some.inj hnext
    obtain ⟨res, db', hrun, hmove⟩ : ∃ res db',
        DispatchService.rejectDispatchTx cfg ch o d s.shared.db = .ok (res, db') ∧
          s.shared.db.move cfg o (.reject d) d.text ch.now = some db' :=
      DispatchService.rejectDispatchTx_offered hoffered
    have hdb : s'.shared.db = db' := by
      simp only [hsh, perform, Transaction.run, hrun]
    exact .of_move (.inr rfl) hdb hmove

/-- In a step of a run the order is counted right: after it, while the order waits or is
offered, the counter and the list of attempted drivers count the offers of the round;
and if it ends an offer, the order expires exactly when that was the last one allowed. -/
structure AccountedAt (cfg : DispatchConfig) (o : OrderId)
    (earlier : List (Transition.Move (Sys Q) Action)) (m : Transition.Move (Sys Q) Action) :
    Prop where
  count : ∀ row, m.dst.order o = some row →
    row.orderStatus = PENDING ∨ row.orderStatus = DRIVER_ASSIGNED →
      row.dispatchAttempts = (offers o (m :: earlier)).length ∧
        row.attemptedDriverIds.length = (offers o (m :: earlier)).length
  cap : RefusesOffer m.src m.act o → m.dst.status o
    = some (if (offers o earlier).length = cfg.maxDispatchAttempts then EXPIRED else PENDING)

/-- The order is counted right in every step of a run. -/
def Accounted (cfg : DispatchConfig) (o : OrderId)
    (tr : List (Transition.Move (Sys Q) Action)) : Prop :=
  ∀ later m earlier, tr = later ++ m :: earlier → AccountedAt cfg o earlier m

omit [JobQueue Q JobId JobData] in
/-- After the last step of a run that is counted right, the counter counts. -/
theorem Accounted.head {tr : List (Transition.Move (Sys Q) Action)}
    (h : Accounted cfg o tr) {m : Transition.Move (Sys Q) Action} (hm : tr.head? = some m)
    (hrow : m.dst.order o = some row)
    (hs : row.orderStatus = PENDING ∨ row.orderStatus = DRIVER_ASSIGNED) :
    row.dispatchAttempts = (offers o tr).length := by
  cases tr with
  | nil => cases hm
  | cons m' earlier =>
      obtain rfl := Option.some.inj hm
      exact ((h [] m' earlier rfl).count row hrow hs).1

/-- The trip times out for the driver it was offered to. -/
def timeoutTrip : List Action :=
  .promote .DISPATCH_QUEUE (.dispatchTimeout sampleOrder sampleDriver) ::
    .deliver 3 .DISPATCH_QUEUE (.dispatchTimeout sampleOrder sampleDriver) ::
    proceed 3 1 sampleChoice

theorem trip_timed_out : ((logistics BullQueue (sampleConfig 3)).exec (start [carDriver])
    (orderTrip ++ offerTrip ++ timeoutTrip)).isSome := by
  decide +kernel

/-- With three attempts allowed, one offer that times out counts as two. -/
theorem trip_miscounted : ∃ tr s, Transition.Run (logistics BullQueue (sampleConfig 3)) tr s ∧
    ¬ Accounted (sampleConfig 3) sampleOrder tr := by
  refine ⟨_, _, after_run trip_timed_out, fun h => ?_⟩
  have hoffers : (offers sampleOrder ((logistics BullQueue (sampleConfig 3)).moves []
      (start [carDriver]) (orderTrip ++ offerTrip ++ timeoutTrip))).length = 1 := by
    decide +kernel
  have hlast : (((logistics BullQueue (sampleConfig 3)).moves [] (start [carDriver])
      (orderTrip ++ offerTrip ++ timeoutTrip)).head?.bind fun m =>
        (m.dst.order sampleOrder).map fun row => (row.orderStatus, row.dispatchAttempts))
      = some (PENDING, 2) := by
    decide +kernel
  obtain ⟨m, hm, hmap⟩ := Option.bind_eq_some_iff.mp hlast
  obtain ⟨row, hrow, heq⟩ := Option.map_eq_some_iff.mp hmap
  obtain ⟨hstatus, hattempts⟩ := Prod.mk.inj heq
  have hcount := h.head hm hrow (.inl hstatus)
  omega

/-- The offers of the round are none while the order waits, and one while it is
offered. -/
def FewOffers (o : OrderId) (tr : List (Transition.Move (Sys Q) Action)) (s : Sys Q) : Prop :=
  (s.status o = some PENDING → offers o tr = []) ∧
    (s.status o = some DRIVER_ASSIGNED → (offers o tr).length = 1)

/-- A round in which one attempt is allowed has few offers. -/
theorem few_offers_of_one (hmax : cfg.maxDispatchAttempts = 1)
    (run : Transition.Run (logistics Q cfg) tr s) : FewOffers o tr s := by
  cases hrow : s.order o with
  | none =>
      have hstatus : s.status o = none := by rw [Sys.status, hrow]; rfl
      refine ⟨fun h => ?_, fun h => ?_⟩
      · rw [hstatus] at h
        cases h
      · rw [hstatus] at h
        cases h
  | some row =>
      have hstatus : s.status o = some row.orderStatus := by rw [Sys.status, hrow]; rfl
      obtain ⟨l, hl, hticket, -, hoffers, -⟩ := books_of_order run hrow
      have hcounted := counted_of_reachable (by omega) hl
      have hticket : l.ticket.status = row.orderStatus := by rw [hticket]; rfl
      rw [FewOffers, hstatus, ← hoffers, ← hticket]
      refine ⟨fun h => ?_, fun h => ?_⟩
      -- twice the offers are at most two, and a waiting order has been offered less often
      · have hidle := (hcounted.idle (Option.some.inj h)).2.2
        rw [← List.length_eq_zero_iff]
        omega
      · have hoffered := (hcounted.offered (Option.some.inj h)).1
        have hbound := hcounted.bound
        omega

omit [JobQueue Q JobId JobData] in
/-- A step that keeps the status keeps the offers few. -/
theorem FewOffers.same (h : FewOffers o tr s) (hstatus : s'.status o = s.status o) :
    FewOffers o (⟨s, a, s'⟩ :: tr) s' := by
  rw [FewOffers, offers, hstatus, roundAfter_self]
  exact h

omit [JobQueue Q JobId JobData] in
/-- A move that refuses no offer keeps the offers few: what it adds to the round depends
on the two statuses only. -/
theorem FewOffers.move {m : Move DriverId} {row' : Order} {max : ℕ} (h : FewOffers o tr s)
    (hrow : s.order o = some row) (hrow' : s'.order o = some row')
    (hticket : m.apply max row.ticket = some row'.ticket)
    (hm : m.refuses = false) : FewOffers o (⟨s, a, s'⟩ :: tr) s' := by
  obtain ⟨hempty, -⟩ := h
  have hsrc : s.status o = some row.ticket.status := by rw [Sys.status, hrow]; rfl
  have hdst : s'.status o = some row'.ticket.status := by rw [Sys.status, hrow']; rfl
  have hother : row'.ticket.status ≠ PENDING → row'.ticket.status ≠ DRIVER_ASSIGNED →
      FewOffers o (⟨s, a, s'⟩ :: tr) s' := by
    intro hp ha
    rw [FewOffers, hdst]
    exact ⟨fun h => absurd (Option.some.inj h) hp, fun h => absurd (Option.some.inj h) ha⟩
  cases m with
  | offer d =>
      obtain ⟨hs, -, hs', hd, -⟩ := offer_eq_some hticket
      -- offered now and not before: the round was empty while the order waited
      have hd : (s'.order o).bind Order.assignedDriverId = some d := by
        rw [hrow']
        exact hd
      rw [hs] at hsrc
      rw [hs'] at hdst
      rw [FewOffers, offers, hsrc, hdst, hempty hsrc, hd]
      exact ⟨fun h => (by cases h), fun _ => rfl⟩
  | expire =>
      obtain ⟨-, hs', -⟩ := expire_eq_some hticket
      exact hother (by rw [hs']; decide) (by rw [hs']; decide)
  | timeout d => cases hm
  | reject d => cases hm
  | accept d =>
      obtain ⟨-, -, hs', -⟩ := accept_eq_some hticket
      exact hother (by rw [hs']; decide) (by rw [hs']; decide)
  | advance newStatus =>
      obtain ⟨hmem, hne, -, hs', -⟩ := advance_eq_some hticket
      have hp : newStatus ≠ PENDING := by
        rintro rfl
        exact pending_not_mem_transitions _ hmem
      exact hother (by rw [hs']; exact hp) (by rw [hs']; exact hne)
  | reassign =>
      obtain ⟨hs, hs', -⟩ := reassign_eq_some hticket
      rw [hs] at hsrc
      rw [hs'] at hdst
      rw [FewOffers, offers, hsrc, hdst]
      exact ⟨fun _ => rfl, fun h => (by cases h)⟩

/-- A step that refuses no offer keeps the offers few. -/
theorem FewOffers.step (hs : Transition.Reachable (logistics Q cfg) s)
    (hstep : LogisticsDispatch.step cfg s a = some s') (hunrefused : ¬ RefusesOffer s a o)
    (h : FewOffers o tr s) : FewOffers o (⟨s, a, s'⟩ :: tr) s' := by
  cases order_step hs hstep o with
  | same horder _ => exact h.same (by rw [Sys.status, horder]; rfl)
  | deleted _ _ hrow hrow' _ => exact h.same (by rw [Sys.status, Sys.status, hrow, hrow']; rfl)
  | created _ _ hnone hrow' hticket _ _ =>
      have hsrc : s.status o = none := by rw [Sys.status, hnone]; rfl
      have hdst : s'.status o = some PENDING := by
        rw [Sys.status, hrow']
        exact congrArg (fun t => some t.status) hticket
      rw [FewOffers, offers, hsrc, hdst]
      exact ⟨fun _ => rfl, fun h => (by cases h)⟩
  | @moved i ch call t m actor row tk ha _ hnext _ hmakes _ _ _ hrow hlive hticket hrow' _ =>
      refine h.move hrow hrow' hticket ?_
      -- a move that refuses is one of the two transactions, on a row that is offered
      by_contra hrefuses
      rw [Bool.not_eq_false] at hrefuses
      have hlive := Db.findOrder_eq_some.mpr ⟨hrow, hlive⟩
      cases hmakes with
      | timeout _ d =>
          obtain ⟨hs, hd, -⟩ := refuse_eq_some (.inl rfl) hticket
          exact hunrefused ⟨i, ch, d, row, ha, .inl hnext, hlive, hs, hd⟩
      | reject _ d =>
          obtain ⟨hs, hd, -⟩ := refuse_eq_some (.inr rfl) hticket
          exact hunrefused ⟨i, ch, d, row, ha, .inr hnext, hlive, hs, hd⟩
      | _ => cases hrefuses

/-- A run in which no offer is refused has few offers. -/
theorem few_offers_of_unrefused (run : Transition.Run (logistics Q cfg) tr s)
    (hcond : ∀ m ∈ tr, ¬ RefusesOffer m.src m.act o) : FewOffers o tr s := by
  -- by induction on the run; what is refused later does not matter here
  refine run.invariant_trace (P := fun tr s => (∀ m ∈ tr, ¬ RefusesOffer m.src m.act o) →
    FewOffers o tr s) ?_ ?_ hcond
  · intro s hinit _
    have hstatus : s.status o = none := by
      rw [Sys.status, Sys.order, hinit.orders, Table.find_empty]
      rfl
    refine ⟨fun _ => rfl, fun h => ?_⟩
    rw [hstatus] at h
    cases h
  · intro tr s a s' run ih hstep hcond
    have hfew := ih fun m hm => hcond m (List.mem_cons_of_mem _ hm)
    exact hfew.step run.reachable hstep (hcond ⟨s, a, s'⟩ List.mem_cons_self)

/-- Where the offers are few, the counters are right. -/
theorem FewOffers.count (h : FewOffers o tr s) (hmax : 1 ≤ cfg.maxDispatchAttempts)
    (run : Transition.Run (logistics Q cfg) tr s) (hrow : s.order o = some row)
    (hs : row.orderStatus = PENDING ∨ row.orderStatus = DRIVER_ASSIGNED) :
    row.dispatchAttempts = (offers o tr).length ∧
      row.attemptedDriverIds.length = (offers o tr).length := by
  obtain ⟨l, hl, hticket, -, hoffers, -⟩ := books_of_order run hrow
  have hcounted := counted_of_reachable hmax hl
  have hstatus : s.status o = some row.orderStatus := by rw [Sys.status, hrow]; rfl
  have hls : l.ticket.status = row.orderStatus := by rw [hticket]; rfl
  have hla : l.ticket.attempts = row.dispatchAttempts := by rw [hticket]; rfl
  have hlatt : l.ticket.attempted = row.attemptedDriverIds := by rw [hticket]; rfl
  obtain ⟨hp, ha⟩ := h
  rw [hstatus, ← hoffers] at hp ha
  rw [← hla, ← hlatt, ← hoffers]
  -- `Counted` has twice the offers for a waiting order and one less for an offered one;
  -- with none and one offers both are the number of offers
  rcases hs with hs | hs
  · have hnil := hp (by rw [hs])
    have hattempts := (hcounted.idle (hls.trans hs)).1
    rw [hnil] at hattempts ⊢
    exact ⟨hattempts, by rw [hcounted.fresh hnil]⟩
  · have hone := ha (by rw [hs])
    have hattempts := (hcounted.offered (hls.trans hs)).1
    have hlist := hcounted.single (hls.trans hs) hone
    refine ⟨?_, ?_⟩
    · omega
    · omega

/-- What a refusal finds and leads to: the offer it ends is number `n` of the round, and
the attempts are used up if `2 * n` reaches the bound. -/
theorem RefusesOffer.outcome (hmax : 1 ≤ cfg.maxDispatchAttempts)
    (run : Transition.Run (logistics Q cfg) tr s) (hstep : step cfg s a = some s')
    (h : RefusesOffer s a o) :
    1 ≤ (offers o tr).length ∧ 2 * (offers o tr).length ≤ cfg.maxDispatchAttempts + 1 ∧
      offers o (⟨s, a, s'⟩ :: tr) = offers o tr ∧
      ∃ row', s'.order o = some row' ∧ row'.dispatchAttempts = 2 * (offers o tr).length ∧
        row'.orderStatus = if 2 * (offers o tr).length ≥ cfg.maxDispatchAttempts then EXPIRED
          else PENDING := by
  obtain ⟨d, m, row, row', hm, hrow, hrow', ht⟩ := h.refused hstep
  obtain ⟨l, hl, hticket, -, hoffers, -⟩ := books_of_order run hrow
  obtain ⟨hs, -, hs', -, ha, -⟩ := refuse_eq_some hm ht
  have hcounted := counted_of_reachable hmax hl
  have hcount := (hcounted.offered (by rw [hticket]; exact hs)).1
  have hbound := hcounted.bound
  rw [hticket, hoffers] at hcount
  rw [hoffers] at hbound
  -- before the refusal `2 * n - 1` is counted, after it `2 * n`
  rw [hcount] at hs' ha
  refine ⟨by omega, hbound, ?_, row', hrow', ha, hs'⟩
  have hsrc : s.status o = some DRIVER_ASSIGNED := by
    rw [Sys.status, hrow]
    exact congrArg some hs
  have hdst : s'.status o = some row'.ticket.status := by rw [Sys.status, hrow']; rfl
  rw [offers, hsrc, hdst, hs']
  split <;> rfl

/-- **When attempts are counted right**: in every step of a run, exactly if one attempt
is all that is allowed, or no offer of the run is refused. -/
theorem accounted_iff (hmax : 1 ≤ cfg.maxDispatchAttempts)
    (run : Transition.Run (logistics Q cfg) tr s) :
    Accounted cfg o tr ↔
      cfg.maxDispatchAttempts = 1 ∨ ∀ m ∈ tr, ¬ RefusesOffer m.src m.act o := by
  constructor
  · intro h
    by_contra hcond
    rw [not_or] at hcond
    obtain ⟨hone, hcond⟩ := hcond
    obtain ⟨m, hm, hrefuses⟩ : ∃ m ∈ tr, RefusesOffer m.src m.act o := by
      by_contra hno
      exact hcond fun m hm hr => hno ⟨m, hm, hr⟩
    obtain ⟨later, earlier, rfl⟩ := List.append_of_mem hm
    obtain ⟨hrun, hstep, -⟩ := run.of_suffix
    obtain ⟨hpos, hbound, hkeep, row', hrow', hattempts, hstatus⟩ :=
      hrefuses.outcome hmax hrun hstep
    obtain ⟨hcount, hcap⟩ := h later m earlier rfl
    have hcap := hcap hrefuses
    have hdst : m.dst.status o = some row'.orderStatus := by rw [Sys.status, hrow']; rfl
    -- the refused offer is not the last one allowed, so the order must wait
    have hlast : (offers o earlier).length ≠ cfg.maxDispatchAttempts := by omega
    rw [hdst, if_neg hlast] at hcap
    have hpending := Option.some.inj hcap
    have hright := (hcount row' hrow' (.inl hpending)).1
    rw [show (m :: earlier) = ⟨m.src, m.act, m.dst⟩ :: earlier from rfl, hkeep] at hright
    -- the counter says `2 * n`, and there was an offer to refuse
    omega
  · intro hcond later m earlier htr
    subst htr
    obtain ⟨hrun, hstep, hrun'⟩ := run.of_suffix
    -- either condition keeps the offers few in every part of the run
    have hfew : ∀ {tr' : List (Transition.Move (Sys Q) Action)} {s₁ : Sys Q},
        Transition.Run (logistics Q cfg) tr' s₁ → (∀ m' ∈ tr', m' ∈ later ++ m :: earlier) →
        FewOffers o tr' s₁ := by
      intro tr' s₁ hrun₁ hsub
      rcases hcond with hone | hno
      · exact few_offers_of_one hone hrun₁
      · exact few_offers_of_unrefused hrun₁ fun m' hm' => hno m' (hsub m' hm')
    refine ⟨fun row hrow hs => ?_, fun hrefuses => ?_⟩
    · exact (hfew hrun' fun m' hm' => List.mem_append_right _ hm').count hmax hrun' hrow hs
    · obtain ⟨hpos, hbound, -, row', hrow', -, hstatus⟩ := hrefuses.outcome hmax hrun hstep
      rcases hcond with hone | hno
      · have hlast : (offers o earlier).length = cfg.maxDispatchAttempts := by omega
        have hge : 2 * (offers o earlier).length ≥ cfg.maxDispatchAttempts := by omega
        rw [Sys.status, hrow', if_pos hlast]
        rw [if_pos hge] at hstatus
        exact congrArg some hstatus
      · exact absurd hrefuses (hno m (List.mem_append_right _ List.mem_cons_self))

/-- Where one attempt is allowed, the trip that is offered once is counted right. -/
theorem accounted_iff_of_trip :
    Accounted (sampleConfig 1) sampleOrder ((logistics BullQueue (sampleConfig 1)).moves []
      (start [carDriver]) (orderTrip ++ offerTrip)) := by
  have hsome : ((logistics BullQueue (sampleConfig 1)).exec (start [carDriver])
      (orderTrip ++ offerTrip)).isSome := by decide +kernel
  exact (accounted_iff (by decide) (after_run hsome)).mpr (.inl rfl)

/-! ## Orders that wait are below the cap -/

/-- The test of the branch of `handleAssignDriver` for an order whose attempts are used up. -/
def Exhausted (cfg : DispatchConfig) (order : Order) : Prop :=
  DispatchService.shouldSkipAssignment order = false ∧
    order.dispatchAttempts ≥ cfg.maxDispatchAttempts

/-- In a run that has led to a state, orders that wait have attempts left: whenever one was read,
when one was offered to a driver, and in the end. -/
structure BelowCap (cfg : DispatchConfig) (tr : List (Transition.Move (Sys Q) Action)) (s : Sys Q) :
    Prop where
  pending : ∀ o row, s.order o = some row → row.orderStatus = PENDING →
    row.dispatchAttempts < cfg.maxDispatchAttempts
  read : ∀ m ∈ tr, ∀ i ch o order, m.act = .exec i ch → m.src.next i = some (.findOrder o) →
    (perform cfg ch (.findOrder o) m.src.shared).1 = .ok (some order) → ¬ Exhausted cfg order
  offered : ∀ m ∈ tr, ∀ i ch o cands d, m.act = .exec i ch →
    m.src.next i = some (.transaction (.assignDriverWithLock o cands)) →
    (perform cfg ch (.transaction (.assignDriverWithLock o cands)) m.src.shared).1
      = .ok (some d) →
    ∃ row, m.src.order o = some row ∧ row.dispatchAttempts < cfg.maxDispatchAttempts

/-- An order that waits has been offered, and refused, fewer times than is allowed. -/
theorem attempts_lt_of_pending (hmax : 1 ≤ cfg.maxDispatchAttempts)
    (hs : Transition.Reachable (logistics Q cfg) s) (hrow : s.order o = some row)
    (hpending : row.orderStatus = PENDING) :
    row.dispatchAttempts < cfg.maxDispatchAttempts := by
  obtain ⟨tr, run⟩ := hs
  obtain ⟨l, hl, hticket, -⟩ := books_of_order run hrow
  have hstatus : l.ticket.status = PENDING := by
    rw [hticket]
    exact hpending
  have hattempts : l.ticket.attempts = row.dispatchAttempts := by
    rw [hticket]
    rfl
  obtain ⟨hcount, -, hlt⟩ := (counted_of_reachable hmax hl).idle hstatus
  omega

/-- **Orders that wait are below the cap**, in every run. -/
theorem pending_below_cap (hmax : 1 ≤ cfg.maxDispatchAttempts)
    (run : Transition.Run (logistics Q cfg) tr s) : BelowCap cfg tr s := by
  refine ⟨fun o row => attempts_lt_of_pending hmax run.reachable, ?_, ?_⟩
  · rintro m hm i ch o order - - hread ⟨hskip, hcap⟩
    have hfind : m.src.shared.db.findOrder o = some order := Except.ok.inj hread
    have hlt := attempts_lt_of_pending hmax (run.of_mem hm).1 (Db.findOrder_eq_some.mp hfind).1
      (DispatchService.shouldSkipAssignment_eq_false.mp hskip)
    omega
  · intro m hm i ch o cands d _ _ hoffer
    -- the transaction looks at the status only, which is enough
    obtain ⟨db', hrun, -⟩ := run_of_answer hoffer
    rcases @DispatchService.assignDriverWithLockTx_ok cfg _ _ _ _ _ _ hrun with ⟨hnone, -⟩ | h
    · cases hnone
    · obtain ⟨row, driver, hfind, hpending, -⟩ := h
      have hrow := (Db.findOrder_eq_some.mp hfind).1
      exact ⟨row, hrow, attempts_lt_of_pending hmax (run.of_mem hm).1 hrow hpending⟩

/-- The trip that is offered once, with three attempts allowed. -/
theorem pending_below_cap_of_trip : ∃ s : Sys BullQueue,
    BelowCap (sampleConfig 3) ((logistics BullQueue (sampleConfig 3)).moves []
      (start [carDriver]) (orderTrip ++ offerTrip)) s :=
  ⟨_, pending_below_cap (by decide) (after_run trip_offered)⟩

end LogisticsDispatch
