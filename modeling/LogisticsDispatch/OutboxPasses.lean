/-
Passes of the outbox timer that overlap.

The query that claims rows skips the rows that are locked, but the locks end with its
transaction, before the first row is handled. A pass has a row in hand from the query
that gave it to the save that writes it back (`InHand`), and the row it saves is the
one it was given. As long as no pass is given a row that another has in hand
(`ClaimsApart`), what a pass has in hand is what is stored (`Passing`), so a save is the
only change since, and every failure is counted. `claimed_exclusively_iff` says that
this is exactly when rows are claimed exclusively.
-/
import LogisticsDispatch.QueueAndOutbox

set_option autoImplicit false

namespace LogisticsDispatch

open OrderStatus Resumable Transition Program OutboxWorkerService

variable {Q : Type} [JobQueue Q JobId JobData] {cfg : DispatchConfig} {s s' : Sys Q} {a : Action}
  {m : Move (Sys Q) Action} {tr : List (Move (Sys Q) Action)} {i j : ℕ} {id : Uuid} {o : OrderId}
  {row row' : OutboxEvent} {rows rest : List OutboxEvent}

/-! ## The contract -/

/-- In the step, pass `i` is given the row. -/
def Claims (cfg : DispatchConfig) (i : ℕ) (id : Uuid) (m : Move (Sys Q) Action) : Prop :=
  ∃ ch n rows, m.act = .exec i ch ∧ m.src.call i = some (.request .processOutbox) ∧
    m.src.next i = some (.claimOutbox n) ∧
    (perform cfg ch (.claimOutbox n) m.src.shared).1 = .ok rows ∧ id ∈ rows.map OutboxEvent.id

/-- In the step, pass `i` writes the row back. -/
def WritesBack (i : ℕ) (id : Uuid) (m : Move (Sys Q) Action) : Prop :=
  ∃ ch row, m.act = .exec i ch ∧ m.src.next i = some (.saveOutbox row) ∧ row.id = id

/-- Pass `i` was given the row and has not written it back yet. -/
def InHand (cfg : DispatchConfig) (tr : List (Move (Sys Q) Action)) (i : ℕ) (id : Uuid) : Prop :=
  ∃ m, Claims cfg i id m ∧ Since (WritesBack i id) m tr

/-- In the step, `triggerDispatch` throws for the row of an order that a pass handles. -/
def triggerThrows (o : OrderId) (m : Move (Sys Q) Action) : Bool :=
  match m.act with
  | .fail i =>
      match m.src.call i, m.src.next i with
      | some (.request .processOutbox), some (.addJob .DISPATCH_QUEUE (.assignDriver o') _ _) =>
          decide (o' = o)
      | _, _ => false
  | _ => false

/-- A pass is about to write down that it has failed to handle the row. -/
def FailureUnsaved (s : Sys Q) (id : Uuid) : Prop :=
  ∃ i row, s.call i = some (.request .processOutbox) ∧ s.next i = some (.saveOutbox row) ∧
    row.id = id ∧ row.status ≠ .PROCESSED

/-- What a run relies on the outbox for. -/
structure ClaimedExclusively (cfg : DispatchConfig) (tr : List (Move (Sys Q) Action)) : Prop where
  /-- A row is in the hand of one pass at a time. -/
  exclusive : ∀ later earlier, tr = later ++ earlier → ∀ i j id, InHand cfg earlier i id →
    InHand cfg earlier j id → i = j
  /-- The attempts never decrease. -/
  attempts_le : ∀ m ∈ tr, ∀ id row, m.src.shared.db.outbox.find id = some row →
    ∃ row', m.dst.shared.db.outbox.find id = some row' ∧ row.attempts ≤ row'.attempts
  /-- They are the failures to handle the row, but for one that is about to be saved. -/
  counted : ∀ later m earlier, tr = later ++ m :: earlier → ∀ id row o,
    m.dst.shared.db.outbox.find id = some row → row.payload = some o →
    (¬ FailureUnsaved m.dst id → (m :: earlier).countP (triggerThrows o) = row.attempts) ∧
      (FailureUnsaved m.dst id → (m :: earlier).countP (triggerThrows o) = row.attempts + 1)
  /-- A row that was processed or has failed stays as it is. -/
  settled : ∀ m ∈ tr, ∀ id row, m.src.shared.db.outbox.find id = some row →
    row.status ≠ .PENDING → m.dst.shared.db.outbox.find id = some row

/-- Writing a row back does not fail: only `triggerDispatch` and the query do. -/
def SavesSucceed (tr : List (Move (Sys Q) Action)) : Prop :=
  ∀ m ∈ tr, ∀ i row, m.act = .fail i → m.src.next i ≠ some (.saveOutbox row)

/-- No pass is given a row that another was given and has not written back. -/
def ClaimsApart (cfg : DispatchConfig) (tr : List (Move (Sys Q) Action)) : Prop :=
  ∀ later m earlier, tr = later ++ m :: earlier → ∀ i j id, Claims cfg i id m →
    ¬ InHand cfg earlier j id

/-! ## What is left of a pass -/

/-- What a pass does with rows it was given. -/
def handleRows (rows : List OutboxEvent) : Prog Response := do
  rows.forM fun row => try handleRow row catch _ => pure ()
  return .void

theorem processOutbox_eq (cfg : DispatchConfig) : Request.processOutbox.program cfg
    = .op (.claimOutbox BATCH_SIZE) (orThrow handleRows) :=
  perform_bind_bind ..

/-- What a pass saves of a row once it has handled it. -/
structure Outcome (row row' : OutboxEvent) : Prop where
  id : row'.id = row.id
  payload : row'.payload = row.payload
  eventType : row'.eventType = row.eventType
  attempts : row'.attempts = if row'.status = .PROCESSED then row.attempts else row.attempts + 1

/-- What is left of a pass is about to save a failure to handle the row. -/
def AtFailure (p : Prog Response) (id : Uuid) : Prop :=
  ∃ row k, p = .op (.saveOutbox row) k ∧ row.id = id ∧ row.status ≠ .PROCESSED

/-- A pass that has these rows in hand. -/
inductive PassAt : List OutboxEvent → Prog Response → Prop
  | ended {p : Prog Response} (h : p.isDone = true) : PassAt [] p
  | handling (rows : List OutboxEvent) : PassAt rows (handleRows rows)
  | noting {row : OutboxEvent} {rest : List OutboxEvent} {k : Except Error ℕ → Prog Response}
      (hk : ∀ processedAt, PassAt (row :: rest) (k (.ok processedAt)))
      (hat : ∀ processedAt id, ¬ AtFailure (k (.ok processedAt)) id) :
      PassAt (row :: rest) (.op .now k)
  | saving {row row' : OutboxEvent} {rest : List OutboxEvent}
      {k : Except Error Unit → Prog Response} (hrow : Outcome row row')
      (hk : k (.ok ()) = handleRows rest) : PassAt (row :: rest) (.op (.saveOutbox row') k)

theorem outcome_failed (row : OutboxEvent) (err : Error) (h : row.status = .PENDING) :
    Outcome row (failed row err) := by
  unfold failed
  dsimp only
  split
  · exact ⟨rfl, rfl, rfl, rfl⟩
  · refine ⟨rfl, rfl, rfl, ?_⟩
    rw [h]
    rfl

theorem failed_status (row : OutboxEvent) (err : Error) (h : row.status = .PENDING) :
    (failed row err).status ≠ .PROCESSED := by
  unfold failed
  dsimp only
  split
  · exact fun heq => by cases heq
  · rw [h]
    exact fun heq => by cases heq

/-- A row that asks for a dispatch is handled by triggering it first. -/
theorem handleRows_cons (htype : row.eventType = "dispatch.trigger")
    (hpayload : row.payload = some o) (rest : List OutboxEvent) :
    ∃ k, handleRows (row :: rest)
        = .op (.addJob .DISPATCH_QUEUE (.assignDriver o) (.ASSIGN_DRIVER o) 0) k ∧
      (∀ jobId, PassAt (row :: rest) (k (.ok jobId))) ∧
      (∀ jobId id, ¬ AtFailure (k (.ok jobId)) id) ∧
      ∀ err, ∃ k', k (.error err) = .op (.saveOutbox (failed row err)) k' ∧
        k' (.ok ()) = handleRows rest := by
  have htrigger : triggerRow row = DispatchService.triggerDispatch o := by
    rw [triggerRow, if_pos htype, hpayload]
  rw [handleRows, List.forM_eq_forM, List.forM_cons, handleRow, htrigger]
  refine ⟨_, rfl, fun jobId => ?_, ?_, fun err => ?_⟩
  · refine .noting (fun processedAt => .saving ⟨rfl, rfl, rfl, rfl⟩ rfl) ?_
    -- it is as processed that the row is about to be saved
    rintro processedAt id ⟨row', k', heq, -, hstatus⟩
    cases heq
    exact hstatus rfl
  · rintro jobId id ⟨row', k', heq, -⟩
    cases heq
  · exact ⟨_, rfl, rfl⟩

/-- The row asks for the dispatch of an order. -/
def AsksDispatch (row : OutboxEvent) : Prop :=
  row.eventType = "dispatch.trigger" ∧ ∃ o, row.payload = some o

/-- A pass is not at a failure before it has handled a row. -/
theorem not_atFailure_handleRows (hasks : ∀ row ∈ rows, AsksDispatch row) :
    ¬ AtFailure (handleRows rows) id := by
  rintro ⟨row', k', heq, -⟩
  cases rows with
  | nil => cases heq
  | cons row rest =>
      obtain ⟨htype, o, hpayload⟩ := hasks row List.mem_cons_self
      obtain ⟨k, hk, -⟩ := handleRows_cons htype hpayload rest
      rw [hk] at heq
      cases heq

/-- What a pass that has rows in hand does next: it triggers the dispatch of the first, reads the
clock, or saves the row. -/
inductive PassNext : List OutboxEvent → (e : Effect) → (Except Error e.Resp → Prog Response) → Prop
  | trigger {row : OutboxEvent} {rest : List OutboxEvent} {o : OrderId}
      {k : Except Error JobId → Prog Response} (hpayload : row.payload = some o)
      (hok : ∀ jobId, PassAt (row :: rest) (k (.ok jobId)))
      (hat : ∀ jobId id, ¬ AtFailure (k (.ok jobId)) id)
      (herr : ∀ err, ∃ k', k (.error err) = .op (.saveOutbox (failed row err)) k' ∧
        k' (.ok ()) = handleRows rest) :
      PassNext (row :: rest) (.addJob .DISPATCH_QUEUE (.assignDriver o) (.ASSIGN_DRIVER o) 0) k
  | note {row : OutboxEvent} {rest : List OutboxEvent} {k : Except Error ℕ → Prog Response}
      (hk : ∀ processedAt, PassAt (row :: rest) (k (.ok processedAt)))
      (hat : ∀ processedAt id, ¬ AtFailure (k (.ok processedAt)) id) :
      PassNext (row :: rest) .now k
  | save {row row' : OutboxEvent} {rest : List OutboxEvent}
      {k : Except Error Unit → Prog Response} (hrow : Outcome row row')
      (hk : k (.ok ()) = handleRows rest) : PassNext (row :: rest) (.saveOutbox row') k

theorem PassAt.next {p : Prog Response} {e : Effect} {k : Except Error e.Resp → Prog Response}
    (h : PassAt rows p) (hasks : ∀ row ∈ rows, AsksDispatch row) (hp : p = .op e k) :
    PassNext rows e k := by
  cases h with
  | ended hdone =>
      rw [hp] at hdone
      cases hdone
  | handling rows =>
      cases rows with
      | nil => cases hp
      | cons row rest =>
          obtain ⟨htype, o, hpayload⟩ := hasks row List.mem_cons_self
          obtain ⟨k', heq, hok, hat, herr⟩ := handleRows_cons htype hpayload rest
          rw [heq] at hp
          cases hp
          exact .trigger hpayload hok hat herr
  | noting hk hat =>
      cases hp
      exact .note hk hat
  | saving hrow hk =>
      cases hp
      exact .save hrow hk

/-! ## What passes have in hand -/

/-- What a move adds to what is in hand. -/
theorem inHand_cons : InHand cfg (m :: tr) i id ↔
    Claims cfg i id m ∨ (¬ WritesBack i id m ∧ InHand cfg tr i id) := by
  constructor
  · rintro ⟨m', hclaims, hsince⟩
    rcases since_cons.mp hsince with rfl | ⟨hwrites, hsince⟩
    · exact .inl hclaims
    · exact .inr ⟨hwrites, m', hclaims, hsince⟩
  · rintro (hclaims | ⟨hwrites, m', hclaims, hsince⟩)
    · exact ⟨m, hclaims, since_cons.mpr (.inl rfl)⟩
    · exact ⟨m', hclaims, since_cons.mpr (.inr ⟨hwrites, hsince⟩)⟩

/-- The rows that pass `i` has in hand are pending and as they are stored. -/
structure PassHas (cfg : DispatchConfig) (tr : List (Move (Sys Q) Action)) (s : Sys Q) (i : ℕ)
    (rows : List OutboxEvent) : Prop where
  nodup : (rows.map OutboxEvent.id).Nodup
  stored : ∀ row ∈ rows, s.shared.db.outbox.find row.id = some row ∧ row.status = .PENDING
  inHand : ∀ id, InHand cfg tr i id ↔ id ∈ rows.map OutboxEvent.id

/-- Pass `i` has not begun, or is at one of the rows it has in hand. -/
def PassSound (cfg : DispatchConfig) (tr : List (Move (Sys Q) Action)) (s : Sys Q) (i : ℕ)
    (p : Prog Response) : Prop :=
  (p = Request.processOutbox.program cfg ∧ ∀ id, ¬ InHand cfg tr i id) ∨
    ∃ rows, PassAt rows p ∧ PassHas cfg tr s i rows

/-- The invariant. -/
structure Passing (cfg : DispatchConfig) (tr : List (Move (Sys Q) Action)) (s : Sys Q) :
    Prop where
  sound : ∀ i p, s.threads.lookup i = some ⟨.request .processOutbox, p⟩ → PassSound cfg tr s i p
  others : ∀ i, s.call i ≠ some (.request .processOutbox) → ∀ id, ¬ InHand cfg tr i id
  apart : ∀ i j id, InHand cfg tr i id → InHand cfg tr j id → i = j
  counted : ∀ id row o, s.shared.db.outbox.find id = some row → row.payload = some o →
    (¬ FailureUnsaved s id → tr.countP (triggerThrows o) = row.attempts) ∧
      (FailureUnsaved s id → tr.countP (triggerThrows o) = row.attempts + 1)

/-- A pass that a step leaves alone stays as it is. -/
theorem PassSound.frame {tr' : List (Move (Sys Q) Action)} {p : Prog Response}
    (h : PassSound cfg tr s i p) (hin : ∀ id, InHand cfg tr' i id ↔ InHand cfg tr i id)
    (hstored : ∀ row, InHand cfg tr i row.id → s.shared.db.outbox.find row.id = some row →
      s'.shared.db.outbox.find row.id = some row) : PassSound cfg tr' s' i p := by
  rcases h with ⟨rfl, hnone⟩ | ⟨rows, hat, hnodup, hrows, hhand⟩
  · exact .inl ⟨rfl, fun id => by rw [hin]; exact hnone id⟩
  · refine .inr ⟨rows, hat, hnodup, fun row hrow => ?_, fun id => (hin id).trans (hhand id)⟩
    have hid : row.id ∈ rows.map OutboxEvent.id := List.mem_map_of_mem hrow
    exact ⟨hstored row ((hhand row.id).mpr hid) (hrows row hrow).1, (hrows row hrow).2⟩

/-- What pass `i` has in hand is left by a step of it that neither gives it rows nor writes one
back. -/
theorem PassHas.keep {a : Action} (h : PassHas cfg tr s i rows)
    (hclaims : ∀ n, s.next i ≠ some (.claimOutbox n))
    (hwrites : ∀ row, s.next i ≠ some (.saveOutbox row))
    (hout : s'.shared.db.outbox = s.shared.db.outbox) :
    PassHas cfg (⟨s, a, s'⟩ :: tr) s' i rows where
  nodup := h.nodup
  stored row hrow := by
    rw [hout]
    exact h.stored row hrow
  inHand id := by
    rw [inHand_cons, ← h.inHand]
    constructor
    · rintro (⟨ch, n, rows', -, -, hnext, -⟩ | ⟨-, hhand⟩)
      · exact absurd hnext (hclaims n)
      · exact hhand
    · refine fun hhand => .inr ⟨?_, hhand⟩
      rintro ⟨ch, row, -, hnext, -⟩
      exact hwrites row hnext

omit [JobQueue Q JobId JobData] in
/-- A failure is unsaved if a pass is at it. -/
theorem failureUnsaved_iff : FailureUnsaved s id ↔
    ∃ i p, s.threads.lookup i = some ⟨.request .processOutbox, p⟩ ∧ AtFailure p id := by
  constructor
  · rintro ⟨i, row, hcall, hnext, hid, hstatus⟩
    obtain ⟨call, k, hi⟩ := Sys.lookup_of_next hnext
    rw [Sys.call_of_lookup hi] at hcall
    obtain rfl := Option.some.inj hcall
    exact ⟨i, _, hi, row, k, rfl, hid, hstatus⟩
  · rintro ⟨i, p, hi, row, k, rfl, hid, hstatus⟩
    exact ⟨i, row, Sys.call_of_lookup hi, Sys.next_of_lookup hi, hid, hstatus⟩

/-- A row that is stored after a step is about what it was about before it, or is the row of an
order that the step has stored. -/
theorem row_before (hs : Reachable (logistics Q cfg) s) (hstep : step cfg s a = some s')
    (hrow : s'.shared.db.outbox.find id = some row) :
    (∃ row₀, s.shared.db.outbox.find id = some row₀ ∧ row₀.Becomes row) ∨
      s.shared.db.outbox.find id = none ∧ row.status = .PENDING ∧ row.attempts = 0 ∧
        row.eventType = "dispatch.trigger" ∧
        (∃ o, row.payload = some o ∧ s.order o = none) ∧
        ∀ id', id' ≠ id → s'.shared.db.outbox.find id' = s.shared.db.outbox.find id' := by
  cases outbox_step hs hstep with
  | same h =>
      rw [h] at hrow
      exact .inl ⟨row, hrow, .refl row⟩
  | @created ch hnone _ hfree h =>
      rw [h, Table.find_put] at hrow
      split at hrow
      · next hid =>
          obtain rfl := Option.some.inj hrow
          rw [hid]
          exact .inr ⟨hfree, rfl, rfl, rfl, ⟨ch.orderId, rfl, hnone⟩, fun id' hne => by
            rw [h]
            exact Table.find_put_of_ne hne⟩
      · exact .inl ⟨row, hrow, .refl row⟩
  | @saved i ch row₁ row₀ k _ _ hrow₀ hsame h =>
      rw [h, Table.find_put] at hrow
      split at hrow
      · next hid =>
          obtain rfl := Option.some.inj hrow
          rw [hid]
          exact .inl ⟨row₀, hrow₀, hsame⟩
      · exact .inl ⟨row, hrow, .refl row⟩

/-- Every row of the outbox asks for the dispatch of an order. -/
theorem asksDispatch_of_reachable (hs : Reachable (logistics Q cfg) s) :
    ∀ id row, s.shared.db.outbox.find id = some row → AsksDispatch row := by
  refine hs.invariant (P := fun s => ∀ id row, s.shared.db.outbox.find id = some row →
    AsksDispatch row) ?_ ?_
  · intro s hinit id row hrow
    rw [hinit.outbox, Table.find_empty] at hrow
    cases hrow
  · intro s a s' hs ih hstep id row hrow
    rcases row_before hs hstep hrow with
      ⟨row₀, hrow₀, hsame⟩ | ⟨-, -, -, htype, ⟨o, hpayload, -⟩, -⟩
    · obtain ⟨htype, o, hpayload⟩ := ih id row₀ hrow₀
      exact ⟨hsame.eventType.trans htype, o, hsame.payload.trans hpayload⟩
    · exact ⟨htype, o, hpayload⟩

/-- Two rows of the outbox are not about one order. -/
theorem row_unique (hs : Reachable (logistics Q cfg) s) :
    ∀ id id' row row' o, s.shared.db.outbox.find id = some row →
      s.shared.db.outbox.find id' = some row' → row.payload = some o → row'.payload = some o →
      id = id' := by
  refine hs.invariant (P := fun s => ∀ id id' row row' o, s.shared.db.outbox.find id = some row →
    s.shared.db.outbox.find id' = some row' → row.payload = some o → row'.payload = some o →
    id = id') ?_ ?_
  · intro s hinit id id' row row' o hrow
    rw [hinit.outbox, Table.find_empty] at hrow
    cases hrow
  · intro s a s' hs ih hstep id id' row row' o hrow hrow' hpayload hpayload'
    -- the order of an old row is stored, that of a new row was not
    have hold : ∀ id₀ row₀ row₁, s.shared.db.outbox.find id₀ = some row₀ →
        row₀.Becomes row₁ → row₁.payload = some o → s.order o ≠ none := by
      intro id₀ row₀ row₁ hrow₀ hsame h hnone
      obtain ⟨order, horder⟩ := order_of_row hs id₀ row₀ hrow₀ (hsame.payload.symm.trans h)
      rw [hnone] at horder
      cases horder
    rcases row_before hs hstep hrow with
      ⟨row₀, hrow₀, hsame⟩ | ⟨-, -, -, -, ⟨o₁, ho₁, hnone⟩, hother⟩
    · rcases row_before hs hstep hrow' with
        ⟨row₁, hrow₁, hsame'⟩ | ⟨-, -, -, -, ⟨o₁, ho₁, hnone⟩, -⟩
      · exact ih id id' row₀ row₁ o hrow₀ hrow₁ (hsame.payload.symm.trans hpayload)
          (hsame'.payload.symm.trans hpayload')
      · obtain rfl := Option.some.inj (hpayload'.symm.trans ho₁)
        exact absurd hnone (hold id row₀ row hrow₀ hsame hpayload)
    · obtain rfl := Option.some.inj (hpayload.symm.trans ho₁)
      by_contra hne
      rw [hother id' (Ne.symm hne)] at hrow'
      exact hold id' row' row' hrow' (.refl row') hpayload' hnone

omit [JobQueue Q JobId JobData] in
/-- Where the failures are that are unsaved once pass `i` has gone on. -/
theorem failureUnsaved_of_insert {p : Prog Response}
    (hth : s'.threads = s.threads.insert i ⟨.request .processOutbox, p⟩) :
    FailureUnsaved s' id ↔ AtFailure p id ∨ ∃ j q, j ≠ i ∧
      s.threads.lookup j = some ⟨.request .processOutbox, q⟩ ∧ AtFailure q id := by
  rw [failureUnsaved_iff, hth]
  constructor
  · rintro ⟨j, q, hj, hat⟩
    rcases Pool.lookup_insert_cases hj with ⟨rfl, heq⟩ | ⟨hne, hj⟩
    · obtain ⟨-, rfl⟩ := Thread.mk.inj heq
      exact .inl hat
    · exact .inr ⟨j, q, hne, hj, hat⟩
  · rintro (hat | ⟨j, q, hne, hj, hat⟩)
    · exact ⟨i, p, AList.lookup_insert _, hat⟩
    · exact ⟨j, q, by rw [AList.lookup_insert_ne hne]; exact hj, hat⟩

omit [JobQueue Q JobId JobData] in
/-- Where the failures are that are unsaved. -/
theorem failureUnsaved_of_lookup {p : Prog Response}
    (hi : s.threads.lookup i = some ⟨.request .processOutbox, p⟩) :
    FailureUnsaved s id ↔ AtFailure p id ∨ ∃ j q, j ≠ i ∧
      s.threads.lookup j = some ⟨.request .processOutbox, q⟩ ∧ AtFailure q id := by
  rw [failureUnsaved_iff]
  constructor
  · rintro ⟨j, q, hj, hat⟩
    by_cases hne : j = i
    · subst hne
      rw [hi] at hj
      obtain ⟨-, rfl⟩ := Thread.mk.inj (Option.some.inj hj)
      exact .inl hat
    · exact .inr ⟨j, q, hne, hj, hat⟩
  · rintro (hat | ⟨j, q, -, hj, hat⟩)
    · exact ⟨i, p, hi, hat⟩
    · exact ⟨j, q, hj, hat⟩

omit [JobQueue Q JobId JobData] in
theorem triggerThrows_fail {k : Except Error JobId → Prog Response} {data : JobData} {delay : ℕ}
    (hi : s.threads.lookup i = some ⟨.request .processOutbox,
      .op (.addJob .DISPATCH_QUEUE (.assignDriver o) data delay) k⟩) (o' : OrderId) :
    triggerThrows o' ⟨s, .fail i, s'⟩ = decide (o = o') := by
  simp only [triggerThrows, Sys.call_of_lookup hi, Sys.next_of_lookup hi]

/-- For an order that is not stored, nothing was triggered. -/
theorem not_thrown (run : Run (logistics Q cfg) tr s) (h : s.order o = none) :
    tr.countP (triggerThrows o) = 0 := by
  induction run with
  | init _ => rfl
  | @snoc tr s s' a run hstep ih =>
      -- an order that is stored stays so, and no other one's dispatch is triggered
      have hstored : ¬ ∃ row, s.order o = some row := by
        intro hrow
        obtain ⟨row', hrow'⟩ := order_stays run.reachable hstep hrow
        rw [h] at hrow'
        cases hrow'
      have hnone : s.order o = none := by
        rw [Option.eq_none_iff_forall_ne_some]
        exact fun row hrow => hstored ⟨row, hrow⟩
      rw [List.countP_cons, ih hnone, Nat.zero_add, if_neg]
      intro hthrows
      unfold triggerThrows at hthrows
      split at hthrows
      · split at hthrows
        · next hnext =>
            obtain rfl := of_decide_eq_true hthrows
            obtain ⟨call, k, hi⟩ := Sys.lookup_of_next hnext
            exact hstored (order_of_add run.reachable hi)
        · cases hthrows
      · cases hthrows

/-- The rows a pass is given are pending, as they are stored, and each is given once. -/
theorem claimed_rows {sh : Shared Q} {ch : Choice} {n : ℕ}
    (h : (perform cfg ch (.claimOutbox n) sh).1 = .ok rows) :
    (rows.map OutboxEvent.id).Nodup ∧
      ∀ row ∈ rows, sh.db.outbox.find row.id = some row ∧ row.status = .PENDING := by
  simp only [perform] at h
  obtain rfl := Except.ok.inj h
  constructor
  · refine List.Nodup.sublist ((List.take_sublist _ _).map _) ?_
    refine ((List.perm_insertionSort _ _).map _).nodup_iff.mpr ?_
    exact sh.db.outbox.nodup_toList.sublist (List.filter_sublist.map _)
  · intro row hrow
    have hrow := (List.mem_insertionSort _).mp (List.mem_of_mem_take hrow)
    obtain ⟨hmem, hpending⟩ := List.mem_filter.mp hrow
    rw [Bool.and_eq_true] at hpending
    exact ⟨Table.mem_toList.mp hmem, of_decide_eq_true hpending.1⟩

/-! ## A step -/

namespace Passing

/-- What is in hand is stored, and pending. -/
theorem stored (h : Passing cfg tr s) (hin : InHand cfg tr i id) :
    ∃ row p, s.shared.db.outbox.find id = some row ∧ row.status = .PENDING ∧
      s.threads.lookup i = some ⟨.request .processOutbox, p⟩ := by
  have hcall : s.call i = some (.request .processOutbox) := by
    by_contra hne
    exact h.others i hne id hin
  obtain ⟨⟨call, p⟩, hi, rfl⟩ := Option.map_eq_some_iff.mp hcall
  rcases h.sound i p hi with ⟨-, hnone⟩ | ⟨rows, -, hhas⟩
  · exact absurd hin (hnone id)
  · obtain ⟨row, hrow, rfl⟩ := List.mem_map.mp ((hhas.inHand id).mp hin)
    exact ⟨row, p, (hhas.stored row hrow).1, (hhas.stored row hrow).2, hi⟩

/-- What a pass does next, with rows in hand. -/
theorem next (h : Passing cfg tr s) (hs : Reachable (logistics Q cfg) s) {e : Effect}
    {k : Except Error e.Resp → Prog Response}
    (hi : s.threads.lookup i = some ⟨.request .processOutbox, .op e k⟩) :
    ((Program.op e k = Request.processOutbox.program cfg) ∧ ∀ id, ¬ InHand cfg tr i id) ∨
      ∃ rows, PassNext rows e k ∧ PassHas cfg tr s i rows := by
  rcases h.sound i _ hi with hbegins | ⟨rows, hat, hhas⟩
  · exact .inl hbegins
  · refine .inr ⟨rows, hat.next (fun row hrow => ?_) rfl, hhas⟩
    exact asksDispatch_of_reachable hs _ _ (hhas.stored row hrow).1

/-- A pass that is at a failure has the row in hand. -/
theorem inHand_of_atFailure (h : Passing cfg tr s) (hs : Reachable (logistics Q cfg) s)
    {p : Prog Response} (hi : s.threads.lookup i = some ⟨.request .processOutbox, p⟩)
    (hat : AtFailure p id) : InHand cfg tr i id := by
  obtain ⟨row, k, rfl, rfl, -⟩ := hat
  rcases h.next hs hi with ⟨heq, -⟩ | ⟨rows, hnext, hhas⟩
  · rw [processOutbox_eq] at heq
    cases heq
  · refine (hhas.inHand _).mpr ?_
    cases hnext with
    | save hrow hk =>
        rw [hrow.id]
        exact List.mem_cons_self

/-- A step in which no pass does anything. -/
theorem idle (h : Passing cfg tr s) (run : Run (logistics Q cfg) tr s)
    (hstep : step cfg s a = some s') (hclaims : ∀ i id, ¬ Claims cfg i id ⟨s, a, s'⟩)
    (hwrites : ∀ i id, ¬ WritesBack i id ⟨s, a, s'⟩)
    (hthrows : ∀ o, triggerThrows o ⟨s, a, s'⟩ = false)
    (hstays : ∀ i p, s.threads.lookup i = some ⟨.request .processOutbox, p⟩ →
      s'.threads.lookup i = some ⟨.request .processOutbox, p⟩)
    (hpasses : ∀ i p, s'.threads.lookup i = some ⟨.request .processOutbox, p⟩ →
      s.threads.lookup i = some ⟨.request .processOutbox, p⟩ ∨
        s.threads.lookup i = none ∧ p = Request.processOutbox.program cfg) :
    Passing cfg (⟨s, a, s'⟩ :: tr) s' := by
  have hin : ∀ i id, InHand cfg (⟨s, a, s'⟩ :: tr) i id ↔ InHand cfg tr i id := by
    intro i id
    rw [inHand_cons]
    exact ⟨fun h => (h.resolve_left (hclaims i id)).2, fun h => .inr ⟨hwrites i id, h⟩⟩
  -- what is stored stays, since no pass writes back
  have hstored : ∀ id row, s.shared.db.outbox.find id = some row →
      s'.shared.db.outbox.find id = some row := by
    intro id row hrow
    cases outbox_step run.reachable hstep with
    | same h => rw [h]; exact hrow
    | created _ _ hfree h =>
        rw [h, Table.find_put_of_ne]
        · exact hrow
        · rintro rfl
          rw [hfree] at hrow
          cases hrow
    | @saved i ch row₁ _ k ha hi _ _ _ =>
        exact absurd ⟨ch, row₁, ha, Sys.next_of_lookup hi, rfl⟩ (hwrites i row₁.id)
  have hunsaved : ∀ id, FailureUnsaved s' id ↔ FailureUnsaved s id := by
    intro id
    rw [failureUnsaved_iff, failureUnsaved_iff]
    constructor
    · rintro ⟨i, p, hi, hat⟩
      rcases hpasses i p hi with hi | ⟨-, rfl⟩
      · exact ⟨i, p, hi, hat⟩
      · obtain ⟨row, k, heq, -⟩ := hat
        rw [processOutbox_eq] at heq
        cases heq
    · rintro ⟨i, p, hi, hat⟩
      exact ⟨i, p, hstays i p hi, hat⟩
  refine ⟨fun i p hi => ?_, fun i hcall id hhand => ?_, fun i j id hi hj => ?_, ?_⟩
  · rcases hpasses i p hi with hi | ⟨hfree, rfl⟩
    · exact (h.sound i p hi).frame (hin i) fun row _ => hstored _ row
    · refine .inl ⟨rfl, fun id hhand => ?_⟩
      obtain ⟨-, p, -, -, hi⟩ := h.stored ((hin i id).mp hhand)
      rw [hfree] at hi
      cases hi
  · obtain ⟨-, p, -, -, hi⟩ := h.stored ((hin i id).mp hhand)
    exact hcall (Sys.call_of_lookup (hstays i p hi))
  · exact h.apart i j id ((hin i id).mp hi) ((hin j id).mp hj)
  · intro id row o hrow hpayload
    rw [hunsaved, List.countP_cons, hthrows, if_neg Bool.false_ne_true, Nat.add_zero]
    rcases row_before run.reachable hstep hrow with
      ⟨row₀, hrow₀, -⟩ | ⟨hfree, -, hzero, -, ⟨o₁, ho₁, hnone⟩, -⟩
    · have hrow₁ := hstored id row₀ hrow₀
      rw [hrow] at hrow₁
      obtain rfl := Option.some.inj hrow₁
      exact h.counted id row o hrow₀ hpayload
    -- a row that is new has not been handled
    · obtain rfl := Option.some.inj (hpayload.symm.trans ho₁)
      rw [hzero, not_thrown run hnone]
      refine ⟨fun _ => rfl, fun hfailure => ?_⟩
      obtain ⟨i, p, hi, hat⟩ := failureUnsaved_iff.mp hfailure
      obtain ⟨row', -, hrow', -⟩ := h.stored (h.inHand_of_atFailure run.reachable hi hat)
      rw [hfree] at hrow'
      cases hrow'

/-- A step of pass `i`. -/
theorem acts {p p' : Prog Response} (h : Passing cfg tr s)
    (hactor : ∀ j, j ≠ i → ∀ ch, a ≠ .exec j ch)
    (hi : s.threads.lookup i = some ⟨.request .processOutbox, p⟩)
    (hth : s'.threads = s.threads.insert i ⟨.request .processOutbox, p'⟩)
    (hsound : PassSound cfg (⟨s, a, s'⟩ :: tr) s' i p')
    (hothers : ∀ j row, j ≠ i → InHand cfg tr j row.id →
      s.shared.db.outbox.find row.id = some row → s'.shared.db.outbox.find row.id = some row)
    (hapart : ∀ j id, j ≠ i → InHand cfg (⟨s, a, s'⟩ :: tr) i id → ¬ InHand cfg tr j id)
    (hcounted : ∀ id row o, s'.shared.db.outbox.find id = some row → row.payload = some o →
      (¬ FailureUnsaved s' id →
        (⟨s, a, s'⟩ :: tr : List (Move (Sys Q) Action)).countP (triggerThrows o) = row.attempts) ∧
      (FailureUnsaved s' id →
        (⟨s, a, s'⟩ :: tr : List (Move (Sys Q) Action)).countP (triggerThrows o)
          = row.attempts + 1)) :
    Passing cfg (⟨s, a, s'⟩ :: tr) s' := by
  have hin : ∀ j, j ≠ i → ∀ id, InHand cfg (⟨s, a, s'⟩ :: tr) j id ↔ InHand cfg tr j id := by
    intro j hne id
    rw [inHand_cons]
    constructor
    · rintro (⟨ch, n, rows, hact, -⟩ | ⟨-, hhand⟩)
      · exact absurd hact (hactor j hne ch)
      · exact hhand
    · refine fun hhand => .inr ⟨?_, hhand⟩
      rintro ⟨ch, row, hact, -⟩
      exact hactor j hne ch hact
  refine ⟨fun j q hj => ?_, fun j hcall id hhand => ?_, fun j j' id hj hj' => ?_, hcounted⟩
  · rw [hth] at hj
    rcases Pool.lookup_insert_cases hj with ⟨rfl, heq⟩ | ⟨hne, hj⟩
    · obtain ⟨-, rfl⟩ := Thread.mk.inj heq
      exact hsound
    · exact (h.sound j q hj).frame (hin j hne) fun row => hothers j row hne
  · by_cases hne : j = i
    · subst hne
      refine hcall (Sys.call_of_lookup (p := p') ?_)
      rw [hth, AList.lookup_insert]
    · obtain ⟨-, q, -, -, hj⟩ := h.stored ((hin j hne id).mp hhand)
      refine hcall (Sys.call_of_lookup (p := q) ?_)
      rw [hth, AList.lookup_insert_ne hne]
      exact hj
  · by_cases hne : j = i
    · subst hne
      by_contra hne'
      exact hapart j' id (Ne.symm hne') hj ((hin j' (Ne.symm hne') id).mp hj')
    · by_cases hne' : j' = i
      · subst hne'
        exact absurd ((hin j hne id).mp hj) (hapart j id hne hj')
      · exact h.apart j j' id ((hin j hne id).mp hj) ((hin j' hne' id).mp hj')

/-- No other pass is at a failure to handle a row that pass `i` has in hand. -/
theorem not_beside (h : Passing cfg tr s) (hs : Reachable (logistics Q cfg) s)
    (hhand : InHand cfg tr i id) : ¬ ∃ j q, j ≠ i ∧
      s.threads.lookup j = some ⟨.request .processOutbox, q⟩ ∧ AtFailure q id := by
  rintro ⟨j, q, hne, hj, hat⟩
  exact hne (h.apart j i id (h.inHand_of_atFailure hs hj hat) hhand)

/-- A pass goes on and writes nothing back. -/
theorem goes_on {p p' : Prog Response} (h : Passing cfg tr s)
    (hactor : ∀ j, j ≠ i → ∀ ch, a ≠ .exec j ch)
    (hi : s.threads.lookup i = some ⟨.request .processOutbox, p⟩)
    (hth : s'.threads = s.threads.insert i ⟨.request .processOutbox, p'⟩)
    (hout : s'.shared.db.outbox = s.shared.db.outbox)
    (hthrows : ∀ o, triggerThrows o ⟨s, a, s'⟩ = false)
    (hsound : PassSound cfg (⟨s, a, s'⟩ :: tr) s' i p')
    (hapart : ∀ j id, j ≠ i → InHand cfg (⟨s, a, s'⟩ :: tr) i id → ¬ InHand cfg tr j id)
    (hat : ∀ id, ¬ AtFailure p id) (hat' : ∀ id, ¬ AtFailure p' id) :
    Passing cfg (⟨s, a, s'⟩ :: tr) s' := by
  refine h.acts hactor hi hth hsound (fun j row _ _ hrow => by rw [hout]; exact hrow) hapart ?_
  intro id row o hrow hpayload
  have hunsaved : FailureUnsaved s' id ↔ FailureUnsaved s id := by
    rw [failureUnsaved_of_insert hth, failureUnsaved_of_lookup hi]
    exact or_congr_left (iff_of_false (hat' id) (hat id))
  rw [hout] at hrow
  rw [hunsaved, List.countP_cons, hthrows, if_neg Bool.false_ne_true, Nat.add_zero]
  exact h.counted id row o hrow hpayload

/-- A pass is given rows. -/
theorem claim {ch : Choice} (h : Passing cfg tr s) (run : Run (logistics Q cfg) tr s)
    (hstep : step cfg s (.exec i ch) = some s')
    (hi : s.threads.lookup i
      = some ⟨.request .processOutbox, .op (.claimOutbox BATCH_SIZE) (orThrow handleRows)⟩)
    (hnone : ∀ id, ¬ InHand cfg tr i id)
    (hfree : ∀ j id, Claims cfg i id ⟨s, .exec i ch, s'⟩ → ¬ InHand cfg tr j id) :
    Passing cfg (⟨s, .exec i ch, s'⟩ :: tr) s' := by
  obtain ⟨hsh, hth⟩ := exec_eq_some hi hstep
  obtain ⟨rows, hrows⟩ : ∃ rows, (perform cfg ch (.claimOutbox BATCH_SIZE) s.shared).1 = .ok rows :=
    ⟨_, rfl⟩
  rw [hrows] at hth
  have hsame : s'.shared = s.shared := hsh
  obtain ⟨hnodup, hstored⟩ := claimed_rows hrows
  have hclaims : ∀ id, Claims cfg i id ⟨s, .exec i ch, s'⟩ ↔ id ∈ rows.map OutboxEvent.id := by
    intro id
    constructor
    · rintro ⟨ch', n, rows', hact, -, hnext, hrows', hid⟩
      obtain ⟨-, rfl⟩ := Action.exec.inj hact
      have hnext : s.next i = some (.claimOutbox n) := hnext
      rw [Sys.next_of_lookup hi] at hnext
      obtain rfl := Effect.claimOutbox.inj (Option.some.inj hnext)
      have hrows' : (perform cfg ch (.claimOutbox BATCH_SIZE) s.shared).1 = .ok rows' := hrows'
      rw [hrows] at hrows'
      rwa [Except.ok.inj hrows']
    · exact fun hid => ⟨ch, _, rows, rfl, Sys.call_of_lookup hi, Sys.next_of_lookup hi, hrows, hid⟩
  have hin : ∀ id, InHand cfg (⟨s, .exec i ch, s'⟩ :: tr) i id ↔ id ∈ rows.map OutboxEvent.id := by
    intro id
    rw [inHand_cons, hclaims]
    exact or_iff_left fun hhand => hnone id hhand.2
  refine h.goes_on (fun j hne ch' hact => hne (Action.exec.inj hact).1.symm) hi hth
    (by rw [hsame]) (fun _ => rfl) ?_ (fun j id _ hhand => ?_) ?_ (fun id => ?_)
  · refine .inr ⟨rows, .handling rows, hnodup, fun row hrow => ?_, hin⟩
    rw [hsame]
    exact hstored row hrow
  · exact hfree j id ((hclaims id).mpr ((hin id).mp hhand))
  · rintro id ⟨row, k, heq, -⟩
    cases heq
  · exact not_atFailure_handleRows fun row hrow =>
      asksDispatch_of_reachable run.reachable _ _ (hstored row hrow).1

/-- A pass that has rows in hand goes on and writes nothing back. -/
theorem keeps {e : Effect} {k : Except Error e.Resp → Prog Response} {p' : Prog Response}
    (h : Passing cfg tr s) (hactor : ∀ j, j ≠ i → ∀ ch, a ≠ .exec j ch)
    (hi : s.threads.lookup i = some ⟨.request .processOutbox, .op e k⟩)
    (hth : s'.threads = s.threads.insert i ⟨.request .processOutbox, p'⟩)
    (hout : s'.shared.db.outbox = s.shared.db.outbox)
    (hthrows : ∀ o, triggerThrows o ⟨s, a, s'⟩ = false) (hhas : PassHas cfg tr s i rows)
    (hclaims : ∀ n, e ≠ .claimOutbox n) (hwrites : ∀ row, e ≠ .saveOutbox row)
    (hat : PassAt rows p') (hat' : ∀ id, ¬ AtFailure p' id) :
    Passing cfg (⟨s, a, s'⟩ :: tr) s' := by
  have hkeep : PassHas cfg (⟨s, a, s'⟩ :: tr) s' i rows := by
    refine hhas.keep (fun n hnext => ?_) (fun row hnext => ?_) hout
    · rw [Sys.next_of_lookup hi] at hnext
      exact hclaims n (Option.some.inj hnext)
    · rw [Sys.next_of_lookup hi] at hnext
      exact hwrites row (Option.some.inj hnext)
  refine h.goes_on hactor hi hth hout hthrows (.inr ⟨rows, hat, hkeep⟩) ?_ ?_ hat'
  · intro j id hne hhand hhand'
    refine hne (h.apart j i id hhand' ((hhas.inHand id).mpr ((hkeep.inHand id).mp hhand)))
  · rintro id ⟨row, k', heq, -⟩
    cases heq
    exact hwrites row rfl

/-- A pass for which `triggerDispatch` throws. -/
theorem throws {k : Except Error JobId → Prog Response} {k' : Except Error Unit → Prog Response}
    {err : Error} (h : Passing cfg tr s) (run : Run (logistics Q cfg) tr s)
    (hi : s.threads.lookup i = some ⟨.request .processOutbox,
      .op (.addJob .DISPATCH_QUEUE (.assignDriver o) (.ASSIGN_DRIVER o) 0) k⟩)
    (hth : s'.threads = s.threads.insert i
      ⟨.request .processOutbox, .op (.saveOutbox (failed row err)) k'⟩)
    (hout : s'.shared.db.outbox = s.shared.db.outbox) (hpayload : row.payload = some o)
    (hhas : PassHas cfg tr s i (row :: rest)) (hk' : k' (.ok ()) = handleRows rest) :
    Passing cfg (⟨s, .fail i, s'⟩ :: tr) s' := by
  have hstatus := (hhas.stored row List.mem_cons_self).2
  have houtcome := outcome_failed row err hstatus
  have hkeep : PassHas cfg (⟨s, .fail i, s'⟩ :: tr) s' i (row :: rest) := by
    refine hhas.keep (fun n hnext => ?_) (fun row hnext => ?_) hout
    · rw [Sys.next_of_lookup hi] at hnext
      cases hnext
    · rw [Sys.next_of_lookup hi] at hnext
      cases hnext
  have hhand : InHand cfg tr i row.id := (hhas.inHand _).mpr List.mem_cons_self
  refine h.acts (fun j hne ch hact => by cases hact) hi hth
    (.inr ⟨_, .saving houtcome hk', hkeep⟩) (fun j row _ _ hrow => by rw [hout]; exact hrow) ?_ ?_
  · intro j id hne hhand hhand'
    exact hne (h.apart j i id hhand' ((hhas.inHand id).mpr ((hkeep.inHand id).mp hhand)))
  · intro id row' o' hrow' hpayload'
    rw [hout] at hrow'
    have hrow := (hhas.stored row List.mem_cons_self).1
    have hid := houtcome.id
    rw [failureUnsaved_of_insert hth, List.countP_cons, triggerThrows_fail hi]
    by_cases ho : o = o'
    -- the row that is handled: the failure is counted, and will be saved
    · subst ho
      obtain rfl := row_unique run.reachable id row.id row' row o hrow' hrow hpayload' hpayload
      obtain rfl := Option.some.inj (hrow'.symm.trans hrow)
      have hcount := (h.counted row'.id row' o hrow hpayload).1 (by
        rw [failureUnsaved_of_lookup hi]
        rintro (⟨row, k, heq, -⟩ | hbeside)
        · cases heq
        · exact h.not_beside run.reachable hhand hbeside)
      rw [decide_eq_true rfl, if_pos rfl, hcount]
      refine ⟨fun hfree => ?_, fun _ => rfl⟩
      exact absurd (.inl ⟨_, k', rfl, hid, failed_status row' err hstatus⟩) hfree
    -- another row
    · have hne : ¬ AtFailure (.op (.saveOutbox (failed row err)) k') id := by
        rintro ⟨row₁, k₁, heq, rfl, -⟩
        cases heq
        rw [hid, hrow] at hrow'
        obtain rfl := Option.some.inj hrow'
        exact ho (Option.some.inj (hpayload.symm.trans hpayload'))
      have hat : ¬ AtFailure
          (.op (.addJob .DISPATCH_QUEUE (.assignDriver o) (.ASSIGN_DRIVER o) 0) k) id := by
        rintro ⟨row₁, k₁, heq, -⟩
        cases heq
      have hcount := h.counted id row' o' hrow' hpayload'
      rw [failureUnsaved_of_lookup hi, or_iff_right hat] at hcount
      rw [decide_eq_false ho, if_neg Bool.false_ne_true, or_iff_right hne, Nat.add_zero]
      exact hcount

/-- A pass writes a row back. -/
theorem save {ch : Choice} {k : Except Error Unit → Prog Response} (h : Passing cfg tr s)
    (run : Run (logistics Q cfg) tr s) (hstep : step cfg s (.exec i ch) = some s')
    (hi : s.threads.lookup i = some ⟨.request .processOutbox, .op (.saveOutbox row') k⟩)
    (hrow' : Outcome row row') (hhas : PassHas cfg tr s i (row :: rest))
    (hk : k (.ok ()) = handleRows rest) : Passing cfg (⟨s, .exec i ch, s'⟩ :: tr) s' := by
  obtain ⟨hsh, hth⟩ := exec_eq_some hi hstep
  have hth : s'.threads = s.threads.insert i ⟨.request .processOutbox, k (.ok ())⟩ := hth
  have hout : s'.shared.db.outbox = s.shared.db.outbox.put row' := by
    rw [hsh]
    rfl
  rw [hk] at hth
  have hrow := (hhas.stored row List.mem_cons_self).1
  have hhand : InHand cfg tr i row.id := (hhas.inHand _).mpr List.mem_cons_self
  have hnodup := hhas.nodup
  rw [List.map_cons, List.nodup_cons] at hnodup
  have hasks : ∀ row₁ ∈ rest, AsksDispatch row₁ := fun row₁ hmem =>
    asksDispatch_of_reachable run.reachable _ _ (hhas.stored row₁ (List.mem_cons_of_mem _ hmem)).1
  have hother : ∀ id, id ≠ row.id →
      s'.shared.db.outbox.find id = s.shared.db.outbox.find id := by
    intro id hne
    rw [hout]
    exact Table.find_put_of_ne (by rwa [hrow'.id])
  have hwrites : ∀ id, WritesBack i id ⟨s, .exec i ch, s'⟩ ↔ row.id = id := by
    intro id
    constructor
    · rintro ⟨ch', row₁, hact, hnext, rfl⟩
      have hnext : s.next i = some (.saveOutbox row₁) := hnext
      rw [Sys.next_of_lookup hi] at hnext
      rw [← Effect.saveOutbox.inj (Option.some.inj hnext), hrow'.id]
    · rintro rfl
      exact ⟨ch, row', rfl, Sys.next_of_lookup hi, hrow'.id⟩
  have hin : ∀ id, InHand cfg (⟨s, .exec i ch, s'⟩ :: tr) i id ↔
      id ∈ rest.map OutboxEvent.id := by
    intro id
    rw [inHand_cons, hwrites, hhas.inHand, List.map_cons, List.mem_cons]
    constructor
    · rintro (⟨ch', n, rows', -, -, hnext, -⟩ | ⟨hne, hmem⟩)
      · have hnext : s.next i = some (.claimOutbox n) := hnext
        rw [Sys.next_of_lookup hi] at hnext
        cases hnext
      · exact hmem.resolve_left (Ne.symm hne)
    · refine fun hmem => .inr ⟨?_, .inr hmem⟩
      rintro rfl
      exact hnodup.1 hmem
  refine h.acts (fun j hne ch' hact => hne (Action.exec.inj hact).1.symm) hi hth ?_ ?_ ?_ ?_
  · refine .inr ⟨rest, .handling rest, hnodup.2, fun row₁ hmem => ?_, hin⟩
    have hne : row₁.id ≠ row.id := by
      intro heq
      refine hnodup.1 ?_
      rw [← heq]
      exact List.mem_map_of_mem hmem
    rw [hother _ hne]
    exact hhas.stored row₁ (List.mem_cons_of_mem _ hmem)
  · intro j row₁ hne hhand' hstored
    rw [hother]
    · exact hstored
    · intro heq
      rw [heq] at hhand'
      exact hne (h.apart j i row.id hhand' hhand)
  · intro j id hne hhand₁ hhand₂
    have hmem : id ∈ (row :: rest).map OutboxEvent.id :=
      List.mem_cons_of_mem _ ((hin id).mp hhand₁)
    exact hne (h.apart j i id hhand₂ ((hhas.inHand id).mpr hmem))
  · intro id row₁ o hrow₁ hpayload
    have hcount : (⟨s, .exec i ch, s'⟩ :: tr : List (Move (Sys Q) Action)).countP (triggerThrows o)
        = tr.countP (triggerThrows o) := List.countP_cons_of_neg Bool.false_ne_true
    rw [hcount, failureUnsaved_of_insert hth, or_iff_right (not_atFailure_handleRows hasks)]
    by_cases hid : id = row.id
    -- the row that is saved: its failure, if it is one, is saved now
    · subst hid
      rw [hout, Table.find_put_of_eq hrow'.id] at hrow₁
      obtain rfl := Option.some.inj hrow₁
      have hold := h.counted row.id row o hrow (hrow'.payload.symm.trans hpayload)
      have hbeside := h.not_beside run.reachable hhand
      rw [failureUnsaved_of_lookup hi, or_iff_left hbeside] at hold
      refine ⟨fun _ => ?_, fun hfailure => absurd hfailure hbeside⟩
      rw [hrow'.attempts]
      split
      · next hstatus =>
          refine hold.1 ?_
          rintro ⟨row₂, k₂, heq, -, hne⟩
          cases heq
          exact hne hstatus
      · next hstatus => exact hold.2 ⟨row', k, rfl, hrow'.id, hstatus⟩
    -- another row
    · rw [hother id hid] at hrow₁
      have hold := h.counted id row₁ o hrow₁ hpayload
      rw [failureUnsaved_of_lookup hi, or_iff_right] at hold
      · exact hold
      · rintro ⟨row₂, k₂, heq, rfl, -⟩
        cases heq
        exact hid hrow'.id

/-- A pass performs an effect. -/
theorem exec {ch : Choice} {e : Effect} {k : Except Error e.Resp → Prog Response}
    (h : Passing cfg tr s) (run : Run (logistics Q cfg) tr s)
    (hstep : step cfg s (.exec i ch) = some s')
    (hi : s.threads.lookup i = some ⟨.request .processOutbox, .op e k⟩)
    (hapart : ∀ j id, Claims cfg i id ⟨s, .exec i ch, s'⟩ → ¬ InHand cfg tr j id) :
    Passing cfg (⟨s, .exec i ch, s'⟩ :: tr) s' := by
  obtain ⟨hsh, hth⟩ := exec_eq_some hi hstep
  have hactor : ∀ j, j ≠ i → ∀ ch', (Action.exec i ch) ≠ .exec j ch' :=
    fun j hne ch' hact => hne (Action.exec.inj hact).1.symm
  rcases h.next run.reachable hi with ⟨hbegins, hnone⟩ | ⟨rows, hnext, hhas⟩
  · rw [processOutbox_eq] at hbegins
    cases hbegins
    exact h.claim run hstep hi hnone hapart
  · cases hnext with
    | trigger hpayload hok hat herr =>
        have hout : s'.shared.db.outbox = s.shared.db.outbox := by
          rw [hsh]
          rfl
        exact h.keeps hactor hi hth hout (fun _ => rfl) hhas (fun n heq => by cases heq)
          (fun row heq => by cases heq) (hok _) (hat _)
    | note hk hat =>
        have hout : s'.shared.db.outbox = s.shared.db.outbox := by
          rw [hsh]
          rfl
        exact h.keeps hactor hi hth hout (fun _ => rfl) hhas (fun n heq => by cases heq)
          (fun row heq => by cases heq) (hk _) (hat _)
    | save hrow hk => exact h.save run hstep hi hrow hhas hk

/-- An effect of a pass fails. -/
theorem fail {e : Effect} {k : Except Error e.Resp → Prog Response} (h : Passing cfg tr s)
    (run : Run (logistics Q cfg) tr s) (hmay : e.mayFail = true)
    (hi : s.threads.lookup i = some ⟨.request .processOutbox, .op e k⟩)
    (hsh : s'.shared = s.shared)
    (hth : s'.threads = s.threads.insert i ⟨.request .processOutbox, k (.error .Unavailable)⟩)
    (hsaves : ∀ row, e ≠ .saveOutbox row) : Passing cfg (⟨s, .fail i, s'⟩ :: tr) s' := by
  have hout : s'.shared.db.outbox = s.shared.db.outbox := by rw [hsh]
  have hactor : ∀ j, j ≠ i → ∀ ch', (Action.fail i) ≠ .exec j ch' :=
    fun j hne ch' hact => by cases hact
  rcases h.next run.reachable hi with ⟨hbegins, hnone⟩ | ⟨rows, hnext, hhas⟩
  -- the query fails, and the pass with it
  · rw [processOutbox_eq] at hbegins
    cases hbegins
    have hin : ∀ id, ¬ InHand cfg (⟨s, .fail i, s'⟩ :: tr) i id := by
      intro id hhand
      rcases inHand_cons.mp hhand with ⟨ch, n, rows, hact, -⟩ | ⟨-, hhand⟩
      · cases hact
      · exact hnone id hhand
    refine h.goes_on hactor hi hth hout (fun o => ?_) (.inr ⟨[], .ended rfl, List.nodup_nil,
      fun row hrow => absurd hrow List.not_mem_nil, fun id => ?_⟩) (fun j id _ hhand => ?_) ?_ ?_
    · simp only [triggerThrows, Sys.call_of_lookup hi, Sys.next_of_lookup hi]
    · exact iff_of_false (hin id) List.not_mem_nil
    · exact absurd hhand (hin id)
    · rintro id ⟨row, k, heq, -⟩
      cases heq
    · rintro id ⟨row, k, heq, -⟩
      cases heq
  · cases hnext with
    | trigger hpayload hok hat herr =>
        obtain ⟨k', heq, hk'⟩ := herr .Unavailable
        rw [heq] at hth
        exact h.throws run hi hth hout hpayload hhas hk'
    | note hk hat => cases hmay
    | save hrow hk => exact absurd rfl (hsaves _)

end Passing

omit [JobQueue Q JobId JobData] in
/-- What a step of another call leaves of the passes. -/
theorem pass_lookup {call : Call} {p p' q : Prog Response}
    (hi : s.threads.lookup i = some ⟨call, p⟩)
    (hcall : call ≠ .request .processOutbox)
    (hth : s'.threads = s.threads.insert i ⟨call, p'⟩) :
    s'.threads.lookup j = some ⟨.request .processOutbox, q⟩ ↔
      s.threads.lookup j = some ⟨.request .processOutbox, q⟩ := by
  rw [hth]
  by_cases hne : j = i
  · subst hne
    rw [AList.lookup_insert, hi]
    refine iff_of_false (fun heq => hcall ?_) (fun heq => hcall ?_)
    · exact (Thread.mk.inj (Option.some.inj heq)).1
    · exact (Thread.mk.inj (Option.some.inj heq)).1
  · rw [AList.lookup_insert_ne hne]

/-- A step in which no call goes on. -/
theorem Passing.around (h : Passing cfg tr s) (run : Run (logistics Q cfg) tr s)
    (hstep : step cfg s a = some s') (hexec : ∀ i ch, a ≠ .exec i ch) (hfail : ∀ i, a ≠ .fail i) :
    Passing cfg (⟨s, a, s'⟩ :: tr) s' := by
  have hclaims : ∀ i id, ¬ Claims cfg i id ⟨s, a, s'⟩ := by
    rintro i id ⟨ch, n, rows, hact, -⟩
    exact hexec i ch hact
  have hwrites : ∀ i id, ¬ WritesBack i id ⟨s, a, s'⟩ := by
    rintro i id ⟨ch, row, hact, -⟩
    exact hexec i ch hact
  have hthrows : ∀ o, triggerThrows o ⟨s, a, s'⟩ = false := by
    intro o
    unfold triggerThrows
    split
    · next i hact => exact absurd hact (hfail i)
    · rfl
  cases call_step hstep with
  | same hth =>
      exact h.idle run hstep hclaims hwrites hthrows (fun j q hj => by rw [hth]; exact hj)
        fun j q hj => .inl (by rw [← hth]; exact hj)
  | @made i call hfree hth =>
      refine h.idle run hstep hclaims hwrites hthrows (fun j q hj => ?_) fun j q hj => ?_
      · rw [hth, AList.lookup_insert_ne]
        · exact hj
        · rintro rfl
          rw [hfree] at hj
          cases hj
      · rw [hth] at hj
        rcases Pool.lookup_insert_cases hj with ⟨rfl, heq⟩ | ⟨-, hj⟩
        · obtain ⟨rfl, rfl⟩ := Thread.mk.inj heq
          exact .inr ⟨hfree, rfl⟩
        · exact .inl hj
  | went ha => exact absurd ha (hexec _ _)
  | failed ha => exact absurd ha (hfail _)

/-- **A step keeps the invariant**, as long as no pass is given a row that another has in hand. -/
theorem Passing.step (h : Passing cfg tr s) (run : Run (logistics Q cfg) tr s)
    (hstep : step cfg s a = some s')
    (hsaves : ∀ i row, a = .fail i → s.next i ≠ some (.saveOutbox row))
    (hapart : ∀ i j id, Claims cfg i id ⟨s, a, s'⟩ → ¬ InHand cfg tr j id) :
    Passing cfg (⟨s, a, s'⟩ :: tr) s' := by
  cases a with
  | exec i ch =>
      obtain ⟨call, e, k, hi, hsh, hth⟩ := Pool.advance_eq_some hstep
      by_cases hcall : call = .request .processOutbox
      · subst hcall
        exact h.exec run hstep hi (hapart i)
      · refine h.idle run hstep ?_ ?_ (fun _ => rfl) (fun j q => (pass_lookup hi hcall hth).mpr)
          fun j q hj => .inl ((pass_lookup hi hcall hth).mp hj)
        · rintro j id ⟨ch', n, rows, hact, hpass, -⟩
          obtain ⟨rfl, -⟩ := Action.exec.inj hact
          have hpass : s.call i = some (.request .processOutbox) := hpass
          rw [Sys.call_of_lookup hi] at hpass
          exact hcall (Option.some.inj hpass)
        -- only passes save outbox rows
        · rintro j id ⟨ch', row, hact, hnext, -⟩
          obtain ⟨rfl, -⟩ := Action.exec.inj hact
          have hnext : s.next i = some (.saveOutbox row) := hnext
          rw [Sys.next_of_lookup hi] at hnext
          obtain rfl := Option.some.inj hnext
          exact hcall (guar_of_next run.reachable hi).1
  | fail i =>
      have hfail := hstep
      simp only [LogisticsDispatch.step, Option.ite_none_right_eq_some] at hfail
      obtain ⟨hmay, hfail⟩ := hfail
      obtain ⟨call, e, k, hi, hsh, hth⟩ := Pool.interrupt_eq_some hfail
      by_cases hcall : call = .request .processOutbox
      · subst hcall
        rw [Sys.next_of_lookup hi, Option.any_some] at hmay
        refine h.fail run hmay hi hsh hth fun row heq => hsaves i row rfl ?_
        rw [Sys.next_of_lookup hi, heq]
      · refine h.idle run hstep ?_ ?_ (fun o => ?_) (fun j q => (pass_lookup hi hcall hth).mpr)
          fun j q hj => .inl ((pass_lookup hi hcall hth).mp hj)
        · rintro j id ⟨ch', n, rows, hact, -⟩
          cases hact
        · rintro j id ⟨ch', row, hact, -⟩
          cases hact
        · simp only [triggerThrows, Sys.call_of_lookup hi]
          split
          · next hpass _ => exact absurd (Option.some.inj hpass) hcall
          · rfl
  | invoke i req => exact h.around run hstep (by simp) (by simp)
  | deliver i queue jobId => exact h.around run hstep (by simp) (by simp)
  | promote queue jobId => exact h.around run hstep (by simp) (by simp)
  | evict queue jobId => exact h.around run hstep (by simp) (by simp)
  | expire key => exact h.around run hstep (by simp) (by simp)

theorem ClaimsApart.of_cons (h : ClaimsApart cfg (m :: tr)) : ClaimsApart cfg tr := by
  rintro later m' earlier rfl
  exact h (m :: later) m' earlier rfl

omit [JobQueue Q JobId JobData] in
theorem SavesSucceed.of_cons (h : SavesSucceed (m :: tr)) : SavesSucceed tr :=
  fun m' hm' => h m' (List.mem_cons_of_mem _ hm')

theorem passing_of_run (run : Run (logistics Q cfg) tr s) (hsaves : SavesSucceed tr)
    (hapart : ClaimsApart cfg tr) : Passing cfg tr s := by
  induction run with
  | @init s hinit =>
      have hnone : ∀ i id, ¬ InHand cfg ([] : List (Move (Sys Q) Action)) i id := by
        rintro i id ⟨m, -, hsince⟩
        exact not_since_nil hsince
      refine ⟨fun i p hi => ?_, fun i _ id => hnone i id, fun i j id hi => absurd hi (hnone i id),
        fun id row o hrow => ?_⟩
      · rw [hinit.threads, AList.lookup_empty] at hi
        cases hi
      · rw [hinit.outbox, Table.find_empty] at hrow
        cases hrow
  | snoc run hstep ih =>
      exact (ih hsaves.of_cons hapart.of_cons).step run hstep
        (hsaves _ List.mem_cons_self) (hapart [] _ _ rfl)

/-! ## Runs -/

/-- What a step of a sound run does to a row: nothing, or it was pending and is written back after
one more failure or none. -/
theorem Passing.row_step (h : Passing cfg tr s) (run : Run (logistics Q cfg) tr s)
    (hstep : LogisticsDispatch.step cfg s a = some s')
    (hrow : s.shared.db.outbox.find id = some row) :
    s'.shared.db.outbox.find id = some row ∨
      row.status = .PENDING ∧
        ∃ row', s'.shared.db.outbox.find id = some row' ∧ Outcome row row' := by
  cases outbox_step run.reachable hstep with
  | same heq =>
      rw [heq]
      exact .inl hrow
  | created _ _ hfree heq =>
      rw [heq, Table.find_put_of_ne]
      · exact .inl hrow
      · rintro rfl
        rw [hfree] at hrow
        cases hrow
  | @saved i ch row' _ k ha hi _ _ heq =>
      rcases h.next run.reachable hi with ⟨hbegins, -⟩ | ⟨rows, hnext, hhas⟩
      · rw [processOutbox_eq] at hbegins
        cases hbegins
      · cases hnext with
        | @save row₁ _ _ _ houtcome hk =>
            obtain ⟨hstored, hstatus⟩ := hhas.stored row₁ List.mem_cons_self
            rw [heq]
            by_cases hid : id = row'.id
            · subst hid
              rw [houtcome.id, hstored] at hrow
              obtain rfl := Option.some.inj hrow
              exact .inr ⟨hstatus, row', Table.find_put_self _ _, houtcome⟩
            · exact .inl ((Table.find_put_of_ne hid).trans hrow)

theorem claimsApart_cons : ClaimsApart cfg (m :: tr) ↔
    (∀ i j id, Claims cfg i id m → ¬ InHand cfg tr j id) ∧ ClaimsApart cfg tr := by
  refine ⟨fun h => ⟨h [] m tr rfl, h.of_cons⟩, ?_⟩
  rintro ⟨hlast, h⟩ later m' earlier heq
  cases later with
  | nil =>
      obtain ⟨rfl, rfl⟩ := List.cons.inj heq
      exact hlast
  | cons m'' later => exact h later m' earlier (List.cons.inj heq).2

theorem ClaimsApart.of_append {later earlier : List (Move (Sys Q) Action)}
    (h : ClaimsApart cfg (later ++ earlier)) : ClaimsApart cfg earlier := by
  induction later with
  | nil => exact h
  | cons m later ih => exact ih h.of_cons

/-- A pass that is given a row had none in hand. -/
theorem Passing.none_of_claims (h : Passing cfg tr m.src) (hs : Reachable (logistics Q cfg) m.src)
    (hclaims : Claims cfg i id m) (id' : Uuid) : ¬ InHand cfg tr i id' := by
  obtain ⟨ch, n, rows, -, hcall, hnext, -⟩ := hclaims
  obtain ⟨call, k, hi⟩ := Sys.lookup_of_next hnext
  rw [Sys.call_of_lookup hi] at hcall
  obtain rfl := Option.some.inj hcall
  rcases h.next hs hi with ⟨-, hnone⟩ | ⟨rows, hnext, -⟩
  · exact hnone id'
  · cases hnext

/-- Where a row is in the hand of one pass at a time, no pass is given a row that another has. -/
theorem claimsApart_of_exclusive (run : Run (logistics Q cfg) tr s) (hsaves : SavesSucceed tr)
    (h : ∀ later earlier, tr = later ++ earlier → ∀ i j id, InHand cfg earlier i id →
      InHand cfg earlier j id → i = j) : ClaimsApart cfg tr := by
  induction run with
  | init _ =>
      rintro later m earlier heq
      cases later <;> cases heq
  | @snoc tr s s' a run hstep ih =>
      have hearlier : ClaimsApart cfg tr := by
        refine ih hsaves.of_cons fun later earlier heq => h (⟨s, a, s'⟩ :: later) earlier ?_
        rw [heq, List.cons_append]
      refine claimsApart_cons.mpr ⟨fun i j id hclaims hhand => ?_, hearlier⟩
      -- both would have the row in hand after the step
      have hwrites : ∀ {m : Move (Sys Q) Action}, Claims cfg i id m → ¬ WritesBack j id m := by
        rintro m ⟨ch, n, rows, hact, -, hnext, -⟩ ⟨ch', row, hact', hnext', -⟩
        rw [hact] at hact'
        obtain ⟨rfl, -⟩ := Action.exec.inj hact'
        rw [hnext] at hnext'
        cases hnext'
      obtain rfl := h [] _ rfl i j id (inHand_cons.mpr (.inl hclaims))
        (inHand_cons.mpr (.inr ⟨hwrites hclaims, hhand⟩))
      exact (passing_of_run run hsaves.of_cons hearlier).none_of_claims run.reachable hclaims id
        hhand

/-- **The outbox.** Where writing rows back does not fail, the rows are claimed exclusively
exactly if no pass is given a row that another was given and has not written back. -/
theorem claimed_exclusively_iff (run : Run (logistics Q cfg) tr s) (hsaves : SavesSucceed tr) :
    ClaimsApart cfg tr ↔ ClaimedExclusively cfg tr := by
  refine ⟨fun hapart => ?_, fun h => claimsApart_of_exclusive run hsaves h.exclusive⟩
  -- the invariant holds before each step and after it
  have hbefore : ∀ {later m earlier}, tr = later ++ m :: earlier →
      Run (logistics Q cfg) earlier m.src ∧ step cfg m.src m.act = some m.dst ∧
        Passing cfg earlier m.src := by
    rintro later m earlier rfl
    obtain ⟨hrun, hstep, -⟩ := run.of_suffix
    refine ⟨hrun, hstep, passing_of_run hrun (fun m' hm' => hsaves m' ?_) ?_⟩
    · exact List.mem_append_right _ (List.mem_cons_of_mem _ hm')
    · exact hapart.of_append.of_cons
  have hafter : ∀ {later m earlier}, tr = later ++ m :: earlier →
      Passing cfg (m :: earlier) m.dst := by
    rintro later m earlier rfl
    obtain ⟨-, -, hrun⟩ := run.of_suffix
    exact passing_of_run hrun (fun m' hm' => hsaves m' (List.mem_append_right _ hm'))
      hapart.of_append
  refine ⟨fun later earlier htr i j id hi hj => ?_, fun m hm id row hrow => ?_,
    fun later m earlier htr => (hafter htr).counted, fun m hm id row hrow hstatus => ?_⟩
  · cases earlier with
    | nil =>
        obtain ⟨m, -, hsince⟩ := hi
        exact absurd hsince not_since_nil
    | cons m earlier => exact (hafter htr).apart i j id hi hj
  · obtain ⟨later, earlier, htr⟩ := List.append_of_mem hm
    obtain ⟨hrun, hstep, hpassing⟩ := hbefore htr
    rcases hpassing.row_step hrun hstep hrow with hsame | ⟨-, row', hrow', houtcome⟩
    · exact ⟨row, hsame, le_rfl⟩
    · refine ⟨row', hrow', ?_⟩
      rw [houtcome.attempts]
      split
      · exact le_rfl
      · exact Nat.le_succ _
  · obtain ⟨later, earlier, htr⟩ := List.append_of_mem hm
    obtain ⟨hrun, hstep, hpassing⟩ := hbefore htr
    rcases hpassing.row_step hrun hstep hrow with hsame | ⟨hpending, -⟩
    · exact hsame
    · exact absurd hpending hstatus

/-! ### Two passes -/

/-- Whether no step is a save of an outbox row that fails, as a computation. -/
def savesSucceedb (tr : List (Move (Sys Q) Action)) : Bool :=
  tr.all fun m =>
    match m.act with
    | .fail i =>
        match m.src.next i with
        | some (.saveOutbox _) => false
        | _ => true
    | _ => true

omit [JobQueue Q JobId JobData] in
theorem savesSucceed_of_savesSucceedb (h : savesSucceedb tr = true) : SavesSucceed tr := by
  intro m hm i row hact hnext
  have hm := List.all_eq_true.mp h m hm
  simp only [hact, hnext] at hm
  cases hm

/-- A trip is ordered, and two passes are given its row. The first processes it; then triggering
fails in the second. -/
def twoPasses : List Action :=
  .invoke 0 (.createOrder carTrip sampleCustomer none) :: proceed 0 1 sampleChoice ++
    [.invoke 1 .processOutbox, .invoke 2 .processOutbox] ++ proceed 1 1 sampleChoice ++
    proceed 2 1 sampleChoice ++ proceed 1 3 sampleChoice ++ [.fail 2]

theorem twoPasses_possible : ((logistics BullQueue (sampleConfig 3)).exec (start [carDriver])
    twoPasses).isSome := by
  decide +kernel

theorem staleSave_possible : (step (sampleConfig 3) (after _ _ _ twoPasses_possible)
    (.exec 2 sampleChoice)).isSome := by
  decide +kernel

/-- The second pass saves the row that the first has processed, as pending. -/
theorem processed_row_reopened :
    ∃ tr s, Run (logistics BullQueue (sampleConfig 3)) tr s ∧ SavesSucceed tr ∧
      ¬ ClaimedExclusively (sampleConfig 3) tr := by
  have hstep : (logistics BullQueue (sampleConfig 3)).step (after _ _ _ twoPasses_possible)
      (.exec 2 sampleChoice) = some (Option.get _ staleSave_possible) := (Option.some_get _).symm
  refine ⟨_, _, (after_run twoPasses_possible).snoc hstep, ?_, fun h => ?_⟩
  · exact savesSucceed_of_savesSucceedb (by decide +kernel)
  · have hprocessed : ((after _ _ _ twoPasses_possible).shared.db.outbox.find
        sampleChoice.outboxId).map OutboxEvent.status = some .PROCESSED := by
      decide +kernel
    have hpending : ((Option.get _ staleSave_possible).shared.db.outbox.find
        sampleChoice.outboxId).map OutboxEvent.status = some .PENDING := by
      decide +kernel
    obtain ⟨row, hrow, hstatus⟩ := Option.map_eq_some_iff.mp hprocessed
    have hsame := h.settled _ List.mem_cons_self sampleChoice.outboxId row hrow (by
      rw [hstatus]
      decide)
    have hsame : (Option.get _ staleSave_possible).shared.db.outbox.find sampleChoice.outboxId
      = some row := hsame
    rw [hsame, Option.map_some, hstatus] at hpending
    cases hpending

/-- Whether a pass is given rows in the step, as a computation. -/
def claimsb (m : Move (Sys Q) Action) : Bool :=
  match m.act with
  | .exec i _ =>
      match m.src.next i with
      | some (.claimOutbox _) => true
      | _ => false
  | _ => false

theorem claimsb_of_claims (h : Claims cfg i id m) : claimsb m = true := by
  obtain ⟨ch, n, rows, hact, -, hnext, -⟩ := h
  simp only [claimsb, hact, hnext]

/-- One pass that is given rows has them alone. -/
theorem claimsApart_of_one (h : tr.countP claimsb ≤ 1) : ClaimsApart cfg tr := by
  rintro later m earlier rfl i j id hclaims ⟨m', hclaims', l, e, rfl, -⟩
  rw [List.countP_append, List.countP_cons_of_pos (claimsb_of_claims hclaims), List.countP_append,
    List.countP_cons_of_pos (claimsb_of_claims hclaims')] at h
  omega

/-- The pass that has the trip dispatched claims its row exclusively. -/
theorem claimed_exclusively_of_trip :
    ClaimedExclusively (sampleConfig 3)
      ((logistics BullQueue (sampleConfig 3)).moves [] (start [carDriver])
        (orderTrip ++ offerTrip)) :=
  (claimed_exclusively_iff (after_run trip_offered)
    (savesSucceed_of_savesSucceedb (by decide +kernel))).mp
    (claimsApart_of_one (by decide +kernel))

end LogisticsDispatch
