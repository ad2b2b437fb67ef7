/-
What becomes of an outbox row, whatever of `triggerDispatch` and of the saves fails.

There is one worker, and its passes do not overlap. A pass claims its rows and handles them one
after the other; what a handling throws is swallowed, so no row bears on another one's outcome
(`pass_find_eq`). But the `try` of `handleRow` covers the dispatch together with the save of
`PROCESSED`: if that save fails, the `catch` counts an attempt and may save `FAILED` over a
dispatch that was triggered, and if the second save fails too, nothing is known of it at all. With
that left out, the outcome of a row is what happened to it (`outcomes_faithful`).
-/
import LogisticsDispatch.Lib.Alone
import LogisticsDispatch.OutboxPasses

set_option autoImplicit false

namespace LogisticsDispatch

open Transition Resumable Resumable.Program OutboxWorkerService

/-! ## One handling -/

/-- What becomes of the calls of one handling: what `triggerDispatch` throws, and the saves, the
first and the second. -/
structure Handling where
  choice : Choice
  triggerDispatch : Option Error
  save : ℕ → Option Error

/-- A call of `handleRow`, with what it has thrown. -/
inductive WorkerCall
  | triggerDispatch (orderId : OrderId) (thrown : Option Error)
  | save (row : OutboxEvent) (thrown : Option Error)

/-- The call is a save. -/
def WorkerCall.isSave : WorkerCall → Bool
  | save .. => true
  | triggerDispatch .. => false

/-- A row that was handled: as it was claimed, with the calls that were made, the latest first, and
what the `try` has thrown. -/
structure Handled where
  row : OutboxEvent
  calls : List WorkerCall
  thrown : Option Error

/-- The dispatch of an order was triggered. -/
def Handled.Triggered (x : Handled) (orderId : OrderId) : Prop :=
  .triggerDispatch orderId none ∈ x.calls

namespace OutboxWorkerService

/-- A row that is about to be saved as processed. -/
def processed (row : OutboxEvent) (processedAt : ℕ) : OutboxEvent :=
  { row with status := .PROCESSED, processedAt := some processedAt }

/-- The `try` of `handleRow`. -/
def handleTry (row : OutboxEvent) : Prog Unit := do
  triggerRow row
  let processedAt ← ask .now
  ask (.saveOutbox (processed row processedAt))

end OutboxWorkerService

/-- What the worker works on, and the rows it has handled, the latest first. -/
structure Worker (Q : Type) where
  shared : Shared Q
  handled : List Handled

section Worker

variable {Q : Type} [JobQueue Q JobId JobData] (cfg : DispatchConfig)

/-- Perform an effect of a handling, and note the call that it is. -/
def performHandling (h : Handling) :
    (e : Effect) → Shared Q × List WorkerCall → Except Error e.Resp × Shared Q × List WorkerCall
  | .addJob .DISPATCH_QUEUE (.assignDriver orderId) data delay, (sh, calls) =>
      match h.triggerDispatch with
      | some err => (.error err, sh, .triggerDispatch orderId (some err) :: calls)
      | none =>
          let (r, sh) :=
            perform cfg h.choice (.addJob .DISPATCH_QUEUE (.assignDriver orderId) data delay) sh
          (r, sh, .triggerDispatch orderId none :: calls)
  | .saveOutbox row, (sh, calls) =>
      match h.save (calls.countP WorkerCall.isSave) with
      | some err => (.error err, sh, .save row (some err) :: calls)
      | none =>
          let (r, sh) := perform cfg h.choice (.saveOutbox row) sh
          (r, sh, .save row none :: calls)
  | e, (sh, calls) =>
      let (r, sh) := perform cfg h.choice e sh
      (r, sh, calls)

/-- What a program throws, if it does. -/
def thrown {α : Type} : Except Error α → Option Error
  | .ok _ => none
  | .error err => some err

/-- Handle one row. What `handleRow` throws is swallowed. -/
def Worker.handle (h : Handling) (s : Worker Q) (row : OutboxEvent) : Worker Q :=
  let (_, sh, calls) := (handleRow row).run (performHandling cfg h) (s.shared, [])
  let tried := (handleTry row).run (performHandling cfg h) (s.shared, [])
  { shared := sh, handled := ⟨row, calls, thrown tried.1⟩ :: s.handled }

/-- The rows that a pass claims. -/
def claimed (ch : Choice) (sh : Shared Q) : List OutboxEvent :=
  match (perform cfg ch (.claimOutbox BATCH_SIZE) sh).1 with
  | .ok rows => rows
  | .error _ => []

/-- Handle the rows of a batch one after the other. -/
def Worker.handleAll (faults : Uuid → Handling) (s : Worker Q) (rows : List OutboxEvent) :
    Worker Q :=
  rows.foldl (fun s row => s.handle cfg (faults row.id) row) s

/-- `processOutbox`. -/
def Worker.pass (ch : Choice) (faults : Uuid → Handling) (s : Worker Q) : Worker Q :=
  s.handleAll cfg faults (claimed cfg ch s.shared)

/-- What happens to the outbox: an order adds a row, a pass of the worker, and whatever changes
something else. -/
inductive WorkerAction (Q : Type)
  | createOrder (row : OutboxEvent)
  | processOutbox (ch : Choice) (faults : Uuid → Handling)
  | elsewhere (sh : Shared Q)

/-- The outbox and its worker. -/
def outboxWorker : System (Worker Q) (WorkerAction Q) where
  Init s := s.shared.db.outbox = Table.empty ∧ s.handled = []
  step s
    | .createOrder row =>
        if (s.shared.db.outbox.find row.id).isNone ∧ row.status = .PENDING ∧ row.attempts = 0 then
          some { s with shared.db := s.shared.db.saveOutbox row }
        else none
    | .processOutbox ch faults => some (s.pass cfg ch faults)
    | .elsewhere sh => some { s with shared := { sh with db.outbox := s.shared.db.outbox } }

end Worker

/-! ## What a handling does -/

section Handling

variable {Q : Type} [JobQueue Q JobId JobData] {cfg : DispatchConfig} {h : Handling}
  {row : OutboxEvent} {sh sh' : Shared Q} {calls : List WorkerCall} {err : Error}

/-- A save either throws, or stores the row. -/
theorem save_run (cfg : DispatchConfig) (h : Handling) (row : OutboxEvent) (sh : Shared Q)
    (calls : List WorkerCall) :
    (ask (.saveOutbox row)).run (performHandling cfg h) (sh, calls)
      = match h.save (calls.countP WorkerCall.isSave) with
        | some err => (.error err, sh, .save row (some err) :: calls)
        | none => (.ok (), { sh with db := sh.db.saveOutbox row }, .save row none :: calls) := by
  rw [ask, run_perform, performHandling]
  cases h.save (calls.countP WorkerCall.isSave) with
  | some err => rfl
  | none => rfl

/-- What `handleRow` goes on with once the dispatch has thrown. -/
theorem handleRow_of_error
    (hrun : (triggerRow row).run (performHandling cfg h) (sh, []) = (.error err, sh', calls)) :
    (handleRow row).run (performHandling cfg h) (sh, [])
      = (ask (.saveOutbox (failed row err))).run (performHandling cfg h) (sh', calls) := by
  have htried : (tryCatch (do triggerRow row; pure (Except.ok ())) fun err =>
      pure (Except.error err) : Prog (Except Error Unit)).run (performHandling cfg h) (sh, [])
      = (.ok (.error err), sh', calls) := by
    rw [run_tryCatch, run_bind_error _ _ hrun]
    rfl
  rw [handleRow, run_bind_ok _ _ htried]
  rfl

/-- What it goes on with once the dispatch is triggered. -/
theorem handleRow_of_ok
    (hrun : (triggerRow row).run (performHandling cfg h) (sh, []) = (.ok (), sh', calls)) :
    (handleRow row).run (performHandling cfg h) (sh, [])
      = (tryCatch (ask (.saveOutbox (processed row h.choice.now))) fun err =>
          recordFailure (processed row h.choice.now) err).run (performHandling cfg h)
            (sh', calls) := by
  have htried : (tryCatch (do triggerRow row; pure (Except.ok ())) fun err =>
      pure (Except.error err) : Prog (Except Error Unit)).run (performHandling cfg h) (sh, [])
      = (.ok (.ok ()), sh', calls) := by
    rw [run_tryCatch, run_bind_ok _ _ hrun]
    rfl
  rw [handleRow, run_bind_ok _ _ htried]
  rfl

/-- What `triggerRow` throws. -/
def triggerError (h : Handling) (row : OutboxEvent) : Option Error :=
  if row.eventType = "dispatch.trigger" then
    match row.payload with
    | none => some (.UnprocessableEntityException "Invalid dispatch.trigger payload")
    | some _ => h.triggerDispatch
  else none

/-- What a handling stores, if one of its saves succeeds. -/
def savedBy (h : Handling) (row : OutboxEvent) : Option OutboxEvent :=
  match triggerError h row, h.save 0, h.save 1 with
  | some err, none, _ => some (failed row err)
  | some _, some _, _ => none
  | none, none, _ => some (processed row h.choice.now)
  | none, some err, none => some (failed (processed row h.choice.now) err)
  | none, some _, some _ => none

/-- The outbox once a row was handled. -/
def storedAfter (outbox : OutboxTable) : Option OutboxEvent → OutboxTable
  | some row => outbox.put row
  | none => outbox

/-- The dispatch of an order is triggered in the handling. -/
structure Dispatches (h : Handling) (row : OutboxEvent) (orderId : OrderId) : Prop where
  eventType : row.eventType = "dispatch.trigger"
  payload : row.payload = some orderId
  succeeds : h.triggerDispatch = none

/-- `triggerRow` saves nothing, and triggers the dispatch that it asks for. -/
theorem triggerRow_run (cfg : DispatchConfig) (h : Handling) (row : OutboxEvent) (sh : Shared Q) :
    ∃ sh' calls, (triggerRow row).run (performHandling cfg h) (sh, [])
        = ((triggerError h row).elim (.ok ()) .error, sh', calls) ∧ sh'.db = sh.db ∧
      calls.countP WorkerCall.isSave = 0 ∧
      ∀ o, .triggerDispatch o none ∈ calls ↔ Dispatches h row o := by
  rw [triggerRow, triggerError]
  by_cases htype : row.eventType = "dispatch.trigger"
  · rw [if_pos htype, if_pos htype]
    cases hpayload : row.payload with
    | none =>
        refine ⟨sh, [], rfl, rfl, rfl, fun o => iff_of_false List.not_mem_nil ?_⟩
        intro hdispatches
        rw [hdispatches.payload] at hpayload
        cases hpayload
    | some orderId =>
        dsimp only
        rw [DispatchService.triggerDispatch, ask, perform_bind, run_op, performHandling]
        cases htrigger : h.triggerDispatch with
        | some err =>
            refine ⟨sh, [.triggerDispatch orderId (some err)], rfl, rfl, rfl, fun o => ?_⟩
            refine iff_of_false (by simp) fun hdispatches => ?_
            rw [hdispatches.succeeds] at htrigger
            cases htrigger
        | none =>
            refine ⟨_, [.triggerDispatch orderId none], rfl, Shared.setQueue_db _ _ _, rfl,
              fun o => ?_⟩
            rw [List.mem_singleton]
            constructor
            · intro heq
              obtain ⟨rfl, -⟩ := WorkerCall.triggerDispatch.inj heq
              exact ⟨htype, hpayload, htrigger⟩
            · intro hdispatches
              obtain rfl := Option.some.inj (hdispatches.payload.symm.trans hpayload)
              rfl
  · rw [if_neg htype, if_neg htype]
    refine ⟨sh, [], rfl, rfl, rfl, fun o => iff_of_false List.not_mem_nil ?_⟩
    intro hdispatches
    exact htype hdispatches.eventType

/-- A save triggers no dispatch. -/
theorem triggered_save {o : OrderId} {saved : OutboxEvent} {result : Option Error} :
    WorkerCall.triggerDispatch o none ∈ WorkerCall.save saved result :: calls ↔
      .triggerDispatch o none ∈ calls := by
  simp

/-- **One handling**: what it stores, what it throws, and which dispatch it triggers. -/
theorem handle_spec (cfg : DispatchConfig) (h : Handling) (s : Worker Q) (row : OutboxEvent) :
    (s.handle cfg h row).shared.db.outbox = storedAfter s.shared.db.outbox (savedBy h row) ∧
    ∃ x, (s.handle cfg h row).handled = x :: s.handled ∧ x.row = row ∧
      x.thrown = (triggerError h row).or (h.save 0) ∧ ∀ o, x.Triggered o ↔ Dispatches h row o := by
  obtain ⟨sh', calls, hrun, hdb, hsaves, hdispatches⟩ := triggerRow_run cfg h row s.shared
  rw [Worker.handle, savedBy]
  cases herror : triggerError h row with
  | some err =>
      rw [herror] at hrun
      have htry : (handleTry row).run (performHandling cfg h) (s.shared, [])
          = (.error err, sh', calls) := by
        rw [handleTry, run_bind_error _ _ hrun]
      rw [handleRow_of_error hrun, save_run, hsaves, htry]
      cases hsave : h.save 0 with
      | none =>
          refine ⟨by rw [← hdb]; rfl, _, rfl, rfl, rfl, fun o => ?_⟩
          rw [Handled.Triggered, triggered_save, hdispatches]
      | some err' =>
          refine ⟨by rw [← hdb]; rfl, _, rfl, rfl, rfl, fun o => ?_⟩
          rw [Handled.Triggered, triggered_save, hdispatches]
  | none =>
      rw [herror] at hrun
      have htry : (handleTry row).run (performHandling cfg h) (s.shared, [])
          = (ask (.saveOutbox (processed row h.choice.now))).run (performHandling cfg h)
            (sh', calls) := by
        rw [handleTry, run_bind_ok _ _ hrun]
        rfl
      rw [handleRow_of_ok hrun, htry, run_tryCatch, save_run, hsaves]
      cases hsave : h.save 0 with
      | none =>
          refine ⟨by rw [← hdb]; rfl, _, rfl, rfl, rfl, fun o => ?_⟩
          rw [Handled.Triggered, triggered_save, hdispatches]
      | some err =>
          dsimp only
          rw [recordFailure, save_run]
          have hsecond : (WorkerCall.save (processed row h.choice.now) (some err) ::
              calls).countP WorkerCall.isSave = 1 := by
            rw [List.countP_cons_of_pos rfl, hsaves]
          rw [hsecond]
          cases h.save 1 with
          | none =>
              refine ⟨by rw [← hdb]; rfl, _, rfl, rfl, rfl, fun o => ?_⟩
              rw [Handled.Triggered, triggered_save, triggered_save, hdispatches]
          | some err' =>
              refine ⟨by rw [← hdb]; rfl, _, rfl, rfl, rfl, fun o => ?_⟩
              rw [Handled.Triggered, triggered_save, triggered_save, hdispatches]

end Handling

/-! ## What a pass does -/

section Passes

variable {Q : Type} [JobQueue Q JobId JobData] {cfg : DispatchConfig} {s : Worker Q} {id : Uuid}

/-- The program of a pass is the handling of the rows that are claimed, one after the other. -/
theorem processOutbox_run {S : Type} {exec : (e : Effect) → S → Except Error e.Resp × S}
    {st st' : S} {rows : List OutboxEvent}
    (hclaim : exec (.claimOutbox BATCH_SIZE) st = (.ok rows, st')) :
    processOutbox.run exec st
      = (.ok (), rows.foldl (fun st row => ((handleRow row).run exec st).2) st') := by
  rw [processOutbox, ask, run_perform_bind _ _ hclaim]
  exact run_forM_swallow exec handleRow rows st'

/-- A handling stores the row under its id. -/
theorem savedBy_id {h : Handling} {row row' : OutboxEvent} (hrow : savedBy h row = some row') :
    row'.id = row.id := by
  have hfailed : ∀ (r : OutboxEvent) err, (failed r err).id = r.id := by
    intro r err
    unfold failed
    dsimp only
    split
    · rfl
    · rfl
  unfold savedBy at hrow
  split at hrow
  · obtain rfl := Option.some.inj hrow
    exact hfailed row _
  · cases hrow
  · obtain rfl := Option.some.inj hrow
    rfl
  · obtain rfl := Option.some.inj hrow
    exact hfailed (processed row h.choice.now) _
  · cases hrow

/-- What is found after a handling. -/
theorem find_handle (cfg : DispatchConfig) (h : Handling) (s : Worker Q) (row : OutboxEvent)
    (id : Uuid) : (s.handle cfg h row).shared.db.outbox.find id
      = if id = row.id then (savedBy h row).or (s.shared.db.outbox.find id)
        else s.shared.db.outbox.find id := by
  rw [(handle_spec cfg h s row).1]
  cases hrow : savedBy h row with
  | none =>
      rw [Option.none_or, ite_self]
      rfl
  | some row' => rw [storedAfter, Table.find_put, savedBy_id hrow, Option.some_or]

/-- **No row bears on another's outcome**: what a batch leaves of a row depends on what becomes of
its own calls only. -/
theorem handleAll_find_eq {faults faults' : Uuid → Handling} (hfaults : faults id = faults' id)
    {s s' : Worker Q} (rows : List OutboxEvent)
    (hfind : s.shared.db.outbox.find id = s'.shared.db.outbox.find id) :
    (s.handleAll cfg faults rows).shared.db.outbox.find id
      = (s'.handleAll cfg faults' rows).shared.db.outbox.find id := by
  induction rows generalizing s s' with
  | nil => exact hfind
  | cons row rows ih =>
      refine ih ?_
      rw [find_handle, find_handle, hfind]
      by_cases hid : id = row.id
      · rw [if_pos hid, if_pos hid, ← hid, hfaults]
      · rw [if_neg hid, if_neg hid]

theorem pass_find_eq (cfg : DispatchConfig) (s : Worker Q) (ch : Choice)
    {faults faults' : Uuid → Handling} (hfaults : faults id = faults' id) :
    (s.pass cfg ch faults).shared.db.outbox.find id
      = (s.pass cfg ch faults').shared.db.outbox.find id :=
  handleAll_find_eq hfaults _ rfl

/-- The rows that a pass claims are pending, as they are stored, and each is claimed once. -/
theorem claimed_spec (cfg : DispatchConfig) (ch : Choice) (sh : Shared Q) :
    ((claimed cfg ch sh).map OutboxEvent.id).Nodup ∧ ∀ row ∈ claimed cfg ch sh,
      sh.db.outbox.find row.id = some row ∧ row.status = .PENDING :=
  @claimed_rows Q _ cfg _ sh ch BATCH_SIZE rfl

end Passes

/-! ## The contract -/

/-- How often handling a row has failed. -/
def failures (handled : List Handled) (id : Uuid) : ℕ :=
  handled.countP fun x => decide (x.row.id = id) && x.thrown.isSome

/-- The dispatch of a row was never triggered. -/
def NeverTriggered (handled : List Handled) (id : Uuid) : Prop :=
  ∀ x ∈ handled, x.row.id = id → ∀ o, ¬ x.Triggered o

/-- The status of a row is what has happened to it. -/
structure TellsOutcome (handled : List Handled) (row : OutboxEvent) : Prop where
  processed : row.status = .PROCESSED →
    ∃ o, row.payload = some o ∧ ∃ x ∈ handled, x.row.id = row.id ∧ x.Triggered o
  failed : row.status = .FAILED →
    5 ≤ failures handled row.id ∧ NeverTriggered handled row.id

/-- That of every row that asks for a dispatch is. -/
def FaithfulOutcomes {Q : Type} (s : Worker Q) : Prop :=
  ∀ id row, s.shared.db.outbox.find id = some row → row.eventType = "dispatch.trigger" →
    TellsOutcome s.handled row

/-- If the dispatch of the row is triggered and the save of `PROCESSED` fails, the next save
succeeds, and it is not the last attempt. -/
def SoundHandling (h : Handling) (row : OutboxEvent) : Prop :=
  ∀ o, Dispatches h row o → (h.save 0).isSome → row.attempts + 1 < MAX_ATTEMPTS ∧ h.save 1 = none

/-- So it is with every row of a pass. -/
def SoundPass {Q : Type} [JobQueue Q JobId JobData] (cfg : DispatchConfig)
    (m : Move (Worker Q) (WorkerAction Q)) : Prop :=
  ∀ ch faults, m.act = .processOutbox ch faults → ∀ row ∈ claimed cfg ch m.src.shared,
    SoundHandling (faults row.id) row

/-! ## The rows -/

section Rows

variable {handled : List Handled} {row row' : OutboxEvent} {h : Handling} {x : Handled}

/-- What is known of a row that is stored. -/
structure RowTold (handled : List Handled) (row : OutboxEvent) : Prop where
  counted : row.attempts ≤ failures handled row.id
  spent : row.status = .FAILED → MAX_ATTEMPTS ≤ row.attempts
  triggered : row.eventType = "dispatch.trigger" → row.status = .PROCESSED →
    ∃ o, row.payload = some o ∧ ∃ x ∈ handled, x.row.id = row.id ∧ x.Triggered o

theorem failures_cons_of_thrown (hid : x.row.id = row.id) (hthrown : x.thrown.isSome) :
    failures (x :: handled) row.id = failures handled row.id + 1 := by
  rw [failures, failures, List.countP_cons_of_pos]
  simp [hid, hthrown]

theorem failures_le_cons : failures handled row.id ≤ failures (x :: handled) row.id := by
  rw [failures, failures, List.countP_cons]
  omega

/-- A handling of another row changes nothing of it. -/
theorem RowTold.of_ne (hrow : RowTold handled row) : RowTold (x :: handled) row where
  counted := hrow.counted.trans failures_le_cons
  spent := hrow.spent
  triggered htype hstatus := by
    obtain ⟨o, hpayload, y, hy, hid, htriggered⟩ := hrow.triggered htype hstatus
    exact ⟨o, hpayload, y, List.mem_cons_of_mem _ hy, hid, htriggered⟩

/-- What `failed` makes of a row. -/
theorem failed_spec (row : OutboxEvent) (err : Error) :
    (failed row err).id = row.id ∧ (failed row err).payload = row.payload ∧
    (failed row err).eventType = row.eventType ∧ (failed row err).attempts = row.attempts + 1 ∧
    (failed row err).status
      = if MAX_ATTEMPTS ≤ row.attempts + 1 then .FAILED else row.status := by
  unfold failed
  dsimp only
  by_cases hlast : MAX_ATTEMPTS ≤ row.attempts + 1
  · rw [if_pos hlast, if_pos hlast]
    exact ⟨rfl, rfl, rfl, rfl, rfl⟩
  · rw [if_neg hlast, if_neg hlast]
    exact ⟨rfl, rfl, rfl, rfl, rfl⟩

/-- The handling of a pending row, as it is noted. -/
structure Notes (h : Handling) (row : OutboxEvent) (x : Handled) : Prop where
  about : x.row = row
  thrown : x.thrown = (triggerError h row).or (h.save 0)
  triggered : ∀ o, x.Triggered o ↔ Dispatches h row o

/-- Where `triggerRow` throws nothing, the dispatch that a row asks for is triggered. -/
theorem dispatches_of_triggerError (h : Handling) (htype : row.eventType = "dispatch.trigger")
    (hnone : triggerError h row = none) : ∃ o, Dispatches h row o := by
  rw [triggerError, if_pos htype] at hnone
  cases hpayload : row.payload with
  | none =>
      rw [hpayload] at hnone
      cases hnone
  | some o =>
      rw [hpayload] at hnone
      exact ⟨o, htype, hpayload, hnone⟩

/-- A handling of the row leaves it told. -/
theorem RowTold.of_handled (hrow : RowTold handled row) (hpending : row.status = .PENDING)
    (hx : Notes h row x) : RowTold (x :: handled) ((savedBy h row).getD row) := by
  have hunchanged : RowTold (x :: handled) row := hrow.of_ne
  have hthrown := hx.thrown
  unfold savedBy
  cases herror : triggerError h row with
  | some err =>
      rw [herror, Option.some_or] at hthrown
      cases hfirst : h.save 0 with
      | some err' => exact hunchanged
      | none =>
          obtain ⟨hid, -, -, hattempts, hstatus⟩ := failed_spec row err
          rw [Option.getD_some]
          constructor
          · rw [hattempts, hid, failures_cons_of_thrown (by rw [hx.about]) (by rw [hthrown]; rfl)]
            exact Nat.succ_le_succ hrow.counted
          · rw [hstatus, hattempts]
            intro hfailed
            by_contra hlast
            rw [if_neg hlast, hpending] at hfailed
            cases hfailed
          · intro _ hprocessed
            exact absurd hprocessed (failed_status row err hpending)
  | none =>
      have htriggered : row.eventType = "dispatch.trigger" →
          ∃ o, row.payload = some o ∧ ∃ y ∈ x :: handled, y.row.id = row.id ∧ y.Triggered o := by
        intro htype
        obtain ⟨o, hdispatches⟩ := dispatches_of_triggerError h htype herror
        exact ⟨o, hdispatches.payload, x, List.mem_cons_self, by rw [hx.about],
          (hx.triggered o).mpr hdispatches⟩
      rw [herror, Option.none_or] at hthrown
      cases hfirst : h.save 0 with
      | none =>
          refine ⟨hunchanged.counted, fun hfailed => ?_, fun htype _ => htriggered htype⟩
          cases hfailed
      | some err =>
          cases hsecond : h.save 1 with
          | some err' => exact hunchanged
          | none =>
              obtain ⟨hid, hpayload, htype, hattempts, hstatus⟩ :=
                failed_spec (processed row h.choice.now) err
              rw [Option.getD_some]
              constructor
              · rw [hattempts, hid, failures_cons_of_thrown (by rw [hx.about]; rfl)
                  (by rw [hthrown, hfirst]; rfl)]
                exact Nat.succ_le_succ hrow.counted
              · rw [hstatus, hattempts]
                intro hfailed
                by_contra hlast
                rw [if_neg hlast] at hfailed
                cases hfailed
              · rw [htype, hpayload, hid]
                exact fun htype _ => htriggered htype

/-- A sound handling that triggers the dispatch leaves the row processed. -/
theorem savedBy_of_dispatches {o : OrderId} (hsound : SoundHandling h row)
    (hdispatches : Dispatches h row o) :
    ∃ row', savedBy h row = some row' ∧ row'.status = .PROCESSED := by
  have herror : triggerError h row = none := by
    rw [triggerError, if_pos hdispatches.eventType, hdispatches.payload]
    exact hdispatches.succeeds
  rw [savedBy, herror]
  cases hfirst : h.save 0 with
  | none => exact ⟨_, rfl, rfl⟩
  | some err =>
      obtain ⟨hattempts, hsecond⟩ := hsound o hdispatches (by rw [hfirst]; rfl)
      rw [hsecond]
      obtain ⟨-, -, -, -, hstatus⟩ := failed_spec (processed row h.choice.now) err
      refine ⟨_, rfl, hstatus.trans (if_neg ?_)⟩
      exact Nat.not_le.mpr hattempts

end Rows

/-! ## Every run -/

section Runs

variable {Q : Type} [JobQueue Q JobId JobData] {cfg : DispatchConfig} {s s' : Worker Q}
  {row : OutboxEvent} {rows : List OutboxEvent} {h : Handling} {faults : Uuid → Handling}
  {tr : List (Move (Worker Q) (WorkerAction Q))}

/-- What is known of all rows, and of those that were handled. -/
structure WorkerTold (s : Worker Q) : Prop where
  known : ∀ x ∈ s.handled, (s.shared.db.outbox.find x.row.id).isSome
  told : ∀ id row, s.shared.db.outbox.find id = some row → RowTold s.handled row

/-- The dispatch of a row that is not processed was never triggered. -/
def QuietUntilProcessed (s : Worker Q) : Prop :=
  ∀ id row, s.shared.db.outbox.find id = some row → row.status ≠ .PROCESSED →
    NeverTriggered s.handled id

/-- What each handling of a batch keeps, the batch keeps. -/
theorem handleAll_keeps {P : Worker Q → Prop}
    (hkeep : ∀ s row, row ∈ rows → s.shared.db.outbox.find row.id = some row →
      row.status = .PENDING → P s → P (s.handle cfg (faults row.id) row))
    (hnodup : (rows.map OutboxEvent.id).Nodup)
    (hrows : ∀ row ∈ rows, s.shared.db.outbox.find row.id = some row ∧ row.status = .PENDING)
    (hs : P s) : P (s.handleAll cfg faults rows) := by
  induction rows generalizing s with
  | nil => exact hs
  | cons row rows ih =>
      obtain ⟨hnew, hnodup⟩ := List.nodup_cons.mp hnodup
      obtain ⟨hfind, hpending⟩ := hrows row List.mem_cons_self
      refine ih (fun s row' hrow' => hkeep s row' (List.mem_cons_of_mem _ hrow')) hnodup ?_
        (hkeep s row List.mem_cons_self hfind hpending hs)
      -- the rest of the batch is as it was
      intro row' hrow'
      have hne : row'.id ≠ row.id := by
        intro heq
        exact hnew (List.mem_map.mpr ⟨row', hrow', heq⟩)
      rw [find_handle, if_neg hne]
      exact hrows row' (List.mem_cons_of_mem _ hrow')

theorem WorkerTold.handle (hs : WorkerTold s) (hfind : s.shared.db.outbox.find row.id = some row)
    (hpending : row.status = .PENDING) : WorkerTold (s.handle cfg h row) := by
  obtain ⟨-, x, hlog, habout, hthrown, htriggered⟩ := handle_spec cfg h s row
  constructor
  · intro y hy
    rw [find_handle]
    have hold : (s.shared.db.outbox.find y.row.id).isSome := by
      rw [hlog] at hy
      rcases List.mem_cons.mp hy with rfl | hy
      · rw [habout, hfind]
        rfl
      · exact hs.known y hy
    split
    · rw [Option.isSome_or, hold, Bool.or_true]
    · exact hold
  · intro id row' hrow'
    rw [hlog]
    rw [find_handle] at hrow'
    split at hrow'
    · next hid =>
        rw [hid, hfind] at hrow'
        have htold := (hs.told row.id row hfind).of_handled hpending ⟨habout, hthrown, htriggered⟩
        cases hsaved : savedBy h row with
        | none =>
            rw [hsaved] at htold hrow'
            obtain rfl := Option.some.inj hrow'
            exact htold
        | some saved =>
            rw [hsaved] at htold hrow'
            obtain rfl := Option.some.inj hrow'
            exact htold
    · exact (hs.told id row' hrow').of_ne

theorem QuietUntilProcessed.handle (hs : QuietUntilProcessed s)
    (hfind : s.shared.db.outbox.find row.id = some row) (hpending : row.status = .PENDING)
    (hsound : SoundHandling h row) : QuietUntilProcessed (s.handle cfg h row) := by
  obtain ⟨-, x, hlog, habout, -, htriggered⟩ := handle_spec cfg h s row
  intro id row' hrow' hstatus
  rw [find_handle] at hrow'
  rw [hlog]
  intro y hy hid o hy'
  rcases List.mem_cons.mp hy with rfl | hy
  · rw [habout] at hid
    rw [if_pos hid.symm] at hrow'
    obtain ⟨saved, hsaved, hprocessed⟩ := savedBy_of_dispatches hsound ((htriggered o).mp hy')
    rw [hsaved] at hrow'
    obtain rfl := Option.some.inj hrow'
    exact hstatus hprocessed
  · -- it was handled before, so what is stored was quiet
    obtain ⟨old, hold, hquiet⟩ : ∃ old, s.shared.db.outbox.find id = some old ∧
        old.status ≠ .PROCESSED := by
      split at hrow'
      · next heq =>
          refine ⟨row, by rw [heq]; exact hfind, ?_⟩
          rw [hpending]
          exact fun h => by cases h
      · exact ⟨row', hrow', hstatus⟩
    exact hs id old hold hquiet y hy hid o hy'

/-- What is known is known of every step. -/
theorem WorkerTold.step {a : WorkerAction Q} (hs : WorkerTold s)
    (hstep : (outboxWorker cfg).step s a = some s') : WorkerTold s' := by
  cases a with
  | createOrder row =>
      obtain ⟨⟨hnew, hpending, hattempts⟩, heq⟩ := Option.ite_none_right_eq_some.mp hstep
      obtain rfl := Option.some.inj heq
      constructor
      · intro x hx
        exact Table.isSome_find_put (hs.known x hx)
      · intro id row' hrow'
        have hrow' : (s.shared.db.outbox.put row).find id = some row' := hrow'
        rw [Table.find_put] at hrow'
        split at hrow'
        · obtain rfl := Option.some.inj hrow'
          refine ⟨by omega, fun hfailed => ?_, fun _ hprocessed => ?_⟩
          · rw [hpending] at hfailed
            cases hfailed
          · rw [hpending] at hprocessed
            cases hprocessed
        · exact hs.told id row' hrow'
  | processOutbox ch faults =>
      obtain rfl := Option.some.inj hstep
      obtain ⟨hnodup, hrows⟩ := claimed_spec cfg ch s.shared
      exact handleAll_keeps (fun s row _ hfind hpending hs => hs.handle hfind hpending) hnodup hrows
        hs
  | elsewhere sh =>
      obtain rfl := Option.some.inj hstep
      exact ⟨hs.known, hs.told⟩

theorem QuietUntilProcessed.step {a : WorkerAction Q} (hs : QuietUntilProcessed s)
    (htold : WorkerTold s) (hsound : SoundPass cfg ⟨s, a, s'⟩)
    (hstep : (outboxWorker cfg).step s a = some s') : QuietUntilProcessed s' := by
  cases a with
  | createOrder row =>
      obtain ⟨⟨hnew, -, -⟩, heq⟩ := Option.ite_none_right_eq_some.mp hstep
      obtain rfl := Option.some.inj heq
      intro id row' hrow' hstatus x hx hid
      have hrow' : (s.shared.db.outbox.put row).find id = some row' := hrow'
      rw [Table.find_put] at hrow'
      split at hrow'
      · next heq =>
          have hknown := htold.known x hx
          rw [hid, heq, Option.isSome_iff_ne_none] at hknown
          exact absurd (Option.isNone_iff_eq_none.mp hnew) hknown
      · exact hs id row' hrow' hstatus x hx hid
  | processOutbox ch faults =>
      obtain rfl := Option.some.inj hstep
      obtain ⟨hnodup, hrows⟩ := claimed_spec cfg ch s.shared
      refine handleAll_keeps (fun s row hrow hfind hpending hs => ?_) hnodup hrows hs
      exact hs.handle hfind hpending (hsound ch faults rfl row hrow)
  | elsewhere sh =>
      obtain rfl := Option.some.inj hstep
      exact hs

omit [JobQueue Q JobId JobData] in
theorem faithful_of_told (hs : WorkerTold s) (hquiet : QuietUntilProcessed s) :
    FaithfulOutcomes s := by
  intro id row hrow htype
  have hid := Table.key_of_find hrow
  have htold := hs.told id row hrow
  refine ⟨htold.triggered htype, fun hfailed => ⟨(htold.spent hfailed).trans htold.counted, ?_⟩⟩
  rw [hid]
  refine hquiet id row hrow ?_
  rw [hfailed]
  exact fun h => by cases h

/-! ### Where the condition is not met -/

theorem handleAll_find_of_notMem {id : Uuid} (hid : id ∉ rows.map OutboxEvent.id) :
    (s.handleAll cfg faults rows).shared.db.outbox.find id = s.shared.db.outbox.find id := by
  induction rows generalizing s with
  | nil => rfl
  | cons row rows ih =>
      rw [List.map_cons, List.mem_cons, not_or] at hid
      refine (ih hid.2).trans ?_
      rw [find_handle, if_neg hid.1]

theorem handled_subset (s : Worker Q) (rows : List OutboxEvent) :
    ∀ x ∈ s.handled, x ∈ (s.handleAll cfg faults rows).handled := by
  induction rows generalizing s with
  | nil => exact fun x hx => hx
  | cons row rows ih =>
      intro x hx
      obtain ⟨-, y, hlog, -⟩ := handle_spec cfg (faults row.id) s row
      refine ih _ x ?_
      rw [hlog]
      exact List.mem_cons_of_mem _ hx

/-- What a batch leaves of one of its rows, and notes of it. -/
theorem handleAll_spec (hnodup : (rows.map OutboxEvent.id).Nodup) (hrow : row ∈ rows)
    (hfind : s.shared.db.outbox.find row.id = some row) :
    (s.handleAll cfg faults rows).shared.db.outbox.find row.id
        = some ((savedBy (faults row.id) row).getD row) ∧
      ∃ x ∈ (s.handleAll cfg faults rows).handled, Notes (faults row.id) row x := by
  induction rows generalizing s with
  | nil => cases hrow
  | cons first rows ih =>
      obtain ⟨hnew, hnodup⟩ := List.nodup_cons.mp hnodup
      rcases List.mem_cons.mp hrow with rfl | hrow
      · obtain ⟨-, x, hlog, habout, hthrown, htriggered⟩ := handle_spec cfg (faults row.id) s row
        constructor
        · refine (handleAll_find_of_notMem hnew).trans ?_
          rw [find_handle, if_pos rfl, hfind]
          cases savedBy (faults row.id) row with
          | none => rfl
          | some saved => rfl
        · refine ⟨x, handled_subset _ rows x ?_, habout, hthrown, htriggered⟩
          rw [hlog]
          exact List.mem_cons_self
      · refine ih hnodup hrow ?_
        have hne : row.id ≠ first.id := by
          intro heq
          exact hnew (List.mem_map.mpr ⟨row, hrow, heq⟩)
        rw [find_handle, if_neg hne]
        exact hfind

/-- The locks that leave one row to claim. -/
def onlyRow (ch : Choice) (sh : Shared Q) (id : Uuid) : Choice :=
  { ch with skipLocked := (sh.db.outbox.toList.map OutboxEvent.id).filter fun other => other ≠ id }

theorem claimed_onlyRow (cfg : DispatchConfig) (ch : Choice) {sh : Shared Q}
    (hfind : sh.db.outbox.find row.id = some row) (hpending : row.status = .PENDING) :
    claimed cfg (onlyRow ch sh row.id) sh = [row] := by
  have hfilter : (sh.db.outbox.toList.filter fun other => decide (other.status = .PENDING) &&
      decide (other.id ∉ (onlyRow ch sh row.id).skipLocked)) = [row] := by
    refine List.perm_singleton.mp ?_
    refine (List.perm_ext_iff_of_nodup ?_ (List.nodup_singleton row)).mpr fun other => ?_
    · exact (List.Nodup.of_map OutboxEvent.id sh.db.outbox.nodup_toList).filter _
    · rw [List.mem_filter, List.mem_singleton]
      constructor
      · rintro ⟨hmem, hkept⟩
        have hid : other.id = row.id := by
          by_contra hne
          have hskipped : other.id ∈ (onlyRow ch sh row.id).skipLocked :=
            List.mem_filter.mpr ⟨List.mem_map_of_mem hmem, decide_eq_true hne⟩
          simp [hskipped] at hkept
        have hother := Table.mem_toList.mp hmem
        rw [hid, hfind] at hother
        exact (Option.some.inj hother).symm
      · rintro rfl
        refine ⟨Table.mem_toList_of_find hfind, ?_⟩
        have hkept : other.id ∉ (onlyRow ch sh other.id).skipLocked := by
          intro hskipped
          exact of_decide_eq_true (List.mem_filter.mp hskipped).2 rfl
        simp [hkept, hpending]
  simp only [claimed, perform]
  rw [hfilter]
  rfl

/-- A handling of which only the saves succeed. -/
def failing (ch : Choice) : Handling := ⟨ch, some .Unavailable, fun _ => none⟩

/-- A pass in which only the saves succeed, and all rows but one are locked. -/
def failingPass (ch : Choice) (sh : Shared Q) (id : Uuid) : WorkerAction Q :=
  .processOutbox (onlyRow ch sh id) fun _ => failing ch

/-- Such a pass counts one more attempt. -/
theorem failingPass_spec (cfg : DispatchConfig) (ch : Choice) {o : OrderId}
    (htype : row.eventType = "dispatch.trigger") (hpayload : row.payload = some o)
    (hfind : s.shared.db.outbox.find row.id = some row) (hpending : row.status = .PENDING) :
    ∃ s', (outboxWorker cfg).step s (failingPass ch s.shared row.id) = some s' ∧
      s'.shared.db.outbox.find row.id = some (failed row .Unavailable) ∧
      ∀ x ∈ s.handled, x ∈ s'.handled := by
  refine ⟨_, rfl, ?_, handled_subset s _⟩
  have hclaimed := claimed_onlyRow cfg ch hfind hpending
  obtain ⟨hnodup, -⟩ := claimed_spec cfg (onlyRow ch s.shared row.id) s.shared
  have hrow : row ∈ claimed cfg (onlyRow ch s.shared row.id) s.shared := by
    rw [hclaimed]
    exact List.mem_singleton.mpr rfl
  refine (handleAll_spec hnodup hrow hfind).1.trans ?_
  have herror : triggerError (failing ch) row = some .Unavailable := by
    rw [triggerError, if_pos htype, hpayload]
    rfl
  rw [savedBy, herror]
  rfl

omit [JobQueue Q JobId JobData] in
theorem not_faithful_of_failed {id : Uuid} (hfind : s.shared.db.outbox.find id = some row)
    (htype : row.eventType = "dispatch.trigger") (hfailed : row.status = .FAILED)
    (htriggered : ¬ NeverTriggered s.handled row.id) : ¬ FaithfulOutcomes s := by
  intro hfaithful
  exact htriggered ((hfaithful id row hfind htype).failed hfailed).2

/-- A row with a dispatch that was triggered ends `FAILED` if nothing but the saves succeeds from
then on. -/
theorem exists_unfaithful (run : Run (outboxWorker cfg) tr s) (ch : Choice) {o : OrderId}
    (htype : row.eventType = "dispatch.trigger") (hpayload : row.payload = some o)
    (hfind : s.shared.db.outbox.find row.id = some row) (hpending : row.status = .PENDING)
    (htriggered : ¬ NeverTriggered s.handled row.id) (left : ℕ)
    (hleft : MAX_ATTEMPTS ≤ row.attempts + 1 + left) :
    ∃ tr' s', Run (outboxWorker cfg) (tr' ++ tr) s' ∧ ¬ FaithfulOutcomes s' := by
  -- induction on the attempts that are left after the next
  induction left generalizing tr s row with
  | zero =>
      obtain ⟨s', hstep, hfind', hsubset⟩ := failingPass_spec cfg ch htype hpayload hfind hpending
      obtain ⟨hid, -, htype', -, hstatus⟩ := failed_spec row .Unavailable
      refine ⟨[_], s', run.snoc hstep, not_faithful_of_failed hfind' (htype'.trans htype) ?_ ?_⟩
      · rw [hstatus, if_pos hleft]
      · rw [hid]
        exact fun hnever => htriggered fun x hx => hnever x (hsubset x hx)
  | succ left ih =>
      obtain ⟨s', hstep, hfind', hsubset⟩ := failingPass_spec cfg ch htype hpayload hfind hpending
      obtain ⟨hid, hpayload', htype', hattempts, hstatus⟩ := failed_spec row .Unavailable
      have htriggered' : ¬ NeverTriggered s'.handled (failed row .Unavailable).id := by
        rw [hid]
        exact fun hnever => htriggered fun x hx => hnever x (hsubset x hx)
      by_cases hlast : MAX_ATTEMPTS ≤ row.attempts + 1
      · refine ⟨[_], s', run.snoc hstep, not_faithful_of_failed hfind' (htype'.trans htype) ?_
          htriggered'⟩
        rw [hstatus, if_pos hlast]
      · obtain ⟨tr', s'', run', hunfaithful⟩ := ih (run.snoc hstep) (htype'.trans htype)
          (hpayload'.trans hpayload) (by rw [hid]; exact hfind')
          (by rw [hstatus, if_neg hlast]; exact hpending) htriggered' (by rw [hattempts]; omega)
        rw [List.append_cons] at run'
        exact ⟨_, s'', run', hunfaithful⟩

/-- A pass that is not sound can lead to an outcome that is wrong. -/
theorem exists_unfaithful_of_pass (run : Run (outboxWorker cfg) tr s) {ch : Choice}
    (hunsound : ¬ SoundPass cfg ⟨s, .processOutbox ch faults, s.pass cfg ch faults⟩) :
    ∃ tr' s', Run (outboxWorker cfg)
      (tr' ++ ⟨s, .processOutbox ch faults, s.pass cfg ch faults⟩ :: tr) s' ∧
        ¬ FaithfulOutcomes s' := by
  obtain ⟨row, hrow, hsound⟩ : ∃ row ∈ claimed cfg ch s.shared,
      ¬ SoundHandling (faults row.id) row := by
    by_contra hall
    refine hunsound fun ch' faults' hact row hrow => ?_
    obtain ⟨rfl, rfl⟩ := WorkerAction.processOutbox.inj hact
    by_contra hsound
    exact hall ⟨row, hrow, hsound⟩
  simp only [SoundHandling, not_forall] at hsound
  obtain ⟨o, hdispatches, hfirst, hbad⟩ := hsound
  obtain ⟨hnodup, hrows⟩ := claimed_spec cfg ch s.shared
  obtain ⟨hfind, hpending⟩ := hrows row hrow
  obtain ⟨hfind', x, hx, hnotes⟩ := @handleAll_spec Q _ cfg s row _ faults hnodup hrow hfind
  have htriggered : ¬ NeverTriggered (s.pass cfg ch faults).handled row.id := by
    intro hnever
    exact hnever x hx (by rw [hnotes.about]) o ((hnotes.triggered o).mpr hdispatches)
  have herror : triggerError (faults row.id) row = none := by
    rw [triggerError, if_pos hdispatches.eventType, hdispatches.payload]
    exact hdispatches.succeeds
  have run' : Run (outboxWorker cfg)
      (⟨s, .processOutbox ch faults, s.pass cfg ch faults⟩ :: tr) (s.pass cfg ch faults) :=
    run.snoc rfl
  obtain ⟨err, herr⟩ := Option.isSome_iff_exists.mp hfirst
  cases hsecond : (faults row.id).save 1 with
  | none =>
      -- the second save writes down the last attempt
      obtain ⟨hid, -, htype', -, hstatus⟩ :=
        failed_spec (processed row (faults row.id).choice.now) err
      rw [savedBy, herror, herr, hsecond, Option.getD_some] at hfind'
      refine ⟨[], _, run', not_faithful_of_failed hfind' (htype'.trans hdispatches.eventType) ?_ ?_⟩
      · rw [hstatus]
        refine if_pos (Nat.not_lt.mp fun hattempts => ?_)
        exact hbad ⟨hattempts, hsecond⟩
      · rw [hid]
        exact htriggered
  | some err' =>
      -- nothing is written down
      rw [savedBy, herror, herr, hsecond, Option.getD_none] at hfind'
      exact exists_unfaithful run' ch hdispatches.eventType hdispatches.payload hfind' hpending
        htriggered MAX_ATTEMPTS (by omega)

/-- **The outcomes of the outbox are faithful** in every state of a run, if each pass is sound:
where the dispatch of a row is triggered and the save of `PROCESSED` fails, the next save succeeds
and it is not the last attempt. A pass that is not sound can lead to an outcome that is not faithful. And
in each pass what is left of a row depends on what becomes of its own calls only. -/
theorem outcomes_faithful (run : Run (outboxWorker cfg) tr s) :
    ((∀ m ∈ tr, SoundPass cfg m) →
      FaithfulOutcomes s ∧ ∀ m ∈ tr, FaithfulOutcomes m.src ∧ FaithfulOutcomes m.dst) ∧
    (∀ ch faults, ¬ SoundPass cfg ⟨s, .processOutbox ch faults, s.pass cfg ch faults⟩ →
      ∃ tr' s', Run (outboxWorker cfg)
        (tr' ++ ⟨s, .processOutbox ch faults, s.pass cfg ch faults⟩ :: tr) s' ∧
          ¬ FaithfulOutcomes s') ∧
    ∀ ch faults faults' id, faults id = faults' id →
      (s.pass cfg ch faults).shared.db.outbox.find id
        = (s.pass cfg ch faults').shared.db.outbox.find id := by
  refine ⟨fun hsound => ?_, fun ch faults hunsound => exists_unfaithful_of_pass run hunsound,
    fun ch faults faults' id hfaults => pass_find_eq cfg s ch hfaults⟩
  have hinv := run.invariant_of (P := fun s => WorkerTold s ∧ QuietUntilProcessed s) ?_ ?_ hsound
  · obtain ⟨⟨hs, hquiet⟩, hmoves⟩ := hinv
    refine ⟨faithful_of_told hs hquiet, fun m hm => ?_⟩
    obtain ⟨⟨hsrc, hsrcQuiet⟩, hdst, hdstQuiet⟩ := hmoves m hm
    exact ⟨faithful_of_told hsrc hsrcQuiet, faithful_of_told hdst hdstQuiet⟩
  · rintro s ⟨hempty, hnone⟩
    refine ⟨⟨fun x hx => ?_, fun id row hrow => ?_⟩, fun id row hrow => ?_⟩
    · rw [hnone] at hx
      cases hx
    · rw [hempty, Table.find_empty] at hrow
      cases hrow
    · rw [hempty, Table.find_empty] at hrow
      cases hrow
  · rintro s a s' - ⟨hs, hquiet⟩ hsound hstep
    exact ⟨hs.step hstep, hquiet.step hs hsound hstep⟩

end Runs

/-! ### One row -/

/-- The row of a new order. -/
def newRow : OutboxEvent where
  id := sampleChoice.outboxId
  eventType := "dispatch.trigger"
  payload := some sampleOrder
  status := .PENDING
  attempts := 0
  lastError := none
  createdAt := 0
  processedAt := none

/-- A worker with an empty outbox. -/
def idleWorker : Worker BullQueue := ⟨(start []).shared, []⟩

/-- The dispatch is triggered, and the save of `PROCESSED` fails. -/
def lateHandling : Handling :=
  ⟨sampleChoice, none, fun n => if n = 0 then some .Unavailable else none⟩

/-- Four passes fail to trigger the dispatch; the fifth triggers it, and cannot save that. -/
def lateTrip : List (WorkerAction BullQueue) :=
  .createOrder newRow ::
    List.replicate 4 (.processOutbox sampleChoice fun _ => failing sampleChoice) ++
    [.processOutbox sampleChoice fun _ => lateHandling]

/-- The moves of the trip. -/
def lateMoves : List (Move (Worker BullQueue) (WorkerAction BullQueue)) :=
  (outboxWorker (sampleConfig 3)).moves [] idleWorker lateTrip

/-- The trip is a run. -/
theorem lateTrip_run {s : Worker BullQueue}
    (h : (outboxWorker (sampleConfig 3)).exec idleWorker lateTrip = some s) :
    Run (outboxWorker (sampleConfig 3)) lateMoves s :=
  (Run.init (M := outboxWorker (sampleConfig 3)) ⟨rfl, rfl⟩).exec h

/-- The row is `FAILED`, and its dispatch was triggered. -/
def failedAlthoughTriggered (s : Worker BullQueue) : Bool :=
  ((s.shared.db.outbox.find newRow.id).any fun row =>
    decide (row.eventType = "dispatch.trigger" ∧ row.status = .FAILED)) &&
  s.handled.any fun x => decide (x.row.id = newRow.id) && x.calls.any fun
    | .triggerDispatch _ none => true
    | _ => false

theorem not_faithful_of_failedAlthoughTriggered {s : Worker BullQueue}
    (h : failedAlthoughTriggered s = true) : ¬ FaithfulOutcomes s := by
  obtain ⟨hrow, hhandled⟩ := Bool.and_eq_true_iff.mp h
  rw [Option.any_eq_true] at hrow
  obtain ⟨row, hfind, hstatus⟩ := hrow
  obtain ⟨htype, hfailed⟩ := of_decide_eq_true hstatus
  obtain ⟨x, hx, hcalls⟩ := List.any_eq_true.mp hhandled
  obtain ⟨hid, hcalls⟩ := Bool.and_eq_true_iff.mp hcalls
  obtain ⟨call, hcall, htriggered⟩ := List.any_eq_true.mp hcalls
  refine not_faithful_of_failed hfind htype hfailed fun hnever => ?_
  have hrowId : row.id = newRow.id := Table.key_of_find hfind
  split at htriggered
  · next o => exact hnever x hx ((of_decide_eq_true hid).trans hrowId.symm) o hcall
  · cases htriggered

theorem late_exec : ((outboxWorker (sampleConfig 3)).exec idleWorker lateTrip).any
    failedAlthoughTriggered = true := by
  decide +kernel

/-- **A dispatch that was triggered is written down as failed.** -/
theorem triggered_ends_failed : ∃ tr s, Run (outboxWorker (Q := BullQueue) (sampleConfig 3)) tr s ∧
    ¬ FaithfulOutcomes s := by
  have hexec := late_exec
  rw [Option.any_eq_true] at hexec
  obtain ⟨s, hexec, hfailed⟩ := hexec
  exact ⟨lateMoves, s, lateTrip_run hexec, not_faithful_of_failedAlthoughTriggered hfailed⟩

/-- The first pass triggers the dispatch, and the second of its saves succeeds. -/
def shakyTrip : List (WorkerAction BullQueue) :=
  [.createOrder newRow, .processOutbox sampleChoice fun _ => lateHandling]

/-- A pass is sound, as a computation. -/
def soundPass (m : Move (Worker BullQueue) (WorkerAction BullQueue)) : Bool :=
  match m.act with
  | .processOutbox ch faults => (claimed (sampleConfig 3) ch m.src.shared).all fun row =>
      ((faults row.id).save 0).isNone ||
        (decide (row.attempts + 1 < MAX_ATTEMPTS) && ((faults row.id).save 1).isNone)
  | _ => true

theorem soundPass_sound {m : Move (Worker BullQueue) (WorkerAction BullQueue)}
    (h : soundPass m = true) : SoundPass (sampleConfig 3) m := by
  intro ch faults hact row hrow o _ hfirst
  rw [soundPass, hact] at h
  have hsound := List.all_eq_true.mp h row hrow
  rw [Option.isNone_eq_false_iff.mpr hfirst, Bool.false_or] at hsound
  obtain ⟨hattempts, hsecond⟩ := Bool.and_eq_true_iff.mp hsound
  exact ⟨of_decide_eq_true hattempts, Option.isNone_iff_eq_none.mp hsecond⟩

theorem outcomes_faithful_shaky : ∃ s,
    (outboxWorker (sampleConfig 3)).exec idleWorker shakyTrip = some s ∧ FaithfulOutcomes s := by
  obtain ⟨s, hexec⟩ := Option.isSome_iff_exists.mp
    (by decide +kernel : ((outboxWorker (sampleConfig 3)).exec idleWorker shakyTrip).isSome = true)
  have hsound : ((outboxWorker (sampleConfig 3)).moves [] idleWorker shakyTrip).all soundPass
      = true := by decide +kernel
  have run := (Run.init (M := outboxWorker (sampleConfig 3)) ⟨rfl, rfl⟩).exec hexec
  refine ⟨s, hexec, ((outcomes_faithful run).1 fun m hm => ?_).1⟩
  exact soundPass_sound (List.all_eq_true.mp hsound m hm)

end LogisticsDispatch
