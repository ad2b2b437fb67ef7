/-
What the version column is for: the two optimistic writers, `updateStatus` and
`reassignOrder`.

Both read the order, check what they read, and write it later with
`WHERE id = :orderId AND version = :version`. The version of an order is the number of its
history rows, and history only grows, so the versions agree exactly if nothing was committed
on the order in between. `write_outcome` says what that comes to: a write goes through if and
only if no status change was committed since its read and the order was not deleted. So no
change is ever overwritten unseen, and no caller is told of a conflict that was none.
-/
import LogisticsDispatch.AuditTrail
import LogisticsDispatch.Publications

set_option autoImplicit false

namespace LogisticsDispatch

open OrderStatus Resumable Resumable.Program

/-! ## The two transactions -/

/-- The transaction writes the order, from a copy that was read before. -/
def Transaction.Rewrites (o : OrderId) (order : Order) (t : Transaction) : Prop :=
  (∃ newStatus user, t = .updateStatus o order newStatus user) ∨
    ∃ user, t = .reassignOrder o order user

/-- What a caller is told whose copy is no longer the order. -/
def modifiedMeanwhile : Error :=
  .ConflictException "Order was modified by another request, please retry"

section Transactions

variable {cfg : DispatchConfig} {ch : Choice} {db : Db} {o : OrderId} {order row : Order}
  {t : Transaction}

/-- What the two transactions have in common: the row of the version of the copy is written,
with its history row, and read back. -/
def OrdersService.optimisticTx (version : ℕ) (write : Order → Order) (prev : Option OrderStatus)
    (actor : String) (now : ℕ) (o : OrderId) (db : Db) : Except Error (Order × Db) :=
  match (db.orders.find o).filter fun row => row.version = version with
  | none => .error modifiedMeanwhile
  | some row => OrdersService.readBack (db.saveWithHistory (write row) prev actor now) o

open OrdersService in
/-- It is decided by the version of the row, and by whether the row is deleted. -/
theorem optimisticTx_outcome (version : ℕ) (write : Order → Order) (prev : Option OrderStatus)
    (actor : String) (now : ℕ) (hid : (write row).id = row.id)
    (hdel : (write row).deletedAt = row.deletedAt) (hrow : db.orders.find o = some row) :
    (row.version ≠ version →
      optimisticTx version write prev actor now o db = .error modifiedMeanwhile) ∧
    (row.version = version → row.deletedAt ≠ none →
      optimisticTx version write prev actor now o db =
        .error (.NotFoundException "Order not found")) ∧
    (row.version = version → row.deletedAt = none → ∃ res db' r,
      optimisticTx version write prev actor now o db = .ok (res, db') ∧
        db'.historyOf o = db.historyOf o ++ [r]) := by
  have ho : (write row).id = o := hid.trans (Table.key_of_find hrow)
  have hfind : (db.saveWithHistory (write row) prev actor now).orders.find o
      = some { write row with updatedAt := now } := Db.saveWithHistory_find ho
  have hhistory : (db.saveWithHistory (write row) prev actor now).historyOf o
      = db.historyOf o ++ [⟨o, prev, (write row).orderStatus, actor⟩] :=
    Db.saveWithHistory_historyOf ho
  refine ⟨fun hne => ?_, fun heq hlost => ?_, fun heq hlive => ?_⟩
  · simp [optimisticTx, hrow, Option.filter, hne]
  · -- the update matches the deleted row, and reading back does not find it
    simp [optimisticTx, hrow, Option.filter, heq, readBack, Db.findOrder, hfind, hdel, hlost]
  · refine ⟨{ write row with updatedAt := now }, _, _, ?_, hhistory⟩
    simp [optimisticTx, hrow, Option.filter, heq, readBack, Db.findOrder, hfind, hdel, hlive]

/-- What the two transactions come to. -/
theorem rewrites_run (ht : t.Rewrites o order) (hrow : db.orders.find o = some row) :
    (row.version ≠ order.version → t.run cfg ch db = .error modifiedMeanwhile) ∧
    (row.version = order.version → row.deletedAt ≠ none →
      t.run cfg ch db = .error (.NotFoundException "Order not found")) ∧
    (row.version = order.version → row.deletedAt = none → ∃ res db' r,
      t.run cfg ch db = .ok (res, db') ∧ db'.historyOf o = db.historyOf o ++ [r]) := by
  rcases ht with ⟨newStatus, user, rfl⟩ | ⟨user, rfl⟩
  · exact optimisticTx_outcome order.version
      (fun row => { row with orderStatus := newStatus, version := order.version + 1 })
      (some order.orderStatus) user.userId.text ch.now rfl rfl hrow
  · exact optimisticTx_outcome order.version
      (fun row => { row with
        orderStatus := PENDING
        assignedDriverId := none
        dispatchAttempts := 0
        attemptedDriverIds := []
        version := order.version + 1 })
      (some EXPIRED) user.userId.text ch.now rfl rfl hrow

end Transactions

/-! ## From the read to the write -/

section Programs

variable {cfg : DispatchConfig} {o : OrderId} {α : Type}

/-- After reading an order, the copy a transaction brings is what was read. -/
def BringsCopy (α : Type) : (e : Effect) → (Except Error e.Resp → Prog α) → Prop
  | .findOrder o, k => ∀ r t k', k r = .op (.transaction t) k' → t.copy ≠ none →
      ∃ order, r = .ok (some order) ∧ t.Rewrites o order
  | .transaction t, k => t.copy ≠ none → ∀ err, k (.error err) = .fail err
  | _, _ => True

/-- Effects that neither read orders nor run transactions. -/
def NeitherReadsNorWrites : Effect → Prop
  | .findOrder _ => False
  | .transaction _ => False
  | _ => True

theorem bringsCopy_of_neither {p : Prog α} (h : p.All NeitherReadsNorWrites) :
    p.AllNodes (BringsCopy α) := by
  refine h.allNodes fun e k he => ?_
  cases e with
  | findOrder o => exact he.elim
  | transaction t => exact he.elim
  | _ => trivial

/-- Handing on what a program returns adds nothing to it. -/
theorem bringsCopy_map {β : Type} {p : Prog α} (h : p.AllNodes (BringsCopy α)) (f : α → β) :
    (p >>= fun a => (pure (f a) : Prog β)).AllNodes (BringsCopy β) := by
  refine h.bind_of (fun e k he => ?_) fun _ => trivial
  cases e with
  | findOrder o =>
      intro r t k' hk hcopy
      change (k r >>= fun a => (pure (f a) : Prog β)) = _ at hk
      cases hr : k r with
      | op e' k'' =>
          rw [hr] at hk
          cases hk
          exact he r t k'' hr hcopy
      | ret a =>
          rw [hr] at hk
          cases hk
      | fail err =>
          rw [hr] at hk
          cases hk
  | transaction t =>
      intro hcopy err
      show (k (.error err) >>= fun a => (pure (f a) : Prog β)) = _
      rw [he hcopy err]
      rfl
  | _ => trivial

/-- A check in front of a program. -/
theorem bringsCopy_ofExcept {β : Type} {x : Except Error β} {g : β → Prog α}
    (h : ∀ b, x = .ok b → (g b).AllNodes (BringsCopy α)) :
    (Program.ofExcept x >>= g).AllNodes (BringsCopy α) := by
  cases x with
  | error err => trivial
  | ok b => exact h b rfl

/-- What a check lets through begins with what comes after it. -/
theorem begins_ofExcept {β : Type} {x : Except Error β} {g : β → Prog α} {e : Effect}
    {k : Except Error e.Resp → Prog α} (h : (Program.ofExcept x >>= g) = .op e k) :
    ∃ b, g b = .op e k := by
  cases x with
  | error err => cases h
  | ok b => exact ⟨b, h⟩

theorem updateStatus_bringsCopy (newStatus : OrderStatus) (user : JwtUser) :
    (OrdersService.updateStatus o newStatus user).AllNodes (BringsCopy OrderResponse) := by
  refine allNodes_perform_bind (fun r t k' hk hcopy => ?_) fun found => ?_
  · -- between the read and the transaction there are only the two checks
    rcases r with err | _ | order
    · cases hk
    · cases hk
    · obtain ⟨-, hk⟩ := begins_ofExcept hk
      obtain ⟨-, hk⟩ := begins_ofExcept hk
      cases hk
      exact ⟨order, rfl, .inl ⟨newStatus, user, rfl⟩⟩
  · cases found with
    | none => trivial
    | some order =>
        refine bringsCopy_ofExcept fun _ _ => bringsCopy_ofExcept fun _ _ => ?_
        refine allNodes_perform_bind (fun _ err => rfl) fun updated => bringsCopy_of_neither ?_
        have hcancel : (TrackingService.cancelEtaJob o).All NeitherReadsNorWrites :=
          cancelEtaJob_all trivial (fun _ => trivial) (fun _ => trivial) trivial
        split
        · exact .bind (.tryCatch hcancel fun _ => trivial) fun _ => trivial
        · trivial

theorem reassignOrder_bringsCopy (user : JwtUser) :
    (OrdersService.reassignOrder o user).AllNodes (BringsCopy OrderResponse) := by
  have hrest : ∀ updated : Order, (do
      DispatchService.triggerDispatch o
      return toOrderResponse updated : Prog OrderResponse).All NeitherReadsNorWrites :=
    fun updated => .bind (triggerDispatch_all fun _ _ _ => trivial) fun _ => trivial
  refine allNodes_perform_bind (fun r t k' hk hcopy => ?_) fun found => ?_
  · rcases r with err | _ | order
    · cases hk
    · cases hk
    · change (if order.orderStatus ∉ [PENDING, EXPIRED] then _ else _) = _ at hk
      split at hk
      · cases hk
      -- an order that waits is not written
      · split at hk
        · cases hk
          exact ⟨order, rfl, .inr ⟨user, rfl⟩⟩
        · cases hk
  · cases found with
    | none => trivial
    | some order =>
        show Program.AllNodes _ (if order.orderStatus ∉ [PENDING, EXPIRED] then _ else _)
        split
        · trivial
        · split
          · exact allNodes_perform_bind (fun _ err => rfl) fun updated =>
              bringsCopy_of_neither (hrest updated)
          · exact bringsCopy_of_neither (hrest _)

/-- **Every call whose transaction brings a copy brings what it has read.** -/
theorem bringsCopy_of_program {call : Call} {t : Transaction} (hbelongs : t.BelongsTo call)
    (hcopy : t.copy ≠ none) : (call.program cfg).AllNodes (BringsCopy Response) := by
  cases t with
  | updateStatus o order newStatus user =>
      rcases hbelongs with rfl | ⟨rfl, rfl⟩
      · exact bringsCopy_map (updateStatus_bringsCopy newStatus user) Response.order
      · exact bringsCopy_map (updateStatus_bringsCopy CANCELLED user) Response.order
  | reassignOrder o order user =>
      obtain rfl : call = _ := hbelongs
      exact bringsCopy_map (reassignOrder_bringsCopy user) Response.order
  | _ => exact absurd rfl hcopy

end Programs

/-! ## What a write finds -/

variable {Q : Type} [JobQueue Q JobId JobData] {cfg : DispatchConfig} {s s' : Sys Q}
  {o : OrderId} {i : ℕ} {ch : Choice}

/-- History only grows. -/
theorem history_prefix {tr : List (Transition.Move (Sys Q) Action)}
    (hs : Transition.Reachable (logistics Q cfg) s)
    (path : Transition.Path (logistics Q cfg) s tr s') (o : OrderId) :
    s.history o <+: s'.history o := by
  refine path.invariant_trace (P := fun _ s' => s.history o <+: s'.history o) hs
    (List.prefix_refl _) ?_
  intro tr s₁ a s₂ _ hs₁ ih hstep
  refine ih.trans ?_
  cases order_step hs₁ hstep o with
  | same _ hhistory => exact hhistory ▸ List.prefix_refl _
  | deleted _ _ _ _ hhistory => exact hhistory ▸ List.prefix_refl _
  | created _ _ _ _ _ _ hhistory => exact hhistory ▸ List.prefix_append _ _
  | moved _ _ _ _ _ _ _ _ _ _ _ _ hhistory => exact hhistory ▸ List.prefix_append _ _

/-- The versions of an order at two points of a run agree exactly if nothing was committed on
it in between. -/
theorem version_eq_iff {tr : List (Transition.Move (Sys Q) Action)} {order row : Order}
    (hs : Transition.Reachable (logistics Q cfg) s)
    (path : Transition.Path (logistics Q cfg) s tr s') (horder : s.order o = some order)
    (hrow : s'.order o = some row) :
    row.version = order.version ↔ s'.history o = s.history o := by
  rw [version_eq_length hs horder, version_eq_length (path.reachable hs) hrow]
  have hgrows := history_prefix hs path o
  constructor
  · intro hlength
    exact (hgrows.eq_of_length hlength.symm).symm
  · intro heq
    rw [heq]

/-- Call `i` has read the order in the move `m`, made no step in the moves `later`, and is about
to write the order in `s`. -/
structure AboutToWrite (i : ℕ) (o : OrderId) (m : Transition.Move (Sys Q) Action)
    (later : List (Transition.Move (Sys Q) Action)) (s : Sys Q) : Prop where
  read : ∃ ch, m.act = .exec i ch
  readsOrder : m.src.next i = some (.findOrder o)
  waits : ∀ m' ∈ later, m'.act ≠ .fail i ∧ ∀ ch, m'.act ≠ .exec i ch
  writes : ∃ t, s.next i = some (.transaction t) ∧ t.copy ≠ none

/-- How a write ends, by what became of the order since `read`. -/
inductive WriteOutcome (i : ℕ) (o : OrderId) (read s s' : Sys Q) : Prop
  | committed {row : Order} (hrow : s.order o = some row) (hlive : row.deletedAt = none)
      (hsame : s.history o = read.history o) (hcommits : s'.history o ≠ s.history o)
  | conflict (hchanged : s.history o ≠ read.history o) (hshared : s'.shared = s.shared)
      (hthrows : ∃ call, s'.threads.lookup i = some ⟨call, .fail modifiedMeanwhile⟩)
  | deleted {row : Order} (hrow : s.order o = some row) (hdeleted : row.deletedAt ≠ none)
      (hsame : s.history o = read.history o) (hshared : s'.shared = s.shared)
      (hthrows : ∃ call, s'.threads.lookup i =
        some ⟨call, .fail (.NotFoundException "Order not found")⟩)

/-- A call that makes no step goes on from where it was. -/
theorem lookup_waits {tr : List (Transition.Move (Sys Q) Action)}
    {th : Thread Call Effect Effect.Resp Error Response}
    (path : Transition.Path (logistics Q cfg) s tr s') (hi : s.threads.lookup i = some th)
    (hwaits : ∀ m ∈ tr, m.act ≠ .fail i ∧ ∀ ch, m.act ≠ .exec i ch) :
    s'.threads.lookup i = some th := by
  induction path with
  | refl => exact hi
  | @snoc tr s₁ s₂ a path hstep ih =>
      have hi₁ := ih fun m hm => hwaits m (List.mem_cons_of_mem _ hm)
      obtain ⟨hfail, hexec⟩ := hwaits ⟨s₁, a, s₂⟩ List.mem_cons_self
      cases call_step hstep with
      | same hth => rw [hth, hi₁]
      | @made j call hfree hth =>
          have hne : i ≠ j := by
            rintro rfl
            rw [hi₁] at hfree
            cases hfree
          rw [hth, AList.lookup_insert_ne hne, hi₁]
      | @went j ch _ _ _ ha _ _ hth =>
          have hne : i ≠ j := by
            rintro rfl
            exact hexec ch ha
          rw [hth, AList.lookup_insert_ne hne, hi₁]
      | @failed j _ _ _ ha _ _ hth =>
          have hne : i ≠ j := by
            rintro rfl
            exact hfail ha
          rw [hth, AList.lookup_insert_ne hne, hi₁]

/-- The program of a call that brings a copy, at any point of it. -/
theorem bringsCopy_of_lookup {call : Call} {t : Transaction} {p : Prog Response}
    (hs : Transition.Reachable (logistics Q cfg) s) (hi : s.threads.lookup i = some ⟨call, p⟩)
    (hbelongs : t.BelongsTo call) (hcopy : t.copy ≠ none) :
    p.AllNodes (BringsCopy Response) := by
  have hall : Pool.ForallThreads (fun call p => (∃ t : Transaction, t.BelongsTo call ∧
      t.copy ≠ none) → p.AllNodes (BringsCopy Response)) s := by
    refine forallThreads_of_reachable (fun call e k ih r ht => (ih ht).2 r) ?_ hs
    rintro call ⟨t, hbelongs, hcopy⟩
    exact bringsCopy_of_program hbelongs hcopy
  exact hall i _ hi ⟨t, hbelongs, hcopy⟩

/-- A transaction that throws: what it was asked for fails, and nothing is written. -/
theorem throws_of_run {call : Call} {t : Transaction} {err : Error}
    {k : Except Error t.Result → Prog Response}
    (hi : s.threads.lookup i = some ⟨call, .op (.transaction t) k⟩)
    (hk : k (.error err) = .fail err) (hrun : t.run cfg ch s.shared.db = .error err)
    (hstep : step cfg s (.exec i ch) = some s') :
    s'.shared = s.shared ∧ ∃ call, s'.threads.lookup i = some ⟨call, .fail err⟩ := by
  obtain ⟨hsh, hth⟩ := exec_eq_some hi hstep
  simp only [perform, hrun] at hsh hth
  refine ⟨hsh, call, ?_⟩
  rw [hth, AList.lookup_insert, hk]

/-- **Optimistic locking is exact.** However the steps of other calls fall between the read and
the write of a call, the write goes through if and only if no status change of the order was
committed since the read and the order is not deleted. -/
theorem write_outcome {later earlier : List (Transition.Move (Sys Q) Action)}
    {m : Transition.Move (Sys Q) Action}
    (run : Transition.Run (logistics Q cfg) (later ++ m :: earlier) s)
    (h : AboutToWrite i o m later s) (hstep : step cfg s (.exec i ch) = some s') :
    WriteOutcome i o m.src s s' := by
  obtain ⟨run₁, hread, path⟩ := run.split
  -- the read: its answer is what the call goes on with
  obtain ⟨ch₁, hact⟩ := h.read
  rw [hact] at hread
  obtain ⟨call, k, hi⟩ := Sys.lookup_of_next h.readsOrder
  obtain ⟨hsh, hth⟩ := exec_eq_some hi hread
  simp only [perform] at hsh hth
  have hdst : m.dst.threads.lookup i = some ⟨call, k (.ok (m.src.shared.db.findOrder o))⟩ := by
    rw [hth, AList.lookup_insert]
  -- the write: the call has made no step since
  obtain ⟨t, hnext, hcopy⟩ := h.writes
  obtain ⟨call', k', hi'⟩ := Sys.lookup_of_next hnext
  have hwaits := lookup_waits path hdst h.waits
  rw [hi'] at hwaits
  obtain ⟨rfl, hk⟩ := Thread.mk.inj (Option.some.inj hwaits)
  obtain ⟨hbelongs, hchecked⟩ := guar_of_next run.reachable hi'
  have hnode := (bringsCopy_of_lookup run₁.reachable hi hbelongs hcopy).1
  obtain ⟨order, hfound, hrewrites⟩ := hnode _ t k' hk.symm hcopy
  have hthrows := (bringsCopy_of_lookup run.reachable hi' hbelongs hcopy).1 hcopy
  -- the copy is the row as it was then, and the row now has its version or a later one
  have horder : m.src.order o = some order :=
    (Db.findOrder_eq_some.mp (Except.ok.inj hfound)).1
  obtain ⟨row, hrow⟩ : ∃ row, s.order o = some row := by
    rcases hrewrites with ⟨newStatus, user, rfl⟩ | ⟨user, rfl⟩
    · exact hchecked.1.imp fun row hrow => hrow.1
    · exact hchecked.1.imp fun row hrow => hrow.1
  have hsrc : m.dst.order o = m.src.order o ∧ m.dst.history o = m.src.history o := by
    rw [Sys.order, Sys.history, hsh]
    exact ⟨rfl, rfl⟩
  have hversion := version_eq_iff (run₁.snoc hread).reachable path (hsrc.1.trans horder) hrow
  rw [hsrc.2] at hversion
  obtain ⟨hconflict, hdeleted, hcommit⟩ := @rewrites_run cfg ch _ _ _ _ _ hrewrites hrow
  by_cases hsame : s.history o = m.src.history o
  · by_cases hlive : row.deletedAt = none
    · obtain ⟨res, db', r, hrun, hhistory⟩ := hcommit (hversion.mpr hsame) hlive
      obtain ⟨hsh', -⟩ := exec_eq_some hi' hstep
      simp only [perform, hrun] at hsh'
      refine .committed hrow hlive hsame ?_
      rw [Sys.history, hsh', hhistory]
      simp [Sys.history]
    · obtain ⟨hshared, hfail⟩ := throws_of_run hi' (hthrows _)
        (hdeleted (hversion.mpr hsame) hlive) hstep
      exact .deleted hrow hlive hsame hshared hfail
  · obtain ⟨hshared, hfail⟩ := throws_of_run hi' (hthrows _)
      (hconflict fun heq => hsame (hversion.mp heq)) hstep
    exact .conflict hsame hshared hfail

/-! ### In the small system -/

/-- Whether an effect reads the order. -/
def readsb (o : OrderId) : Effect → Bool
  | .findOrder o' => o' = o
  | _ => false

/-- Whether an effect is a transaction that brings a copy. -/
def rewritesb : Effect → Bool
  | .transaction t => t.copy.isSome
  | _ => false

/-- Whether an action leaves call `i` where it is. -/
def waitsb (i : ℕ) : Action → Bool
  | .exec j _ => i ≠ j
  | .fail j => i ≠ j
  | _ => true

omit [JobQueue Q JobId JobData] in
theorem AboutToWrite.of_any {later : List (Transition.Move (Sys Q) Action)}
    {m : Transition.Move (Sys Q) Action} (hact : m.act = .exec i ch)
    (hreads : (m.src.next i).any (readsb o) = true)
    (hwaits : later.all (fun m' => waitsb i m'.act) = true)
    (hwrites : (s.next i).any rewritesb = true) : AboutToWrite i o m later s := by
  rw [Option.any_eq_true] at hreads hwrites
  obtain ⟨e, he, hreads⟩ := hreads
  obtain ⟨e', he', hwrites⟩ := hwrites
  rw [List.all_eq_true] at hwaits
  refine ⟨⟨ch, hact⟩, ?_, fun m' hm' => ?_, ?_⟩
  · cases e with
    | findOrder o' =>
        obtain rfl : o' = o := of_decide_eq_true hreads
        exact he
    | _ => cases hreads
  · have hm' := hwaits m' hm'
    refine ⟨fun heq => ?_, fun ch' heq => ?_⟩ <;> simp [heq, waitsb] at hm'
  · cases e' with
    | transaction t => exact ⟨t, he', by rwa [← Option.isSome_iff_ne_none]⟩
    | _ => cases hwrites

/-- An admin asks for the trip to be cancelled, and asks again before that is written: calls `2`
and `3`. -/
def cancelledTwice : List Action :=
  orderTrip ++ [.invoke 2 (.cancelOrder sampleOrder sampleAdmin)]

theorem cancelledTwice_possible : ((logistics BullQueue (sampleConfig 3)).exec
    (start [carDriver]) cancelledTwice).isSome := by
  decide +kernel

theorem cancelledTwice_reads : (step (sampleConfig 3) (after _ _ _ cancelledTwice_possible)
    (.exec 2 sampleChoice)).isSome := by
  decide +kernel

/-- The second call is made and gets through while the first one waits. -/
def overtaking : List Action :=
  .invoke 3 (.cancelOrder sampleOrder sampleAdmin) :: proceed 3 2 sampleChoice

theorem overtaking_possible : ((logistics BullQueue (sampleConfig 3)).exec
    (moveAfter cancelledTwice_possible cancelledTwice_reads).dst overtaking).isSome := by
  decide +kernel

theorem overtaken_writes : (step (sampleConfig 3) (((logistics BullQueue (sampleConfig 3)).exec
    (moveAfter cancelledTwice_possible cancelledTwice_reads).dst overtaking).get
      overtaking_possible) (.exec 2 sampleChoice)).isSome := by
  decide +kernel

/-- The cancellation that was overtaken is told of the conflict. -/
theorem write_outcome_of_trip : ∃ read s s' : Sys BullQueue,
    s.history sampleOrder ≠ read.history sampleOrder ∧ WriteOutcome 2 sampleOrder read s s' := by
  refine ⟨_, _, _, ?_, write_outcome
    (run_through cancelledTwice_possible cancelledTwice_reads overtaking_possible)
    (.of_any rfl ?_ ?_ ?_) (Option.some_get overtaken_writes).symm⟩
  · decide +kernel
  · decide +kernel
  · decide +kernel
  · decide +kernel

end LogisticsDispatch
