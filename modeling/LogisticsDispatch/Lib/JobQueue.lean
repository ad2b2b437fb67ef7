/-
A queue of jobs that are known by their id.

A job is waiting, delayed, active, completed or failed, and a finished job may stay
in the queue for a while. `JobQueue` is what is relied on of such a queue, as laws
about what is found under an id after each operation:

* adding a job whose id is present in any state, a finished one included, adds
  nothing (`find_add`);
* removing deletes the job, unless a worker holds it (`find_remove`);
* a job goes from delayed to waiting, from waiting to active and from active to
  finished, and only finished jobs are ever dropped (`find_promote`, `find_take`,
  `find_finish_self`, `find_finish_of_none`, `find_finish_of_ne`, `find_evict`).

Every id that is absent can be added: `find_add` has no job refused for how its id is
written. BullMQ 5.77.3 refuses ids of two parts, such as `assign-driver:<id>`; of that
version the laws hold for the jobs it takes.

`BoundedQueue` is a queue with these laws: it keeps the last so many completed and
the last so many failed jobs.
-/
import Mathlib.Data.List.AList

set_option autoImplicit false

/-- The states a job can be in. -/
inductive JobState
  | waiting | delayed | active | completed | failed
deriving DecidableEq, Repr

/-- The job is over; only retention keeps it in the queue. -/
def JobState.finished : JobState → Bool
  | .completed => true
  | .failed => true
  | _ => false

/-- Queues of type `Q`, of jobs with ids in `J` and data in `D`. -/
class JobQueue (Q : Type) (J D : outParam Type) [DecidableEq J] where
  /-- The queue without jobs. -/
  empty : Q
  /-- The job with an id: its state and its data. -/
  find : Q → J → Option (JobState × D)
  /-- Add a job that becomes waiting after `delay` milliseconds. -/
  add : Q → J → D → ℕ → Q
  /-- Delete a job, unless it is active. -/
  remove : Q → J → Q
  /-- The delay of a job is over. -/
  promote : Q → J → Q
  /-- A worker takes a waiting job. -/
  take : Q → J → Q
  /-- The worker of an active job is done with it, successfully or not. -/
  finish : Q → J → Bool → Q
  /-- Retention drops a finished job. -/
  evict : Q → J → Q
  find_empty : ∀ j, find empty j = none
  find_add : ∀ q j d delay j', find (add q j d delay) j' =
    if j' = j ∧ find q j = none
    then some (if delay = 0 then .waiting else .delayed, d) else find q j'
  find_remove : ∀ q j j', find (remove q j) j' =
    if j' = j ∧ (find q j).map Prod.fst ≠ some .active then none else find q j'
  find_promote : ∀ q j j', find (promote q j) j' =
    if j' = j then (find q j).map fun x => (if x.1 = .delayed then .waiting else x.1, x.2)
    else find q j'
  find_take : ∀ q j j', find (take q j) j' =
    if j' = j then (find q j).map fun x => (if x.1 = .waiting then .active else x.1, x.2)
    else find q j'
  find_finish_self : ∀ q j ok st d, find q j = some (st, d) →
    find (finish q j ok) j = some (if st = .active then (if ok then .completed else .failed)
      else st, d) ∨ find (finish q j ok) j = none ∧ (st = .active ∨ st.finished)
  find_finish_of_none : ∀ q j ok, find q j = none → find (finish q j ok) j = none
  find_finish_of_ne : ∀ q j ok j', j' ≠ j → find (finish q j ok) j' = find q j' ∨
    find (finish q j ok) j' = none ∧ ∃ st d, find q j' = some (st, d) ∧ st.finished
  find_evict : ∀ q j j', find (evict q j) j' =
    if j' = j ∧ ((find q j).map fun x => x.1.finished) = some true then none else find q j'

namespace JobQueue

variable {Q J D : Type} [DecidableEq J] [JobQueue Q J D] {q : Q} {j j' : J} {d : D} {st : JobState}

/-- The job `j` is in the queue in state `st`. -/
def Has (q : Q) (j : J) (st : JobState) : Prop := ∃ d, find q j = some (st, d)

/-- The job `j` is in the queue and has not begun: it is waiting or delayed. -/
def Ahead (q : Q) (j : J) : Prop := Has q j .waiting ∨ Has q j .delayed

/-! ## What stays under an id -/

/-- Adding a job leaves every job that is there as it is. -/
theorem Has.add (h : Has q j st) (delay : ℕ) : Has (add q j' d delay) j st := by
  obtain ⟨d', h⟩ := h
  refine ⟨d', ?_⟩
  rw [find_add, if_neg]
  · exact h
  · rintro ⟨rfl, hnone⟩
    rw [hnone] at h
    cases h

/-- A job that is added under an id nobody has is there afterwards. -/
theorem ahead_add (h : find q j = none) (delay : ℕ) : Ahead (add q j d delay) j := by
  have hadd : find (add q j d delay) j
      = some (if delay = 0 then .waiting else .delayed, d) := by
    rw [find_add, if_pos ⟨rfl, h⟩]
  by_cases hdelay : delay = 0
  · exact .inl ⟨d, by rw [hadd, if_pos hdelay]⟩
  · exact .inr ⟨d, by rw [hadd, if_neg hdelay]⟩

/-- Adding a job that is not to be delayed leaves a job under its id. -/
theorem waiting_add (h : find q j = none) : Has (add q j d 0) j .waiting :=
  ⟨d, by rw [find_add, if_pos ⟨rfl, h⟩, if_pos rfl]⟩

theorem find_remove_of_ne (h : j' ≠ j) : find (remove q j) j' = find q j' := by
  rw [find_remove, if_neg]
  exact fun hc => h hc.1

theorem find_take_of_ne (h : j' ≠ j) : find (take q j) j' = find q j' := by
  rw [find_take, if_neg h]

theorem find_promote_of_ne (h : j' ≠ j) : find (promote q j) j' = find q j' := by
  rw [find_promote, if_neg h]

/-- A job that has not begun outlives another job's end and any retention. -/
theorem Has.finish (h : Has q j st) (hst : st = .waiting ∨ st = .delayed) (ok : Bool) :
    Has (finish q j' ok) j st := by
  obtain ⟨d', h⟩ := h
  have hfin : st.finished = false := by rcases hst with rfl | rfl <;> rfl
  have hact : st ≠ .active := by rcases hst with rfl | rfl <;> decide
  -- ending this very job needs it active; ending another drops finished jobs only
  by_cases hjj : j = j'
  · subst hjj
    rcases find_finish_self q j ok st d' h with h' | ⟨-, h' | h'⟩
    · exact ⟨d', by rw [h', if_neg hact]⟩
    · exact absurd h' hact
    · rw [hfin] at h'
      cases h'
  · rcases find_finish_of_ne q j' ok j hjj with h' | ⟨-, st', d'', h', hst'⟩
    · exact ⟨d', h'.trans h⟩
    · rw [h] at h'
      obtain ⟨rfl, rfl⟩ := Prod.mk.inj (Option.some.inj h')
      rw [hfin] at hst'
      cases hst'

theorem Has.evict (h : Has q j st) (hst : st.finished = false) : Has (evict q j') j st := by
  obtain ⟨d', h⟩ := h
  refine ⟨d', ?_⟩
  rw [find_evict, if_neg]
  · exact h
  · rintro ⟨rfl, hc⟩
    rw [h] at hc
    simp [hst] at hc

theorem Ahead.add (h : Ahead q j) (delay : ℕ) : Ahead (add q j' d delay) j :=
  h.imp (·.add delay) (·.add delay)

theorem Ahead.finish (h : Ahead q j) (ok : Bool) : Ahead (finish q j' ok) j :=
  h.imp (·.finish (.inl rfl) ok) (·.finish (.inr rfl) ok)

theorem Ahead.evict (h : Ahead q j) : Ahead (evict q j') j :=
  h.imp (·.evict rfl) (·.evict rfl)

/-- A delay that is over leaves the job ahead. -/
theorem Ahead.promote (h : Ahead q j) : Ahead (promote q j') j := by
  by_cases hjj : j = j'
  · subst hjj
    -- a delayed job becomes waiting, a waiting one stays
    rcases h with ⟨d', h⟩ | ⟨d', h⟩
    · exact .inl ⟨d', by simp [find_promote, h]⟩
    · exact .inl ⟨d', by simp [find_promote, h]⟩
  · rcases h with ⟨d', h⟩ | ⟨d', h⟩
    · exact .inl ⟨d', by rw [find_promote_of_ne hjj, h]⟩
    · exact .inr ⟨d', by rw [find_promote_of_ne hjj, h]⟩

/-- A job that waits goes on waiting when a delay is over. -/
theorem Has.promote (h : Has q j .waiting) : Has (promote q j') j .waiting := by
  obtain ⟨d', h⟩ := h
  refine ⟨d', ?_⟩
  by_cases hjj : j = j'
  · subst hjj
    simp [find_promote, h]
  · rw [find_promote_of_ne hjj, h]

theorem Ahead.remove_of_ne (h : Ahead q j) (hjj : j ≠ j') : Ahead (remove q j') j := by
  rcases h with ⟨d', h⟩ | ⟨d', h⟩
  · exact .inl ⟨d', by rw [find_remove_of_ne hjj, h]⟩
  · exact .inr ⟨d', by rw [find_remove_of_ne hjj, h]⟩

theorem Ahead.take_of_ne (h : Ahead q j) (hjj : j ≠ j') : Ahead (take q j') j := by
  rcases h with ⟨d', h⟩ | ⟨d', h⟩
  · exact .inl ⟨d', by rw [find_take_of_ne hjj, h]⟩
  · exact .inr ⟨d', by rw [find_take_of_ne hjj, h]⟩

/-! ## The data of a job

No operation but `add` puts data under an id. -/

theorem data_of_add {d' : D} {delay : ℕ} (h : find (add q j' d' delay) j = some (st, d)) :
    (∃ st', find q j = some (st', d)) ∨ j = j' ∧ d = d' := by
  rw [find_add] at h
  -- the new job under its id, or what was found there before
  split at h
  · next hj => exact .inr ⟨hj.1, (Prod.mk.inj (Option.some.inj h)).2.symm⟩
  · exact .inl ⟨st, h⟩

theorem data_of_remove (h : find (remove q j') j = some (st, d)) :
    ∃ st', find q j = some (st', d) := by
  rw [find_remove] at h
  split at h
  · cases h
  · exact ⟨st, h⟩

theorem data_of_evict (h : find (evict q j') j = some (st, d)) :
    ∃ st', find q j = some (st', d) := by
  rw [find_evict] at h
  split at h
  · cases h
  · exact ⟨st, h⟩

theorem data_of_promote (h : find (promote q j') j = some (st, d)) :
    ∃ st', find q j = some (st', d) := by
  rw [find_promote] at h
  split at h
  · next hj =>
      subst hj
      obtain ⟨x, hx, heq⟩ := Option.map_eq_some_iff.mp h
      obtain rfl := (Prod.mk.inj heq).2
      exact ⟨x.1, hx⟩
  · exact ⟨st, h⟩

theorem data_of_take (h : find (take q j') j = some (st, d)) :
    ∃ st', find q j = some (st', d) := by
  rw [find_take] at h
  split at h
  · next hj =>
      subst hj
      obtain ⟨x, hx, heq⟩ := Option.map_eq_some_iff.mp h
      obtain rfl := (Prod.mk.inj heq).2
      exact ⟨x.1, hx⟩
  · exact ⟨st, h⟩

/-- A job that is finished keeps its data or goes; so do the ones that make room for it. -/
theorem data_of_finish {ok : Bool} (h : find (finish q j' ok) j = some (st, d)) :
    ∃ st', find q j = some (st', d) := by
  by_cases hj : j = j'
  · subst hj
    cases hold : find q j with
    | none =>
        rw [find_finish_of_none q j ok hold] at h
        cases h
    | some x =>
        rcases find_finish_self q j ok x.1 x.2 hold with h' | ⟨h', -⟩
        · rw [h'] at h
          obtain rfl := (Prod.mk.inj (Option.some.inj h)).2
          exact ⟨x.1, rfl⟩
        · rw [h'] at h
          cases h
  · rcases find_finish_of_ne q j' ok j hj with h' | ⟨h', -⟩
    · rw [h'] at h
      exact ⟨st, h⟩
    · rw [h'] at h
      cases h

/-! ## What is ahead was ahead -/

theorem Has.ahead (h : Has q j st) (hst : st = .waiting ∨ st = .delayed) : Ahead q j := by
  rcases hst with rfl | rfl
  · exact .inl h
  · exact .inr h

/-- A job that a worker holds is not ahead. -/
theorem Has.not_ahead (h : Has q j .active) : ¬ Ahead q j := by
  obtain ⟨d', h⟩ := h
  rintro (⟨d'', h'⟩ | ⟨d'', h'⟩)
  · rw [h] at h'
    cases h'
  · rw [h] at h'
    cases h'

theorem ahead_iff : Ahead q j ↔
    ∃ st d, find q j = some (st, d) ∧ (st = .waiting ∨ st = .delayed) := by
  constructor
  · rintro (⟨d', h⟩ | ⟨d', h⟩)
    · exact ⟨_, d', h, .inl rfl⟩
    · exact ⟨_, d', h, .inr rfl⟩
  · rintro ⟨st, d', h, hst⟩
    exact Has.ahead ⟨d', h⟩ hst

/-- Whether a job is ahead can be looked up. -/
instance : Decidable (Ahead q j) :=
  decidable_of_iff ((find q j).map Prod.fst = some .waiting ∨ (find q j).map Prod.fst = some .delayed)
    (by
      rw [ahead_iff]
      cases find q j with
      | none => simp
      | some x => simp [Prod.ext_iff])

theorem ahead_of_add {delay : ℕ} (h : Ahead (add q j' d delay) j) :
    Ahead q j ∨ j = j' ∧ find q j = none := by
  obtain ⟨st, d', hfind, hst⟩ := ahead_iff.mp h
  rw [find_add] at hfind
  split at hfind
  · next hj =>
      obtain ⟨rfl, hnone⟩ := hj
      exact .inr ⟨rfl, hnone⟩
  · exact .inl (Has.ahead ⟨d', hfind⟩ hst)

theorem ahead_of_remove (h : Ahead (remove q j') j) : Ahead q j := by
  obtain ⟨st, d', hfind, hst⟩ := ahead_iff.mp h
  rw [find_remove] at hfind
  split at hfind
  · cases hfind
  · exact Has.ahead ⟨d', hfind⟩ hst

theorem ahead_of_evict (h : Ahead (evict q j') j) : Ahead q j := by
  obtain ⟨st, d', hfind, hst⟩ := ahead_iff.mp h
  rw [find_evict] at hfind
  split at hfind
  · cases hfind
  · exact Has.ahead ⟨d', hfind⟩ hst

/-- A job that waits may have been delayed. -/
theorem ahead_of_promote (h : Ahead (promote q j') j) : Ahead q j := by
  obtain ⟨st, d', hfind, hst⟩ := ahead_iff.mp h
  by_cases hjj : j = j'
  · subst hjj
    rw [find_promote, if_pos rfl] at hfind
    obtain ⟨⟨st', d''⟩, hx, heq⟩ := Option.map_eq_some_iff.mp hfind
    obtain ⟨rfl, rfl⟩ := Prod.mk.inj heq
    refine Has.ahead ⟨d'', hx⟩ ?_
    by_cases hd : st' = .delayed
    · exact .inr hd
    · rwa [if_neg hd] at hst
  · rw [find_promote_of_ne hjj] at hfind
    exact Has.ahead ⟨d', hfind⟩ hst

theorem ahead_of_take (h : Ahead (take q j') j) : Ahead q j := by
  obtain ⟨st, d', hfind, hst⟩ := ahead_iff.mp h
  by_cases hjj : j = j'
  · subst hjj
    rw [find_take, if_pos rfl] at hfind
    obtain ⟨⟨st', d''⟩, hx, heq⟩ := Option.map_eq_some_iff.mp hfind
    obtain ⟨rfl, rfl⟩ := Prod.mk.inj heq
    refine Has.ahead ⟨d'', hx⟩ ?_
    by_cases hw : st' = .waiting
    · exact .inl hw
    · rwa [if_neg hw] at hst
  · rw [find_take_of_ne hjj] at hfind
    exact Has.ahead ⟨d', hfind⟩ hst

theorem ahead_of_finish {ok : Bool} (h : Ahead (finish q j' ok) j) : Ahead q j := by
  obtain ⟨st, d', hfind, hst⟩ := ahead_iff.mp h
  by_cases hjj : j = j'
  · subst hjj
    cases hold : find q j with
    | none =>
        rw [find_finish_of_none q j ok hold] at hfind
        cases hfind
    | some x =>
        obtain ⟨st', d''⟩ := x
        rcases find_finish_self q j ok st' d'' hold with h' | ⟨h', -⟩
        · rw [h'] at hfind
          obtain ⟨rfl, rfl⟩ := Prod.mk.inj (Option.some.inj hfind)
          refine Has.ahead ⟨d'', hold⟩ ?_
          -- what was active is finished now
          by_cases hact : st' = .active
          · rw [if_pos hact] at hst
            cases ok <;> rcases hst with hst | hst <;> cases hst
          · rwa [if_neg hact] at hst
        · rw [h'] at hfind
          cases hfind
  · rcases find_finish_of_ne q j' ok j hjj with h' | ⟨h', -⟩
    · rw [h'] at hfind
      exact Has.ahead ⟨d', hfind⟩ hst
    · rw [h'] at hfind
      cases hfind

/-! ## A job that a worker holds

Only the worker's own report ends it. -/

theorem Has.remove_active (h : Has q j .active) : Has (remove q j') j .active := by
  obtain ⟨d', h⟩ := h
  refine ⟨d', ?_⟩
  rw [find_remove, if_neg]
  · exact h
  · rintro ⟨rfl, hne⟩
    rw [h] at hne
    exact hne rfl

theorem Has.promote_active (h : Has q j .active) : Has (JobQueue.promote q j') j .active := by
  obtain ⟨d', h⟩ := h
  refine ⟨d', ?_⟩
  by_cases hjj : j = j'
  · subst hjj
    simp [find_promote, h]
  · rw [find_promote_of_ne hjj, h]

theorem Has.take_active (h : Has q j .active) : Has (take q j') j .active := by
  obtain ⟨d', h⟩ := h
  refine ⟨d', ?_⟩
  by_cases hjj : j = j'
  · subst hjj
    simp [find_take, h]
  · rw [find_take_of_ne hjj, h]

theorem Has.finish_active (h : Has q j .active) (ok : Bool) (hjj : j ≠ j') :
    Has (JobQueue.finish q j' ok) j .active := by
  obtain ⟨d', h⟩ := h
  rcases find_finish_of_ne q j' ok j hjj with h' | ⟨-, st', d'', h', hst'⟩
  · exact ⟨d', h'.trans h⟩
  · rw [h] at h'
    obtain ⟨rfl, rfl⟩ := Prod.mk.inj (Option.some.inj h')
    cases hst'

/-! ## What is live was live

No operation but `add` brings a job to life. -/

/-- The job `j` is in the queue and is not finished. -/
def Live (q : Q) (j : J) : Prop := ∃ st d, find q j = some (st, d) ∧ st.finished = false

theorem live_of_add {delay : ℕ} (h : Live (add q j' d delay) j) :
    Live q j ∨ j = j' ∧ find q j = none := by
  obtain ⟨st, d', hfind, hst⟩ := h
  rw [find_add] at hfind
  split at hfind
  · next hj =>
      obtain ⟨rfl, hnone⟩ := hj
      exact .inr ⟨rfl, hnone⟩
  · exact .inl ⟨st, d', hfind, hst⟩

theorem live_of_remove (h : Live (remove q j') j) : Live q j := by
  obtain ⟨st, d', hfind, hst⟩ := h
  rw [find_remove] at hfind
  split at hfind
  · cases hfind
  · exact ⟨st, d', hfind, hst⟩

theorem live_of_evict (h : Live (evict q j') j) : Live q j := by
  obtain ⟨st, d', hfind, hst⟩ := h
  rw [find_evict] at hfind
  split at hfind
  · cases hfind
  · exact ⟨st, d', hfind, hst⟩

/-- What a worker takes was waiting. -/
theorem live_of_take (h : Live (take q j') j) : Live q j := by
  obtain ⟨st, d', hfind, hst⟩ := h
  rw [find_take] at hfind
  split at hfind
  · next hj =>
      subst hj
      obtain ⟨x, hx, heq⟩ := Option.map_eq_some_iff.mp hfind
      obtain ⟨rfl, -⟩ := Prod.mk.inj heq
      refine ⟨x.1, x.2, hx, ?_⟩
      by_cases hw : x.1 = .waiting
      · rw [hw]
        rfl
      · rwa [if_neg hw] at hst
  · exact ⟨st, d', hfind, hst⟩

/-- What a delay is over for was delayed. -/
theorem live_of_promote (h : Live (promote q j') j) : Live q j := by
  obtain ⟨st, d', hfind, hst⟩ := h
  rw [find_promote] at hfind
  split at hfind
  · next hj =>
      subst hj
      obtain ⟨x, hx, heq⟩ := Option.map_eq_some_iff.mp hfind
      obtain ⟨rfl, -⟩ := Prod.mk.inj heq
      refine ⟨x.1, x.2, hx, ?_⟩
      by_cases hd : x.1 = .delayed
      · rw [hd]
        rfl
      · rwa [if_neg hd] at hst
  · exact ⟨st, d', hfind, hst⟩

theorem live_of_finish {ok : Bool} (h : Live (finish q j' ok) j) : Live q j := by
  obtain ⟨st, d', hfind, hst⟩ := h
  by_cases hjj : j = j'
  · subst hjj
    cases hold : find q j with
    | none =>
        rw [find_finish_of_none q j ok hold] at hfind
        cases hfind
    | some x =>
        refine ⟨x.1, x.2, hold, ?_⟩
        by_cases hact : x.1 = .active
        · rw [hact]
          rfl
        -- a job that no worker holds stays as it is
        · rcases find_finish_self q j ok x.1 x.2 hold with h' | ⟨h', -⟩
          · rw [h', if_neg hact] at hfind
            obtain ⟨rfl, -⟩ := Prod.mk.inj (Option.some.inj hfind)
            exact hst
          · rw [h'] at hfind
            cases hfind
  · rcases find_finish_of_ne q j' ok j hjj with h' | ⟨h', -⟩
    · rw [h'] at hfind
      exact ⟨st, d', hfind, hst⟩
    · rw [h'] at hfind
      cases hfind

end JobQueue

/-! ## A queue with bounded retention -/

/-- The jobs by id, and the ids of the finished ones, the latest first. The queue
keeps the last `keepCompleted` completed and the last `keepFailed` failed jobs. -/
structure BoundedQueue (J D : Type) [DecidableEq J] (keepCompleted keepFailed : ℕ) where
  jobs : AList fun _ : J => JobState × D
  completed : List J
  failed : List J

namespace BoundedQueue

variable {J D : Type} [DecidableEq J] {keepCompleted keepFailed : ℕ}

/-- Drop those of the given jobs that are finished. -/
def dropFinished (jobs : AList fun _ : J => JobState × D) (ids : List J) :
    AList fun _ : J => JobState × D :=
  ids.foldl (fun jobs j =>
    if ((jobs.lookup j).map fun x => x.1.finished) = some true then jobs.erase j else jobs) jobs

/-- The end of an active job. It becomes the latest finished job of its kind, and
those beyond the count that is kept are dropped. -/
def finishJob (q : BoundedQueue J D keepCompleted keepFailed) (j : J) (ok : Bool) :
    BoundedQueue J D keepCompleted keepFailed :=
  match q.jobs.lookup j with
  | some (.active, d) =>
      -- the job moves to the front of its list, and what falls off the end is dropped
      let jobs := q.jobs.insert j (if ok then .completed else .failed, d)
      if ok then
        { jobs := dropFinished jobs ((j :: q.completed).drop keepCompleted)
          completed := (j :: q.completed).take keepCompleted
          failed := q.failed }
      else
        { jobs := dropFinished jobs ((j :: q.failed).drop keepFailed)
          completed := q.completed
          failed := (j :: q.failed).take keepFailed }
  | _ => q

theorem lookup_dropFinished (ids : List J) (jobs : AList fun _ : J => JobState × D) (j : J) :
    (dropFinished jobs ids).lookup j = jobs.lookup j ∨
      (dropFinished jobs ids).lookup j = none ∧
        ∃ st d, jobs.lookup j = some (st, d) ∧ st.finished := by
  induction ids generalizing jobs with
  | nil => exact .inl rfl
  | cons i ids ih =>
      simp only [dropFinished, List.foldl_cons]
      split
      · next hi =>
          obtain ⟨⟨st, d⟩, hlook, hfin⟩ := Option.map_eq_some_iff.mp hi
          -- dropped here, and then not found again; or left for the rest of the list
          by_cases hji : j = i
          · subst hji
            have hgone : (jobs.erase j).lookup j = none := AList.lookup_erase j jobs
            right
            refine ⟨?_, st, d, hlook, hfin⟩
            rcases ih (jobs.erase j) with h | ⟨h, -⟩
            · exact h.trans hgone
            · exact h
          · have hsame : (jobs.erase i).lookup j = jobs.lookup j := AList.lookup_erase_ne hji
            have hrest := ih (jobs.erase i)
            rw [hsame] at hrest
            exact hrest
      · exact ih jobs

theorem lookup_finishJob_of_ne (q : BoundedQueue J D keepCompleted keepFailed) (j : J) (ok : Bool)
    {j' : J} (hne : j' ≠ j) :
    (q.finishJob j ok).jobs.lookup j' = q.jobs.lookup j' ∨
      (q.finishJob j ok).jobs.lookup j' = none ∧
        ∃ st d, q.jobs.lookup j' = some (st, d) ∧ st.finished := by
  unfold finishJob
  split
  · next d hj =>
      cases ok
      · have h := lookup_dropFinished ((j :: q.failed).drop keepFailed)
          (q.jobs.insert j (.failed, d)) j'
        rw [AList.lookup_insert_ne hne] at h
        exact h
      · have h := lookup_dropFinished ((j :: q.completed).drop keepCompleted)
          (q.jobs.insert j (.completed, d)) j'
        rw [AList.lookup_insert_ne hne] at h
        exact h
  · exact .inl rfl

theorem lookup_finishJob_self (q : BoundedQueue J D keepCompleted keepFailed) (j : J) (ok : Bool)
    (st : JobState) (d : D) (hj : q.jobs.lookup j = some (st, d)) :
    (q.finishJob j ok).jobs.lookup j
        = some (if st = .active then (if ok then .completed else .failed) else st, d) ∨
      (q.finishJob j ok).jobs.lookup j = none ∧ (st = .active ∨ st.finished) := by
  -- a job no worker holds is left alone
  by_cases hst : st = .active
  · subst hst
    unfold finishJob
    rw [hj]
    cases ok
    · have h := lookup_dropFinished ((j :: q.failed).drop keepFailed)
        (q.jobs.insert j (.failed, d)) j
      rw [AList.lookup_insert] at h
      exact h.imp id fun h' => ⟨h'.1, .inl rfl⟩
    · have h := lookup_dropFinished ((j :: q.completed).drop keepCompleted)
        (q.jobs.insert j (.completed, d)) j
      rw [AList.lookup_insert] at h
      exact h.imp id fun h' => ⟨h'.1, .inl rfl⟩
  · have hq : q.finishJob j ok = q := by
      unfold finishJob
      rw [hj]
      cases st <;> first | rfl | exact absurd rfl hst
    left
    rw [hq, hj, if_neg hst]

instance : JobQueue (BoundedQueue J D keepCompleted keepFailed) J D where
  empty := ⟨∅, [], []⟩
  find q j := q.jobs.lookup j
  add q j d delay :=
    if j ∈ q.jobs then q
    else { q with jobs := q.jobs.insert j (if delay = 0 then .waiting else .delayed, d) }
  remove q j :=
    if (q.jobs.lookup j).map Prod.fst = some .active then q
    else { q with jobs := q.jobs.erase j }
  promote q j :=
    match q.jobs.lookup j with
    | some (.delayed, d) => { q with jobs := q.jobs.insert j (.waiting, d) }
    | _ => q
  take q j :=
    match q.jobs.lookup j with
    | some (.waiting, d) => { q with jobs := q.jobs.insert j (.active, d) }
    | _ => q
  finish := finishJob
  evict q j :=
    if ((q.jobs.lookup j).map fun x => x.1.finished) = some true
    then { q with jobs := q.jobs.erase j } else q
  find_empty j := AList.lookup_empty j
  find_add q j d delay j' := by
    by_cases hj : j ∈ q.jobs
    · have hne : q.jobs.lookup j ≠ none := fun hc => AList.lookup_eq_none.mp hc hj
      rw [if_pos hj, if_neg fun hc => hne hc.2]
    · rw [if_neg hj]
      by_cases hjj : j' = j
      · subst hjj
        have hnew : j' = j' ∧ q.jobs.lookup j' = none := ⟨rfl, AList.lookup_eq_none.mpr hj⟩
        rw [AList.lookup_insert, if_pos hnew]
      · rw [AList.lookup_insert_ne hjj, if_neg fun hc => hjj hc.1]
  find_remove q j j' := by
    by_cases hact : (q.jobs.lookup j).map Prod.fst = some .active
    · rw [if_pos hact, if_neg fun hc => hc.2 hact]
    · rw [if_neg hact]
      by_cases hjj : j' = j
      · subst hjj
        rw [AList.lookup_erase, if_pos ⟨rfl, hact⟩]
      · rw [AList.lookup_erase_ne hjj, if_neg fun hc => hjj hc.1]
  find_promote q j j' := by
    by_cases hjj : j' = j
    · subst hjj
      rw [if_pos rfl]
      rcases hj : q.jobs.lookup j' with _ | ⟨st, d⟩
      · simp [hj]
      · cases st <;> simp [hj, AList.lookup_insert]
    · rw [if_neg hjj]
      split
      · exact AList.lookup_insert_ne hjj
      · rfl
  find_take q j j' := by
    by_cases hjj : j' = j
    · subst hjj
      rw [if_pos rfl]
      rcases hj : q.jobs.lookup j' with _ | ⟨st, d⟩
      · simp [hj]
      · cases st <;> simp [hj, AList.lookup_insert]
    · rw [if_neg hjj]
      split
      · exact AList.lookup_insert_ne hjj
      · rfl
  find_finish_self q j ok st d hj := lookup_finishJob_self q j ok st d hj
  find_finish_of_none q j ok hj := by
    unfold finishJob
    rw [hj]
    exact hj
  find_finish_of_ne q j ok j' hne := lookup_finishJob_of_ne q j ok hne
  find_evict q j j' := by
    by_cases hfin : ((q.jobs.lookup j).map fun x => x.1.finished) = some true
    · rw [if_pos hfin]
      by_cases hjj : j' = j
      · subst hjj
        rw [AList.lookup_erase, if_pos ⟨rfl, hfin⟩]
      · rw [AList.lookup_erase_ne hjj, if_neg fun hc => hjj hc.1]
    · rw [if_neg hfin, if_neg fun hc => hfin hc.2]

end BoundedQueue
