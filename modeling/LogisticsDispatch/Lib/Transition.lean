/-
Labelled transition systems with an executable step, and the runs of one.

A run is kept as the list of its moves, the latest first. That order is what
makes a quantity "since the last time that ..." a plain recursion over the list,
and it makes every earlier point of a run a suffix of it.

Two induction rules carry everything that is proved about runs:
`Run.invariant`, for a property that every step keeps, and
`Run.invariant_of`, for one that only the steps meeting a side condition keep.
`Run.simulates` carries what holds of one system over to a system that shows the
other's states.
-/
import Mathlib.Data.List.Basic

set_option autoImplicit false

namespace Transition

universe u v

/-- A transition system: the initial states, and a partial step. An action that
cannot be taken in a state has no successor there. -/
structure System (σ : Type u) (α : Type v) where
  Init : σ → Prop
  step : σ → α → Option σ

/-- One step of a run, with the state it started in and the state it led to. -/
structure Move (σ : Type u) (α : Type v) where
  src : σ
  act : α
  dst : σ

variable {σ : Type u} {α : Type v}

/-- `Run M tr s`: from an initial state the moves of `tr`, the latest first, lead
to `s`. -/
inductive Run (M : System σ α) : List (Move σ α) → σ → Prop
  | init {s : σ} (h : M.Init s) : Run M [] s
  | snoc {tr : List (Move σ α)} {s s' : σ} {a : α}
      (run : Run M tr s) (h : M.step s a = some s') : Run M (⟨s, a, s'⟩ :: tr) s'

/-- A state some run leads to. -/
def Reachable (M : System σ α) (s : σ) : Prop := ∃ tr, Run M tr s

variable {M : System σ α} {tr : List (Move σ α)} {s s' : σ} {a : α}

theorem Run.reachable (run : Run M tr s) : Reachable M s := ⟨tr, run⟩

theorem Reachable.init (h : M.Init s) : Reachable M s := ⟨[], .init h⟩

theorem Reachable.step (hs : Reachable M s) (h : M.step s a = some s') : Reachable M s' := by
  obtain ⟨tr, run⟩ := hs
  exact ⟨_, run.snoc h⟩

/-! ## Invariants -/

/-- **The invariant rule.** What holds at first and is kept by every step taken
from a reachable state holds wherever a run leads. -/
theorem Run.invariant {P : σ → Prop} (hinit : ∀ s, M.Init s → P s)
    (hstep : ∀ s a s', Reachable M s → P s → M.step s a = some s' → P s')
    (run : Run M tr s) : P s := by
  induction run with
  | init h => exact hinit _ h
  | snoc run h ih => exact hstep _ _ _ run.reachable ih h

/-- The invariant rule at a reachable state. -/
theorem Reachable.invariant {P : σ → Prop} (hinit : ∀ s, M.Init s → P s)
    (hstep : ∀ s a s', Reachable M s → P s → M.step s a = some s' → P s')
    (hs : Reachable M s) : P s := by
  obtain ⟨tr, run⟩ := hs
  exact run.invariant hinit hstep

/-- The invariant rule under a side condition on the steps taken: only the moves
that meet `C` have to keep the property, and it holds all along a run whose moves all
meet it. -/
theorem Run.invariant_of {P : σ → Prop} {C : Move σ α → Prop} (hinit : ∀ s, M.Init s → P s)
    (hstep : ∀ s a s', Reachable M s → P s → C ⟨s, a, s'⟩ → M.step s a = some s' → P s')
    (run : Run M tr s) (hC : ∀ m ∈ tr, C m) : P s ∧ ∀ m ∈ tr, P m.src ∧ P m.dst := by
  induction run with
  | init h => exact ⟨hinit _ h, fun m hm => by cases hm⟩
  | snoc run h ih =>
      obtain ⟨hP, htr⟩ := ih fun m hm => hC m (List.mem_cons_of_mem _ hm)
      have hP' := hstep _ _ _ run.reachable hP (hC _ List.mem_cons_self) h
      refine ⟨hP', fun m hm => ?_⟩
      rcases List.mem_cons.mp hm with rfl | hm
      · exact ⟨hP, hP'⟩
      · exact htr m hm

/-- The invariant rule for a property of the run together with the state it has
led to. -/
theorem Run.invariant_trace {P : List (Move σ α) → σ → Prop}
    (hinit : ∀ s, M.Init s → P [] s)
    (hstep : ∀ tr s a s', Run M tr s → P tr s → M.step s a = some s' → P (⟨s, a, s'⟩ :: tr) s')
    (run : Run M tr s) : P tr s := by
  induction run with
  | init h => exact hinit _ h
  | snoc run h ih => exact hstep _ _ _ _ run ih h

/-! ## The moves of a run -/

/-- Every move of a run is a step out of a state the run had reached. -/
theorem Run.of_mem (run : Run M tr s) {m : Move σ α} (hm : m ∈ tr) :
    Reachable M m.src ∧ M.step m.src m.act = some m.dst := by
  induction run with
  | init h => cases hm
  | snoc run h ih =>
      rcases List.mem_cons.mp hm with rfl | hm
      · exact ⟨run.reachable, h⟩
      · exact ih hm

/-- Cutting a run after one of its moves leaves the run that led to that move. -/
theorem Run.of_suffix {later earlier : List (Move σ α)} {m : Move σ α}
    (run : Run M (later ++ m :: earlier) s) :
    Run M earlier m.src ∧ M.step m.src m.act = some m.dst ∧ Run M (m :: earlier) m.dst := by
  generalize hl : later ++ m :: earlier = l at run
  induction run generalizing later with
  | init h => cases later <;> simp at hl
  | snoc run h ih =>
      cases later with
      | nil =>
          obtain ⟨rfl, rfl⟩ := List.cons.inj hl
          exact ⟨run, h, run.snoc h⟩
      | cons m' later => exact ih (List.cons.inj hl).2

/-! ## Continuations of a run

`Path M s tr s'` is a stretch of a run: it starts in `s` instead of an initial
state. -/

/-- `Path M s tr s'`: from `s` the moves of `tr`, the latest first, lead to `s'`. -/
inductive Path (M : System σ α) (s : σ) : List (Move σ α) → σ → Prop
  | refl : Path M s [] s
  | snoc {tr : List (Move σ α)} {s₁ s₂ : σ} {a : α}
      (path : Path M s tr s₁) (h : M.step s₁ a = some s₂) : Path M s (⟨s₁, a, s₂⟩ :: tr) s₂

theorem Path.reachable (path : Path M s tr s') (hs : Reachable M s) : Reachable M s' := by
  induction path with
  | refl => exact hs
  | snoc _ h ih => exact ih.step h

/-- A run and what follows it are a run. -/
theorem Path.run {tr₀ : List (Move σ α)} (path : Path M s tr s') (run : Run M tr₀ s) :
    Run M (tr ++ tr₀) s' := by
  induction path with
  | refl => exact run
  | snoc _ h ih => exact ih.snoc h

/-- The last move of a stretch. -/
theorem Path.last {m : Move σ α} (path : Path M s (m :: tr) s') :
    Path M s tr m.src ∧ M.step m.src m.act = some m.dst ∧ s' = m.dst := by
  cases path with
  | snoc path h => exact ⟨path, h, rfl⟩

/-- Cutting a stretch in two. -/
theorem Path.split {later earlier : List (Move σ α)} (path : Path M s (later ++ earlier) s') :
    ∃ s₁, Path M s earlier s₁ ∧ Path M s₁ later s' := by
  induction later generalizing s' with
  | nil => exact ⟨s', path, .refl⟩
  | cons m later ih =>
      obtain ⟨hpath, h, rfl⟩ := path.last
      obtain ⟨s₁, hearlier, hlater⟩ := ih hpath
      exact ⟨s₁, hearlier, hlater.snoc h⟩

/-- Cutting a stretch before one of its moves. -/
theorem Path.before {m : Move σ α} {later earlier : List (Move σ α)}
    (path : Path M s (later ++ m :: earlier) s') :
    Path M s earlier m.src ∧ M.step m.src m.act = some m.dst ∧ Path M m.dst later s' := by
  obtain ⟨s₁, hearlier, hlater⟩ := path.split
  obtain ⟨hpath, hstep, rfl⟩ := hearlier.last
  exact ⟨hpath, hstep, hlater⟩

/-- Cutting a run at one of its moves: the run that led to it, and the stretch after it. -/
theorem Run.split {later earlier : List (Move σ α)} {m : Move σ α}
    (run : Run M (later ++ m :: earlier) s) :
    Run M earlier m.src ∧ M.step m.src m.act = some m.dst ∧ Path M m.dst later s := by
  generalize hl : later ++ m :: earlier = l at run
  induction run generalizing later with
  | init h => cases later <;> simp at hl
  | snoc run h ih =>
      cases later with
      | nil =>
          obtain ⟨rfl, rfl⟩ := List.cons.inj hl
          exact ⟨run, h, .refl⟩
      | cons m' later =>
          obtain ⟨rfl, htl⟩ := List.cons.inj hl
          obtain ⟨hrun, hstep, hpath⟩ := ih htl
          exact ⟨hrun, hstep, hpath.snoc h⟩

/-- The invariant rule along a stretch of a run. -/
theorem Path.invariant_trace {P : List (Move σ α) → σ → Prop} (hs : Reachable M s)
    (hinit : P [] s)
    (hstep : ∀ tr s₁ a s₂, Path M s tr s₁ → Reachable M s₁ → P tr s₁ → M.step s₁ a = some s₂ →
      P (⟨s₁, a, s₂⟩ :: tr) s₂)
    (path : Path M s tr s') : P tr s' := by
  induction path with
  | refl => exact hinit
  | snoc path h ih => exact hstep _ _ _ _ path (path.reachable hs) ih h

/-! ## Since a move -/

/-- A move of the run, and none since that meets `Q`. -/
def Since (Q : Move σ α → Prop) (m : Move σ α) (tr : List (Move σ α)) : Prop :=
  ∃ later earlier, tr = later ++ m :: earlier ∧ ∀ m' ∈ later, ¬ Q m'

section Since

variable {Q : Move σ α → Prop} {m m' : Move σ α}

theorem not_since_nil : ¬ Since Q m [] := by
  rintro ⟨later, earlier, heq, -⟩
  cases later <;> cases heq

/-- What a move adds: it is the last one itself, or does not end what was since another. -/
theorem since_cons : Since Q m (m' :: tr) ↔ m = m' ∨ (¬ Q m' ∧ Since Q m tr) := by
  constructor
  · rintro ⟨later, earlier, heq, hQ⟩
    cases later with
    | nil => exact .inl (List.cons.inj heq).1.symm
    | cons m'' later =>
        obtain ⟨rfl, rfl⟩ := List.cons.inj heq
        exact .inr ⟨hQ _ List.mem_cons_self, later, earlier, rfl, fun m hm =>
          hQ m (List.mem_cons_of_mem _ hm)⟩
  · rintro (rfl | ⟨hm', later, earlier, rfl, hQ⟩)
    · exact ⟨[], tr, rfl, fun m hm => absurd hm List.not_mem_nil⟩
    · refine ⟨m' :: later, earlier, rfl, fun m hm => ?_⟩
      rcases List.mem_cons.mp hm with rfl | hm
      · exact hm'
      · exact hQ m hm

end Since

/-! ## Simulation -/

section Simulation

variable {τ : Type u} {β : Type v} {N : System τ β} {V : List (Move σ α) → σ → τ}

/-- **The simulation rule.** Let `V` show of a run and the state it has led to
what another system is about. If runs begin in a view that system begins in, and each
step shows nothing or one step of that system, then every view is reachable there. -/
theorem Run.simulates (hinit : ∀ s, M.Init s → N.Init (V [] s))
    (hstep : ∀ tr s a s', Run M tr s → M.step s a = some s' →
      V (⟨s, a, s'⟩ :: tr) s' = V tr s ∨
        ∃ b, N.step (V tr s) b = some (V (⟨s, a, s'⟩ :: tr) s'))
    (run : Run M tr s) : Reachable N (V tr s) := by
  induction run with
  | init h => exact .init (hinit _ h)
  | snoc run h ih =>
      rcases hstep _ _ _ _ run h with heq | ⟨b, hb⟩
      · rw [heq]
        exact ih
      · exact ih.step hb

/-- A move with its action under another name. -/
def Move.relabel (f : α → β) (m : Move σ α) : Move σ β := ⟨m.src, f m.act, m.dst⟩

/-- Runs of a system that does under other names what another does are runs of that one. -/
theorem Run.relabel {N : System σ β} {f : α → β} (hinit : ∀ s, M.Init s → N.Init s)
    (hstep : ∀ s a s', M.step s a = some s' → N.step s (f a) = some s') (run : Run M tr s) :
    Run N (tr.map (Move.relabel f)) s := by
  induction run with
  | init h => exact .init (hinit _ h)
  | snoc _ h ih => exact ih.snoc (hstep _ _ _ h)

end Simulation

/-! ## Executing a list of actions -/

/-- The state a list of actions leads to, the first action first. -/
def System.exec (M : System σ α) : σ → List α → Option σ
  | s, [] => some s
  | s, a :: as => (M.step s a).bind fun s' => M.exec s' as

/-- The moves those actions make, the latest first, put before the moves `tr`. -/
def System.moves (M : System σ α) : List (Move σ α) → σ → List α → List (Move σ α)
  | tr, _, [] => tr
  | tr, s, a :: as =>
      match M.step s a with
      | none => tr
      | some s' => M.moves (⟨s, a, s'⟩ :: tr) s' as

/-- The moves are made by the actions. -/
theorem System.act_mem_of_moves {as : List α} {m : Move σ α} (hm : m ∈ M.moves tr s as) :
    m ∈ tr ∨ m.act ∈ as := by
  induction as generalizing tr s with
  | nil => exact .inl hm
  | cons a as ih =>
      simp only [System.moves] at hm
      split at hm
      · exact .inl hm
      · rcases ih hm with h | h
        · rcases List.mem_cons.mp h with rfl | h
          · exact .inr List.mem_cons_self
          · exact .inl h
        · exact .inr (List.mem_cons_of_mem _ h)

/-- Executed actions prolong a run. -/
theorem Run.exec (run : Run M tr s) {as : List α} (h : M.exec s as = some s') :
    Run M (M.moves tr s as) s' := by
  induction as generalizing tr s with
  | nil =>
      obtain rfl : s = s' := by simpa [System.exec] using h
      exact run
  | cons a as ih =>
      simp only [System.exec, Option.bind_eq_some_iff] at h
      obtain ⟨s₁, hs₁, h⟩ := h
      simp only [System.moves, hs₁]
      exact ih (run.snoc hs₁) h

/-- Executed actions are a stretch of a run. -/
theorem Path.exec {s₀ : σ} (path : Path M s₀ tr s) {as : List α} (h : M.exec s as = some s') :
    Path M s₀ (M.moves tr s as) s' := by
  induction as generalizing tr s with
  | nil =>
      obtain rfl : s = s' := by simpa [System.exec] using h
      exact path
  | cons a as ih =>
      simp only [System.exec, Option.bind_eq_some_iff] at h
      obtain ⟨s₁, hs₁, h⟩ := h
      simp only [System.moves, hs₁]
      exact ih (path.snoc hs₁) h

/-- What a list of actions leads to from an initial state is reachable. -/
theorem Reachable.exec (hs : Reachable M s) {as : List α} (h : M.exec s as = some s') :
    Reachable M s' := by
  obtain ⟨tr, run⟩ := hs
  exact (run.exec h).reachable

end Transition
