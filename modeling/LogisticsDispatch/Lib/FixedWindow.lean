/-
Counting in fixed windows, with a penalty for who counts too far.

The first hit opens a window, which closes after a fixed time, and hits are counted in it. A hit
beyond the limit sets a block for a fixed time, in which hits are refused without being counted.
The window and the block end independently of each other, in either order.

`Contract` is what one relies on such a counter for, and `contract_of_run` is that every run of it
meets that. Two facts carry it: a block that is live refuses (`blocked_until`), and the hits
admitted in a window are as many as were counted in it, up to the limit (`Held`).
-/
import Mathlib.Data.Nat.Basic
import LogisticsDispatch.Lib.Transition

set_option autoImplicit false

namespace FixedWindow

open Transition

/-- How long a window and a block last, and how many hits a window admits. -/
structure Limits where
  ttl : ℕ
  limit : ℕ
  block : ℕ

/-- The hits counted in a window, and when it closes. -/
structure Window where
  count : ℕ
  closes : ℕ
deriving DecidableEq

/-- The clock, the last window, and when the last block ends. -/
structure State where
  now : ℕ
  window : Option Window
  blockedUntil : Option ℕ
deriving DecidableEq

namespace State

/-- The window that is open. -/
def current (s : State) : Option Window := s.window.filter fun w => s.now < w.closes

/-- A block is live. -/
def blocked (s : State) : Bool := s.blockedUntil.any fun t => s.now < t

/-- The window a hit is counted in. -/
def counted (L : Limits) (s : State) : Window :=
  match s.current with
  | none => ⟨1, s.now + L.ttl⟩
  | some w => { w with count := w.count + 1 }

end State

/-- What a hit is told: the hits so far, and whether it is refused. -/
structure Answer where
  hits : ℕ
  blocked : Bool
deriving DecidableEq

/-- A hit. -/
def hit (L : Limits) (s : State) : Answer × State :=
  if s.blocked then
    (⟨(s.current.map Window.count).getD (L.limit + 1), true⟩, s)
  else
    let w := s.counted L
    if L.limit < w.count then
      (⟨w.count, true⟩,
        { s with window := some w, blockedUntil := some (s.now + L.block) })
    else (⟨w.count, false⟩, { s with window := some w })

/-- A step: a hit, or time that passes. -/
inductive Action
  | hit
  | pass (time : ℕ)
deriving DecidableEq

/-- The counter, from when nothing was counted yet. -/
def counter (L : Limits) : System State Action where
  Init s := s.window = none ∧ s.blockedUntil = none
  step s
    | .hit => some (hit L s).2
    | .pass time => some { s with now := s.now + time }

variable {L : Limits} {s s' : State} {a : Action} {tr : List (Move State Action)}

/-! ## What one hit does -/

/-- All that a hit can do. -/
inductive HitStep (L : Limits) (s : State) : Answer × State → Prop
  | refused (hblocked : s.blocked = true) :
      HitStep L s (⟨(s.current.map Window.count).getD (L.limit + 1), true⟩, s)
  | exceeds (hfree : s.blocked = false) (hcount : L.limit < (s.counted L).count) :
      HitStep L s (⟨(s.counted L).count, true⟩,
        { s with window := some (s.counted L), blockedUntil := some (s.now + L.block) })
  | admitted (hfree : s.blocked = false) (hcount : (s.counted L).count ≤ L.limit) :
      HitStep L s (⟨(s.counted L).count, false⟩, { s with window := some (s.counted L) })

theorem hit_step (L : Limits) (s : State) : HitStep L s (hit L s) := by
  unfold hit
  split
  · next hblocked => exact .refused hblocked
  · next hfree =>
      have hfree : s.blocked = false := Bool.eq_false_iff.mpr hfree
      dsimp only
      split
      · next hcount => exact .exceeds hfree hcount
      · next hcount => exact .admitted hfree (not_lt.mp hcount)

theorem current_of_lt {w : Window} (hw : s.window = some w) (h : s.now < w.closes) :
    s.current = some w := by
  rw [State.current, hw, Option.filter_some, decide_eq_true h]
  rfl

theorem window_of_current {w : Window} (h : s.current = some w) :
    s.window = some w ∧ s.now < w.closes := by
  obtain ⟨hw, hlt⟩ := Option.filter_eq_some_iff.mp h
  exact ⟨hw, of_decide_eq_true hlt⟩

theorem counted_of_current {w : Window} (h : s.current = some w) :
    s.counted L = { w with count := w.count + 1 } := by
  rw [State.counted, h]

theorem counted_of_none (h : s.current = none) : s.counted L = ⟨1, s.now + L.ttl⟩ := by
  rw [State.counted, h]

theorem counted_pos (L : Limits) (s : State) : 0 < (s.counted L).count := by
  unfold State.counted
  split
  · exact Nat.one_pos
  · exact Nat.succ_pos _

theorem blocked_iff : s.blocked = true ↔ ∃ t, s.blockedUntil = some t ∧ s.now < t := by
  rw [State.blocked, Option.any_eq_true]
  simp only [decide_eq_true_eq]

/-! ## Runs -/

/-- A hit. -/
def IsHit (m : Move State Action) : Prop := m.act = .hit

instance : DecidablePred IsHit := fun m => inferInstanceAs (Decidable (m.act = .hit))

theorem dst_of_isHit {m : Move State Action} (hm : IsHit m)
    (hstep : (counter L).step m.src m.act = some m.dst) : m.dst = (FixedWindow.hit L m.src).2 := by
  rw [show m.act = .hit from hm] at hstep
  exact (Option.some.inj hstep).symm

/-- A hit that opens a window. -/
structure Opens (m : Move State Action) : Prop where
  hit : IsHit m
  closed : m.src.current = none
  free : m.src.blocked = false

/-- The hits before a time. -/
def hitsBefore (t : ℕ) (tr : List (Move State Action)) : ℕ :=
  tr.countP fun m => decide (IsHit m ∧ m.src.now < t)

/-- The hits before a time that were admitted. -/
def admittedBefore (L : Limits) (t : ℕ) (tr : List (Move State Action)) : ℕ :=
  tr.countP fun m => decide (IsHit m ∧ m.src.now < t ∧ (hit L m.src).1.blocked = false)

/-- What one relies on a counter for. -/
structure Contract (L : Limits) (tr : List (Move State Action)) : Prop where
  /-- In the window a hit opens, no more than the limit are admitted. -/
  window : ∀ later m earlier, tr = later ++ m :: earlier → Opens m →
    admittedBefore L (m.src.now + L.ttl) (later ++ [m]) ≤ L.limit
  /-- No later hit changes when it closes. -/
  closes : ∀ later m earlier, tr = later ++ m :: earlier → Opens m →
    ∀ m' ∈ later ++ [m], m'.src.now < m.src.now + L.ttl →
      ∃ count, m'.dst.window = some ⟨count, m.src.now + L.ttl⟩
  /-- After a hit beyond the limit, the hits in the time of the block are refused, and change
  nothing. -/
  block : ∀ later m earlier, tr = later ++ m :: earlier → IsHit m → m.src.blocked = false →
    L.limit < (hit L m.src).1.hits →
    ∀ m' ∈ later, IsHit m' → m'.src.now < m.src.now + L.block →
      m'.src.blocked = true ∧ (hit L m'.src).1.blocked = true ∧ m'.dst = m'.src
  /-- The refused hits are those told of more hits than the limit. -/
  refused : ∀ m ∈ tr, IsHit m → ((hit L m.src).1.blocked = true ↔ L.limit < (hit L m.src).1.hits)
  /-- Who keeps to the limit is never refused. -/
  kept : (∀ later m earlier, tr = later ++ m :: earlier → Opens m →
      hitsBefore (m.src.now + L.ttl) (later ++ [m]) ≤ L.limit) →
    ∀ m ∈ tr, IsHit m → (hit L m.src).1.blocked = false

/-! ## The block -/

/-- A block is left as it is until it ends. -/
theorem blockedUntil_step {t : ℕ} (h : s.now < t → s.blockedUntil = some t)
    (hstep : (counter L).step s a = some s') : s'.now < t → s'.blockedUntil = some t := by
  cases a with
  | hit =>
      obtain rfl := Option.some.inj hstep
      have hhit := hit_step L s
      generalize hit L s = res at hhit ⊢
      cases hhit with
      | refused hblocked => exact h
      | exceeds hfree hcount =>
          -- a block that was live would have refused the hit
          intro hlt
          have hblocked : s.blocked = true := blocked_iff.mpr ⟨t, h hlt, hlt⟩
          rw [hfree] at hblocked
          cases hblocked
      | admitted hfree hcount => exact h
  | pass time =>
      obtain rfl := Option.some.inj hstep
      intro hlt
      have hlt : s.now + time < t := hlt
      exact h (by omega)

theorem blocked_until {t : ℕ} (h : s.now < t → s.blockedUntil = some t)
    (path : Path (counter L) s tr s') : (s'.now < t → s'.blockedUntil = some t) ∧
      ∀ m ∈ tr, m.src.now < t → m.src.blockedUntil = some t := by
  induction path with
  | refl => exact ⟨h, fun m hm => by cases hm⟩
  | snoc path hstep ih =>
      obtain ⟨hsrc, htr⟩ := ih
      refine ⟨blockedUntil_step hsrc hstep, fun m hm => ?_⟩
      rcases List.mem_cons.mp hm with rfl | hm
      · exact hsrc
      · exact htr m hm

/-! ## The window -/

/-- A window in which `count` hits were counted, up to the limit of which `n` were admitted, is
left open until it closes. -/
def Held (L : Limits) (closes n : ℕ) (s : State) : Prop :=
  n ≤ L.limit ∧
    (s.now < closes → ∃ count, s.window = some ⟨count, closes⟩ ∧ n = min count L.limit)

theorem Held.pass {closes n time : ℕ} (h : Held L closes n s) :
    Held L closes n { s with now := s.now + time } := by
  refine ⟨h.1, fun hlt => ?_⟩
  have hlt : s.now + time < closes := hlt
  exact h.2 (by omega)

/-- A hit adds to the admitted ones of a window if it is admitted before the window closes. -/
theorem Held.hit {closes n : ℕ} (h : Held L closes n s) :
    Held L closes
      (n + if s.now < closes ∧ (FixedWindow.hit L s).1.blocked = false then 1 else 0)
      (FixedWindow.hit L s).2 := by
  have hhit := hit_step L s
  generalize FixedWindow.hit L s = res at hhit ⊢
  by_cases hlt : s.now < closes
  · obtain ⟨count, hwindow, hn⟩ := h.2 hlt
    have hcounted : s.counted L = ⟨count + 1, closes⟩ :=
      counted_of_current (current_of_lt hwindow hlt)
    cases hhit with
    | refused hblocked => simpa using h
    | exceeds hfree hcount =>
        rw [hcounted] at hcount ⊢
        have hcount : L.limit < count + 1 := hcount
        simp only [Bool.true_eq_false, and_false, if_false, Nat.add_zero]
        exact ⟨h.1, fun _ => ⟨count + 1, rfl, by omega⟩⟩
    | admitted hfree hcount =>
        rw [hcounted] at hcount ⊢
        have hcount : count + 1 ≤ L.limit := hcount
        simp only [hlt, and_self, if_true]
        exact ⟨by omega, fun _ => ⟨count + 1, rfl, by omega⟩⟩
  -- the window has closed, and the clock stays
  · simp only [hlt, false_and, if_false, Nat.add_zero]
    refine ⟨h.1, fun hlt' => absurd hlt' ?_⟩
    cases hhit with
    | refused hblocked => exact hlt
    | exceeds hfree hcount => exact hlt
    | admitted hfree hcount => exact hlt

/-- What a hit adds to the admitted ones. -/
theorem admittedBefore_hit {t : ℕ} : admittedBefore L t (⟨s, .hit, s'⟩ :: tr)
    = admittedBefore L t tr +
      if s.now < t ∧ (FixedWindow.hit L s).1.blocked = false then 1 else 0 := by
  simp only [admittedBefore, List.countP_cons, IsHit, true_and, decide_eq_true_eq]

theorem admittedBefore_pass {t time : ℕ} :
    admittedBefore L t (⟨s, .pass time, s'⟩ :: tr) = admittedBefore L t tr := by
  simp [admittedBefore, IsHit]

/-- One step in or after a window. -/
theorem held_step {closes n : ℕ} (h : Held L closes n s)
    (hstep : (counter L).step s a = some s') :
    Held L closes (n + admittedBefore L closes [⟨s, a, s'⟩]) s' ∧
      (s.now < closes → ∃ count, s'.window = some ⟨count, closes⟩) := by
  cases a with
  | hit =>
      obtain rfl := Option.some.inj hstep
      have hheld := h.hit
      have hnow : (FixedWindow.hit L s).2.now = s.now := by
        have hhit := hit_step L s
        generalize FixedWindow.hit L s = res at hhit ⊢
        cases hhit <;> rfl
      rw [admittedBefore_hit, admittedBefore, List.countP_nil, Nat.zero_add]
      refine ⟨hheld, fun hlt => ?_⟩
      obtain ⟨count, hwindow, -⟩ := hheld.2 (by rwa [hnow])
      exact ⟨count, hwindow⟩
  | pass time =>
      obtain rfl := Option.some.inj hstep
      rw [admittedBefore_pass]
      refine ⟨h.pass, fun hlt => ?_⟩
      obtain ⟨count, hwindow, -⟩ := h.2 hlt
      exact ⟨count, hwindow⟩

/-- A stretch of a run in or after a window. -/
theorem held_path {closes n : ℕ} (h : Held L closes n s) (path : Path (counter L) s tr s') :
    Held L closes (n + admittedBefore L closes tr) s' ∧
      ∀ m ∈ tr, m.src.now < closes → ∃ count, m.dst.window = some ⟨count, closes⟩ := by
  induction path with
  | refl => exact ⟨h, fun m hm => by cases hm⟩
  | @snoc tr s₁ s₂ a path hstep ih =>
      obtain ⟨hheld, htr⟩ := ih
      obtain ⟨hheld', hlast⟩ := held_step hheld hstep
      have hcount : admittedBefore L closes (⟨s₁, a, s₂⟩ :: tr)
          = admittedBefore L closes tr + admittedBefore L closes [⟨s₁, a, s₂⟩] := by
        rw [Nat.add_comm, admittedBefore, admittedBefore, admittedBefore, ← List.countP_append,
          List.singleton_append]
      rw [hcount, ← Nat.add_assoc]
      refine ⟨hheld', fun m hm => ?_⟩
      rcases List.mem_cons.mp hm with rfl | hm
      · exact hlast
      · exact htr m hm

/-- The hit that opens a window. -/
theorem held_of_opens {m : Move State Action} (hm : Opens m)
    (hstep : (counter L).step m.src m.act = some m.dst) :
    Held L (m.src.now + L.ttl) (admittedBefore L (m.src.now + L.ttl) [m]) m.dst ∧
      m.dst.window = some ⟨1, m.src.now + L.ttl⟩ := by
  obtain ⟨hhit, hclosed, hfree⟩ := hm
  have hdst := dst_of_isHit hhit hstep
  have hcounted : m.src.counted L = ⟨1, m.src.now + L.ttl⟩ := counted_of_none hclosed
  obtain ⟨src, act, dst⟩ := m
  obtain rfl : act = .hit := hhit
  dsimp only at hfree hdst hcounted ⊢
  rw [admittedBefore_hit, admittedBefore, List.countP_nil, Nat.zero_add, hdst]
  have hstep := hit_step L src
  generalize hit L src = res at hstep ⊢
  cases hstep with
  | refused hblocked =>
      rw [hfree] at hblocked
      cases hblocked
  | exceeds _ hcount =>
      rw [hcounted] at hcount ⊢
      have hcount : L.limit < 1 := hcount
      rw [if_neg (fun h => by cases h.2)]
      exact ⟨⟨by omega, fun _ => ⟨1, rfl, by omega⟩⟩, rfl⟩
  | admitted _ hcount =>
      rw [hcounted] at hcount ⊢
      have hcount : 1 ≤ L.limit := hcount
      refine ⟨⟨?_, fun hlt => ⟨1, rfl, ?_⟩⟩, rfl⟩
      · split <;> omega
      · have hlt : src.now < src.now + L.ttl := hlt
        simp only [hlt, and_self, if_true]
        omega

/-- **The window.** A window admits no more than the limit, and no hit moves its end. -/
theorem window_of_run {m : Move State Action} {later earlier : List (Move State Action)}
    (run : Run (counter L) (later ++ m :: earlier) s) (hm : Opens m) :
    admittedBefore L (m.src.now + L.ttl) (later ++ [m]) ≤ L.limit ∧
      ∀ m' ∈ later ++ [m], m'.src.now < m.src.now + L.ttl →
        ∃ count, m'.dst.window = some ⟨count, m.src.now + L.ttl⟩ := by
  obtain ⟨-, hstep, path⟩ := run.split
  obtain ⟨hheld, hopened⟩ := held_of_opens hm hstep
  obtain ⟨hlast, hlater⟩ := held_path hheld path
  refine ⟨?_, fun m' hm' hlt => ?_⟩
  · rw [admittedBefore, List.countP_append, Nat.add_comm]
    exact hlast.1
  · rcases List.mem_append.mp hm' with hm' | hm'
    · exact hlater m' hm' hlt
    · obtain rfl := List.mem_singleton.mp hm'
      exact ⟨1, hopened⟩

/-! ## Who is refused -/

/-- While a block is live, a window that is open has been counted beyond the limit. -/
def Exceeded (L : Limits) (s : State) : Prop :=
  s.blocked = true → ∀ w, s.current = some w → L.limit < w.count

theorem Exceeded.step (h : Exceeded L s) (hstep : (counter L).step s a = some s') :
    Exceeded L s' := by
  cases a with
  | hit =>
      obtain rfl := Option.some.inj hstep
      have hhit := hit_step L s
      generalize FixedWindow.hit L s = res at hhit ⊢
      cases hhit with
      | refused hblocked => exact h
      | exceeds hfree hcount =>
          intro _ w hw
          obtain rfl := Option.some.inj (window_of_current hw).1
          exact hcount
      | admitted hfree hcount =>
          intro hblocked
          have hblocked : s.blocked = true := hblocked
          rw [hfree] at hblocked
          cases hblocked
  | pass time =>
      obtain rfl := Option.some.inj hstep
      -- what is live after the time has passed was live before
      intro hblocked w hw
      obtain ⟨t, ht, hlt⟩ := blocked_iff.mp hblocked
      obtain ⟨hw, hopen⟩ := window_of_current hw
      have hlt : s.now + time < t := hlt
      have hopen : s.now + time < w.closes := hopen
      exact h (blocked_iff.mpr ⟨t, ht, by omega⟩) w (current_of_lt hw (by omega))

theorem exceeded_of_run (run : Run (counter L) tr s) : Exceeded L s := by
  refine run.invariant (fun s hinit hblocked => ?_) fun s a s' _ h hstep => h.step hstep
  obtain ⟨t, ht, -⟩ := blocked_iff.mp hblocked
  rw [hinit.2] at ht
  cases ht

/-- The refused hits are those told of more hits than the limit. -/
theorem blocked_iff_hits (h : Exceeded L s) :
    (hit L s).1.blocked = true ↔ L.limit < (hit L s).1.hits := by
  have hhit := hit_step L s
  generalize hit L s = res at hhit ⊢
  cases hhit with
  | refused hblocked =>
      refine ⟨fun _ => ?_, fun _ => rfl⟩
      cases hw : s.current with
      | none => exact Nat.lt_succ_self _
      | some w => exact h hblocked w hw
  | exceeds hfree hcount => exact ⟨fun _ => hcount, fun _ => rfl⟩
  | admitted hfree hcount =>
      refine ⟨fun hblocked => ?_, fun hlt => absurd hlt (not_lt.mpr hcount)⟩
      cases hblocked

/-- **The block.** After a hit beyond the limit, hits are refused until the block ends. -/
theorem block_of_run {m : Move State Action} {later earlier : List (Move State Action)}
    (run : Run (counter L) (later ++ m :: earlier) s) (hm : IsHit m)
    (hfree : m.src.blocked = false) (hexceeds : L.limit < (hit L m.src).1.hits) :
    ∀ m' ∈ later, IsHit m' → m'.src.now < m.src.now + L.block →
      m'.src.blocked = true ∧ (hit L m'.src).1.blocked = true ∧ m'.dst = m'.src := by
  obtain ⟨-, hstep, path⟩ := run.split
  -- the block that was set
  have hset : m.dst.blockedUntil = some (m.src.now + L.block) := by
    rw [dst_of_isHit hm hstep]
    have hhit := hit_step L m.src
    generalize hit L m.src = res at hhit hexceeds ⊢
    cases hhit with
    | refused hblocked =>
        rw [hfree] at hblocked
        cases hblocked
    | exceeds _ hcount => rfl
    | admitted _ hcount => exact absurd hexceeds (not_lt.mpr hcount)
  obtain ⟨-, hlater⟩ := blocked_until (fun _ => hset) path
  intro m' hm' hhit' hlt
  have hblocked : m'.src.blocked = true := blocked_iff.mpr ⟨_, hlater m' hm' hlt, hlt⟩
  -- such a hit is refused and leaves the state
  obtain ⟨before, after, rfl⟩ := List.append_of_mem hm'
  rw [dst_of_isHit hhit' path.before.2.1, hit, if_pos hblocked]
  exact ⟨hblocked, rfl, rfl⟩

/-! ## Who keeps to the limit -/

theorem hitsBefore_hit {t : ℕ} :
    hitsBefore t (⟨s, .hit, s'⟩ :: tr) = hitsBefore t tr + if s.now < t then 1 else 0 := by
  simp only [hitsBefore, List.countP_cons, IsHit, true_and, decide_eq_true_eq]

theorem hitsBefore_pass {t time : ℕ} :
    hitsBefore t (⟨s, .pass time, s'⟩ :: tr) = hitsBefore t tr := by
  simp [hitsBefore, IsHit]

/-- Each window has seen no more hits than the limit. -/
def Moderate (L : Limits) (tr : List (Move State Action)) : Prop :=
  ∀ later m earlier, tr = later ++ m :: earlier → Opens m →
    hitsBefore (m.src.now + L.ttl) (later ++ [m]) ≤ L.limit

theorem Moderate.of_cons {m : Move State Action} (h : Moderate L (m :: tr)) : Moderate L tr := by
  intro later m' earlier heq hm'
  refine Nat.le_trans ?_ (h (m :: later) m' earlier (by rw [heq]; rfl) hm')
  exact List.Sublist.countP_le (List.sublist_cons_self _ _)

/-- Nothing was refused so far, and the window that is open has counted the hits since it was
opened. -/
def Unrefused (L : Limits) (tr : List (Move State Action)) (s : State) : Prop :=
  s.blockedUntil = none ∧ (∀ m ∈ tr, IsHit m → (hit L m.src).1.blocked = false) ∧
    ∀ w, s.current = some w → ∃ later m earlier, tr = later ++ m :: earlier ∧ Opens m ∧
      w.closes = m.src.now + L.ttl ∧ w.count = hitsBefore w.closes (later ++ [m])

/-- A hit that keeps to the limit is admitted. -/
theorem Unrefused.hit (h : Unrefused L tr s) (hpos : 0 < L.limit)
    (hmoderate : Moderate L (⟨s, .hit, (FixedWindow.hit L s).2⟩ :: tr)) :
    Unrefused L (⟨s, .hit, (FixedWindow.hit L s).2⟩ :: tr) (FixedWindow.hit L s).2 := by
  obtain ⟨hfree, hadmitted, hcurrent⟩ := h
  have hblocked : s.blocked = false := by
    rw [State.blocked, hfree]
    rfl
  -- the hit and those before it in its window
  have hwindow : (s.counted L).count ≤ L.limit ∧
      (s.now < (s.counted L).closes → ∃ later m earlier,
        (⟨s, .hit, (FixedWindow.hit L s).2⟩ : Move State Action) :: tr = later ++ m :: earlier ∧
        Opens m ∧ (s.counted L).closes = m.src.now + L.ttl ∧
        (s.counted L).count = hitsBefore (s.counted L).closes (later ++ [m])) := by
    cases hw : s.current with
    | none =>
        rw [counted_of_none hw]
        refine ⟨hpos, fun hlt => ⟨[], _, tr, rfl, ⟨rfl, hw, hblocked⟩, rfl, ?_⟩⟩
        rw [List.nil_append, hitsBefore_hit, if_pos hlt]
        rfl
    | some w =>
        obtain ⟨later, m, earlier, htr, hm, hcloses, hcount⟩ := hcurrent w hw
        have hopen := (window_of_current hw).2
        have hnext : hitsBefore w.closes
            ((⟨s, .hit, (FixedWindow.hit L s).2⟩ :: later) ++ [m]) = w.count + 1 := by
          rw [List.cons_append, hitsBefore_hit, if_pos hopen, hcount]
        have hsplit : (⟨s, .hit, (FixedWindow.hit L s).2⟩ : Move State Action) :: tr
            = (⟨s, .hit, (FixedWindow.hit L s).2⟩ :: later) ++ m :: earlier := by
          rw [htr, List.cons_append]
        rw [counted_of_current hw]
        refine ⟨?_, fun _ => ⟨_, m, earlier, hsplit, hm, hcloses, hnext.symm⟩⟩
        have hle := hmoderate _ m earlier hsplit hm
        rw [← hcloses, hnext] at hle
        exact hle
  have hhit := hit_step L s
  -- the hit is admitted, since neither a block nor the count refuses it
  have hres : FixedWindow.hit L s
      = (⟨(s.counted L).count, false⟩, { s with window := some (s.counted L) }) := by
    generalize FixedWindow.hit L s = res at hhit
    cases hhit with
    | refused hb =>
        rw [hblocked] at hb
        cases hb
    | exceeds _ hcount => exact absurd hwindow.1 (not_le.mpr hcount)
    | admitted _ _ => rfl
  refine ⟨?_, fun m hm hmhit => ?_, fun w hw => ?_⟩
  · rw [hres]
    exact hfree
  · rcases List.mem_cons.mp hm with rfl | hm
    · rw [hres]
    · exact hadmitted m hm hmhit
  · rw [hres] at hw
    obtain ⟨heq, hlt⟩ := window_of_current hw
    obtain rfl := Option.some.inj heq
    exact hwindow.2 hlt

/-- **Moderation.** Who keeps to the limit in each window is never refused. -/
theorem unrefused_of_run (hpos : 0 < L.limit) (run : Run (counter L) tr s)
    (hmoderate : Moderate L tr) : Unrefused L tr s := by
  induction run with
  | init h =>
      refine ⟨h.2, fun m hm => absurd hm List.not_mem_nil, fun w hw => ?_⟩
      have hnone := (window_of_current hw).1
      rw [h.1] at hnone
      cases hnone
  | @snoc tr s s' a run hstep ih =>
      have h := ih hmoderate.of_cons
      cases a with
      | hit =>
          obtain rfl := Option.some.inj hstep
          exact h.hit hpos hmoderate
      | pass time =>
          obtain rfl := Option.some.inj hstep
          obtain ⟨hfree, hadmitted, hcurrent⟩ := h
          refine ⟨hfree, fun m hm hmhit => ?_, fun w hw => ?_⟩
          · rcases List.mem_cons.mp hm with rfl | hm
            · cases hmhit
            · exact hadmitted m hm hmhit
          · obtain ⟨hw, hlt⟩ := window_of_current hw
            have hlt : s.now + time < w.closes := hlt
            obtain ⟨later, m, earlier, htr, hm, hcloses, hcount⟩ :=
              hcurrent w (current_of_lt hw (by omega))
            refine ⟨_ :: later, m, earlier, by rw [htr]; rfl, hm, hcloses, ?_⟩
            rw [hcount, List.cons_append, hitsBefore_pass]

/-! ## The contract -/

/-- **Every run of the counter meets its contract.** -/
theorem contract_of_run (hpos : 0 < L.limit) (run : Run (counter L) tr s) : Contract L tr where
  window later m earlier htr hm := (window_of_run (htr ▸ run) hm).1
  closes later m earlier htr hm := (window_of_run (htr ▸ run) hm).2
  block later m earlier htr hm hfree hexceeds := block_of_run (htr ▸ run) hm hfree hexceeds
  refused m hm _ := by
    obtain ⟨later, earlier, rfl⟩ := List.append_of_mem hm
    exact blocked_iff_hits (exceeded_of_run run.split.1)
  kept hmoderate := (unrefused_of_run hpos run hmoderate).2.1

end FixedWindow
