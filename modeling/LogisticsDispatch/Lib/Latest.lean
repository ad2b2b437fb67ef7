/-
Places that hold what was issued for them last.

Moves of a run issue items, each for a place, and end what was issued for a place before. An item
stands if it was issued and no move since has ended it (`Latest`). Where every move does to a place
what it does to the items (`Touched`), a place holds the record of an item exactly while the item
stands (`holds_of_run`). A place that held something at first holds it until it is ended
(`holdsSince_of_run`).
-/
import LogisticsDispatch.Lib.Transition

set_option autoImplicit false

namespace Transition

universe u v w

/-- The state a run began in. -/
def origin {σ : Type u} {α : Type v} (tr : List (Move σ α)) (s : σ) : σ :=
  (tr.getLast?.map fun m => m.src).getD s

theorem origin_cons {σ : Type u} {α : Type v} (tr : List (Move σ α)) (m : Move σ α) (s : σ) :
    origin (m :: tr) s = origin tr m.src := by
  rw [origin, origin, List.getLast?_cons, Option.map_some, Option.getD_some]
  cases tr.getLast? <;> rfl

theorem Run.init_origin {σ : Type u} {α : Type v} {M : System σ α} {tr : List (Move σ α)} {s : σ}
    (run : Run M tr s) : M.Init (origin tr s) := by
  induction run with
  | init h => exact h
  | snoc run hstep ih =>
      rw [origin_cons]
      exact ih

/-- How the items of a run go with its states. -/
structure Ledger (σ : Type u) (α : Type v) (K A V : Type w) where
  /-- A move issues an item for a place. -/
  Issues : K → A → Move σ α → Prop
  /-- After the move no item stands that was issued for the place before it. -/
  Ends : K → Move σ α → Prop
  /-- What a place holds. -/
  slot : σ → K → Option V
  /-- What is held is the record of the item. -/
  Records : K → A → V → Prop

namespace Ledger

variable {σ : Type u} {α : Type v} {K A V : Type w} (L : Ledger σ α K A V)

/-- The item was issued for the place, and nothing has ended it since. -/
def Latest (k : K) (a : A) (tr : List (Move σ α)) : Prop :=
  ∃ m, L.Issues k a m ∧ Since (L.Ends k) m tr

/-- What a move does to a place, and to the items that were issued for it. -/
inductive Touched (k : K) (m : Move σ α) : Prop
  | issued (a : A) (v : V) (hissues : ∀ a', L.Issues k a' m ↔ a' = a) (hends : L.Ends k m)
      (hslot : L.slot m.dst k = some v) (hrecords : L.Records k a v) : Touched k m
  | cleared (hissues : ∀ a, ¬ L.Issues k a m) (hends : L.Ends k m)
      (hslot : L.slot m.dst k = none) : Touched k m
  | kept (hissues : ∀ a, ¬ L.Issues k a m) (hends : ¬ L.Ends k m)
      (hslot : L.slot m.dst k = L.slot m.src k) : Touched k m

/-- A place holds the record of what stands for it, and nothing else. -/
structure Holds (tr : List (Move σ α)) (s : σ) (k : K) : Prop where
  held : ∀ a, L.Latest k a tr → ∃ v, L.slot s k = some v ∧ L.Records k a v
  latest : ∀ v, L.slot s k = some v → ∃ a, L.Latest k a tr ∧ L.Records k a v

variable {L} {M : System σ α} {tr : List (Move σ α)} {s : σ} {m : Move σ α} {k : K} {a : A}

theorem latest_cons : L.Latest k a (m :: tr) ↔
    L.Issues k a m ∨ (¬ L.Ends k m ∧ L.Latest k a tr) := by
  constructor
  · rintro ⟨m', hissues, hsince⟩
    rcases since_cons.mp hsince with rfl | ⟨hends, hsince⟩
    · exact .inl hissues
    · exact .inr ⟨hends, m', hissues, hsince⟩
  · rintro (hissues | ⟨hends, m', hissues, hsince⟩)
    · exact ⟨m, hissues, since_cons.mpr (.inl rfl)⟩
    · exact ⟨m', hissues, since_cons.mpr (.inr ⟨hends, hsince⟩)⟩

/-- What stands was issued by a move of the run. -/
theorem Latest.issued (h : L.Latest k a tr) : ∃ m ∈ tr, L.Issues k a m := by
  obtain ⟨m, hissues, later, earlier, rfl, -⟩ := h
  exact ⟨m, List.mem_append_right _ List.mem_cons_self, hissues⟩

/-- A place holds the record of what stands for it, or what it held at first, if nothing has ended
that. -/
structure HoldsSince (s₀ : σ) (tr : List (Move σ α)) (s : σ) (k : K) : Prop where
  held : ∀ a, L.Latest k a tr → ∃ v, L.slot s k = some v ∧ L.Records k a v
  latest : ∀ v, L.slot s k = some v → (∃ a, L.Latest k a tr ∧ L.Records k a v) ∨
    (∀ m ∈ tr, ¬ L.Ends k m) ∧ L.slot s₀ k = some v
  first : (∀ m ∈ tr, ¬ L.Ends k m) → L.slot s k = L.slot s₀ k

/-- A move keeps it so. -/
theorem HoldsSince.move {s₀ : σ} (h : L.HoldsSince s₀ tr m.src k) (hm : L.Touched k m) :
    L.HoldsSince s₀ (m :: tr) m.dst k := by
  cases hm with
  | issued a v hissues hends hslot hrecords =>
      have hissued : L.Issues k a m := (hissues a).mpr rfl
      refine ⟨fun a' hlatest => ?_, fun v' hv' => .inl ⟨a, latest_cons.mpr (.inl hissued), ?_⟩,
        fun hnone => absurd hends (hnone m List.mem_cons_self)⟩
      · rcases latest_cons.mp hlatest with hissued' | ⟨hgoes, -⟩
        · rw [(hissues a').mp hissued']
          exact ⟨v, hslot, hrecords⟩
        · exact absurd hends hgoes
      · obtain rfl := Option.some.inj (hslot.symm.trans hv')
        exact hrecords
  | cleared hissues hends hslot =>
      refine ⟨fun a hlatest => ?_, fun v hv => ?_,
        fun hnone => absurd hends (hnone m List.mem_cons_self)⟩
      · rcases latest_cons.mp hlatest with hissued | ⟨hgoes, -⟩
        · exact absurd hissued (hissues a)
        · exact absurd hends hgoes
      · rw [hslot] at hv
        cases hv
  | kept hissues hends hslot =>
      refine ⟨fun a hlatest => ?_, fun v hv => ?_, fun hnone => ?_⟩
      · rcases latest_cons.mp hlatest with hissued | ⟨-, hlatest⟩
        · exact absurd hissued (hissues a)
        · rw [hslot]
          exact h.held a hlatest
      · rw [hslot] at hv
        rcases h.latest v hv with ⟨a, hlatest, hrecords⟩ | ⟨hnone, hfirst⟩
        · exact .inl ⟨a, latest_cons.mpr (.inr ⟨hends, hlatest⟩), hrecords⟩
        · exact .inr ⟨List.forall_mem_cons.mpr ⟨hends, hnone⟩, hfirst⟩
      · rw [hslot]
        exact h.first fun m' hm' => hnone m' (List.mem_cons_of_mem _ hm')

/-- **The rule for items that supersede each other**, where places hold something at first. -/
theorem holdsSince_of_run (hmoves : ∀ m ∈ tr, L.Touched k m) (run : Run M tr s) :
    L.HoldsSince (origin tr s) tr s k := by
  induction run with
  | init h =>
      refine ⟨fun a hlatest => ?_, fun v hv =>
        .inr ⟨fun m hm => absurd hm List.not_mem_nil, hv⟩, fun _ => rfl⟩
      obtain ⟨m, -, hsince⟩ := hlatest
      exact absurd hsince not_since_nil
  | snoc run hstep ih =>
      rw [origin_cons]
      exact (ih fun m hm => hmoves m (List.mem_cons_of_mem _ hm)).move
        (hmoves _ List.mem_cons_self)

/-- A place that is empty at first holds, at any time, the record of the item that stands for
it. -/
theorem holds_of_run (hinit : ∀ s, M.Init s → L.slot s k = none)
    (hmoves : ∀ m ∈ tr, L.Touched k m) (run : Run M tr s) : L.Holds tr s k := by
  have h := holdsSince_of_run hmoves run
  refine ⟨h.held, fun v hv => ?_⟩
  rcases h.latest v hv with hlatest | ⟨-, hfirst⟩
  · exact hlatest
  · rw [hinit _ run.init_origin] at hfirst
    cases hfirst

end Ledger

end Transition
