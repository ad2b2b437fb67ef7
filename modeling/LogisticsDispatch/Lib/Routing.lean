/-
Routes that are tried in order.

A template is a list of segments. A literal accepts a segment up to `fold` (the way two texts are
compared), a parameter any segment that is `proper`. Whether two templates meet, and whether one
covers the other, is decided segment by segment.

`dispatch` hands a request to the first route that answers it. So a route gets what it answers,
less what its rivals do: the routes before it that it meets (`dispatch_eq_some_iff`). A route that
comes after one that covers it gets nothing.
-/
import Mathlib.Data.List.Basic

set_option autoImplicit false

universe u v w

namespace Routing

/-! ## Templates -/

/-- A segment of a template. -/
inductive Segment (α : Type u)
  | literal (text : α)
  | param (name : String)
deriving DecidableEq

section Templates

variable {α : Type u} {β : Type v} [DecidableEq β] (fold : α → β) (proper : α → Bool)

/-- Whether a segment of a template accepts a segment of a path. -/
def Segment.accepts : Segment α → α → Bool
  | literal text, x => decide (fold x = fold text)
  | param _, x => proper x

/-- Whether a template accepts a path. -/
def accepts : List (Segment α) → List α → Bool
  | [], [] => true
  | seg :: segs, x :: xs => seg.accepts fold proper x && accepts segs xs
  | _, _ => false

/-- Whether two segments may accept the same. -/
def Segment.meets : Segment α → Segment α → Bool
  | literal a, literal b => decide (fold a = fold b)
  | _, _ => true

/-- Whether two templates may accept the same path. -/
def meets : List (Segment α) → List (Segment α) → Bool
  | [], [] => true
  | p :: ps, q :: qs => p.meets fold q && meets ps qs
  | _, _ => false

/-- Whether the first segment accepts what the second does. -/
def Segment.covers : Segment α → Segment α → Bool
  | literal a, literal b => decide (fold b = fold a)
  | param _, literal b => proper b
  | param _, param _ => true
  | literal _, param _ => false

/-- Whether the first template accepts what the second does. -/
def covers : List (Segment α) → List (Segment α) → Bool
  | [], [] => true
  | p :: ps, q :: qs => p.covers fold proper q && covers ps qs
  | _, _ => false

variable {fold proper} {p q : Segment α} {ps qs : List (Segment α)} {x : α} {xs : List α}

@[simp] theorem accepts_cons :
    accepts fold proper (p :: ps) (x :: xs) = true ↔
      p.accepts fold proper x = true ∧ accepts fold proper ps xs = true := by
  simp [accepts]

theorem Segment.meets_of_accepts (hp : p.accepts fold proper x = true)
    (hq : q.accepts fold proper x = true) : p.meets fold q = true := by
  cases p with
  | param name => rfl
  | literal a =>
      cases q with
      | param name => rfl
      | literal b =>
          simp only [accepts, decide_eq_true_eq] at hp hq
          simp only [meets, decide_eq_true_eq]
          rw [← hp, ← hq]

/-- Templates that accept one path meet. -/
theorem meets_of_accepts (hp : accepts fold proper ps xs = true)
    (hq : accepts fold proper qs xs = true) : meets fold ps qs = true := by
  induction xs generalizing ps qs with
  | nil => cases ps <;> cases qs <;> simp_all [accepts, meets]
  | cons x xs ih =>
      cases ps with
      | nil => simp [accepts] at hp
      | cons p ps =>
          cases qs with
          | nil => simp [accepts] at hq
          | cons q qs =>
              rw [accepts_cons] at hp hq
              simp only [meets, Bool.and_eq_true]
              exact ⟨Segment.meets_of_accepts hp.1 hq.1, ih hp.2 hq.2⟩

/-- Texts that are compared alike are proper alike. -/
theorem Segment.accepts_of_covers (hfold : ∀ x y, fold x = fold y → proper x = proper y)
    (h : p.covers fold proper q = true) (hq : q.accepts fold proper x = true) :
    p.accepts fold proper x = true := by
  cases p with
  | literal a =>
      cases q with
      | param name => simp [covers] at h
      | literal b =>
          simp only [covers, accepts, decide_eq_true_eq] at h hq ⊢
          rw [hq, h]
  | param name =>
      cases q with
      | param name' => exact hq
      | literal b =>
          simp only [covers, accepts, decide_eq_true_eq] at h hq ⊢
          rw [hfold x b hq, h]

/-- A template accepts what one does that it covers. -/
theorem accepts_of_covers (hfold : ∀ x y, fold x = fold y → proper x = proper y)
    (h : covers fold proper ps qs = true) (hq : accepts fold proper qs xs = true) :
    accepts fold proper ps xs = true := by
  induction xs generalizing ps qs with
  | nil => cases ps <;> cases qs <;> simp_all [accepts, covers]
  | cons x xs ih =>
      cases qs with
      | nil => simp [accepts] at hq
      | cons q qs =>
          cases ps with
          | nil => simp [covers] at h
          | cons p ps =>
              simp only [covers, Bool.and_eq_true] at h
              rw [accepts_cons] at hq ⊢
              exact ⟨Segment.accepts_of_covers hfold h.1 hq.1, ih h.2 hq.2⟩

/-- A template without parameters accepts what it reads like. -/
theorem accepts_literals {texts : List α} :
    accepts fold proper (texts.map .literal) xs = true ↔ xs.map fold = texts.map fold := by
  induction texts generalizing xs with
  | nil => cases xs <;> simp [accepts]
  | cons text texts ih =>
      cases xs with
      | nil => simp [accepts]
      | cons x xs =>
          rw [List.map_cons, accepts_cons, ih, List.map_cons, List.map_cons, List.cons.injEq]
          simp [Segment.accepts]

end Templates

/-! ## The first route that answers -/

section Dispatch

variable {ρ : Type u} {χ : Type v} [DecidableEq ρ] (answers : ρ → χ → Bool)

/-- The first route that answers a request. -/
def dispatch (routes : List ρ) (x : χ) : Option ρ := routes.find? fun r => answers r x

/-- The routes before a route that it meets. -/
def rivals (meets : ρ → ρ → Bool) (routes : List ρ) (r : ρ) : List ρ :=
  (routes.takeWhile (· ≠ r)).filter fun r' => meets r' r

variable {answers} {routes : List ρ} {r : ρ} {x : χ}

omit [DecidableEq ρ] in
theorem dispatch_cons {first : ρ} {rest : List ρ} :
    dispatch answers (first :: rest) x =
      if answers first x = true then some first else dispatch answers rest x := by
  by_cases h : answers first x = true
  · rw [if_pos h, dispatch, List.find?_cons, h]
  · rw [if_neg h, dispatch, List.find?_cons, (Bool.not_eq_true _).mp h]
    rfl

omit [DecidableEq ρ] in
/-- Only a route that is registered gets anything. -/
theorem mem_of_dispatch (h : dispatch answers routes x = some r) : r ∈ routes :=
  List.mem_of_find?_eq_some h

omit [DecidableEq ρ] in
/-- What a route gets, it answers. -/
theorem answers_of_dispatch (h : dispatch answers routes x = some r) : answers r x = true := by
  induction routes with
  | nil => cases h
  | cons first rest ih =>
      rw [dispatch_cons] at h
      by_cases hfirst : answers first x = true
      · rw [if_pos hfirst] at h
        cases h
        exact hfirst
      · rw [if_neg hfirst] at h
        exact ih h

theorem dispatch_eq_some_iff_before : dispatch answers routes x = some r ↔
    r ∈ routes ∧ answers r x = true ∧ ∀ r' ∈ routes.takeWhile (· ≠ r), answers r' x = false := by
  induction routes with
  | nil => simp [dispatch]
  | cons first rest ih =>
      rw [dispatch_cons]
      by_cases hfirst : first = r
      · subst hfirst
        rw [List.takeWhile_cons_of_neg (by simp)]
        by_cases hanswers : answers first x = true
        · simp [hanswers]
        · -- the rest may hold the route again, but it does not answer
          have hnone : dispatch answers rest x ≠ some first := fun h =>
            hanswers (answers_of_dispatch h)
          simp [hanswers, hnone]
      · rw [List.takeWhile_cons_of_pos (by simpa using hfirst)]
        by_cases hanswers : answers first x = true
        · simp [hanswers, hfirst]
        · rw [if_neg hanswers, ih]
          simp [hanswers, Ne.symm hfirst]

/-- **A route gets what it answers, less what its rivals do.** -/
theorem dispatch_eq_some_iff (meets : ρ → ρ → Bool)
    (hmeets : ∀ r' r x, answers r' x = true → answers r x = true → meets r' r = true) :
    dispatch answers routes x = some r ↔
      r ∈ routes ∧ answers r x = true ∧ ∀ r' ∈ rivals meets routes r, answers r' x = false := by
  rw [dispatch_eq_some_iff_before]
  refine and_congr_right fun _ => and_congr_right fun hanswers => ?_
  constructor
  · intro h r' hr'
    exact h r' (List.mem_filter.mp hr').1
  · intro h r' hr'
    by_cases hboth : answers r' x = true
    · exact h r' (List.mem_filter.mpr ⟨hr', hmeets r' r x hboth hanswers⟩)
    · exact (Bool.not_eq_true _).mp hboth

end Dispatch

end Routing
