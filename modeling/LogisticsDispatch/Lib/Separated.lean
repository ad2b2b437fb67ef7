/-
Parts joined by a separator.

A part without the separator in it is read back from the text: it is what comes before the first
separator (`before_append`). So two texts whose first parts are free of it agree in these parts and
in what follows (`append_inj`), and texts of several parts agree part by part (`join_cons_inj`).
The last part may hold the separator.
-/
import Mathlib.Data.List.TakeWhile

set_option autoImplicit false

universe u

namespace Separated

variable {α : Type u} {sep : α} {p q xs ys : List α}

/-- The parts, with the separator between them. -/
def join (sep : α) (parts : List (List α)) : List α := [sep].intercalate parts

@[simp] theorem join_singleton : join sep [p] = p := by
  rw [join, List.intercalate_singleton]

@[simp] theorem join_cons_cons {ps : List (List α)} :
    join sep (p :: q :: ps) = p ++ sep :: join sep (q :: ps) := by
  rw [join, join, List.intercalate_cons_cons]
  simp

section DecidableEq

variable [DecidableEq α]

/-- What comes before the first separator, all of it where there is none. -/
def before (sep : α) (xs : List α) : List α := xs.takeWhile (· ≠ sep)

/-- A text is free of the separator if none of its letters is. -/
theorem free_iff : sep ∉ xs ↔ ∀ x ∈ xs, decide (x ≠ sep) = true := by
  simp only [decide_eq_true_eq]
  constructor
  · rintro h x hx rfl
    exact h hx
  · intro h hsep
    exact h sep hsep rfl

/-- What is free of the separator comes before it. -/
theorem before_eq_self (h : sep ∉ xs) : before sep xs = xs := by
  rw [before, List.takeWhile_eq_self_iff]
  exact free_iff.mp h

theorem before_append (h : sep ∉ p) : before sep (p ++ sep :: xs) = p := by
  rw [before, List.takeWhile_append_of_pos (free_iff.mp h), List.takeWhile_cons_of_neg (by simp),
    List.append_nil]

/-- A text is its first part, or the part, a separator and what follows. -/
theorem before_spec (sep : α) (xs : List α) :
    sep ∉ before sep xs ∧ (xs = before sep xs ∨ ∃ ys, xs = before sep xs ++ sep :: ys) := by
  induction xs with
  | nil => simp [before]
  | cons x xs ih =>
      obtain ⟨hfree, hparts⟩ := ih
      by_cases hx : x = sep
      · subst hx
        simp [before]
      · have hbefore : before sep (x :: xs) = x :: before sep xs := by simp [before, hx]
        rw [hbefore]
        refine ⟨by simp [hfree, Ne.symm hx], ?_⟩
        rcases hparts with hall | ⟨ys, hys⟩
        · exact .inl (congrArg (x :: ·) hall)
        · exact .inr ⟨ys, congrArg (x :: ·) hys⟩

/-- What comes after the first separator, if there is one. -/
def after (sep : α) (xs : List α) : Option (List α) :=
  match xs.dropWhile (· ≠ sep) with
  | [] => none
  | _ :: rest => some rest

theorem after_append (h : sep ∉ p) : after sep (p ++ sep :: xs) = some xs := by
  rw [after, List.dropWhile_append_of_pos (free_iff.mp h), List.dropWhile_cons_of_neg (by simp)]

/-- Two texts agree exactly if their first parts do and what follows. -/
theorem append_inj (hp : sep ∉ p) (hq : sep ∉ q) :
    p ++ sep :: xs = q ++ sep :: ys ↔ p = q ∧ xs = ys := by
  constructor
  · intro h
    have hparts : p = q := by
      have hbefore := congrArg (before sep) h
      rwa [before_append hp, before_append hq] at hbefore
    subst hparts
    exact ⟨rfl, (List.cons.inj (List.append_cancel_left h)).2⟩
  · rintro ⟨rfl, rfl⟩
    rfl

/-- Joined parts agree part by part, as long as the first ones are free of the separator. -/
theorem join_cons_inj {p' q' : List α} {ps qs : List (List α)} (hp : sep ∉ p) (hq : sep ∉ q) :
    join sep (p :: p' :: ps) = join sep (q :: q' :: qs) ↔
      p = q ∧ join sep (p' :: ps) = join sep (q' :: qs) := by
  rw [join_cons_cons, join_cons_cons, append_inj hp hq]

end DecidableEq

end Separated
