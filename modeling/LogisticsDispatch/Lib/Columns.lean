/-
Rows that are loaded, edited and saved by their columns.

A row has a value in every column. A copy has the values of the columns that were selected when
it was loaded, and saving a copy writes those columns and leaves the others alone. Nothing locks
the row in between.

An edit is about some columns. `save_eq_off_iff` says when the save changes no others: exactly when
the row still has, in each of those that were selected, the value that was loaded.
-/
import Mathlib.Data.Option.Basic

set_option autoImplicit false

namespace Columns

universe u v

variable {C : Type u} {V : C → Type v}

/-- A copy of a row: the values of the columns that were selected. -/
abbrev Copy (V : C → Type v) : Type (max u v) := (c : C) → Option (V c)

/-- Save a copy over a row. -/
def save (copy : Copy V) (row : (c : C) → V c) : (c : C) → V c :=
  fun c => (copy c).getD (row c)

/-- The row has what was loaded, but for the columns of `about`. -/
def Current (about : C → Prop) (loaded : Copy V) (row : (c : C) → V c) : Prop :=
  ∀ c, ¬ about c → ∀ v, loaded c = some v → row c = v

/-- The copy is what was loaded, but for the columns of `about`. -/
def Edits (about : C → Prop) (loaded copy : Copy V) : Prop :=
  ∀ c, ¬ about c → copy c = loaded c

variable {about : C → Prop} {loaded copy : Copy V} {row : (c : C) → V c}

/-- A column that was selected gets the value of the copy. -/
theorem save_of_some {c : C} {v : V c} (h : copy c = some v) : save copy row c = v := by
  rw [save, h, Option.getD_some]

/-- A column that was not selected is left alone. -/
theorem save_of_none {c : C} (h : copy c = none) : save copy row c = row c := by
  rw [save, h, Option.getD_none]

/-- **What a save changes.** The save of an edited copy changes only the columns the edit is
about if and only if the row has, in the others that were selected, what was loaded. -/
theorem save_eq_off_iff (hedits : Edits about loaded copy) :
    (∀ c, ¬ about c → save copy row c = row c) ↔ Current about loaded row := by
  constructor
  · intro hsame c hc v hv
    rw [← hsame c hc]
    exact save_of_some ((hedits c hc).trans hv)
  · intro hcurrent c hc
    cases hv : loaded c with
    | none => exact save_of_none ((hedits c hc).trans hv)
    | some v =>
        rw [save_of_some ((hedits c hc).trans hv)]
        exact (hcurrent c hc v hv).symm

end Columns
