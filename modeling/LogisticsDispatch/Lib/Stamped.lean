/-
Records with a version that every write increases.

Writers that do not hold a lock read a record, compute, and write only if the
version is still the one they read. That is sound exactly when the version tells
contents apart: along the life of a record the versions never decrease, and while
the version stays the content stays. `Older a b` is that relation, between a copy
and what the record has become. It is a preorder, a write that increases the
version goes up in it, and a copy of the current version has the current content
(`Older.content_eq`): there is no way back to a version that was left.
-/
import Mathlib.Data.Nat.Basic

set_option autoImplicit false

universe u v

/-- How a record of `α` is stamped: its version, and the content the version
stands for. -/
structure Stamp (α : Type u) (κ : Type v) where
  version : α → ℕ
  content : α → κ

namespace Stamp

variable {α : Type u} {κ : Type v} (S : Stamp α κ) {a b c : α}

/-- `b` is what `a` is now or has become by writes since. -/
def Older (a b : α) : Prop :=
  S.version a < S.version b ∨ S.version a = S.version b ∧ S.content a = S.content b

namespace Older

variable {S}

theorem refl (a : α) : S.Older a a := .inr ⟨rfl, rfl⟩

theorem of_lt (h : S.version a < S.version b) : S.Older a b := .inl h

/-- A write that neither touches the version nor the content. -/
theorem of_eq (hv : S.version b = S.version a) (hc : S.content b = S.content a) :
    S.Older a b := .inr ⟨hv.symm, hc.symm⟩

theorem version_le (h : S.Older a b) : S.version a ≤ S.version b := by
  rcases h with h | ⟨h, -⟩ <;> omega

theorem trans (hab : S.Older a b) (hbc : S.Older b c) : S.Older a c := by
  -- one strict step makes the whole strict
  rcases hab with hab | ⟨hv, hcont⟩
  · have hle := hbc.version_le
    exact .inl (by omega)
  · rcases hbc with hbc | ⟨hv', hcont'⟩
    · exact .inl (by omega)
    · exact .inr ⟨hv.trans hv', hcont.trans hcont'⟩

/-- **A copy with the current version has the current content.** -/
theorem content_eq (h : S.Older a b) (hv : S.version a = S.version b) :
    S.content a = S.content b := by
  -- a later version would be another one
  rcases h with h | ⟨-, h⟩
  · omega
  · exact h

end Older

end Stamp
