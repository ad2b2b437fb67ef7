/-
A table of rows with a primary key.

The key of a row is a function of the row, and a table carries the fact that every
row is stored under its own key. So a table in which a row sits under another
row's key cannot be built, and what is found under a key has that key.

`put` is both the insert and the update of a whole row. `find_put_self` and
`find_put_of_ne` are the two equations every proof about a table reduces to.
-/
import Mathlib.Data.List.AList

set_option autoImplicit false

universe u v

/-- Rows of `V`, each stored under its key `key v`. -/
structure Table {K : Type u} {V : Type v} [DecidableEq K] (key : V → K) where
  rows : AList fun _ : K => V
  keyed : ∀ k v, rows.lookup k = some v → key v = k

namespace Table

variable {K : Type u} {V : Type v} [DecidableEq K] {key : V → K}

/-- The table without rows. -/
def empty : Table key where
  rows := ∅
  keyed := by
    intro k v h
    simp at h

/-- The row stored under a key. -/
def find (t : Table key) (k : K) : Option V := t.rows.lookup k

/-- Store a row under its key, in the place of the row that was there. -/
def put (t : Table key) (v : V) : Table key where
  rows := t.rows.insert (key v) v
  keyed := by
    intro k w h
    by_cases hk : k = key v
    · subst hk
      rw [AList.lookup_insert] at h
      obtain rfl := Option.some.inj h
      rfl
    · rw [AList.lookup_insert_ne hk] at h
      exact t.keyed k w h

/-- All the rows. -/
def toList (t : Table key) : List V := t.rows.entries.map fun en => en.2

variable {t : Table key} {k : K} {v w : V}

@[simp] theorem find_empty (k : K) : (empty : Table key).find k = none := AList.lookup_empty k

theorem key_of_find (h : t.find k = some v) : key v = k := t.keyed k v h

@[simp] theorem find_put_self (t : Table key) (v : V) : (t.put v).find (key v) = some v :=
  AList.lookup_insert t.rows

theorem find_put_of_ne (h : k ≠ key v) : (t.put v).find k = t.find k :=
  AList.lookup_insert_ne h

theorem find_put (t : Table key) (v : V) (k : K) :
    (t.put v).find k = if k = key v then some v else t.find k := by
  split
  · next h =>
      rw [h]
      exact find_put_self t v
  · next h => exact find_put_of_ne h

/-- A row that is put in the place of one with the same key is found there. -/
theorem find_put_of_eq (h : key v = k) : (t.put v).find k = some v := by
  subst h
  exact find_put_self t v

/-- Storing a row loses none. -/
theorem isSome_find_put (h : (t.find k).isSome) : ((t.put v).find k).isSome := by
  rw [find_put]
  split
  · rfl
  · exact h

/-- The rows of a table are the rows that are found in it. -/
theorem mem_toList : v ∈ t.toList ↔ t.find (key v) = some v := by
  simp only [toList, List.mem_map]
  constructor
  -- an entry sits under the key of its row
  · rintro ⟨⟨k, w⟩, hmem, rfl⟩
    have hfind : t.rows.lookup k = some w := AList.mem_lookup_iff.mpr hmem
    rw [t.keyed k w hfind]
    exact hfind
  · intro h
    exact ⟨⟨key v, v⟩, AList.mem_lookup_iff.mp h, rfl⟩

theorem mem_toList_of_find (h : t.find k = some v) : v ∈ t.toList := by
  rw [mem_toList, key_of_find h]
  exact h

/-- No two rows have the same key. -/
theorem nodup_toList (t : Table key) : (t.toList.map key).Nodup := by
  have hkeys : t.toList.map key = t.rows.entries.map Sigma.fst := by
    rw [toList, List.map_map]
    exact List.map_congr_left fun en hen => t.keyed en.1 en.2 (AList.mem_lookup_iff.mpr hen)
  rw [hkeys]
  exact t.rows.nodupKeys

/-- The rows after one more is stored under a key of its own. -/
theorem mem_toList_put_of_new (h : t.find (key v) = none) :
    w ∈ (t.put v).toList ↔ w = v ∨ w ∈ t.toList := by
  rw [mem_toList, mem_toList]
  by_cases hk : key w = key v
  · rw [find_put_of_eq hk.symm, hk, h]
    simp [eq_comm]
  · rw [find_put_of_ne hk]
    refine ⟨.inr, fun hw => hw.resolve_left ?_⟩
    rintro rfl
    exact hk rfl

/-! ## How a table evolves -/

/-- Every row that was there is still there, as something `R` relates it to. -/
def Evolves (R : V → V → Prop) (t t' : Table key) : Prop :=
  ∀ k v, t.find k = some v → ∃ v', t'.find k = some v' ∧ R v v'

namespace Evolves

variable {R : V → V → Prop} {t₁ t₂ t₃ : Table key}

theorem refl (hR : ∀ v, R v v) (t : Table key) : Evolves R t t :=
  fun _ v hv => ⟨v, hv, hR v⟩

theorem trans (hR : ∀ {a b c}, R a b → R b c → R a c) (h₁₂ : Evolves R t₁ t₂)
    (h₂₃ : Evolves R t₂ t₃) : Evolves R t₁ t₃ := by
  intro k v hv
  obtain ⟨v', hv', hR'⟩ := h₁₂ k v hv
  obtain ⟨v'', hv'', hR''⟩ := h₂₃ k v' hv'
  exact ⟨v'', hv'', hR hR' hR''⟩

/-- Storing a row the old one is related to, or a row under a new key. -/
theorem put (hR : ∀ v, R v v) (h : ∀ w, t.find (key v) = some w → R w v) :
    Evolves R t (t.put v) := by
  intro k w hw
  by_cases hk : k = key v
  · subst hk
    exact ⟨v, find_put_self t v, h w hw⟩
  · exact ⟨w, (find_put_of_ne hk).trans hw, hR w⟩

end Evolves

end Table
