/-
Keyset pagination.

Rows in strictly descending order of their positions are read page by page. A page is the
first `limit` rows below a bound, and the bound of the page after it is the mark that the last
row of the page leaves. A mark may be less precise than the position it stands for: it is not
above it, and that is all the reader can rely on.

So the reader always comes to an end (`exists_pages`) and sees no row twice and none out of
order (`Pages.flatten_sublist`), but skips what lies between the last row of a page and its
mark. `Pages.flatten_eq_iff` says exactly when nothing lies there.
-/
import Mathlib.Data.List.Sort
import Mathlib.Order.Defs.LinearOrder

set_option autoImplicit false

universe u v

namespace Keyset

variable {V : Type u} {P : Type v} [LinearOrder P]

/-! ## Descending lists -/

/-- Every row is above those after it. -/
def Descending (pos : V → P) (rows : List V) : Prop := rows.Pairwise fun v w => pos w < pos v

section Descending

variable {pos : V → P} {rows rows' : List V} {v w : V} {n limit : ℕ}

theorem Descending.sublist (h : Descending pos rows) (hsub : rows'.Sublist rows) :
    Descending pos rows' := List.Pairwise.sublist hsub h

/-- There is one descending list of given rows. -/
theorem Descending.eq_of_perm (h : Descending pos rows) (h' : Descending pos rows')
    (hperm : rows.Perm rows') : rows = rows' := by
  refine List.Perm.eq_of_pairwise ?_ h h' hperm
  intro v w _ _ hvw hwv
  exact absurd hvw hwv.asymm

/-- Sorting makes a list descending if no two rows share a position. -/
theorem descending_insertionSort (h : (rows.map pos).Nodup) :
    Descending pos (rows.insertionSort fun v w => pos w ≤ pos v) := by
  have htotal : Std.Total fun v w : V => pos w ≤ pos v := ⟨fun _ _ => le_total _ _⟩
  have htrans : IsTrans V fun v w => pos w ≤ pos v := ⟨fun _ _ _ hvw hwx => hwx.trans hvw⟩
  have hsorted := List.pairwise_insertionSort (fun v w => pos w ≤ pos v) rows
  have hperm := List.perm_insertionSort (fun v w => pos w ≤ pos v) rows
  have hdistinct := List.pairwise_map.mp ((hperm.map pos).nodup_iff.mpr h)
  exact (hsorted.and hdistinct).imp fun hvw => lt_of_le_of_ne hvw.1 hvw.2.symm

/-- A row in the first `n + 1` is not below the last of them. -/
theorem Descending.le_of_mem_take (h : Descending pos rows) (hv : rows[n]? = some v)
    (hw : w ∈ rows.take (n + 1)) : pos v ≤ pos w := by
  obtain ⟨i, hi, rfl⟩ := List.mem_iff_getElem.mp hw
  rw [List.length_take] at hi
  rw [List.getElem_take]
  obtain ⟨hn, rfl⟩ := List.getElem?_eq_some_iff.mp hv
  by_cases hin : i = n
  · subst hin
    exact le_rfl
  · exact (List.pairwise_iff_getElem.mp h i n (by omega) hn (by omega)).le

/-- A row after the first `n` is not above the first of those. -/
theorem Descending.le_of_mem_drop (h : Descending pos rows) (hv : rows[n]? = some v)
    (hw : w ∈ rows.drop n) : pos w ≤ pos v := by
  obtain ⟨i, hi, rfl⟩ := List.mem_iff_getElem.mp hw
  rw [List.length_drop] at hi
  rw [List.getElem_drop]
  obtain ⟨hn, rfl⟩ := List.getElem?_eq_some_iff.mp hv
  by_cases hi0 : i = 0
  · simp [hi0]
  · exact (List.pairwise_iff_getElem.mp h n (n + i) hn (by omega) (by omega)).le

end Descending

/-! ## The rows below a bound -/

/-- The rows below a bound, all of them if there is none. -/
def under (pos : V → P) (bound : Option P) (rows : List V) : List V :=
  rows.filter fun v => bound.all fun b => decide (pos v < b)

section Below

variable {pos : V → P} {rows : List V} {bound : Option P} {v w : V} {b : P} {n : ℕ}

@[simp] theorem under_none (pos : V → P) (rows : List V) : under pos none rows = rows := by
  simp [under]

theorem mem_under_some : w ∈ under pos (some b) rows ↔ w ∈ rows ∧ pos w < b := by
  simp [under]

theorem under_sublist (pos : V → P) (bound : Option P) (rows : List V) :
    (under pos bound rows).Sublist rows := List.filter_sublist

theorem Descending.under (h : Descending pos rows) (bound : Option P) :
    Descending pos (under pos bound rows) := h.sublist (under_sublist pos bound rows)

/-- The rows below a bound, sorted, are those of the sorted list. -/
theorem under_insertionSort (h : (rows.map pos).Nodup) (bound : Option P) :
    (under pos bound rows).insertionSort (fun v w => pos w ≤ pos v) =
      under pos bound (rows.insertionSort fun v w => pos w ≤ pos v) := by
  have hnodup : ((under pos bound rows).map pos).Nodup :=
    h.sublist ((under_sublist pos bound rows).map pos)
  refine (descending_insertionSort hnodup).eq_of_perm ((descending_insertionSort h).under bound) ?_
  have hperm := List.perm_insertionSort (fun v w => pos w ≤ pos v) rows
  exact (List.perm_insertionSort _ _).trans (hperm.symm.filter _)

/-- Who goes on below a position not above that of a row under the bound drops the bound. -/
theorem under_under (hv : v ∈ under pos bound rows) (hb : b ≤ pos v) :
    under pos (some b) (under pos bound rows) = under pos (some b) rows := by
  rw [under, under, List.filter_filter]
  refine List.filter_congr fun w _ => ?_
  rw [Bool.and_eq_left_iff_imp]
  intro hw
  simp only [Option.all_some, decide_eq_true_eq] at hw
  cases bound with
  | none => rfl
  | some c =>
      have hc : pos v < c := (mem_under_some.mp hv).2
      simpa using (hw.trans_le hb).trans hc

/-- What is below a mark is after the row that left it. -/
theorem under_drop (h : Descending pos rows) (hv : rows[n]? = some v) (hb : b ≤ pos v) :
    under pos (some b) rows = under pos (some b) (rows.drop (n + 1)) := by
  have hnone : under pos (some b) (rows.take (n + 1)) = [] := by
    rw [under, List.filter_eq_nil_iff]
    intro w hw
    have hle : pos v ≤ pos w := h.le_of_mem_take hv hw
    simpa using hb.trans hle
  conv_lhs => rw [← List.take_append_drop (n + 1) rows]
  rw [under, List.filter_append, ← under, ← under, hnone, List.nil_append]

end Below

/-! ## Pages -/

/-- The pages that are read from a bound on, up to the one that is the last. -/
inductive Pages (pos mark : V → P) (limit : ℕ) (rows : List V) :
    Option P → List (List V) → Prop
  | last {bound : Option P} (hfit : (under pos bound rows).length ≤ limit) :
      Pages pos mark limit rows bound [under pos bound rows]
  | next {bound : Option P} {v : V} {pages : List (List V)}
      (hmore : limit < (under pos bound rows).length)
      (hlast : (under pos bound rows)[limit - 1]? = some v)
      (hrest : Pages pos mark limit rows (some (mark v)) pages) :
      Pages pos mark limit rows bound ((under pos bound rows).take limit :: pages)

/-- After every `limit` rows, the next row is below the mark of the last. -/
def Separated (pos mark : V → P) (limit : ℕ) (rows : List V) : Prop :=
  ∀ n v w, limit ∣ n + 1 → rows[n]? = some v → rows[n + 1]? = some w → pos w < mark v

section Pages

variable {pos mark : V → P} {limit : ℕ} {rows : List V} {bound : Option P}
  {pages : List (List V)} {v w : V}

theorem Pages.length_le (h : Pages pos mark limit rows bound pages) :
    ∀ page ∈ pages, page.length ≤ limit := by
  induction h with
  | last hfit => simpa using hfit
  | next hmore hlast hrest ih =>
      intro page hpage
      rcases List.mem_cons.mp hpage with rfl | hpage
      · simp
      · exact ih page hpage

variable (hrows : Descending pos rows) (hmark : ∀ v, mark v ≤ pos v) (hlimit : 0 < limit)
include hrows hmark hlimit

/-- The rows below the mark of a page are rows after the page. -/
theorem under_mark (hlast : (under pos bound rows)[limit - 1]? = some v) :
    under pos (some (mark v)) rows =
      under pos (some (mark v)) ((under pos bound rows).drop limit) := by
  have hv : v ∈ under pos bound rows := List.mem_of_getElem? hlast
  have hdrop := under_drop (hrows.under bound) hlast (hmark v)
  rw [Nat.sub_add_cancel hlimit] at hdrop
  rw [← under_under hv (hmark v), hdrop]

/-- **The reader comes to an end**, from any bound. -/
theorem exists_pages (bound : Option P) : ∃ pages, Pages pos mark limit rows bound pages := by
  -- each page leaves fewer rows below its mark
  induction hn : (under pos bound rows).length using Nat.strong_induction_on generalizing bound with
  | _ n ih =>
      by_cases hfit : (under pos bound rows).length ≤ limit
      · exact ⟨_, .last hfit⟩
      · have hlt : limit - 1 < (under pos bound rows).length := by omega
        obtain ⟨v, hlast⟩ : ∃ v, (under pos bound rows)[limit - 1]? = some v :=
          ⟨_, List.getElem?_eq_getElem hlt⟩
        have hless : (under pos (some (mark v)) rows).length < n := by
          rw [under_mark hrows hmark hlimit hlast]
          have hle := (under_sublist pos (some (mark v))
            ((under pos bound rows).drop limit)).length_le
          rw [List.length_drop] at hle
          omega
        obtain ⟨pages, hpages⟩ := ih _ hless _ rfl
        exact ⟨_, .next (by omega) hlast hpages⟩

/-- **No row comes twice or out of order.** -/
theorem Pages.flatten_sublist (h : Pages pos mark limit rows bound pages) :
    pages.flatten.Sublist (under pos bound rows) := by
  induction h with
  | last hfit => simp
  | @next bound v pages hmore hlast hrest ih =>
      rw [under_mark hrows hmark hlimit hlast] at ih
      conv_rhs => rw [← List.take_append_drop limit (under pos bound rows)]
      exact (ih.trans (under_sublist _ _ _)).append_left _

omit hrows hmark in
/-- The condition on a list, at the end of its first page and after it. -/
theorem separated_iff {rows : List V} (hv : rows[limit - 1]? = some v)
    (hw : rows[limit]? = some w) :
    Separated pos mark limit rows ↔
      pos w < mark v ∧ Separated pos mark limit (rows.drop limit) := by
  constructor
  · intro h
    constructor
    · have hdvd : limit ∣ limit - 1 + 1 := ⟨1, by omega⟩
      refine h (limit - 1) v w hdvd hv ?_
      rwa [Nat.sub_add_cancel hlimit]
    · intro n x y hn hx hy
      rw [List.getElem?_drop] at hx hy
      refine h (limit + n) x y ?_ hx hy
      rw [Nat.add_assoc]
      exact Nat.dvd_add (Nat.dvd_refl limit) hn
  · rintro ⟨hfirst, hrest⟩ n x y hn hx hy
    have hle : limit ≤ n + 1 := Nat.le_of_dvd (by omega) hn
    by_cases heq : limit = n + 1
    · have hx' : v = x := by
        rw [← Option.some.injEq, ← hv, ← hx, heq]
        rfl
      have hy' : w = y := by
        rw [← Option.some.injEq, ← hw, ← hy, heq]
      rwa [← hx', ← hy']
    · -- the boundary is one of the rest
      obtain ⟨m, rfl⟩ : ∃ m, n = limit + m := ⟨n - limit, by omega⟩
      refine hrest m x y ?_ ?_ ?_
      · rwa [Nat.add_assoc, Nat.dvd_add_right (Nat.dvd_refl limit)] at hn
      · rwa [List.getElem?_drop]
      · rwa [List.getElem?_drop]

/-- **Nothing is skipped exactly if every page ends at a boundary its mark is precise enough
for.** -/
theorem Pages.flatten_eq_iff (h : Pages pos mark limit rows bound pages) :
    pages.flatten = under pos bound rows ↔ Separated pos mark limit (under pos bound rows) := by
  induction h with
  | @last bound hfit =>
      refine iff_of_true (by simp) ?_
      intro n v w hn _ hw
      have hle : limit ≤ n + 1 := Nat.le_of_dvd (by omega) hn
      have hlt := (List.getElem?_eq_some_iff.mp hw).1
      omega
  | @next bound v pages hmore hlast hrest ih =>
      have hnext := List.getElem?_eq_getElem hmore
      rw [separated_iff hlimit hlast hnext]
      have hbelow := under_mark hrows hmark hlimit hlast
      have hsub := hrest.flatten_sublist hrows hmark hlimit
      rw [hbelow] at ih hsub
      generalize hR : under pos bound rows = R at *
      have hdesc : Descending pos R := hR ▸ hrows.under bound
      have hflat : (R.take limit :: pages).flatten = R ↔ pages.flatten = R.drop limit := by
        rw [List.flatten_cons]
        conv_lhs => rhs; rw [← List.take_append_drop limit R]
        exact List.append_right_inj _
      rw [hflat]
      constructor
      · intro heq
        rw [heq] at hsub ih
        -- what follows is all below the mark
        have hall := (under_sublist pos (some (mark v)) (R.drop limit)).antisymm hsub
        have hmem : R[limit] ∈ under pos (some (mark v)) (R.drop limit) := by
          rw [hall]
          have hhead : (R.drop limit)[0]? = some R[limit] := by rwa [List.getElem?_drop]
          exact List.mem_of_getElem? hhead
        rw [hall] at ih
        exact ⟨(mem_under_some.mp hmem).2, ih.mp rfl⟩
      · rintro ⟨hlt, hsep⟩
        have hall : under pos (some (mark v)) (R.drop limit) = R.drop limit := by
          rw [under, List.filter_eq_self]
          intro x hx
          simpa using (hdesc.le_of_mem_drop hnext hx).trans_lt hlt
        rw [hall] at ih
        exact ih.mpr hsep

end Pages

end Keyset
