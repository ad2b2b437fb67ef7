/-
Programs that lock rows, and when they wait for each other in a circle.

What the operations of a program do to locks is given by `Rules`: the row that an operation waits
for, if it waits for one, how it may answer, and the rows that are held after it. An operation
that takes a row only if nobody has it, and goes on without it otherwise, waits for none.

A program is `Orderly` if it waits only while it holds nothing, or for a row it holds already.
Then who waits for another holds nothing, so nobody waits for who waits (`WaitsFor.not_waited`),
and there is no circle (`not_circular`), however many programs there are and whatever rows they
lock.
-/
import Mathlib.Logic.Relation
import LogisticsDispatch.Lib.Program

set_option autoImplicit false

namespace RowLocks

open Resumable Resumable.Program

universe u v w

variable {E : Type u} {R : E → Type v} {ε α β : Type v} {Row : Type w}

/-- What operations do to locks. -/
structure Rules (E : Type u) (R : E → Type v) (ε : Type v) (Row : Type w) where
  waits : E → Option Row
  answers : (e : E) → Except ε (R e) → Prop
  after : (e : E) → Except ε (R e) → List Row → List Row

/-! ## Orderly programs -/

/-- The program waits only while it holds nothing or for what it holds, and what it returns and
holds then meets `A`. -/
def Orderly (rules : Rules E R ε Row) (A : α → List Row → Prop) :
    Program E R ε α → List Row → Prop
  | .ret a, held => A a held
  | .fail _, _ => True
  | .op e k, held =>
      (∀ row, rules.waits e = some row → held = [] ∨ row ∈ held) ∧
        ∀ r, rules.answers e r → Orderly rules A (k r) (rules.after e r held)

section Orderly

variable {rules : Rules E R ε Row} {A : α → List Row → Prop} {B : β → List Row → Prop}
  {p : Program E R ε α} {held : List Row}

theorem Orderly.bind {f : α → Program E R ε β} (hp : Orderly rules A p held)
    (hf : ∀ a held', A a held' → Orderly rules B (f a) held') :
    Orderly rules B (p >>= f) held := by
  induction p generalizing held with
  | ret a => exact hf a held hp
  | fail err => trivial
  | op e k ih => exact ⟨hp.1, fun r hr => ih r (hp.2 r hr)⟩

/-- An operation that need not wait, and what goes on with its answer. -/
theorem orderly_perform_bind {e : E} {g : R e → Program E R ε β}
    (he : ∀ row, rules.waits e = some row → held = [] ∨ row ∈ held)
    (hg : ∀ a, rules.answers e (.ok a) → Orderly rules B (g a) (rules.after e (.ok a) held)) :
    Orderly rules B (perform e >>= g) held := by
  rw [perform_bind]
  refine ⟨he, fun r hr => ?_⟩
  cases r with
  | ok a => exact hg a hr
  | error err => trivial

end Orderly

/-! ## Who waits for whom -/

section WaitsFor

variable {ι : Type*} {rules : Rules E R ε Row} {rest : ι → Option (Program E R ε α)}
  {held : ι → List Row} {i j k : ι}

/-- No row is held by two. -/
def Exclusive (held : ι → List Row) : Prop :=
  ∀ i j row, row ∈ held i → row ∈ held j → i = j

/-- The next operation of `i` waits for a row that `j` holds. -/
def WaitsFor (rules : Rules E R ε Row) (rest : ι → Option (Program E R ε α))
    (held : ι → List Row) (i j : ι) : Prop :=
  ∃ e k row, rest i = some (.op e k) ∧ rules.waits e = some row ∧ j ≠ i ∧ row ∈ held j

variable {A : α → List Row → Prop} (hexcl : Exclusive held)
  (horderly : ∀ i p, rest i = some p → Orderly rules A p (held i))
include hexcl horderly

/-- Who waits for another holds nothing. -/
theorem WaitsFor.held_eq_nil (h : WaitsFor rules rest held i j) : held i = [] := by
  obtain ⟨e, k, row, hrest, hwaits, hne, hrow⟩ := h
  rcases (horderly i _ hrest).1 row hwaits with hnil | hheld
  · exact hnil
  · exact absurd (hexcl j i row hrow hheld) hne

/-- Nobody waits for who waits. -/
theorem WaitsFor.not_waited (h : WaitsFor rules rest held i j) :
    ¬ WaitsFor rules rest held k i := by
  rintro ⟨_, _, row, _, _, _, hrow⟩
  rw [h.held_eq_nil hexcl horderly] at hrow
  exact absurd hrow List.not_mem_nil

/-- **There is no deadlock**: nobody waits, over however many others, for itself. -/
theorem not_circular (i : ι) : ¬ Relation.TransGen (WaitsFor rules rest held) i i := by
  intro hcycle
  obtain ⟨j, hij, -⟩ := Relation.TransGen.head'_iff.mp hcycle
  obtain ⟨k, -, hki⟩ := Relation.TransGen.tail'_iff.mp hcycle
  exact hij.not_waited hexcl horderly hki

end WaitsFor

end RowLocks
