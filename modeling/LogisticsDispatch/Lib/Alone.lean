/-
Programs that run alone.

Where calls are made one at a time, nothing comes between the effects of a program, and a call is
one step: `Program.run` performs the effects of a program one after the other and gives what it
returns or throws and the state it leaves. The state may hold what the answers are drawn from.
-/
import Mathlib.Data.Nat.Notation
import LogisticsDispatch.Lib.Program

set_option autoImplicit false

namespace Resumable

universe u v w

namespace Program

variable {E : Type u} {R : E → Type v} {ε α β : Type v} {S : Type w}
  (exec : (e : E) → S → Except ε (R e) × S)

/-- Run a program to its end. -/
def run : Program E R ε α → S → Except ε α × S
  | ret a, s => (.ok a, s)
  | fail err, s => (.error err, s)
  | op e k, s => (k (exec e s).1).run (exec e s).2

@[simp] theorem run_ret (a : α) (s : S) :
    (ret a : Program E R ε α).run exec s = (.ok a, s) := rfl

@[simp] theorem run_fail (err : ε) (s : S) :
    (fail err : Program E R ε α).run exec s = (.error err, s) := rfl

@[simp] theorem run_op (e : E) (k : Except ε (R e) → Program E R ε α) (s : S) :
    (op e k).run exec s = (k (exec e s).1).run exec (exec e s).2 := rfl

@[simp] theorem run_pure (a : α) (s : S) :
    (pure a : Program E R ε α).run exec s = (.ok a, s) := rfl

@[simp] theorem run_throw (err : ε) (s : S) :
    (throw err : Program E R ε α).run exec s = (.error err, s) := rfl

/-- What comes second runs on what the first has returned, if it has. -/
theorem run_bind (p : Program E R ε α) (f : α → Program E R ε β) (s : S) :
    (p >>= f).run exec s = match p.run exec s with
      | (.ok a, s) => (f a).run exec s
      | (.error err, s) => (.error err, s) := by
  induction p generalizing s with
  | ret a => rfl
  | fail err => rfl
  | op e k ih => exact ih _ _

theorem run_bind_ok {p : Program E R ε α} {s s' : S} {a : α} (f : α → Program E R ε β)
    (h : p.run exec s = (.ok a, s')) : (p >>= f).run exec s = (f a).run exec s' := by
  rw [run_bind, h]

theorem run_bind_error {p : Program E R ε α} {s s' : S} {err : ε} (f : α → Program E R ε β)
    (h : p.run exec s = (.error err, s')) : (p >>= f).run exec s = (.error err, s') := by
  rw [run_bind, h]

/-- The handler runs if something was thrown. -/
theorem run_tryCatch (p : Program E R ε α) (h : ε → Program E R ε α) (s : S) :
    (MonadExcept.tryCatch p h).run exec s = match p.run exec s with
      | (.ok a, s) => (.ok a, s)
      | (.error err, s) => (h err).run exec s := by
  induction p generalizing s with
  | ret a => rfl
  | fail err => rfl
  | op e k ih => exact ih _ _

theorem run_perform (e : E) (s : S) : (perform e : Program E R ε (R e)).run exec s = exec e s := by
  rw [perform, run_op]
  generalize exec e s = res
  obtain ⟨_ | _, s'⟩ := res
  · rfl
  · rfl

/-- An effect that answers. -/
theorem run_perform_bind {e : E} {s s' : S} {r : R e} (f : R e → Program E R ε β)
    (h : exec e s = (.ok r, s')) : (perform e >>= f).run exec s = (f r).run exec s' := by
  rw [perform_bind, run_op, h]
  rfl

/-- An effect that fails. -/
theorem run_perform_bind_error {e : E} {s s' : S} {err : ε} (f : R e → Program E R ε β)
    (h : exec e s = (.error err, s')) : (perform e >>= f).run exec s = (.error err, s') := by
  rw [perform_bind, run_op, h]
  rfl

/-- A loop that swallows what its body throws runs the body on one element after the other. -/
theorem run_forM_swallow (f : β → Program E R ε PUnit) (l : List β) (s : S) :
    (l.forM fun x => MonadExcept.tryCatch (f x) fun _ => pure PUnit.unit).run exec s
      = (.ok PUnit.unit, l.foldl (fun s x => ((f x).run exec s).2) s) := by
  induction l generalizing s with
  | nil => rfl
  | cons x l ih =>
      have hbody : (MonadExcept.tryCatch (f x) fun _ => pure PUnit.unit).run exec s
          = (.ok PUnit.unit, ((f x).run exec s).2) := by
        rw [run_tryCatch]
        generalize (f x).run exec s = res
        obtain ⟨err | a, s'⟩ := res
        · rfl
        · rfl
      rw [List.forM_eq_forM, List.forM_cons, run_bind_ok _ _ hbody, List.foldl_cons]
      exact ih _

/-- What the effects of a program keep, its run keeps. -/
theorem run_keeps {P : E → Prop} {I : S → Prop} {p : Program E R ε α} {s : S}
    (hkeep : ∀ e s, P e → I s → I (exec e s).2) (hp : p.All P) (hs : I s) :
    I (p.run exec s).2 := by
  induction p generalizing s with
  | ret a => exact hs
  | fail err => exact hs
  | op e k ih => exact ih _ (hp.2 _) (hkeep e s hp.1 hs)

/-- The program returns, whatever the state it is started in. -/
def Succeeds (p : Program E R ε α) : Prop := ∀ s, ∃ a s', p.run exec s = (.ok a, s')

section Succeeds

variable {exec}

theorem succeeds_ret (a : α) : (ret a : Program E R ε α).Succeeds exec := fun s => ⟨a, s, rfl⟩

theorem succeeds_perform {e : E} (h : ∀ s, ∃ r s', exec e s = (.ok r, s')) :
    (perform e : Program E R ε (R e)).Succeeds exec := by
  intro s
  rw [run_perform]
  exact h s

theorem Succeeds.bind {p : Program E R ε α} {f : α → Program E R ε β} (hp : p.Succeeds exec)
    (hf : ∀ a, (f a).Succeeds exec) : (p >>= f).Succeeds exec := by
  intro s
  obtain ⟨a, s', hrun⟩ := hp s
  rw [run_bind_ok exec f hrun]
  exact hf a s'

/-- What is thrown does no harm if every handler returns. -/
theorem succeeds_tryCatch {p : Program E R ε α} {h : ε → Program E R ε α}
    (hh : ∀ err, (h err).Succeeds exec) : (MonadExcept.tryCatch p h).Succeeds exec := by
  intro s
  rw [run_tryCatch]
  generalize p.run exec s = res
  obtain ⟨err | a, s'⟩ := res
  · exact hh err s'
  · exact ⟨a, s', rfl⟩

end Succeeds

end Program

/-! ## Choices drawn from a stream -/

section Streams

variable {E : Type u} {R : E → Type v} {ε : Type v} {S : Type w} {C : Type w}

/-- Effects that are performed with the choices of a stream, one after the other. -/
def withChoices (exec : C → (e : E) → S → Except ε (R e) × S) (e : E) (s : S × (ℕ → C)) :
    Except ε (R e) × (S × (ℕ → C)) :=
  let (r, s') := exec (s.2 0) e s.1
  (r, s', fun n => s.2 (n + 1))

end Streams

end Resumable
