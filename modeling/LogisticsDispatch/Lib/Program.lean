/-
Programs that are suspended at every effect they ask for.

A `Program` is a tree: it has returned, it has thrown, or it is about to perform
one effect and continues with whatever that effect answers. An effect either
answers with a value or throws. Because the rest of a program is a value of the
same type, a call that is under way is just the program that is left of it, and
several calls are interleaved by performing one effect of one of them at a time
(`Pool.lean`).

Several predicates are folds over the tree.

* `AllNodes P` : `P` holds at every effect the program may perform, of the effect
  together with the continuation that waits for its answer; `All P` looks at the
  effect alone.
* `Will P A` : as long as every answer meets `A`, the program performs an effect that
  meets `P`. It is how a pending obligation of a call that is under way is stated.
* `Returns P` : whatever the program returns meets `P`.
* `NodesUnder A P` : `AllNodes P`, as long as every answer meets `A`.
* `Follows B C A` : effects of one kind come only after effects of another.
* `Earns B C A` : effects of one kind come only after answers of another.
* `Directly P B` : effects of one kind come only directly after answers of another.
* `Afterwards A U` : after an answer of one kind there are only effects of another.
* `Emits f A` : the effects that `f` labels are those of a list, in its order.
* `ThrowsBy U T` : the program gets to where `T` holds exactly by an effect of `U` that fails.

Each has its rules for `pure`, `>>=`, `throw` and `tryCatch`, so what a function
written with `do` does is derived from what the functions it calls do.
-/
import Mathlib.Logic.Basic

set_option autoImplicit false

namespace Resumable

universe u v

/-- A program over the effects `E`, an effect `e` answering with a value of `R e`
or throwing an error of `ε`. -/
inductive Program (E : Type u) (R : E → Type v) (ε α : Type v) : Type (max u v)
  | ret (a : α)
  | fail (err : ε)
  | op (e : E) (k : Except ε (R e) → Program E R ε α)

namespace Program

variable {E : Type u} {R : E → Type v} {ε α β γ : Type v}

/-- Run `p`, then `f` on what it returned. -/
protected def bind : Program E R ε α → (α → Program E R ε β) → Program E R ε β
  | ret a, f => f a
  | fail err, _ => fail err
  | op e k, f => op e fun r => (k r).bind f

/-- Run `p`; if it throws, go on with the handler. -/
protected def tryCatch : Program E R ε α → (ε → Program E R ε α) → Program E R ε α
  | ret a, _ => ret a
  | fail err, h => h err
  | op e k, h => op e fun r => (k r).tryCatch h

instance : Monad (Program E R ε) where
  pure := ret
  bind := Program.bind

instance : MonadExceptOf ε (Program E R ε) where
  throw := fail
  tryCatch := Program.tryCatch

/-- Perform one effect; an effect that throws makes the program throw. -/
def perform (e : E) : Program E R ε (R e) :=
  op e fun
    | .ok a => ret a
    | .error err => fail err

/-- Go on with the value of a pure computation, or throw its error. -/
def ofExcept : Except ε α → Program E R ε α
  | .ok a => ret a
  | .error err => fail err

/-- Go on with an answer, or throw the error there is instead. -/
def orThrow (g : α → Program E R ε β) : Except ε α → Program E R ε β
  | .ok a => g a
  | .error err => fail err

/-- The program has returned or thrown. -/
def isDone : Program E R ε α → Bool
  | ret _ => true
  | fail _ => true
  | op _ _ => false

section Equations

variable (a : α) (err : ε) (e : E) (k : Except ε (R e) → Program E R ε α)
  (f : α → Program E R ε β) (h : ε → Program E R ε α)

@[simp] theorem ret_bind : ((ret a : Program E R ε α) >>= f) = f a := rfl
@[simp] theorem fail_bind : ((fail err : Program E R ε α) >>= f) = fail err := rfl
@[simp] theorem op_bind : (op e k >>= f) = op e fun r => k r >>= f := rfl
@[simp] theorem ret_tryCatch : tryCatch (ret a : Program E R ε α) h = ret a := rfl
@[simp] theorem fail_tryCatch : tryCatch (fail err : Program E R ε α) h = h err := rfl
@[simp] theorem op_tryCatch :
    tryCatch (op e k) h = op e fun r => tryCatch (k r) h := rfl

/-- Performing an effect and going on with its answer. -/
theorem perform_bind (g : R e → Program E R ε β) : (perform e >>= g) = op e (orThrow g) := by
  show op e _ = op e _
  -- the two continuations agree on answers and on errors
  congr 1
  funext r
  cases r <;> rfl

/-- Performing an effect, going on with its answer, and then with what that has returned. -/
theorem perform_bind_bind (g : R e → Program E R ε β) (f : β → Program E R ε γ) :
    ((perform e >>= g) >>= f) = op e (orThrow fun a => g a >>= f) := by
  rw [perform_bind, op_bind]
  congr 1
  funext r
  cases r <;> rfl

end Equations

/-- Whatever `p` returns meets `P`. -/
def Returns (P : α → Prop) : Program E R ε α → Prop
  | ret a => P a
  | fail _ => True
  | op _ k => ∀ r, (k r).Returns P

theorem returns_of_forall {P : α → Prop} (h : ∀ a, P a) (p : Program E R ε α) : p.Returns P := by
  induction p with
  | ret a => exact h a
  | fail err => trivial
  | op e k ih => exact ih

/-- What an effect and what follows on its answer return. -/
theorem returns_perform_bind {P : β → Prop} {e : E} {g : R e → Program E R ε β}
    (h : ∀ a, (g a).Returns P) : (perform e >>= g).Returns P := by
  rw [perform_bind]
  intro r
  cases r with
  | ok a => exact h a
  | error err => trivial

/-! ## Every effect of a program -/

/-- `P` holds at every effect `p` may perform, of the effect and of the
continuation that waits for its answer. -/
def AllNodes (P : (e : E) → (Except ε (R e) → Program E R ε α) → Prop) :
    Program E R ε α → Prop
  | ret _ => True
  | fail _ => True
  | op e k => P e k ∧ ∀ r, (k r).AllNodes P

/-- Every effect `p` may perform meets `P`. -/
def All (P : E → Prop) : Program E R ε α → Prop
  | ret _ => True
  | fail _ => True
  | op e k => P e ∧ ∀ r, (k r).All P

section All

variable {P Q : E → Prop} {p : Program E R ε α}

theorem all_perform {e : E} (h : P e) : (perform e : Program E R ε (R e)).All P := by
  refine ⟨h, fun r => ?_⟩
  cases r <;> trivial

theorem All.mono (h : p.All P) (hPQ : ∀ e, P e → Q e) : p.All Q := by
  induction p with
  | ret a => trivial
  | fail err => trivial
  | op e k ih => exact ⟨hPQ e h.1, fun r => ih r (h.2 r)⟩

theorem All.bind {f : α → Program E R ε β} (hp : p.All P) (hf : ∀ a, (f a).All P) :
    (p >>= f).All P := by
  induction p with
  | ret a => exact hf a
  | fail err => trivial
  | op e k ih => exact ⟨hp.1, fun r => ih r (hp.2 r)⟩

theorem All.tryCatch {h : ε → Program E R ε α} (hp : p.All P) (hh : ∀ err, (h err).All P) :
    (MonadExcept.tryCatch p h).All P := by
  induction p with
  | ret a => trivial
  | fail err => exact hh err
  | op e k ih => exact ⟨hp.1, fun r => ih r (hp.2 r)⟩

end All

section AllNodes

/-- A node condition that asks nothing of the effects a program performs holds at
all its nodes. -/
theorem All.allNodes {p : Program E R ε α} {Q : E → Prop}
    {P : (e : E) → (Except ε (R e) → Program E R ε α) → Prop} (hp : p.All Q)
    (hQ : ∀ e k, Q e → P e k) : p.AllNodes P := by
  induction p with
  | ret a => trivial
  | fail err => trivial
  | op e k ih => exact ⟨hQ e k hp.1, fun r => ih r (hp.2 r)⟩

/-- The node rule for sequencing, for a condition that what comes after meets with. -/
theorem AllNodes.bind_of {p : Program E R ε α} {f : α → Program E R ε β}
    {P : (e : E) → (Except ε (R e) → Program E R ε α) → Prop}
    {P' : (e : E) → (Except ε (R e) → Program E R ε β) → Prop} (hp : p.AllNodes P)
    (hP : ∀ e k, P e k → P' e fun r => k r >>= f) (hf : ∀ a, (f a).AllNodes P') :
    (p >>= f).AllNodes P' := by
  induction p with
  | ret a => exact hf a
  | fail err => trivial
  | op e k ih => exact ⟨hP e k hp.1, fun r => ih r (hp.2 r)⟩

/-- The node rule for handling what is thrown, for a condition that the handler meets with. -/
theorem AllNodes.tryCatch_of {p : Program E R ε α} {h : ε → Program E R ε α}
    {P : (e : E) → (Except ε (R e) → Program E R ε α) → Prop} (hp : p.AllNodes P)
    (hP : ∀ e k, P e k → P e fun r => MonadExcept.tryCatch (k r) h)
    (hh : ∀ err, (h err).AllNodes P) : (MonadExcept.tryCatch p h).AllNodes P := by
  induction p with
  | ret a => trivial
  | fail err => exact hh err
  | op e k ih => exact ⟨hP e k hp.1, fun r => ih r (hp.2 r)⟩

/-- A condition on nodes that lasts when more of a program is put behind the node, or
around it. -/
structure Lasting (P : (α : Type v) → (e : E) → (Except ε (R e) → Program E R ε α) → Prop) :
    Prop where
  bind : ∀ {α β : Type v} (e : E) (k : Except ε (R e) → Program E R ε α)
    (f : α → Program E R ε β), P α e k → P β e fun r => k r >>= f
  tryCatch : ∀ {α : Type v} (e : E) (k : Except ε (R e) → Program E R ε α)
    (h : ε → Program E R ε α), P α e k → P α e fun r => MonadExcept.tryCatch (k r) h

section Lasting

variable {P : (α : Type v) → (e : E) → (Except ε (R e) → Program E R ε α) → Prop}
  {p : Program E R ε α}

/-- The node rule for sequencing. -/
theorem AllNodes.bind (hP : Lasting P) {f : α → Program E R ε β} (hp : p.AllNodes (P α))
    (hf : ∀ a, (f a).AllNodes (P β)) : (p >>= f).AllNodes (P β) := by
  induction p with
  | ret a => exact hf a
  | fail err => trivial
  | op e k ih => exact ⟨hP.bind e k f hp.1, fun r => ih r (hp.2 r)⟩

/-- The node rule for handling what is thrown. -/
theorem AllNodes.tryCatch (hP : Lasting P) {h : ε → Program E R ε α} (hp : p.AllNodes (P α))
    (hh : ∀ err, (h err).AllNodes (P α)) : (MonadExcept.tryCatch p h).AllNodes (P α) := by
  induction p with
  | ret a => trivial
  | fail err => exact hh err
  | op e k ih => exact ⟨hP.tryCatch e k h hp.1, fun r => ih r (hp.2 r)⟩

end Lasting

/-- The node rule for performing one effect and going on with its answer. -/
theorem allNodes_perform_bind {e : E} {g : R e → Program E R ε β}
    {P : (e : E) → (Except ε (R e) → Program E R ε β) → Prop} (he : P e (orThrow g))
    (hg : ∀ a, (g a).AllNodes P) : (perform e >>= g).AllNodes P := by
  rw [perform_bind]
  refine ⟨he, fun r => ?_⟩
  cases r with
  | error err => trivial
  | ok a => exact hg a

end AllNodes

/-- As long as every answer meets `A`, `P` holds at every effect `p` performs, of the effect and
of the continuation that waits for its answer. -/
def NodesUnder (A : (e : E) → Except ε (R e) → Prop)
    (P : (e : E) → (Except ε (R e) → Program E R ε α) → Prop) : Program E R ε α → Prop
  | ret _ => True
  | fail _ => True
  | op e k => P e k ∧ ∀ r, A e r → (k r).NodesUnder A P

section NodesUnder

variable {A : (e : E) → Except ε (R e) → Prop} {p : Program E R ε α}

/-- The node rule for sequencing, for a condition that what comes after meets with. -/
theorem NodesUnder.bind_of {f : α → Program E R ε β}
    {P : (e : E) → (Except ε (R e) → Program E R ε α) → Prop}
    {P' : (e : E) → (Except ε (R e) → Program E R ε β) → Prop} (hp : p.NodesUnder A P)
    (hP : ∀ e k, P e k → P' e fun r => k r >>= f) (hf : ∀ a, (f a).NodesUnder A P') :
    (p >>= f).NodesUnder A P' := by
  induction p with
  | ret a => exact hf a
  | fail err => trivial
  | op e k ih => exact ⟨hP e k hp.1, fun r hr => ih r (hp.2 r hr)⟩

/-- The node rule for handling what is thrown, for a condition that the handler meets with. -/
theorem NodesUnder.tryCatch_of {h : ε → Program E R ε α}
    {P P' : (e : E) → (Except ε (R e) → Program E R ε α) → Prop} (hp : p.NodesUnder A P)
    (hP : ∀ e k, P e k → P' e fun r => MonadExcept.tryCatch (k r) h)
    (hh : ∀ err, (h err).NodesUnder A P') : (MonadExcept.tryCatch p h).NodesUnder A P' := by
  induction p with
  | ret a => trivial
  | fail err => exact hh err
  | op e k ih => exact ⟨hP e k hp.1, fun r hr => ih r (hp.2 r hr)⟩

/-- The node rule for performing one effect and going on with its answer. -/
theorem nodesUnder_perform_bind {e : E} {g : R e → Program E R ε β}
    {P : (e : E) → (Except ε (R e) → Program E R ε β) → Prop} (he : P e (orThrow g))
    (hg : ∀ a, A e (.ok a) → (g a).NodesUnder A P) : (perform e >>= g).NodesUnder A P := by
  rw [perform_bind]
  refine ⟨he, fun r hr => ?_⟩
  cases r with
  | error err => trivial
  | ok a => exact hg a hr

end NodesUnder

/-! ## Obligations -/

/-- As long as every answer meets `A`, the program performs an effect that meets `P`. -/
def Will (P : E → Prop) (A : (e : E) → Except ε (R e) → Prop) : Program E R ε α → Prop
  | ret _ => False
  | fail _ => False
  | op e k => P e ∨ ∀ r, A e r → (k r).Will P A

/-- As long as every answer meets `A`, the program does not throw. -/
def Completes (A : (e : E) → Except ε (R e) → Prop) : Program E R ε α → Prop
  | ret _ => True
  | fail _ => False
  | op e k => ∀ r, A e r → (k r).Completes A

section Obligations

variable {P : E → Prop} {A : (e : E) → Except ε (R e) → Prop} {p : Program E R ε α}

/-- An obligation that is still pending is met by the next effect, or is still
pending after any answer that meets `A`. -/
theorem Will.next {e : E} {k : Except ε (R e) → Program E R ε α} (h : (op e k).Will P A)
    (hP : ¬ P e) {r : Except ε (R e)} (hr : A e r) : (k r).Will P A :=
  h.resolve_left hP r hr

theorem Will.not_done (h : p.Will P A) : p.isDone = false := by
  cases p with
  | ret a => exact h.elim
  | fail err => exact h.elim
  | op e k => rfl

/-- What is owed under more answers is owed under fewer. -/
theorem Will.mono {P' : E → Prop} {A' : (e : E) → Except ε (R e) → Prop} (h : p.Will P A)
    (hP : ∀ e, P e → P' e) (hA : ∀ e r, A' e r → A e r) : p.Will P' A' := by
  induction p with
  | ret a => exact h.elim
  | fail err => exact h.elim
  | op e k ih =>
      rcases h with h | h
      · exact .inl (hP e h)
      · exact .inr fun r hr => ih r (h r (hA e r hr))

/-- A program that runs `p` first meets the obligations of `p`. -/
theorem Will.bind {f : α → Program E R ε β} (h : p.Will P A) : (p >>= f).Will P A := by
  -- `p` cannot end before it has met the obligation
  induction p with
  | ret a => exact h.elim
  | fail err => exact h.elim
  | op e k ih =>
      rcases h with h | h
      · exact .inl h
      · exact .inr fun r hr => ih r (h r hr)

theorem Will.tryCatch {g : ε → Program E R ε α} (h : p.Will P A) :
    (MonadExcept.tryCatch p g).Will P A := by
  induction p with
  | ret a => exact h.elim
  | fail err => exact h.elim
  | op e k ih =>
      rcases h with h | h
      · exact .inl h
      · exact .inr fun r hr => ih r (h r hr)

/-- The obligation is the effect that comes next. -/
theorem will_of_next {e : E} {k : Except ε (R e) → Program E R ε α} (h : P e) :
    (op e k).Will P A :=
  .inl h

/-- The obligation of what comes after an effect that does not throw. -/
theorem will_perform_bind {e : E} {g : R e → Program E R ε β} (hA : ∀ err, ¬ A e (.error err))
    (hg : ∀ a, A e (.ok a) → (g a).Will P A) : (perform e >>= g).Will P A := by
  rw [perform_bind]
  refine .inr fun r hr => ?_
  cases r with
  | error err => exact absurd hr (hA err)
  | ok a => exact hg a hr

/-- What completes under more answers completes under fewer. -/
theorem Completes.mono {A' : (e : E) → Except ε (R e) → Prop} (h : p.Completes A)
    (hA : ∀ e r, A' e r → A e r) : p.Completes A' := by
  induction p with
  | ret a => trivial
  | fail err => exact h
  | op e k ih => exact fun r hr => ih r (h r (hA e r hr))

theorem completes_perform {e : E} (hA : ∀ err, ¬ A e (.error err)) :
    (perform e : Program E R ε (R e)).Completes A := by
  intro r hr
  cases r with
  | error err => exact absurd hr (hA err)
  | ok a => trivial

theorem Completes.bind {f : α → Program E R ε β} (hp : p.Completes A)
    (hf : ∀ a, (f a).Completes A) : (p >>= f).Completes A := by
  induction p with
  | ret a => exact hf a
  | fail err => exact hp.elim
  | op e k ih => exact fun r hr => ih r (hp r hr)

/-- What is thrown is handled. -/
theorem completes_tryCatch {g : ε → Program E R ε α} (hg : ∀ err, (g err).Completes A) :
    (MonadExcept.tryCatch p g).Completes A := by
  induction p with
  | ret a => trivial
  -- the only place where something is thrown
  | fail err => exact hg err
  | op e k ih => exact fun r _ => ih r

/-- The obligation of what comes after a part that completes. -/
theorem Completes.will_bind {f : α → Program E R ε β} (hp : p.Completes A)
    (hf : ∀ a, (f a).Will P A) : (p >>= f).Will P A := by
  induction p with
  | ret a => exact hf a
  | fail err => exact hp.elim
  | op e k ih => exact .inr fun r hr => ih r (hp r hr)

end Obligations

/-! ## Labelled effects -/

/-- As long as every answer meets `A`, the effects of the program that `f` labels are those of
the list, in its order. -/
def Emits {ι : Type u} (f : E → Option ι) (A : (e : E) → Except ε (R e) → Prop) :
    Program E R ε α → List ι → Prop
  | ret _, l => l = []
  | fail _, l => l = []
  | op e k, l => ∃ l', l = (f e).toList ++ l' ∧ ∀ r, A e r → (k r).Emits f A l'

section Emits

variable {ι : Type u} {f : E → Option ι} {A : (e : E) → Except ε (R e) → Prop}
  {p : Program E R ε α} {l : List ι}

/-- A program without labelled effects. -/
theorem emits_of_all (h : p.All fun e => f e = none) : p.Emits f A [] := by
  induction p with
  | ret a => rfl
  | fail err => rfl
  | op e k ih => exact ⟨[], by rw [h.1]; rfl, fun r _ => ih r (h.2 r)⟩

/-- What comes before labelled effects, has none itself and completes. -/
theorem Emits.after {g : α → Program E R ε β} (hp : p.All fun e => f e = none)
    (hc : p.Completes A) (hg : ∀ a, (g a).Emits f A l) : (p >>= g).Emits f A l := by
  induction p with
  | ret a => exact hg a
  | fail err => exact hc.elim
  | op e k ih => exact ⟨l, by rw [hp.1]; rfl, fun r hr => ih r (hp.2 r) (hc r hr)⟩

/-- What comes after labelled effects and has none itself. -/
theorem Emits.bind {g : α → Program E R ε β} (hp : p.Emits f A l)
    (hg : ∀ a, (g a).All fun e => f e = none) : (p >>= g).Emits f A l := by
  induction p generalizing l with
  | ret a =>
      obtain rfl : l = [] := hp
      exact emits_of_all (hg a)
  | fail err => exact hp
  | op e k ih =>
      obtain ⟨l', rfl, hk⟩ := hp
      exact ⟨l', rfl, fun r hr => ih r (hk r hr)⟩

/-- A handler without labelled effects. -/
theorem Emits.tryCatch {h : ε → Program E R ε α} (hp : p.Emits f A l)
    (hh : ∀ err, (h err).All fun e => f e = none) : (MonadExcept.tryCatch p h).Emits f A l := by
  induction p generalizing l with
  | ret a => exact hp
  | fail err =>
      obtain rfl : l = [] := hp
      exact emits_of_all (hh err)
  | op e k ih =>
      obtain ⟨l', rfl, hk⟩ := hp
      exact ⟨l', rfl, fun r hr => ih r (hk r hr)⟩

end Emits

/-! ## Failing effects -/

/-- The program has thrown. -/
def Failed : Program E R ε α → Prop
  | fail _ => True
  | _ => False

/-- The program is not where `T` holds, and gets there at once by an effect of `U` that fails,
and by no other. -/
def ThrowsBy (U : E → Prop) (T : Program E R ε α → Prop) : Program E R ε α → Prop
  | ret a => ¬ T (ret a)
  | fail err => ¬ T (fail err)
  | op e k => ¬ T (op e k) ∧ (∀ a, (k (.ok a)).ThrowsBy U T) ∧
      ∀ err, (U e → T (k (.error err))) ∧ (¬ U e → (k (.error err)).ThrowsBy U T)

section ThrowsBy

variable {U : E → Prop} {T : Program E R ε α → Prop} {p : Program E R ε α}

theorem ThrowsBy.not_thrown (h : p.ThrowsBy U T) : ¬ T p := by
  cases p with
  | ret a => exact h
  | fail err => exact h
  | op e k => exact h.1

/-- An effect that fails makes the program throw. -/
theorem throwsBy_perform {e : E} (h : U e) :
    (perform e : Program E R ε (R e)).ThrowsBy U Failed :=
  ⟨id, fun _ => id, fun _ => ⟨fun _ => trivial, fun hne => absurd h hne⟩⟩

theorem ThrowsBy.bind {f : α → Program E R ε β} (hp : p.ThrowsBy U Failed)
    (hf : ∀ a, (f a).ThrowsBy U Failed) : (p >>= f).ThrowsBy U Failed := by
  induction p with
  | ret a => exact hf a
  | fail err => exact absurd trivial hp
  | op e k ih =>
      obtain ⟨-, hok, herr⟩ := hp
      refine ⟨id, fun a => ih _ (hok a), fun err => ⟨fun hU => ?_, fun hne => ?_⟩⟩
      · have hfailed := (herr err).1 hU
        show Failed (k (.error err) >>= f)
        cases hk : k (.error err) with
        | fail err' => trivial
        | ret a =>
            rw [hk] at hfailed
            exact hfailed.elim
        | op e' k' =>
            rw [hk] at hfailed
            exact hfailed.elim
      · exact ih _ ((herr err).2 hne)

/-- What is thrown is handled, where none of the effects counts. -/
theorem throwsBy_tryCatch {h : ε → Program E R ε α} (hp : p.All fun e => ¬ U e)
    (hh : ∀ err, (h err).ThrowsBy U Failed) :
    (MonadExcept.tryCatch p h).ThrowsBy U Failed := by
  induction p with
  | ret a => exact id
  | fail err => exact hh err
  | op e k ih =>
      refine ⟨id, fun a => ih _ (hp.2 _), fun err => ⟨fun hU => absurd hU hp.1, fun _ => ?_⟩⟩
      exact ih _ (hp.2 _)

end ThrowsBy

/-! ## Order of effects -/

/-- As long as every answer meets `A`, the program performs an effect that meets `C i`
only after one that meets `B i`, except for the `i` that meet `G`. -/
def Follows {ι : Type u} (B C : ι → E → Prop) (A : (e : E) → Except ε (R e) → Prop) :
    Program E R ε α → (ι → Prop) → Prop
  | ret _, _ => True
  | fail _, _ => True
  | op e k, G => (∀ i, C i e → G i) ∧ ∀ r, A e r → (k r).Follows B C A fun i => G i ∨ B i e

section Follows

variable {ι : Type u} {B C : ι → E → Prop} {A : (e : E) → Except ε (R e) → Prop}
  {p : Program E R ε α} {G G' : ι → Prop}

theorem Follows.mono (h : p.Follows B C A G) (hG : ∀ i, G i → G' i) : p.Follows B C A G' := by
  induction p generalizing G G' with
  | ret a => trivial
  | fail err => trivial
  | op e k ih =>
      exact ⟨fun i hi => hG i (h.1 i hi), fun r hr => ih r (h.2 r hr) fun i => Or.imp_left (hG i)⟩

/-- A program that never performs an effect of the second kind. -/
theorem follows_of_all (h : p.All fun e => ∀ i, ¬ C i e) : p.Follows B C A G := by
  induction p generalizing G with
  | ret a => trivial
  | fail err => trivial
  | op e k ih => exact ⟨fun i hi => absurd hi (h.1 i), fun r _ => ih r (h.2 r)⟩

/-- Sequencing: what comes after may rely on what was allowed from the start. -/
theorem Follows.bind {f : α → Program E R ε β} (hp : p.Follows B C A G)
    (hf : ∀ a, (f a).Follows B C A G) : (p >>= f).Follows B C A G := by
  -- `G` grows along `p`, so what `f` may rely on at the start it may rely on later
  induction p generalizing G with
  | ret a => exact hf a
  | fail err => trivial
  | op e k ih =>
      exact ⟨hp.1, fun r hr => ih r (hp.2 r hr) fun a => (hf a).mono fun i => .inl⟩

theorem Follows.tryCatch {h : ε → Program E R ε α} (hp : p.Follows B C A G)
    (hh : ∀ err, (h err).Follows B C A G) : (MonadExcept.tryCatch p h).Follows B C A G := by
  induction p generalizing G with
  | ret a => trivial
  | fail err => exact hh err
  | op e k ih =>
      exact ⟨hp.1, fun r hr => ih r (hp.2 r hr) fun err => (hh err).mono fun i => .inl⟩

theorem follows_forM {δ : Type v} {l : List δ} {f : δ → Program E R ε PUnit}
    (hf : ∀ x ∈ l, (f x).Follows B C A G) : (l.forM f).Follows B C A G := by
  induction l with
  | nil => trivial
  | cons x l ih =>
      exact (hf x List.mem_cons_self).bind fun _ =>
        ih fun y hy => hf y (List.mem_cons_of_mem _ hy)

end Follows

/-! ## What effects are earned by -/

/-- As long as every answer meets `A`, the program performs an effect that meets `C i`
only after it has got an answer that meets `B i`, except for the `i` that meet `G`. -/
def Earns {ι : Type u} (B : ι → (e : E) → Except ε (R e) → Prop) (C : ι → E → Prop)
    (A : (e : E) → Except ε (R e) → Prop) : Program E R ε α → (ι → Prop) → Prop
  | ret _, _ => True
  | fail _, _ => True
  | op e k, G => (∀ i, C i e → G i) ∧
      ∀ r, A e r → (k r).Earns B C A fun i => G i ∨ B i e r

section Earns

variable {ι : Type u} {B : ι → (e : E) → Except ε (R e) → Prop} {C : ι → E → Prop}
  {A : (e : E) → Except ε (R e) → Prop} {p : Program E R ε α} {G G' : ι → Prop}

theorem Earns.mono (h : p.Earns B C A G) (hG : ∀ i, G i → G' i) : p.Earns B C A G' := by
  induction p generalizing G G' with
  | ret a => trivial
  | fail err => trivial
  | op e k ih =>
      exact ⟨fun i hi => hG i (h.1 i hi), fun r hr => ih r (h.2 r hr) fun i => Or.imp_left (hG i)⟩

/-- What is earned by fewer answers is earned by more. -/
theorem Earns.imp {B' : ι → (e : E) → Except ε (R e) → Prop} (h : p.Earns B C A G)
    (hB : ∀ i e r, B i e r → B' i e r) : p.Earns B' C A G := by
  induction p generalizing G with
  | ret a => trivial
  | fail err => trivial
  | op e k ih =>
      exact ⟨h.1, fun r hr => (ih r (h.2 r hr)).mono fun i => Or.imp_right (hB i e r)⟩

/-- What all answers that earn an effect have in common is so wherever it is performed. -/
theorem Earns.all {L : ι → Prop} (h : p.Earns B C (fun _ _ => True) G) (hG : ∀ i, G i → L i)
    (hB : ∀ i e r, B i e r → L i) : p.All fun e => ∀ i, C i e → L i := by
  induction p generalizing G with
  | ret a => trivial
  | fail err => trivial
  | op e k ih =>
      refine ⟨fun i hi => hG i (h.1 i hi), fun r => ih r (h.2 r trivial) fun i hi => ?_⟩
      exact hi.elim (hG i) (hB i e r)

/-- A program that never performs an effect that has to be earned. -/
theorem earns_of_all (h : p.All fun e => ∀ i, ¬ C i e) : p.Earns B C A G := by
  induction p generalizing G with
  | ret a => trivial
  | fail err => trivial
  | op e k ih => exact ⟨fun i hi => absurd hi (h.1 i), fun r _ => ih r (h.2 r)⟩

/-- A program all of whose effects are earned from the start. -/
theorem earns_of_granted (h : p.All fun e => ∀ i, C i e → G i) : p.Earns B C A G := by
  induction p generalizing G with
  | ret a => trivial
  | fail err => trivial
  | op e k ih =>
      refine ⟨h.1, fun r _ => ih r ((h.2 r).mono fun e' he' i hi => .inl (he' i hi))⟩

/-- Sequencing: what comes after may rely on what was earned at the start. -/
theorem Earns.bind {f : α → Program E R ε β} (hp : p.Earns B C A G)
    (hf : ∀ a, (f a).Earns B C A G) : (p >>= f).Earns B C A G := by
  -- what is earned along `p` only adds to `G`
  induction p generalizing G with
  | ret a => exact hf a
  | fail err => trivial
  | op e k ih =>
      exact ⟨hp.1, fun r hr => ih r (hp.2 r hr) fun a => (hf a).mono fun i => .inl⟩

theorem Earns.tryCatch {h : ε → Program E R ε α} (hp : p.Earns B C A G)
    (hh : ∀ err, (h err).Earns B C A G) : (MonadExcept.tryCatch p h).Earns B C A G := by
  induction p generalizing G with
  | ret a => trivial
  | fail err => exact hh err
  | op e k ih =>
      exact ⟨hp.1, fun r hr => ih r (hp.2 r hr) fun err => (hh err).mono fun i => .inl⟩

/-- Performing one effect: what its answer earns is there for what comes after. -/
theorem earns_perform_bind {e : E} {g : R e → Program E R ε β} (he : ∀ i, C i e → G i)
    (hg : ∀ a, A e (.ok a) → (g a).Earns B C A fun i => G i ∨ B i e (.ok a)) :
    (perform e >>= g).Earns B C A G := by
  rw [perform_bind]
  refine ⟨he, fun r hr => ?_⟩
  cases r with
  | error err => trivial
  | ok a => exact hg a hr

end Earns

/-! ## What comes directly after what -/

/-- The next effect of the program meets `P`. -/
def Starts (P : E → Prop) : Program E R ε α → Prop
  | ret _ => False
  | fail _ => False
  | op e _ => P e

/-- An effect that meets `P` comes only directly after an answer that meets `B`. -/
def Directly (P : E → Prop) (B : (e : E) → Except ε (R e) → Prop) : Program E R ε α → Prop
  | ret _ => True
  | fail _ => True
  | op e k => ∀ r, ((k r).Starts P → B e r) ∧ (k r).Directly P B

section Directly

variable {P : E → Prop} {B : (e : E) → Except ε (R e) → Prop} {p : Program E R ε α}

theorem not_starts_of_all (h : p.All fun e => ¬ P e) : ¬ p.Starts P := by
  cases p with
  | ret a => exact id
  | fail err => exact id
  | op e k => exact h.1

/-- The next effect of a sequence is one of its first part, unless that has returned. -/
theorem starts_bind {f : α → Program E R ε β} (h : (p >>= f).Starts P) :
    p.Starts P ∨ ∃ a, p = ret a ∧ (f a).Starts P := by
  cases p with
  | ret a => exact .inr ⟨a, rfl, h⟩
  | fail err => exact h.elim
  | op e k => exact .inl h

theorem starts_tryCatch {g : ε → Program E R ε α} (h : (MonadExcept.tryCatch p g).Starts P) :
    p.Starts P ∨ ∃ err, p = fail err ∧ (g err).Starts P := by
  cases p with
  | ret a => exact h.elim
  | fail err => exact .inr ⟨err, rfl, h⟩
  | op e k => exact .inl h

/-- A program that never performs an effect that meets `P`. -/
theorem directly_of_all (h : p.All fun e => ¬ P e) : p.Directly P B := by
  induction p with
  | ret a => trivial
  | fail err => trivial
  | op e k ih => exact fun r => ⟨fun hs => absurd hs (not_starts_of_all (h.2 r)), ih r (h.2 r)⟩

/-- Sequencing with a rest that does not start with an effect that meets `P`. -/
theorem Directly.bind {f : α → Program E R ε β} (hp : p.Directly P B)
    (hf : ∀ a, ¬ (f a).Starts P ∧ (f a).Directly P B) : (p >>= f).Directly P B := by
  induction p with
  | ret a => exact (hf a).2
  | fail err => trivial
  | op e k ih =>
      refine fun r => ⟨fun hs => ?_, ih r (hp r).2⟩
      rcases starts_bind hs with hstarts | ⟨a, -, hstarts⟩
      · exact (hp r).1 hstarts
      · exact absurd hstarts (hf a).1

theorem Directly.tryCatch {h : ε → Program E R ε α} (hp : p.Directly P B)
    (hh : ∀ err, ¬ (h err).Starts P ∧ (h err).Directly P B) :
    (MonadExcept.tryCatch p h).Directly P B := by
  induction p with
  | ret a => trivial
  | fail err => exact (hh err).2
  | op e k ih =>
      refine fun r => ⟨fun hs => ?_, ih r (hp r).2⟩
      rcases starts_tryCatch hs with hstarts | ⟨err, -, hstarts⟩
      · exact (hp r).1 hstarts
      · exact absurd hstarts (hh err).1

/-- Performing one effect and going on with its answer. -/
theorem directly_perform_bind {e : E} {g : R e → Program E R ε β}
    (hg : ∀ a, ((g a).Starts P → B e (.ok a)) ∧ (g a).Directly P B) :
    (perform e >>= g).Directly P B := by
  rw [perform_bind]
  intro r
  cases r with
  | error err => exact ⟨False.elim, trivial⟩
  | ok a => exact hg a

end Directly

/-! ## What comes after an answer -/

/-- After an answer that meets `A`, every effect the program performs meets `U`. -/
def Afterwards (A : (e : E) → Except ε (R e) → Prop) (U : E → Prop) : Program E R ε α → Prop
  | ret _ => True
  | fail _ => True
  | op e k => ∀ r, (A e r → (k r).All U) ∧ (k r).Afterwards A U

section Afterwards

variable {A : (e : E) → Except ε (R e) → Prop} {U : E → Prop} {p : Program E R ε α}

theorem afterwards_of_all (h : p.All U) : p.Afterwards A U := by
  induction p with
  | ret a => trivial
  | fail err => trivial
  | op e k ih => exact fun r => ⟨fun _ => h.2 r, ih r (h.2 r)⟩

/-- Sequencing with a rest that performs nothing else. -/
theorem Afterwards.bind {f : α → Program E R ε β} (hp : p.Afterwards A U)
    (hf : ∀ a, (f a).All U) : (p >>= f).Afterwards A U := by
  induction p with
  | ret a => exact afterwards_of_all (hf a)
  | fail err => trivial
  | op e k ih => exact fun r => ⟨fun hr => ((hp r).1 hr).bind hf, ih r (hp r).2⟩

/-- Sequencing after a first part in which there is no such answer. -/
theorem Afterwards.after {f : α → Program E R ε β} (hp : p.All fun e => ∀ r, ¬ A e r)
    (hf : ∀ a, (f a).Afterwards A U) : (p >>= f).Afterwards A U := by
  induction p with
  | ret a => exact hf a
  | fail err => trivial
  | op e k ih => exact fun r => ⟨fun hr => absurd hr (hp.1 r), ih r (hp.2 r)⟩

theorem Afterwards.tryCatch {h : ε → Program E R ε α} (hp : p.Afterwards A U)
    (hh : ∀ err, (h err).All U) : (MonadExcept.tryCatch p h).Afterwards A U := by
  induction p with
  | ret a => trivial
  | fail err => exact afterwards_of_all (hh err)
  | op e k ih => exact fun r => ⟨fun hr => ((hp r).1 hr).tryCatch hh, ih r (hp r).2⟩

/-- Performing one effect and going on with its answer. -/
theorem afterwards_perform_bind {e : E} {g : R e → Program E R ε β}
    (hg : ∀ a, (A e (.ok a) → (g a).All U) ∧ (g a).Afterwards A U) :
    (perform e >>= g).Afterwards A U := by
  rw [perform_bind]
  intro r
  cases r with
  | error err => exact ⟨fun _ => trivial, trivial⟩
  | ok a => exact hg a

end Afterwards

end Program

end Resumable
