/-
Programs that keep to something as long as their answers do.

`Program.Meets A P Q`: as long as every answer is one that `A` allows, the program performs only
effects that `P` allows, and returns what meets `Q`. An effect that throws is always to be
reckoned with, and what the program throws is not asked about.

None of the three speaks of a state. They are meant to be about a whole run: what has been there at
some time, what was asked for, what was handed out. Such a fact stays, so a program can rely on
what it was told whatever other calls do meanwhile, and the rules are those of a program that runs
alone. `Pool.Meeting` takes them to a pool: what is left is to see that the answers given in the
run are allowed ones.
-/
import LogisticsDispatch.Lib.OneAtATime

set_option autoImplicit false

namespace Resumable

universe u v w

variable {E E' : Type u} {R : E → Type v} {R' : E' → Type v} {ε ε' α β : Type v}

namespace Program

/-! ## One program -/

/-- As long as answers meet `A`, the effects meet `P` and what is returned meets `Q`. -/
def Meets (A : (e : E) → R e → Prop) (P : E → Prop) (Q : α → Prop) : Program E R ε α → Prop
  | ret a => Q a
  | fail _ => True
  | op e k => P e ∧ (∀ a, A e a → (k (.ok a)).Meets A P Q) ∧ ∀ err, (k (.error err)).Meets A P Q

variable {A : (e : E) → R e → Prop} {P : E → Prop} {Q Q' : α → Prop} {p : Program E R ε α}

/-- A weaker postcondition. -/
theorem Meets.mono (h : p.Meets A P Q) (hQ : ∀ a, Q a → Q' a) : p.Meets A P Q' := by
  induction p with
  | ret a => exact hQ a h
  | fail err => trivial
  | op e k ih => exact ⟨h.1, fun a ha => ih _ (h.2.1 a ha), fun err => ih _ (h.2.2 err)⟩

/-- Sequencing. -/
theorem Meets.bind {Q' : β → Prop} {f : α → Program E R ε β} (h : p.Meets A P Q)
    (hf : ∀ a, Q a → (f a).Meets A P Q') : (p >>= f).Meets A P Q' := by
  induction p with
  | ret a => exact hf a h
  | fail err => trivial
  | op e k ih => exact ⟨h.1, fun a ha => ih _ (h.2.1 a ha), fun err => ih _ (h.2.2 err)⟩

/-- Handling what is thrown. -/
theorem Meets.tryCatch {h : ε → Program E R ε α} (hp : p.Meets A P Q)
    (hh : ∀ err, (h err).Meets A P Q) : (MonadExcept.tryCatch p h).Meets A P Q := by
  induction p with
  | ret a => exact hp
  | fail err => exact hh err
  | op e k ih => exact ⟨hp.1, fun a ha => ih _ (hp.2.1 a ha), fun err => ih _ (hp.2.2 err)⟩

/-- Performing an effect and going on with its answer. -/
theorem meets_perform_bind {Q : β → Prop} {e : E} {f : R e → Program E R ε β} (he : P e)
    (hf : ∀ a, A e a → (f a).Meets A P Q) : (perform e >>= f).Meets A P Q := by
  rw [perform_bind]
  exact ⟨he, hf, fun _ => trivial⟩

theorem meets_perform {e : E} {Q : R e → Prop} (he : P e) (hQ : ∀ a, A e a → Q a) :
    (perform e : Program E R ε (R e)).Meets A P Q :=
  ⟨he, hQ, fun _ => trivial⟩

/-- A program as one over other effects: what was assumed of its answers has to follow from what is
assumed of theirs. -/
theorem Meets.lift {A' : (e : E') → R' e → Prop} {P' : E' → Prop} {f : E → E'}
    {answer : (e : E) → Except ε' (R' (f e)) → Except ε (R e)} {throws : ε → ε'}
    (h : p.Meets A P Q) (hP : ∀ e, P e → P' (f e))
    (hok : ∀ e a', A' (f e) a' → ∃ a, answer e (.ok a') = .ok a ∧ A e a)
    (herr : ∀ e err, ∃ err', answer e (.error err) = .error err') :
    (p.lift f answer throws).Meets A' P' Q := by
  induction p with
  | ret a => exact h
  | fail err => trivial
  | op e k ih =>
      refine ⟨hP e h.1, fun a' ha' => ?_, fun err => ?_⟩
      · obtain ⟨a, hanswer, ha⟩ := hok e a' ha'
        show ((k (answer e (.ok a'))).lift f answer throws).Meets A' P' Q
        rw [hanswer]
        exact ih _ (h.2.1 a ha)
      · obtain ⟨err', hanswer⟩ := herr e err
        show ((k (answer e (.error err))).lift f answer throws).Meets A' P' Q
        rw [hanswer]
        exact ih _ (h.2.2 err')

end Program

/-! ## Pools -/

namespace Pool

variable {S L C : Type w} {M : Machine E R ε S C} {A : L → (e : E) → R e → Prop}
  {P : L → E → Prop} {Q : L → α → Prop} {i : ℕ} {c : C} {l : L} {err : ε}
  {s s' : Pool S L E R ε α}

/-- Every call keeps to what goes for it. -/
def Meeting (A : L → (e : E) → R e → Prop) (P : L → E → Prop) (Q : L → α → Prop)
    (s : Pool S L E R ε α) : Prop :=
  ForallThreads (fun l p => p.Meets (A l) (P l) (Q l)) s

/-- The next effect of a call is an allowed one. -/
theorem Meeting.may (hs : Meeting A P Q s) {e : E} {k : Except ε (R e) → Program E R ε α}
    (hi : s.threads.lookup i = some ⟨l, .op e k⟩) : P l e :=
  (hs i _ hi).1

theorem Meeting.advance (hs : Meeting A P Q s) (h : advance M i c s = some s')
    (hanswer : ∀ l e k a, s.threads.lookup i = some ⟨l, .op e k⟩ →
      (M.exec c e s.shared).1 = .ok a → A l e a) : Meeting A P Q s' := by
  obtain ⟨l, e, k, hi, -, hth⟩ := advance_eq_some h
  refine ForallThreads.insert hs hth ?_
  have hmeets := hs i _ hi
  show (k (M.exec c e s.shared).1).Meets (A l) (P l) (Q l)
  cases hr : (M.exec c e s.shared).1 with
  | ok a => exact hmeets.2.1 a (hanswer l e k a hi hr)
  | error err => exact hmeets.2.2 err

theorem Meeting.interrupt (hs : Meeting A P Q s) (h : interrupt err i s = some s') :
    Meeting A P Q s' := by
  obtain ⟨l, e, k, hi, -, hth⟩ := interrupt_eq_some h
  exact ForallThreads.insert hs hth ((hs i _ hi).2.2 err)

theorem Meeting.spawn {p : Program E R ε α} (hs : Meeting A P Q s)
    (h : spawn i l p s = some s') (hp : p.Meets (A l) (P l) (Q l)) : Meeting A P Q s' := by
  obtain ⟨-, -, hth⟩ := spawn_eq_some h
  exact ForallThreads.insert hs hth hp

end Pool

end Resumable
