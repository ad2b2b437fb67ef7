/-
Programs that act on what they were told.

What a suspended program may do next depends on the answers it has had. A `Recall` says what is
noted of each answer, and which effects may be performed under what was noted. `Heeds` is the
fold over the program tree that checks this, with what is to hold where the program returns and
where it throws; its rules follow `pure`, `>>=`, `throw` and `tryCatch`.

In a pool every call has notes of its own. `Heeding.advance` and its companions say that a pool
of programs that heed their notes stays one, whatever else is known of the notes (`N`), as long
as that lasts.
-/
import LogisticsDispatch.Lib.Pool

set_option autoImplicit false

namespace Resumable

universe u v w

/-- What is noted of an answer, and what may be done under what was noted. -/
structure Recall (E : Type u) (R : E → Type v) (ε : Type v) (G : Type w) where
  note : G → (e : E) → Except ε (R e) → G
  May : G → E → Prop

namespace Program

variable {E : Type u} {R : E → Type v} {ε α β : Type v} {G : Type w}

/-- With the notes `g` to begin with, the program does what it may; it returns where `Q` holds
and throws where `F` does. -/
def Heeds (K : Recall E R ε G) (Q : G → α → Prop) (F : G → ε → Prop) :
    Program E R ε α → G → Prop
  | ret a, g => Q g a
  | fail err, g => F g err
  | op e k, g => K.May g e ∧ ∀ r, (k r).Heeds K Q F (K.note g e r)

variable {K : Recall E R ε G} {Q : G → α → Prop} {F : G → ε → Prop} {g : G}
  {p : Program E R ε α}

/-- The rule for sequencing. -/
theorem Heeds.bind {Q' : G → β → Prop} {f : α → Program E R ε β} (hp : p.Heeds K Q F g)
    (hf : ∀ g a, Q g a → (f a).Heeds K Q' F g) : (p >>= f).Heeds K Q' F g := by
  induction p generalizing g with
  | ret a => exact hf g a hp
  | fail err => exact hp
  | op e k ih => exact ⟨hp.1, fun r => ih r (hp.2 r)⟩

/-- The rule for handling what is thrown. -/
theorem Heeds.tryCatch {F' : G → ε → Prop} {h : ε → Program E R ε α} (hp : p.Heeds K Q F' g)
    (hh : ∀ g err, F' g err → (h err).Heeds K Q F g) :
    (MonadExcept.tryCatch p h).Heeds K Q F g := by
  induction p generalizing g with
  | ret a => exact hp
  | fail err => exact hh g err hp
  | op e k ih => exact ⟨hp.1, fun r => ih r (hp.2 r)⟩

/-- The rule for one effect. -/
theorem heeds_perform {e : E} {Q : G → R e → Prop} (he : K.May g e)
    (hok : ∀ a, Q (K.note g e (.ok a)) a) (herr : ∀ err, F (K.note g e (.error err)) err) :
    (perform e : Program E R ε (R e)).Heeds K Q F g := by
  refine ⟨he, fun r => ?_⟩
  cases r with
  | ok a => exact hok a
  | error err => exact herr err

/-- The rule for one effect and what comes after it. -/
theorem heeds_perform_bind {e : E} {f : R e → Program E R ε α} (he : K.May g e)
    (hok : ∀ a, (f a).Heeds K Q F (K.note g e (.ok a)))
    (herr : ∀ err, F (K.note g e (.error err)) err) : (perform e >>= f).Heeds K Q F g := by
  rw [perform_bind]
  refine ⟨he, fun r => ?_⟩
  cases r with
  | ok a => exact hok a
  | error err => exact herr err

end Program

namespace Pool

variable {E : Type u} {R : E → Type v} {ε α : Type v} {S L C G : Type w}

/-- Every call heeds some notes that `N` has of it. -/
def Heeding (K : L → Recall E R ε G) (N : ℕ → G → Prop) (s : Pool S L E R ε α) : Prop :=
  ∀ i th, s.threads.lookup i = some th →
    ∃ g, N i g ∧ th.prog.Heeds (K th.call) (fun _ _ => True) (fun _ _ => True) g

variable {K : L → Recall E R ε G} {N N' : ℕ → G → Prop} {M : Machine E R ε S C} {i : ℕ} {c : C}
  {l : L} {p : Program E R ε α} {err : ε} {s s' : Pool S L E R ε α}

/-- A call of the pool may perform its next effect, under notes that `N` has of it. -/
theorem Heeding.may (hs : Heeding K N s) {e : E} {k : Except ε (R e) → Program E R ε α}
    (hi : s.threads.lookup i = some ⟨l, .op e k⟩) : ∃ g, N i g ∧ (K l).May g e := by
  obtain ⟨g, hN, hmay, -⟩ := hs i _ hi
  exact ⟨g, hN, hmay⟩

/-- A call comes to a program that heeds its notes, and of the others the notes stay. -/
theorem Heeding.insert (hs : Heeding K N s) (hth : s'.threads = s.threads.insert i ⟨l, p⟩)
    (hN : ∀ j g, N j g → N' j g)
    (hi : ∃ g, N' i g ∧ p.Heeds (K l) (fun _ _ => True) (fun _ _ => True) g) :
    Heeding K N' s' := by
  rw [Heeding, hth]
  refine forall_insert (T := fun j th =>
    ∃ g, N' j g ∧ th.prog.Heeds (K th.call) (fun _ _ => True) (fun _ _ => True) g) ?_ hi
  intro j th hj _
  obtain ⟨g, hg, hheeds⟩ := hs j th hj
  exact ⟨g, hN j g hg, hheeds⟩

/-- A call goes on; what its next effect answers is noted. -/
theorem Heeding.advance (hs : Heeding K N s) (h : advance M i c s = some s')
    (hN : ∀ j g, N j g → N' j g)
    (hnote : ∀ l e k g, s.threads.lookup i = some ⟨l, .op e k⟩ → N i g →
      N' i ((K l).note g e (M.exec c e s.shared).1)) : Heeding K N' s' := by
  obtain ⟨l, e, k, hi, -, hth⟩ := advance_eq_some h
  obtain ⟨g, hg, -, hheeds⟩ := hs i _ hi
  exact hs.insert hth hN ⟨_, hnote l e k g hi hg, hheeds _⟩

/-- The next effect of a call throws. -/
theorem Heeding.interrupt (hs : Heeding K N s) (h : interrupt err i s = some s')
    (hN : ∀ j g, N j g → N' j g)
    (hnote : ∀ l e k g, s.threads.lookup i = some ⟨l, .op e k⟩ → N i g →
      N' i ((K l).note g e (.error err))) : Heeding K N' s' := by
  obtain ⟨l, e, k, hi, -, hth⟩ := interrupt_eq_some h
  obtain ⟨g, hg, -, hheeds⟩ := hs i _ hi
  exact hs.insert hth hN ⟨_, hnote l e k g hi hg, hheeds _⟩

/-- A call is made. -/
theorem Heeding.spawn (hs : Heeding K N s) (h : spawn i l p s = some s')
    (hN : ∀ j g, N j g → N' j g)
    (hp : ∃ g, N' i g ∧ p.Heeds (K l) (fun _ _ => True) (fun _ _ => True) g) :
    Heeding K N' s' := by
  obtain ⟨-, -, hth⟩ := spawn_eq_some h
  exact hs.insert hth hN hp

end Pool

end Resumable
