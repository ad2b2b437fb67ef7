/-
Many suspended programs over one shared state, interleaved effect by effect.

A `Machine` says what performing an effect does: how it answers and what it leaves
of the shared state, under a choice that settles what the effect leaves open. A
`Pool` is the shared state with the calls that were made on it, each with the
program that is left of it. Calls that are finished stay in the pool, as programs
that have returned or thrown, so that how a call ended can be asked for later.

The last section is rely-guarantee reasoning for a pool. `Safe p s` says of a
program, whatever the others have done to the shared state by the time it goes on,
that it only performs effects it may perform there (`Guar`). The others are known
to change the state only along `Rely`. `ThreadsSafe.advance` and its companions
then say that a pool of safe programs stays one.
-/
import Mathlib.Data.List.AList
import LogisticsDispatch.Lib.Program

set_option autoImplicit false

namespace Resumable

universe u v w

/-- What performing an effect does to a shared state of `S`. The choice of `C`
settles what the effect leaves open. -/
structure Machine (E : Type u) (R : E → Type v) (ε : Type v) (S C : Type w) where
  exec : C → (e : E) → S → Except ε (R e) × S

/-- A call that was made, with the program that is left of it. -/
structure Thread (L : Type w) (E : Type u) (R : E → Type v) (ε α : Type v) where
  call : L
  prog : Program E R ε α

/-- A shared state and the calls that were made on it, by their numbers. -/
structure Pool (S L : Type w) (E : Type u) (R : E → Type v) (ε α : Type v) where
  shared : S
  threads : AList fun _ : ℕ => Thread L E R ε α

namespace Pool

variable {E : Type u} {R : E → Type v} {ε α : Type v} {S L C : Type w}

/-- Call `i` performs its next effect under the choice `c`. -/
def advance (M : Machine E R ε S C) (i : ℕ) (c : C) (s : Pool S L E R ε α) :
    Option (Pool S L E R ε α) :=
  match s.threads.lookup i with
  | some ⟨l, .op e k⟩ =>
      -- the call gets its answer and stops again before the next effect
      let res := M.exec c e s.shared
      some { shared := res.2, threads := s.threads.insert i ⟨l, k res.1⟩ }
  | _ => none

/-- The next effect of call `i` throws `err` and leaves the shared state alone. -/
def interrupt (err : ε) (i : ℕ) (s : Pool S L E R ε α) : Option (Pool S L E R ε α) :=
  match s.threads.lookup i with
  | some ⟨l, .op _ k⟩ => some { s with threads := s.threads.insert i ⟨l, k (.error err)⟩ }
  | _ => none

/-- Call number `i` is made, with the program `p` ahead of it. -/
def spawn (i : ℕ) (l : L) (p : Program E R ε α) (s : Pool S L E R ε α) :
    Option (Pool S L E R ε α) :=
  if i ∈ s.threads then none else some { s with threads := s.threads.insert i ⟨l, p⟩ }

/-- No call is under way: every call that was made has returned or thrown. -/
def Quiet (s : Pool S L E R ε α) : Prop :=
  ∀ i th, s.threads.lookup i = some th → th.prog.isDone = true

/-- The calls of a pool as a list, which makes `Quiet` a computation. -/
def quietb (s : Pool S L E R ε α) : Bool :=
  s.threads.entries.all fun en => en.2.prog.isDone

theorem quiet_of_quietb {s : Pool S L E R ε α} (h : s.quietb = true) : s.Quiet := by
  intro i th hi
  rw [quietb, List.all_eq_true] at h
  exact h ⟨i, th⟩ (AList.mem_lookup_iff.mp hi)

variable {M : Machine E R ε S C} {i j : ℕ} {c : C} {l : L} {p : Program E R ε α} {err : ε}
  {s s' : Pool S L E R ε α} {th : Thread L E R ε α}

/-- All that a call going on can do. -/
theorem advance_eq_some (h : advance M i c s = some s') :
    ∃ l e k, s.threads.lookup i = some ⟨l, .op e k⟩ ∧
      s'.shared = (M.exec c e s.shared).2 ∧
      s'.threads = s.threads.insert i ⟨l, k (M.exec c e s.shared).1⟩ := by
  unfold advance at h
  split at h
  · next l e k hi =>
      obtain rfl := Option.some.inj h
      exact ⟨l, e, k, hi, rfl, rfl⟩
  · cases h

/-- All that an effect that throws can do. -/
theorem interrupt_eq_some (h : interrupt err i s = some s') :
    ∃ l e k, s.threads.lookup i = some ⟨l, .op e k⟩ ∧
      s'.shared = s.shared ∧ s'.threads = s.threads.insert i ⟨l, k (.error err)⟩ := by
  unfold interrupt at h
  split at h
  · next l e k hi =>
      obtain rfl := Option.some.inj h
      exact ⟨l, e, k, hi, rfl, rfl⟩
  · cases h

/-- All that making a call can do. -/
theorem spawn_eq_some (h : spawn i l p s = some s') :
    s.threads.lookup i = none ∧ s'.shared = s.shared ∧
      s'.threads = s.threads.insert i ⟨l, p⟩ := by
  unfold spawn at h
  split at h
  · cases h
  · next hi =>
      obtain rfl := Option.some.inj h
      exact ⟨AList.lookup_eq_none.mpr hi, rfl, rfl⟩

/-! ## Properties of every call -/

/-- What is found after an entry is put in is that entry, or was there before. -/
theorem lookup_insert_cases {V : Type*} {ts : AList fun _ : ℕ => V} {v v' : V}
    (h : (ts.insert i v).lookup j = some v') :
    j = i ∧ v' = v ∨ j ≠ i ∧ ts.lookup j = some v' := by
  by_cases hji : j = i
  · subst hji
    rw [AList.lookup_insert] at h
    exact .inl ⟨rfl, (Option.some.inj h).symm⟩
  · rw [AList.lookup_insert_ne hji] at h
    exact .inr ⟨hji, h⟩

/-- `T` holds of every call of the pool and the program left of it. -/
def ForallThreads (T : L → Program E R ε α → Prop) (s : Pool S L E R ε α) : Prop :=
  ∀ i th, s.threads.lookup i = some th → T th.call th.prog

section ForallThreads

variable {T : L → Program E R ε α → Prop}

theorem forall_insert {ts : AList fun _ : ℕ => Thread L E R ε α}
    {T : ℕ → Thread L E R ε α → Prop} (hT : ∀ j th, ts.lookup j = some th → j ≠ i → T j th)
    (hi : T i th) : ∀ j th', (ts.insert i th).lookup j = some th' → T j th' := by
  intro j th' hj
  rcases lookup_insert_cases hj with ⟨rfl, rfl⟩ | ⟨hji, hj⟩
  -- the call that was put in
  · exact hi
  -- one of the others
  · exact hT j th' hj hji

/-- What holds of every call holds after one more is put in that has it. -/
theorem ForallThreads.insert (hs : ForallThreads T s)
    (hth : s'.threads = s.threads.insert i th) (h : T th.call th.prog) : ForallThreads T s' := by
  rw [ForallThreads, hth]
  exact forall_insert (T := fun _ th => T th.call th.prog) (fun j th hj _ => hs j th hj) h

/-- What holds of every call depends on the calls only. -/
theorem ForallThreads.same (hs : ForallThreads T s) (hth : s'.threads = s.threads) :
    ForallThreads T s' := by
  rw [ForallThreads, hth]
  exact hs

end ForallThreads

/-! ## Obligations of the pool

`Owed` says that some call still has to perform a certain effect. Calls that are under
way are the only ones that can be, so in a quiet pool nothing is owed. -/

/-- A call other than `i` will perform an effect that meets `P`. -/
def OwedBeside (P : E → Prop) (A : (e : E) → Except ε (R e) → Prop) (i : ℕ)
    (s : Pool S L E R ε α) : Prop :=
  ∃ j th, j ≠ i ∧ s.threads.lookup j = some th ∧ th.prog.Will P A

/-- Some call will perform an effect that meets `P`. -/
def Owed (P : E → Prop) (A : (e : E) → Except ε (R e) → Prop) (s : Pool S L E R ε α) : Prop :=
  ∃ j th, s.threads.lookup j = some th ∧ th.prog.Will P A

section Owed

variable {P : E → Prop} {A : (e : E) → Except ε (R e) → Prop}

theorem Owed.not_quiet (h : Owed P A s) : ¬ s.Quiet := by
  intro hquiet
  obtain ⟨j, th, hj, hwill⟩ := h
  have hdone := hquiet j th hj
  rw [hwill.not_done] at hdone
  cases hdone

/-- What another call owes, it owes whatever is put in the place of call `i`. -/
theorem OwedBeside.insert (h : OwedBeside P A i s) (hth : s'.threads = s.threads.insert i th) :
    Owed P A s' := by
  obtain ⟨j, th', hji, hj, hwill⟩ := h
  refine ⟨j, th', ?_, hwill⟩
  rw [hth, AList.lookup_insert_ne hji]
  exact hj

/-- A call that is made owes what its program will do, and the others what they did. -/
theorem owed_of_insert (hth : s'.threads = s.threads.insert i th) (hwill : th.prog.Will P A) :
    Owed P A s' := by
  refine ⟨i, th, ?_, hwill⟩
  rw [hth, AList.lookup_insert]

/-- What is owed before a call is made is owed afterwards. -/
theorem Owed.insert (h : Owed P A s) (hfree : s.threads.lookup i = none)
    (hth : s'.threads = s.threads.insert i th) : Owed P A s' := by
  obtain ⟨j, th, hj, hwill⟩ := h
  refine OwedBeside.insert ⟨j, th, ?_, hj, hwill⟩ hth
  rintro rfl
  rw [hfree] at hj
  cases hj

/-- What is owed depends on the calls only. -/
theorem Owed.same (h : Owed P A s) (hth : s'.threads = s.threads) : Owed P A s' := by
  obtain ⟨j, th, hj, hwill⟩ := h
  refine ⟨j, th, ?_, hwill⟩
  rw [hth]
  exact hj

/-- **What becomes of what is owed when a call goes on**: another call owes it, or the
call that goes on has just performed such an effect, or still owes it. -/
theorem Owed.advance (h : Owed P A s) {l : L} {e : E} {k : Except ε (R e) → Program E R ε α}
    {r : Except ε (R e)} (hi : s.threads.lookup i = some ⟨l, .op e k⟩)
    (hth : s'.threads = s.threads.insert i ⟨l, k r⟩) (hr : A e r) :
    OwedBeside P A i s ∨ P e ∨ Owed P A s' := by
  obtain ⟨j, th, hj, hwill⟩ := h
  by_cases hji : j = i
  · subst hji
    rw [hi] at hj
    obtain rfl := Option.some.inj hj
    -- the obligation was the effect that was performed, or comes later
    by_cases hP : P e
    · exact .inr (.inl hP)
    · exact .inr (.inr (owed_of_insert hth (hwill.next hP hr)))
  · exact .inl ⟨j, th, hji, hj, hwill⟩

end Owed

end Pool

/-! ## Rely and guarantee -/

section RelyGuarantee

variable {E : Type u} {R : E → Type v} {ε α β : Type v} {S L C : Type w}

/-- What a pool is verified against: how the others may change the shared state,
and which effects a call may perform in which state. Doing what is allowed stays
within what the others rely on. -/
structure Rules (M : Machine E R ε S C) (L : Type w) where
  Rely : S → S → Prop
  Guar : L → S → E → Prop
  refl : ∀ s, Rely s s
  trans : ∀ {s₁ s₂ s₃}, Rely s₁ s₂ → Rely s₂ s₃ → Rely s₁ s₃
  exec : ∀ l c e s, Guar l s e → Rely s (M.exec c e s).2

variable {M : Machine E R ε S C} (G : Rules M L) (l : L)

/-- From `s` on, whatever the others do, the call `l` performs in `p` only what it may
perform. -/
def Program.Safe : Program E R ε α → S → Prop
  | .ret _, _ => True
  | .fail _, _ => True
  | .op e k, s => ∀ s₁, G.Rely s s₁ → G.Guar l s₁ e ∧
      (∀ c, (k (M.exec c e s₁).1).Safe (M.exec c e s₁).2) ∧ ∀ err, (k (.error err)).Safe s₁

namespace Program.Safe

variable {G l} {p : Program E R ε α} {s s₁ : S}

/-- Being safe is stable under what the others may do. -/
theorem mono (h : p.Safe G l s) (hs : G.Rely s s₁) : p.Safe G l s₁ := by
  cases p with
  | ret a => trivial
  | fail err => trivial
  | op e k => exact fun s₂ hs₂ => h s₂ (G.trans hs hs₂)

/-- Sequencing: the rest has to be safe in whatever has become of the state. -/
theorem bind {f : α → Program E R ε β} (hp : p.Safe G l s)
    (hf : ∀ a s₁, G.Rely s s₁ → (f a).Safe G l s₁) : (p >>= f).Safe G l s := by
  -- on the tree: the state a node starts from is whatever the others have left
  induction p generalizing s with
  | ret a => exact hf a s (G.refl s)
  | fail err => trivial
  | op e k ih =>
      intro s₁ hs₁
      obtain ⟨hguar, hok, herr⟩ := hp s₁ hs₁
      refine ⟨hguar, fun c => ?_, fun err => ?_⟩
      · have hrely := G.trans hs₁ (G.exec l c e s₁ hguar)
        exact ih _ (hok c) fun a s₂ hs₂ => hf a s₂ (G.trans hrely hs₂)
      · exact ih _ (herr err) fun a s₂ hs₂ => hf a s₂ (G.trans hs₁ hs₂)

/-- Handling what a safe program throws. -/
theorem tryCatch {h : ε → Program E R ε α} (hp : p.Safe G l s)
    (hh : ∀ err s₁, G.Rely s s₁ → (h err).Safe G l s₁) :
    (MonadExcept.tryCatch p h).Safe G l s := by
  induction p generalizing s with
  | ret a => trivial
  | fail err => exact hh err s (G.refl s)
  | op e k ih =>
      intro s₁ hs₁
      obtain ⟨hguar, hok, herr⟩ := hp s₁ hs₁
      refine ⟨hguar, fun c => ?_, fun err => ?_⟩
      · have hrely := G.trans hs₁ (G.exec l c e s₁ hguar)
        exact ih _ (hok c) fun err s₂ hs₂ => hh err s₂ (G.trans hrely hs₂)
      · exact ih _ (herr err) fun err' s₂ hs₂ => hh err' s₂ (G.trans hs₁ hs₂)

/-- A loop over a list. -/
theorem forM {δ : Type v} {xs : List δ} {f : δ → Program E R ε PUnit}
    (hf : ∀ x ∈ xs, ∀ s₁, G.Rely s s₁ → (f x).Safe G l s₁) : (xs.forM f).Safe G l s := by
  induction xs generalizing s with
  | nil => trivial
  | cons x xs ih =>
      refine (hf x List.mem_cons_self s (G.refl s)).bind fun _ s₁ hs₁ => ih fun y hy s₂ hs₂ => ?_
      exact hf y (List.mem_cons_of_mem _ hy) s₂ (G.trans hs₁ hs₂)

/-- Performing an effect and going on with its answer. -/
theorem perform_bind {e : E} {g : R e → Program E R ε β}
    (hG : ∀ s₁, G.Rely s s₁ → G.Guar l s₁ e)
    (hg : ∀ s₁ c a, G.Rely s s₁ → (M.exec c e s₁).1 = .ok a →
      (g a).Safe G l (M.exec c e s₁).2) :
    (perform e >>= g).Safe G l s := by
  rw [Program.perform_bind]
  refine fun s₁ hs₁ => ⟨hG s₁ hs₁, fun c => ?_, fun err => trivial⟩
  cases hr : (M.exec c e s₁).1 with
  | error err => trivial
  | ok a => exact hg s₁ c a hs₁ hr

theorem perform {e : E} (hG : ∀ s₁, G.Rely s s₁ → G.Guar l s₁ e) :
    (Program.perform e : Program E R ε (R e)).Safe G l s := by
  refine fun s₁ hs₁ => ⟨hG s₁ hs₁, fun c => ?_, fun err => trivial⟩
  cases (M.exec c e s₁).1 <;> trivial

theorem ofExcept_bind {x : Except ε α} {g : α → Program E R ε β}
    (hg : ∀ a, x = .ok a → (g a).Safe G l s) : (ofExcept x >>= g).Safe G l s := by
  cases x with
  | error err => trivial
  | ok a => exact hg a rfl

end Program.Safe

namespace Pool

variable {G} {i : ℕ} {c : C} {l : L} {p : Program E R ε α} {err : ε}
  {s s' : Pool S L E R ε α}

/-- Every call of the pool is safe from the shared state the pool is in. -/
def ThreadsSafe (G : Rules M L) (s : Pool S L E R ε α) : Prop :=
  ∀ i th, s.threads.lookup i = some th → th.prog.Safe G th.call s.shared

/-- A call of a safe pool may perform its next effect now. -/
theorem ThreadsSafe.guar (hs : ThreadsSafe G s) {e : E} {k : Except ε (R e) → Program E R ε α}
    (hi : s.threads.lookup i = some ⟨l, .op e k⟩) : G.Guar l s.shared e :=
  (hs i _ hi s.shared (G.refl _)).1

/-- A safe pool in which a call goes on is still safe, and has changed the shared
state only as the others rely on. -/
theorem ThreadsSafe.advance (hs : ThreadsSafe G s) (h : advance M i c s = some s') :
    ThreadsSafe G s' ∧ G.Rely s.shared s'.shared := by
  obtain ⟨l, e, k, hi, hsh, hth⟩ := advance_eq_some h
  have hself := hs i _ hi s.shared (G.refl _)
  have hrely : G.Rely s.shared s'.shared := by
    rw [hsh]
    exact G.exec l c e _ hself.1
  -- the others are safe by `mono`; the call itself by what it was safe for
  refine ⟨?_, hrely⟩
  rw [ThreadsSafe, hth]
  refine forall_insert (T := fun _ th => th.prog.Safe G th.call s'.shared) ?_ ?_
  · exact fun j th hj _ => (hs j th hj).mono hrely
  · rw [hsh]
    exact hself.2.1 c

theorem ThreadsSafe.interrupt (hs : ThreadsSafe G s) (h : interrupt err i s = some s') :
    ThreadsSafe G s' := by
  obtain ⟨l, e, k, hi, hsh, hth⟩ := interrupt_eq_some h
  rw [ThreadsSafe, hth, hsh]
  exact forall_insert (T := fun _ th => th.prog.Safe G th.call s.shared)
    (fun j th hj _ => hs j th hj) ((hs i _ hi s.shared (G.refl _)).2.2 err)

theorem ThreadsSafe.spawn (hp : p.Safe G l s.shared) (hs : ThreadsSafe G s)
    (h : spawn i l p s = some s') : ThreadsSafe G s' := by
  obtain ⟨-, hsh, hth⟩ := spawn_eq_some h
  rw [ThreadsSafe, hth, hsh]
  exact forall_insert (T := fun _ th => th.prog.Safe G th.call s.shared)
    (fun j th hj _ => hs j th hj) hp

/-- A change of the shared state from outside that the calls rely on keeps them
safe. -/
theorem ThreadsSafe.env (hs : ThreadsSafe G s) {sh : S} (h : G.Rely s.shared sh) :
    ThreadsSafe G { s with shared := sh } :=
  fun j th hj => (hs j th hj).mono h

end Pool

end RelyGuarantee

end Resumable
