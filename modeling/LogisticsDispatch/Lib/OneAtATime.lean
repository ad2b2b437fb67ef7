/-
Calls that are made one at a time, effect by effect.

`Program.Ensures` is a weakest precondition: whatever its effects answer, a program that runs with
nothing in between performs only what it may, takes every state only to one that is allowed after
it, and returns what meets a postcondition. What it throws is not asked about. The states of an
`Outline` may be a view of the shared state (`Machine.Seen`), with all else left open.

`Program.lift` takes a program to other effects, and `Ensures.lift` its rule with it.

A call of a pool is made only when no other is under way. `Pool.Ensuring` is what the steps of
such a pool preserve: each call ensures the rest of its program, and what calls have returned
still holds.
-/
import LogisticsDispatch.Lib.Pool

set_option autoImplicit false

namespace Resumable

universe u v w

variable {E E' : Type u} {R : E → Type v} {R' : E' → Type v} {ε ε' α β : Type v}
  {S L L' C T : Type w}

/-- What programs of calls `L` are verified against: what effects answer and do, which effects a
call may perform, and what becomes of a state. -/
structure Outline (E : Type u) (R : E → Type v) (ε : Type v) (L T : Type w) where
  step : (e : E) → T → Except ε (R e) → T → Prop
  May : L → E → T → Prop
  Keeps : T → T → Prop

namespace Program

/-! ## What a program ensures -/

variable (O : Outline E R ε L T) (l : L)

/-- Run with nothing in between, the program returns, if it does, what meets `Q`. -/
def Ensures (Q : α → T → Prop) : Program E R ε α → T → Prop
  | ret a, t => Q a t
  | fail _, _ => True
  | op e k, t => O.May l e t ∧ ∀ r t', O.step e t r t' → O.Keeps t t' ∧ (k r).Ensures Q t'

variable {O l} {p : Program E R ε α} {Q Q' : α → T → Prop} {t : T}

/-- A weaker postcondition. -/
theorem Ensures.mono (h : p.Ensures O l Q t) (hQ : ∀ a t, Q a t → Q' a t) :
    p.Ensures O l Q' t := by
  induction p generalizing t with
  | ret a => exact hQ a t h
  | fail err => trivial
  | op e k ih =>
      refine ⟨h.1, fun r t' hstep => ?_⟩
      obtain ⟨hkeeps, hk⟩ := h.2 r t' hstep
      exact ⟨hkeeps, ih r hk⟩

/-- Sequencing: the rest starts from what the first has left. -/
theorem Ensures.bind {Q' : β → T → Prop} {f : α → Program E R ε β} (h : p.Ensures O l Q t)
    (hf : ∀ a t, Q a t → (f a).Ensures O l Q' t) : (p >>= f).Ensures O l Q' t := by
  induction p generalizing t with
  | ret a => exact hf a t h
  | fail err => trivial
  | op e k ih =>
      refine ⟨h.1, fun r t' hstep => ?_⟩
      obtain ⟨hkeeps, hk⟩ := h.2 r t' hstep
      exact ⟨hkeeps, ih r hk⟩

/-- Handling: the handler starts from any state. -/
theorem Ensures.tryCatch {h : ε → Program E R ε α} (hp : p.Ensures O l Q t)
    (hh : ∀ err t, (h err).Ensures O l Q t) :
    (MonadExcept.tryCatch p h).Ensures O l Q t := by
  induction p generalizing t with
  | ret a => exact hp
  | fail err => exact hh err t
  | op e k ih =>
      refine ⟨hp.1, fun r t' hstep => ?_⟩
      obtain ⟨hkeeps, hk⟩ := hp.2 r t' hstep
      exact ⟨hkeeps, ih r hk⟩

/-- The rule for one effect and what comes after it. -/
theorem ensures_perform_bind {Q : β → T → Prop} {e : E} {f : R e → Program E R ε β}
    (hmay : O.May l e t) (hkeeps : ∀ r t', O.step e t r t' → O.Keeps t t')
    (hok : ∀ a t', O.step e t (.ok a) t' → (f a).Ensures O l Q t') :
    (perform e >>= f).Ensures O l Q t := by
  rw [perform_bind]
  refine ⟨hmay, fun r t' hstep => ⟨hkeeps r t' hstep, ?_⟩⟩
  cases r with
  | ok a => exact hok a t' hstep
  | error err => trivial

theorem ensures_perform {e : E} {Q : R e → T → Prop} (hmay : O.May l e t)
    (hkeeps : ∀ r t', O.step e t r t' → O.Keeps t t')
    (hok : ∀ a t', O.step e t (.ok a) t' → Q a t') :
    (perform e : Program E R ε (R e)).Ensures O l Q t := by
  refine ⟨hmay, fun r t' hstep => ⟨hkeeps r t' hstep, ?_⟩⟩
  cases r with
  | ok a => exact hok a t' hstep
  | error err => trivial

/-- A program all of whose effects leave the state as it is. -/
theorem ensures_of_all {P : E → Prop} (h : p.All P) (hmay : ∀ e, P e → O.May l e t)
    (hstep : ∀ e r t', P e → O.step e t r t' → t' = t) (hkeeps : O.Keeps t t)
    (hQ : ∀ a, Q a t) : p.Ensures O l Q t := by
  induction p with
  | ret a => exact hQ a
  | fail err => trivial
  | op e k ih =>
      refine ⟨hmay e h.1, fun r t' hr => ?_⟩
      obtain rfl := hstep e r t' h.1 hr
      exact ⟨hkeeps, ih r (h.2 r)⟩

/-! ## Programs over other effects -/

/-- A program as one over other effects: how they answer it, and what becomes of what it
throws. -/
def lift (f : E → E') (answer : (e : E) → Except ε' (R' (f e)) → Except ε (R e))
    (throws : ε → ε') : Program E R ε α → Program E' R' ε' α
  | ret a => .ret a
  | fail err => .fail (throws err)
  | op e k => .op (f e) fun r => (k (answer e r)).lift f answer throws

theorem All.lift {P : E' → Prop} {f : E → E'}
    {answer : (e : E) → Except ε' (R' (f e)) → Except ε (R e)} {throws : ε → ε'}
    (h : p.All fun e => P (f e)) : (p.lift f answer throws).All P := by
  induction p with
  | ret a => trivial
  | fail err => trivial
  | op e k ih => exact ⟨h.1, fun r => ih _ (h.2 _)⟩

/-- A lifted program ensures what the program does, where its effects do what they did. -/
theorem Ensures.lift {O' : Outline E' R' ε' L' T} {l' : L'} {f : E → E'}
    {answer : (e : E) → Except ε' (R' (f e)) → Except ε (R e)} {throws : ε → ε'}
    (h : p.Ensures O l Q t)
    (hmay : ∀ e t, O.May l e t → O'.May l' (f e) t)
    (hstep : ∀ e t r t', O'.step (f e) t r t' → O.step e t (answer e r) t')
    (hkeeps : ∀ t t', O.Keeps t t' → O'.Keeps t t') :
    (p.lift f answer throws).Ensures O' l' Q t := by
  induction p generalizing t with
  | ret a => exact h
  | fail err => trivial
  | op e k ih =>
      refine ⟨hmay e t h.1, fun r t' hr => ?_⟩
      obtain ⟨hk, hrest⟩ := h.2 _ t' (hstep e t r t' hr)
      exact ⟨hkeeps t t' hk, ih _ hrest⟩

end Program

/-! ## Pools -/

/-- What an effect may answer and do, as far as a view of the shared state goes. An effect that
throws `err` does nothing. -/
def Machine.Seen (M : Machine E R ε S C) (view : S → T) (err : ε) (e : E) (t : T)
    (r : Except ε (R e)) (t' : T) : Prop :=
  (∃ c s, view s = t ∧ (M.exec c e s).1 = r ∧ view (M.exec c e s).2 = t') ∨
    r = .error err ∧ t' = t

namespace Pool

variable {O : Outline E R ε L T} {Q : L → α → T → Prop} {view : S → T} {M : Machine E R ε S C}
  {i : ℕ} {c : C} {l : L} {p : Program E R ε α} {err : ε} {s s' : Pool S L E R ε α}

/-- Every call ensures the rest of its program from the state there is, and one call at most is
under way. -/
structure Ensuring (O : Outline E R ε L T) (Q : L → α → T → Prop) (view : S → T)
    (s : Pool S L E R ε α) : Prop where
  ensures : ∀ i th, s.threads.lookup i = some th →
    th.prog.Ensures O th.call (Q th.call) (view s.shared)
  alone : ∀ i j th th', s.threads.lookup i = some th → s.threads.lookup j = some th' →
    th.prog.isDone = false → th'.prog.isDone = false → i = j

/-- The call under way may perform its next effect. -/
theorem Ensuring.may (hs : Ensuring O Q view s) {e : E} {k : Except ε (R e) → Program E R ε α}
    (hi : s.threads.lookup i = some ⟨l, .op e k⟩) : O.May l e (view s.shared) :=
  (hs.ensures i _ hi).1

/-- What a call has returned meets the postcondition. -/
theorem Ensuring.returned (hs : Ensuring O Q view s) {a : α}
    (hi : s.threads.lookup i = some ⟨l, .ret a⟩) : Q l a (view s.shared) :=
  hs.ensures i _ hi

/-- The view does not change. -/
theorem Ensuring.same (hs : Ensuring O Q view s) (hview : view s'.shared = view s.shared)
    (hth : s'.threads = s.threads) : Ensuring O Q view s' := by
  refine ⟨?_, ?_⟩
  · rw [hth, hview]
    exact hs.ensures
  · rw [hth]
    exact hs.alone

/-- The call under way goes on to `p`; what the others have returned holds of the new state. -/
theorem Ensuring.goOn (hs : Ensuring O Q view s) {e : E} {k : Except ε (R e) → Program E R ε α}
    (hi : s.threads.lookup i = some ⟨l, .op e k⟩)
    (hstays : ∀ l a, Q l a (view s.shared) → Q l a (view s'.shared))
    (hp : p.Ensures O l (Q l) (view s'.shared))
    (hth : s'.threads = s.threads.insert i ⟨l, p⟩) : Ensuring O Q view s' := by
  refine ⟨?_, ?_⟩
  · rw [hth]
    refine forall_insert (T := fun _ th =>
      th.prog.Ensures O th.call (Q th.call) (view s'.shared)) (fun j th hj hji => ?_) hp
    obtain ⟨l', p'⟩ := th
    cases p' with
    | ret a => exact hstays l' a (hs.ensures j _ hj)
    | fail err => trivial
    | op e' k' => exact absurd (hs.alone j i _ _ hj hi rfl rfl) hji
  · intro j j' th th' hj hj' hrun hrun'
    rw [hth] at hj hj'
    -- another call that is under way would have been under way before
    have hother : ∀ m thm, (s.threads.insert i ⟨l, p⟩).lookup m = some thm →
        thm.prog.isDone = false → m = i := by
      intro m thm hm hrunning
      rcases lookup_insert_cases hm with ⟨rfl, -⟩ | ⟨-, hm⟩
      · rfl
      · exact hs.alone m i _ _ hm hi hrunning rfl
    rw [hother j th hj hrun, hother j' th' hj' hrun']

/-- The call under way performs its next effect. -/
theorem Ensuring.advance (hs : Ensuring O Q view s) (h : advance M i c s = some s')
    (hstep : ∀ e t r t', M.Seen view err e t r t' → O.step e t r t')
    (hstays : ∀ l a t t', O.Keeps t t' → Q l a t → Q l a t') :
    Ensuring O Q view s' ∧ O.Keeps (view s.shared) (view s'.shared) := by
  obtain ⟨l, e, k, hi, hsh, hth⟩ := advance_eq_some h
  obtain ⟨-, hrest⟩ := hs.ensures i _ hi
  obtain ⟨hkeeps, hk⟩ := hrest (M.exec c e s.shared).1 (view s'.shared)
    (hstep _ _ _ _ (.inl ⟨c, s.shared, rfl, rfl, by rw [hsh]⟩))
  exact ⟨hs.goOn hi (fun l a => hstays l a _ _ hkeeps) hk hth, hkeeps⟩

/-- The next effect of the call under way throws. -/
theorem Ensuring.interrupt (hs : Ensuring O Q view s) (h : interrupt err i s = some s')
    (hstep : ∀ e t r t', M.Seen view err e t r t' → O.step e t r t') :
    Ensuring O Q view s' := by
  obtain ⟨l, e, k, hi, hsh, hth⟩ := interrupt_eq_some h
  obtain ⟨-, hrest⟩ := hs.ensures i _ hi
  obtain ⟨-, hk⟩ := hrest (.error err) (view s.shared) (hstep _ _ _ _ (.inr ⟨rfl, rfl⟩))
  rw [← hsh] at hk
  exact hs.goOn hi (fun l a hQ => by rwa [hsh]) hk hth

/-- A call is made when none is under way. -/
theorem Ensuring.spawn (hs : Ensuring O Q view s) (h : spawn i l p s = some s')
    (hquiet : s.Quiet) (hp : p.Ensures O l (Q l) (view s.shared)) : Ensuring O Q view s' := by
  obtain ⟨-, hsh, hth⟩ := spawn_eq_some h
  refine ⟨?_, ?_⟩
  · rw [hth, hsh]
    exact forall_insert (T := fun _ th =>
      th.prog.Ensures O th.call (Q th.call) (view s.shared))
      (fun j th hj _ => hs.ensures j th hj) hp
  · intro j j' th th' hj hj' hrun hrun'
    rw [hth] at hj hj'
    have hnew : ∀ m thm, (s.threads.insert i ⟨l, p⟩).lookup m = some thm →
        thm.prog.isDone = false → m = i := by
      intro m thm hm hrunning
      rcases lookup_insert_cases hm with ⟨rfl, -⟩ | ⟨-, hm⟩
      · rfl
      · rw [hquiet m thm hm] at hrunning
        cases hrunning
    rw [hnew j th hj hrun, hnew j' th' hj' hrun']

end Pool

end Resumable
