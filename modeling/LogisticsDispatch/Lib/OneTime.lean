/-
One-time tokens that are kept under keys.

A token is drawn, and then stored under a key, in the place of whatever was there. To redeem it,
it is found under the key, and then the key is deleted. Both are two steps, and what others do
comes in between: `Book` has the role each party plays at the time.

If between a find and the deletion nothing is stored under the key and no other party finds the
token there, then each token is redeemed once, and a deletion removes no other token (`Inv`).
-/
import Mathlib.Logic.Basic

set_option autoImplicit false

namespace OneTime

universe u v w

/-- What a party is about: a token that is drawn, one that is found, or one that is redeemed. -/
inductive Role (K : Type u) (T : Type v)
  | pending (key : K) (token : T)
  | holding (key : K) (token : T)
  | spent (token : T)

/-- The roles of the parties, the tokens that are stored, and those that were ever drawn. -/
structure Book (I : Type w) (K : Type u) (T : Type v) where
  role : I → Option (Role K T)
  stored : K → Option T
  drawn : T → Prop

variable {I : Type w} {K : Type u} {T : Type v} {b b' : Book I K T} {i j : I} {t : T}

/-- The party has found the token stored, and may have deleted it since. -/
def Book.Found (b : Book I K T) (i : I) (t : T) : Prop :=
  (∃ key, b.role i = some (.holding key t)) ∨ b.role i = some (.spent t)

/-- One step. Nothing is stored under a key and no token is found again while a party holds the
token it has found there. -/
inductive Step (b b' : Book I K T) : Prop
  -- parties give up, and tokens are lost
  | lose (hrole : ∀ i, b'.role i = b.role i ∨ b'.role i = none)
      (hstored : ∀ k t, b'.stored k = some t → b.stored k = some t) (hdrawn : b'.drawn = b.drawn)
  | draw {i : I} {key : K} {t : T} (hnew : ¬ b.drawn t) (hi' : b'.role i = some (.pending key t))
      (hother : ∀ j, j ≠ i → b'.role j = b.role j) (hstored : b'.stored = b.stored)
      (hdrawn : ∀ t', b'.drawn t' ↔ t' = t ∨ b.drawn t')
  | store {i : I} {key : K} {t : T} (hi : b.role i = some (.pending key t))
      (hi' : b'.role i = none) (hother : ∀ j, j ≠ i → b'.role j = b.role j)
      (hkey : b'.stored key = some t) (hstored : ∀ k, k ≠ key → b'.stored k = b.stored k)
      (hdrawn : b'.drawn = b.drawn) (hserial : ∀ j t', b.role j ≠ some (.holding key t'))
  | find {i : I} {key : K} {t : T} (hkey : b.stored key = some t)
      (hi' : b'.role i = some (.holding key t)) (hother : ∀ j, j ≠ i → b'.role j = b.role j)
      (hstored : b'.stored = b.stored) (hdrawn : b'.drawn = b.drawn)
      (hserial : ∀ j, b.role j ≠ some (.holding key t))
  | delete {i : I} {key : K} {t : T} (hi : b.role i = some (.holding key t))
      (hi' : b'.role i = some (.spent t)) (hother : ∀ j, j ≠ i → b'.role j = b.role j)
      (hkey : b'.stored key = none) (hstored : ∀ k, k ≠ key → b'.stored k = b.stored k)
      (hdrawn : b'.drawn = b.drawn)

/-- **The invariant.** A token that is pending is nowhere else; a token is stored under one key
and found by one party; what is stored where a token was found is that token; and a token that
is redeemed is not stored. -/
structure Inv (b : Book I K T) : Prop where
  pending : ∀ i key t, b.role i = some (.pending key t) → b.drawn t ∧
    (∀ k, b.stored k ≠ some t) ∧ (∀ j, ¬ b.Found j t) ∧
      ∀ j k, b.role j = some (.pending k t) → j = i
  stored : ∀ k t, b.stored k = some t → b.drawn t ∧ ∀ k', b.stored k' = some t → k' = k
  found : ∀ i t, b.Found i t → b.drawn t ∧ ∀ j, b.Found j t → j = i
  held : ∀ i key t, b.role i = some (.holding key t) →
    (∀ t', b.stored key = some t' → t' = t) ∧ ∀ k, b.stored k = some t → k = key
  spent : ∀ i t, b.role i = some (.spent t) → ∀ k, b.stored k ≠ some t

/-- A party in the role it had has found what it had found. -/
theorem Book.Found.of_role_eq (h : b'.Found i t) (hrole : b'.role i = b.role i) : b.Found i t := by
  rwa [Found, hrole] at h

/-- A party without a role has found nothing. -/
theorem Book.not_found (h : b.role i = none) : ¬ b.Found i t := by
  rintro (⟨key, hi⟩ | hi)
  · rw [h] at hi
    cases hi
  · rw [h] at hi
    cases hi

/-- A party about to store a token has found none. -/
theorem Book.not_found_of_pending {key : K} {t' : T} (h : b.role i = some (.pending key t')) :
    ¬ b.Found i t := by
  rintro (⟨key, hi⟩ | hi)
  · rw [h] at hi
    cases hi
  · rw [h] at hi
    cases hi

/-- A role other than the one that a party was given is an old one. -/
theorem Book.old_role {r r₀ : Role K T} (hi' : b'.role i = some r₀)
    (hother : ∀ j, j ≠ i → b'.role j = b.role j) (hj : b'.role j = some r) (hr : r ≠ r₀) :
    b.role j = some r := by
  by_cases hij : j = i
  · subst hij
    rw [hi'] at hj
    exact absurd (Option.some.inj hj).symm hr
  · rw [← hother j hij]
    exact hj

/-- Nothing is known of a book in which nobody plays a role and nothing is stored. -/
theorem inv_of_empty (hrole : ∀ i, b.role i = none) (hstored : ∀ k, b.stored k = none) :
    Inv b := by
  refine ⟨?_, ?_, fun i t h => absurd h (Book.not_found (hrole i)), ?_, ?_⟩
  · intro i key t h
    rw [hrole i] at h
    cases h
  · intro k t h
    rw [hstored k] at h
    cases h
  · intro i key t h
    rw [hrole i] at h
    cases h
  · intro i t h
    rw [hrole i] at h
    cases h

/-- Parties give up, and tokens are lost. -/
theorem Inv.lose (h : Inv b) (hrole : ∀ i, b'.role i = b.role i ∨ b'.role i = none)
    (hstored : ∀ k t, b'.stored k = some t → b.stored k = some t) (hdrawn : b'.drawn = b.drawn) :
    Inv b' := by
  have hold : ∀ {i r}, b'.role i = some r → b.role i = some r := by
    intro i r hi
    rcases hrole i with heq | hnone
    · exact heq.symm.trans hi
    · rw [hnone] at hi
      cases hi
  have hfound : ∀ {i t}, b'.Found i t → b.Found i t := by
    intro i t hi
    rcases hrole i with heq | hnone
    · exact hi.of_role_eq heq
    · exact absurd hi (Book.not_found hnone)
  refine ⟨?_, ?_, ?_, ?_, ?_⟩
  · intro i key t hi
    obtain ⟨hd, hs, hf, hp⟩ := h.pending i key t (hold hi)
    refine ⟨hdrawn ▸ hd, fun k hk => hs k (hstored k t hk), fun j hj => hf j (hfound hj), ?_⟩
    exact fun j k hj => hp j k (hold hj)
  · intro k t hk
    obtain ⟨hd, hk'⟩ := h.stored k t (hstored k t hk)
    exact ⟨hdrawn ▸ hd, fun k' h' => hk' k' (hstored k' t h')⟩
  · intro i t hi
    obtain ⟨hd, hj⟩ := h.found i t (hfound hi)
    exact ⟨hdrawn ▸ hd, fun j h' => hj j (hfound h')⟩
  · intro i key t hi
    obtain ⟨ht, hk⟩ := h.held i key t (hold hi)
    exact ⟨fun t' h' => ht t' (hstored key t' h'), fun k h' => hk k (hstored k t h')⟩
  · intro i t hi k hk
    exact h.spent i t (hold hi) k (hstored k t hk)

/-- A token is drawn that never was. -/
theorem Inv.draw {key : K} (h : Inv b) (hnew : ¬ b.drawn t)
    (hi' : b'.role i = some (.pending key t)) (hother : ∀ j, j ≠ i → b'.role j = b.role j)
    (hstored : b'.stored = b.stored) (hdrawn : ∀ t', b'.drawn t' ↔ t' = t ∨ b.drawn t') :
    Inv b' := by
  have hne : ∀ {j r}, b'.role j = some r → r ≠ .pending key t → b.role j = some r :=
    fun hj hr => Book.old_role hi' hother hj hr
  have hfound : ∀ {j t'}, b'.Found j t' → b.Found j t' := by
    intro j t' hj
    by_cases hij : j = i
    · subst hij
      exact absurd hj (Book.not_found_of_pending hi')
    · exact hj.of_role_eq (hother j hij)
  have hgrow : ∀ {t'}, b.drawn t' → b'.drawn t' := fun h => (hdrawn _).mpr (.inr h)
  refine ⟨?_, ?_, ?_, ?_, ?_⟩
  · intro j key' t' hj
    by_cases hij : j = i
    · subst hij
      rw [hi'] at hj
      obtain ⟨rfl, rfl⟩ := Role.pending.inj (Option.some.inj hj)
      -- what is stored, found or pending was drawn before
      refine ⟨(hdrawn t).mpr (.inl rfl), ?_, ?_, ?_⟩
      · intro k hk
        rw [hstored] at hk
        exact hnew (h.stored k t hk).1
      · exact fun j' hj' => hnew (h.found j' t (hfound hj')).1
      · intro j' k hj'
        by_cases hij' : j' = j
        · exact hij'
        · rw [hother j' hij'] at hj'
          exact absurd (h.pending j' k t hj').1 hnew
    · have hj₀ := (hother j hij).symm.trans hj
      obtain ⟨hd, hs, hf, hp⟩ := h.pending j key' t' hj₀
      refine ⟨hgrow hd, by rwa [hstored], fun j' hj' => hf j' (hfound hj'), ?_⟩
      intro j' k hj'
      by_cases hij' : j' = i
      · subst hij'
        rw [hi'] at hj'
        obtain ⟨rfl, rfl⟩ := Role.pending.inj (Option.some.inj hj')
        exact absurd hd hnew
      · exact hp j' k ((hother j' hij').symm.trans hj')
  · intro k t' hk
    rw [hstored] at hk ⊢
    obtain ⟨hd, hk'⟩ := h.stored k t' hk
    exact ⟨hgrow hd, hk'⟩
  · intro j t' hj
    obtain ⟨hd, hj'⟩ := h.found j t' (hfound hj)
    exact ⟨hgrow hd, fun j' h' => hj' j' (hfound h')⟩
  · intro j key' t' hj
    rw [hstored]
    exact h.held j key' t' (hne hj fun h => by cases h)
  · intro j t' hj
    rw [hstored]
    exact h.spent j t' (hne hj fun h => by cases h)

/-- A token is stored. -/
theorem Inv.store {key : K} (h : Inv b) (hi : b.role i = some (.pending key t))
    (hi' : b'.role i = none) (hother : ∀ j, j ≠ i → b'.role j = b.role j)
    (hkey : b'.stored key = some t) (hstored : ∀ k, k ≠ key → b'.stored k = b.stored k)
    (hdrawn : b'.drawn = b.drawn) (hserial : ∀ j t', b.role j ≠ some (.holding key t')) :
    Inv b' := by
  have hold : ∀ {j r}, b'.role j = some r → j ≠ i ∧ b.role j = some r := by
    intro j r hj
    by_cases hij : j = i
    · subst hij
      rw [hi'] at hj
      cases hj
    · exact ⟨hij, (hother j hij).symm.trans hj⟩
  have hfound : ∀ {j t'}, b'.Found j t' → b.Found j t' := by
    intro j t' hj
    by_cases hij : j = i
    · subst hij
      exact absurd hj (Book.not_found hi')
    · exact hj.of_role_eq (hother j hij)
  obtain ⟨hd, hs, hf, hp⟩ := h.pending i key t hi
  -- what is stored now is the token, or was stored before
  have hcases : ∀ {k t'}, b'.stored k = some t' →
      k = key ∧ t' = t ∨ k ≠ key ∧ b.stored k = some t' := by
    intro k t' hk
    by_cases hkk : k = key
    · subst hkk
      rw [hkey] at hk
      exact .inl ⟨rfl, (Option.some.inj hk).symm⟩
    · exact .inr ⟨hkk, (hstored k hkk).symm.trans hk⟩
  refine ⟨?_, ?_, ?_, ?_, ?_⟩
  · intro j key' t' hj
    obtain ⟨hij, hj⟩ := hold hj
    obtain ⟨hd', hs', hf', hp'⟩ := h.pending j key' t' hj
    refine ⟨hdrawn ▸ hd', ?_, fun j' hj' => hf' j' (hfound hj'),
      fun j' k hj' => hp' j' k (hold hj').2⟩
    intro k hk
    rcases hcases hk with ⟨-, rfl⟩ | ⟨-, hk⟩
    · exact hij (hp j key' hj)
    · exact hs' k hk
  · intro k t' hk
    rcases hcases hk with ⟨rfl, rfl⟩ | ⟨hkk, hk⟩
    · refine ⟨hdrawn ▸ hd, fun k' hk' => ?_⟩
      rcases hcases hk' with ⟨rfl, -⟩ | ⟨-, hk'⟩
      · rfl
      · exact absurd hk' (hs k')
    · obtain ⟨hd', hk'⟩ := h.stored k t' hk
      refine ⟨hdrawn ▸ hd', fun k' h' => ?_⟩
      rcases hcases h' with ⟨-, rfl⟩ | ⟨-, h'⟩
      · exact absurd hk (hs k)
      · exact hk' k' h'
  · intro j t' hj
    obtain ⟨hd', hj'⟩ := h.found j t' (hfound hj)
    exact ⟨hdrawn ▸ hd', fun j' h' => hj' j' (hfound h')⟩
  · intro j key' t' hj
    obtain ⟨-, hj⟩ := hold hj
    obtain ⟨ht, hk⟩ := h.held j key' t' hj
    constructor
    · intro t'' h''
      rcases hcases h'' with ⟨rfl, -⟩ | ⟨-, h''⟩
      · exact absurd hj (hserial j t')
      · exact ht t'' h''
    · intro k h''
      rcases hcases h'' with ⟨-, rfl⟩ | ⟨-, h''⟩
      · exact absurd (.inl ⟨key', hj⟩) (hf j)
      · exact hk k h''
  · intro j t' hj k hk
    obtain ⟨-, hj⟩ := hold hj
    rcases hcases hk with ⟨-, rfl⟩ | ⟨-, hk⟩
    · exact hf j (.inr hj)
    · exact h.spent j t' hj k hk

/-- A token is found. -/
theorem Inv.find {key : K} (h : Inv b) (hkey : b.stored key = some t)
    (hi' : b'.role i = some (.holding key t)) (hother : ∀ j, j ≠ i → b'.role j = b.role j)
    (hstored : b'.stored = b.stored) (hdrawn : b'.drawn = b.drawn)
    (hserial : ∀ j, b.role j ≠ some (.holding key t)) : Inv b' := by
  obtain ⟨hd, hk⟩ := h.stored key t hkey
  -- nobody has found it before: it would be held under this key, or not be stored
  have hnot : ∀ j, ¬ b.Found j t := by
    rintro j (⟨key', hj⟩ | hj)
    · obtain rfl := (h.held j key' t hj).2 key hkey
      exact hserial j hj
    · exact h.spent j t hj key hkey
  have hold : ∀ {j r}, b'.role j = some r → r ≠ .holding key t → b.role j = some r :=
    fun hj hr => Book.old_role hi' hother hj hr
  have hfound : ∀ {j t'}, b'.Found j t' → j = i ∧ t' = t ∨ b.Found j t' := by
    intro j t' hj
    by_cases hij : j = i
    · subst hij
      rcases hj with ⟨key', hj⟩ | hj
      · rw [hi'] at hj
        obtain ⟨-, rfl⟩ := Role.holding.inj (Option.some.inj hj)
        exact .inl ⟨rfl, rfl⟩
      · rw [hi'] at hj
        cases hj
    · exact .inr (hj.of_role_eq (hother j hij))
  refine ⟨?_, ?_, ?_, ?_, ?_⟩
  · intro j key' t' hj
    obtain ⟨hd', hs', hf', hp'⟩ := h.pending j key' t' (hold hj fun h => by cases h)
    refine ⟨hdrawn ▸ hd', by rwa [hstored], ?_,
      fun j' k hj' => hp' j' k (hold hj' fun h => by cases h)⟩
    intro j' hj'
    rcases hfound hj' with ⟨-, rfl⟩ | hj'
    · exact hs' key hkey
    · exact hf' j' hj'
  · intro k t' hk'
    rw [hstored] at hk' ⊢
    obtain ⟨hd', h'⟩ := h.stored k t' hk'
    exact ⟨hdrawn ▸ hd', h'⟩
  · intro j t' hj
    rcases hfound hj with ⟨rfl, rfl⟩ | hj
    · refine ⟨hdrawn ▸ hd, fun j' hj' => ?_⟩
      rcases hfound hj' with ⟨rfl, -⟩ | hj'
      · rfl
      · exact absurd hj' (hnot j')
    · obtain ⟨hd', h'⟩ := h.found j t' hj
      refine ⟨hdrawn ▸ hd', fun j' hj' => ?_⟩
      rcases hfound hj' with ⟨-, rfl⟩ | hj'
      · exact absurd hj (hnot j)
      · exact h' j' hj'
  · intro j key' t' hj
    rw [hstored]
    by_cases hr : Role.holding key' t' = Role.holding key t
    · obtain ⟨rfl, rfl⟩ := Role.holding.inj hr
      refine ⟨fun t'' h'' => ?_, fun k h'' => hk k h''⟩
      rw [hkey] at h''
      exact (Option.some.inj h'').symm
    · exact h.held j key' t' (hold hj hr)
  · intro j t' hj
    rw [hstored]
    exact h.spent j t' (hold hj fun h => by cases h)

/-- A token that is held is deleted. -/
theorem Inv.delete {key : K} (h : Inv b) (hi : b.role i = some (.holding key t))
    (hi' : b'.role i = some (.spent t)) (hother : ∀ j, j ≠ i → b'.role j = b.role j)
    (hkey : b'.stored key = none) (hstored : ∀ k, k ≠ key → b'.stored k = b.stored k)
    (hdrawn : b'.drawn = b.drawn) : Inv b' := by
  have hold : ∀ {j r}, b'.role j = some r → r ≠ .spent t → b.role j = some r :=
    fun hj hr => Book.old_role hi' hother hj hr
  -- who has found a token now had found it before
  have hfound : ∀ {j t'}, b'.Found j t' → b.Found j t' := by
    intro j t' hj
    by_cases hij : j = i
    · subst hij
      rcases hj with ⟨key', hj⟩ | hj
      · rw [hi'] at hj
        cases hj
      · rw [hi'] at hj
        obtain rfl := Role.spent.inj (Option.some.inj hj)
        exact .inl ⟨key, hi⟩
    · exact hj.of_role_eq (hother j hij)
  have hkept : ∀ {k t'}, b'.stored k = some t' → k ≠ key ∧ b.stored k = some t' := by
    intro k t' hk
    by_cases hkk : k = key
    · subst hkk
      rw [hkey] at hk
      cases hk
    · exact ⟨hkk, (hstored k hkk).symm.trans hk⟩
  refine ⟨?_, ?_, ?_, ?_, ?_⟩
  · intro j key' t' hj
    obtain ⟨hd', hs', hf', hp'⟩ := h.pending j key' t' (hold hj fun h => by cases h)
    exact ⟨hdrawn ▸ hd', fun k hk => hs' k (hkept hk).2, fun j' hj' => hf' j' (hfound hj'),
      fun j' k hj' => hp' j' k (hold hj' fun h => by cases h)⟩
  · intro k t' hk
    obtain ⟨hd', h'⟩ := h.stored k t' (hkept hk).2
    exact ⟨hdrawn ▸ hd', fun k' hk' => h' k' (hkept hk').2⟩
  · intro j t' hj
    obtain ⟨hd', h'⟩ := h.found j t' (hfound hj)
    exact ⟨hdrawn ▸ hd', fun j' hj' => h' j' (hfound hj')⟩
  · intro j key' t' hj
    obtain ⟨ht, hk⟩ := h.held j key' t' (hold hj fun h => by cases h)
    exact ⟨fun t'' h'' => ht t'' (hkept h'').2, fun k h'' => hk k (hkept h'').2⟩
  · intro j t' hj k hk
    obtain ⟨hkk, hk⟩ := hkept hk
    by_cases hr : Role.spent (K := K) t' = .spent t
    -- the token was stored under this key only
    · obtain rfl := Role.spent.inj hr
      exact hkk ((h.held i key t' hi).2 k hk)
    · exact h.spent j t' (hold hj hr) k hk

/-- **The invariant is kept by every step.** -/
theorem Inv.step (h : Inv b) (hstep : Step b b') : Inv b' := by
  cases hstep with
  | lose hrole hstored hdrawn => exact h.lose hrole hstored hdrawn
  | draw hnew hi' hother hstored hdrawn => exact h.draw hnew hi' hother hstored hdrawn
  | store hi hi' hother hkey hstored hdrawn hserial =>
      exact h.store hi hi' hother hkey hstored hdrawn hserial
  | find hkey hi' hother hstored hdrawn hserial =>
      exact h.find hkey hi' hother hstored hdrawn hserial
  | delete hi hi' hother hkey hstored hdrawn => exact h.delete hi hi' hother hkey hstored hdrawn

/-- A token is redeemed by one party. -/
theorem Inv.spent_once (h : Inv b) (hi : b.role i = some (.spent t))
    (hj : b.role j = some (.spent t)) : i = j :=
  (h.found j t (.inr hj)).2 i (.inr hi)

end OneTime
