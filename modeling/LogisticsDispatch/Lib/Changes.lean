/-
Changes to a finite set of objects, and undoing them.

A change is refused where objects are in its way or where it lacks what it needs. Otherwise it drops
some objects, renames what is left and adds others. `Change.undo` is when one change takes back
another: it renames back, and drops what was added and nothing else. `Change.apply_swap` is when it
makes no difference that one object stands in the place of another. Lists of changes are made one
after the other, and all of them or none (`applyAll`); they can be computed on bags
(`applyAll_toFinset`).
-/
import Mathlib.Data.Finset.Image

set_option autoImplicit false

universe u

/-- A change to a set of objects. -/
structure Change (O : Type u) [DecidableEq O] where
  /-- Whether it is in order as it stands. -/
  valid : Bool := true
  /-- The objects that are in its way. -/
  refuses : O → Bool
  /-- What there has to be. -/
  needs : List (O → Bool)
  drops : O → Bool := fun _ => false
  renames : O → O := id
  adds : Finset O := ∅

namespace Change

variable {O : Type u} [DecidableEq O] {c c' : Change O} {s s' : Finset O} {o o' : O}

/-- A change may be made. -/
def Allowed (c : Change O) (s : Finset O) : Prop :=
  c.valid = true ∧ (∀ o ∈ s, c.refuses o = false) ∧ ∀ need ∈ c.needs, ∃ o ∈ s, need o = true

instance : Decidable (c.Allowed s) :=
  inferInstanceAs (Decidable (_ ∧ _))

/-- What a change makes of a set. -/
def result (c : Change O) (s : Finset O) : Finset O :=
  (s.filter fun o => c.drops o = false).image c.renames ∪ c.adds

/-- Make a change, if it may be made. -/
def apply (c : Change O) (s : Finset O) : Option (Finset O) :=
  if c.Allowed s then some (c.result s) else none

theorem apply_eq_some : c.apply s = some s' ↔ c.Allowed s ∧ s' = c.result s := by
  rw [apply, Option.ite_none_right_eq_some, Option.some.injEq, eq_comm (a := s')]

theorem mem_result : o ∈ c.result s ↔
    (∃ o' ∈ s, c.drops o' = false ∧ c.renames o' = o) ∨ o ∈ c.adds := by
  simp only [result, Finset.mem_union, Finset.mem_image, Finset.mem_filter, and_assoc]

/-- What is added is there. -/
theorem mem_result_of_adds (h : o ∈ c.adds) : o ∈ c.result s := mem_result.mpr (.inr h)

/-- What is neither dropped nor renamed stays. -/
theorem mem_result_of_mem (h : o ∈ s) (hdrops : c.drops o = false) (hrenames : c.renames o = o) :
    o ∈ c.result s :=
  mem_result.mpr (.inl ⟨o, h, hdrops, hrenames⟩)

/-! ## Undoing -/

/-- A change that drops nothing is taken back by one that renames back what there was and drops
what was added. -/
theorem undo (h : c.apply s = some s') (hkeeps : ∀ o ∈ s, c.drops o = false)
    (hback : ∀ o ∈ s, c'.refuses (c.renames o) = false ∧ c'.drops (c.renames o) = false ∧
      c'.renames (c.renames o) = o)
    (hadds : ∀ o ∈ c.adds, c'.refuses o = false ∧ c'.drops o = true)
    (hneeds : ∀ need ∈ c'.needs, ∃ o ∈ s', need o = true) (hvalid : c'.valid = true)
    (hnone : c'.adds = ∅) : c'.apply s' = some s := by
  obtain ⟨-, rfl⟩ := apply_eq_some.mp h
  refine apply_eq_some.mpr ⟨⟨hvalid, fun o ho => ?_, hneeds⟩, ?_⟩
  · rcases mem_result.mp ho with ⟨o, ho', -, rfl⟩ | ho'
    · exact (hback o ho').1
    · exact (hadds o ho').1
  · ext o
    rw [mem_result, hnone]
    constructor
    · intro ho
      refine .inl ⟨c.renames o, mem_result.mpr (.inl ⟨o, ho, hkeeps o ho, rfl⟩), ?_⟩
      exact (hback o ho).2
    · rintro (⟨o', ho', hdrops, rfl⟩ | ho)
      · rcases mem_result.mp ho' with ⟨o, ho, -, rfl⟩ | ho'
        · rw [(hback o ho).2.2]
          exact ho
        -- what was added is dropped
        · rw [(hadds o' ho').2] at hdrops
          cases hdrops
      · cases ho

/-! ## One object for another -/

/-- One object is taken for another. -/
def swap (o o' : O) (s : Finset O) : Finset O := insert o' (s.erase o)

/-- A change does not care about an object. -/
structure Ignores (c : Change O) (o : O) : Prop where
  refuses : c.refuses o = false
  needs : ∀ need ∈ c.needs, need o = false
  drops : c.drops o = false
  renames : c.renames o = o
  adds : o ∉ c.adds
  /-- It renames nothing to the object. -/
  only : ∀ o', c.renames o' = o → o' = o

/-- What is true of some object is so after a swap, if it is true of neither of the two. -/
theorem exists_swap {p : O → Bool} (ho : p o = false) (ho' : p o' = false) :
    (∃ x ∈ swap o o' s, p x = true) ↔ ∃ x ∈ s, p x = true := by
  constructor
  · rintro ⟨x, hx, hpx⟩
    rcases Finset.mem_insert.mp hx with rfl | hx
    · rw [ho'] at hpx
      cases hpx
    · exact ⟨x, Finset.mem_of_mem_erase hx, hpx⟩
  · rintro ⟨x, hx, hpx⟩
    refine ⟨x, Finset.mem_insert_of_mem (Finset.mem_erase.mpr ⟨?_, hx⟩), hpx⟩
    rintro rfl
    rw [ho] at hpx
    cases hpx

theorem result_swap (ho : c.Ignores o) (ho' : c.Ignores o') :
    c.result (swap o o' s) = swap o o' (c.result s) := by
  ext x
  rw [mem_result, swap, swap, Finset.mem_insert, Finset.mem_erase, mem_result]
  constructor
  · rintro (⟨y, hy, hdrops, rfl⟩ | hx)
    · rcases Finset.mem_insert.mp hy with rfl | hy
      · exact .inl ho'.renames
      · obtain ⟨hne, hy⟩ := Finset.mem_erase.mp hy
        exact .inr ⟨fun h => hne (ho.only y h), .inl ⟨y, hy, hdrops, rfl⟩⟩
    · exact .inr ⟨fun h => ho.adds (h ▸ hx), .inr hx⟩
  · rintro (rfl | ⟨hne, ⟨y, hy, hdrops, rfl⟩ | hx⟩)
    · exact .inl ⟨_, Finset.mem_insert_self _ _, ho'.drops, ho'.renames⟩
    · refine .inl ⟨y, Finset.mem_insert_of_mem (Finset.mem_erase.mpr ⟨?_, hy⟩), hdrops, rfl⟩
      rintro rfl
      exact hne ho.renames
    · exact .inr hx

/-- **A change that cares about neither of two objects can be made before or after one is taken for
the other.** -/
theorem apply_swap (ho : c.Ignores o) (ho' : c.Ignores o') :
    c.apply (swap o o' s) = (c.apply s).map (swap o o') := by
  have hrefuses : (∀ x ∈ swap o o' s, c.refuses x = false) ↔ ∀ x ∈ s, c.refuses x = false := by
    have h := exists_swap (s := s) ho.refuses ho'.refuses
    constructor
    · intro hs x hx
      by_contra hrefuses
      obtain ⟨y, hy, hyrefuses⟩ := h.mpr ⟨x, hx, Bool.eq_true_of_not_eq_false hrefuses⟩
      exact Bool.false_ne_true ((hs y hy).symm.trans hyrefuses)
    · intro hs x hx
      by_contra hrefuses
      obtain ⟨y, hy, hyrefuses⟩ := h.mp ⟨x, hx, Bool.eq_true_of_not_eq_false hrefuses⟩
      exact Bool.false_ne_true ((hs y hy).symm.trans hyrefuses)
  have hneeds : (∀ need ∈ c.needs, ∃ x ∈ swap o o' s, need x = true) ↔
      ∀ need ∈ c.needs, ∃ x ∈ s, need x = true :=
    forall₂_congr fun need hneed => exists_swap (ho.needs need hneed) (ho'.needs need hneed)
  have hallowed : c.Allowed (swap o o' s) ↔ c.Allowed s :=
    and_congr_right fun _ => and_congr hrefuses hneeds
  by_cases h : c.Allowed s
  · rw [apply, apply, if_pos h, if_pos (hallowed.mpr h), Option.map_some, result_swap ho ho']
  · rw [apply, apply, if_neg h, if_neg (mt hallowed.mp h), Option.map_none]

/-- A change that drops both objects is the same before and after. -/
theorem result_swap_of_drops (ho : c.drops o = true) (ho' : c.drops o' = true) :
    c.result (swap o o' s) = c.result s := by
  have hfilter : (swap o o' s).filter (fun x => c.drops x = false)
      = s.filter fun x => c.drops x = false := by
    ext x
    simp only [swap, Finset.mem_filter, Finset.mem_insert, Finset.mem_erase]
    constructor
    · rintro ⟨rfl | ⟨-, hx⟩, hdrops⟩
      · rw [ho'] at hdrops
        cases hdrops
      · exact ⟨hx, hdrops⟩
    · rintro ⟨hx, hdrops⟩
      refine ⟨.inr ⟨?_, hx⟩, hdrops⟩
      rintro rfl
      rw [ho] at hdrops
      cases hdrops
  rw [result, result, hfilter]

/-! ## Lists of changes -/

/-- Make changes one after the other; if one is refused, none is made. -/
def applyAll (cs : List (Change O)) (s : Finset O) : Option (Finset O) :=
  cs.foldlM (fun s c => c.apply s) s

@[simp] theorem applyAll_nil : applyAll ([] : List (Change O)) s = some s := rfl

@[simp] theorem applyAll_cons (c : Change O) (cs : List (Change O)) :
    applyAll (c :: cs) s = (c.apply s).bind (applyAll cs) := rfl

theorem applyAll_append (cs cs' : List (Change O)) :
    applyAll (cs ++ cs') s = (applyAll cs s).bind (applyAll cs') := by
  rw [applyAll, List.foldlM_append]
  rfl

/-- What holds in every state from which a change is made holds after all of them. -/
theorem applyAll_invariant {P : Finset O → Prop} {cs : List (Change O)}
    (hstep : ∀ c ∈ cs, ∀ s s', P s → c.apply s = some s' → P s') (hs : P s)
    (h : applyAll cs s = some s') : P s' := by
  induction cs generalizing s with
  | nil =>
      cases h
      exact hs
  | cons c cs ih =>
      obtain ⟨s₁, hfirst, hrest⟩ := Option.bind_eq_some_iff.mp h
      exact ih (fun c' hc' => hstep c' (List.mem_cons_of_mem _ hc'))
        (hstep c List.mem_cons_self s s₁ hs hfirst) hrest

/-- Changes that care about neither of two objects can be made before or after a swap. -/
theorem applyAll_swap {cs : List (Change O)} (ho : ∀ c ∈ cs, c.Ignores o)
    (ho' : ∀ c ∈ cs, c.Ignores o') :
    applyAll cs (swap o o' s) = (applyAll cs s).map (swap o o') := by
  induction cs generalizing s with
  | nil => rfl
  | cons c cs ih =>
      rw [applyAll_cons, applyAll_cons, apply_swap (ho c List.mem_cons_self)
        (ho' c List.mem_cons_self)]
      cases c.apply s with
      | none => rfl
      | some s₁ =>
          exact ih (fun c' hc' => ho c' (List.mem_cons_of_mem _ hc'))
            fun c' hc' => ho' c' (List.mem_cons_of_mem _ hc')

/-! ## Bags

A bag may have an object more than once. A change to a bag compares no two objects, so it can be
computed where there are many of them. -/

/-- A change may be made to a bag. -/
def AllowedIn (c : Change O) (m : Multiset O) : Prop :=
  c.valid = true ∧ (∀ o ∈ m, c.refuses o = false) ∧ ∀ need ∈ c.needs, ∃ o ∈ m, need o = true

instance (m : Multiset O) : Decidable (c.AllowedIn m) :=
  letI (need : O → Bool) : Decidable (∃ o ∈ m, need o = true) := Multiset.decidableExistsMultiset
  inferInstanceAs (Decidable (_ ∧ (∀ o ∈ m, c.refuses o = false) ∧ _))

/-- What a change makes of a bag, if it may be made. -/
def applyBag (c : Change O) (m : Multiset O) : Option (Multiset O) :=
  if c.AllowedIn m
  then some ((m.filter fun o => c.drops o = false).map c.renames + c.adds.val)
  else none

/-- Make changes to a bag one after the other; if one is refused, none is made. -/
def applyAllBag (cs : List (Change O)) (m : Multiset O) : Option (Multiset O) :=
  cs.foldlM (fun m c => c.applyBag m) m

/-- A change to a bag is the change to the set of what is in it. -/
theorem apply_toFinset (m : Multiset O) :
    c.apply m.toFinset = (c.applyBag m).map Multiset.toFinset := by
  have hallowed : c.Allowed m.toFinset ↔ c.AllowedIn m := by
    simp only [Allowed, AllowedIn, Multiset.mem_toFinset]
  have hresult : c.result m.toFinset
      = ((m.filter fun o => c.drops o = false).map c.renames + c.adds.val).toFinset := by
    ext o
    simp only [mem_result, Multiset.mem_toFinset, Multiset.mem_add, Multiset.mem_map,
      Multiset.mem_filter, Finset.mem_val, and_assoc]
  by_cases h : c.Allowed m.toFinset
  · rw [apply, applyBag, if_pos h, if_pos (hallowed.mp h), hresult, Option.map_some]
  · rw [apply, applyBag, if_neg h, if_neg (mt hallowed.mpr h), Option.map_none]

theorem applyAll_toFinset (cs : List (Change O)) (m : Multiset O) :
    applyAll cs m.toFinset = (applyAllBag cs m).map Multiset.toFinset := by
  induction cs generalizing m with
  | nil => rfl
  | cons c cs ih =>
      have hbag : applyAllBag (c :: cs) m = (c.applyBag m).bind (applyAllBag cs) := rfl
      rw [applyAll_cons, apply_toFinset, hbag]
      cases c.applyBag m with
      | none => rfl
      | some m₁ => exact ih m₁

end Change
