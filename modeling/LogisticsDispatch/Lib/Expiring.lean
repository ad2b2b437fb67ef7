/-
Keys that expire.

A store has a clock and keys, each with a value and, unless it stays for ever, the time it expires
at. A key is there until its time has come, and from then on it is as if it were not. Commands of
Redis are operations of such a store; those that read see only what is there (`entry`), those that
write replace what is under one key and nothing else.
-/
import Mathlib.Data.Nat.Notation
import Mathlib.Data.Int.Notation
import Mathlib.Logic.Function.Basic

set_option autoImplicit false

universe u v

/-- A value, and when it expires, if it does. -/
structure Expiring.Entry (V : Type v) where
  value : V
  expiresAt : Option ℕ
deriving DecidableEq

/-- A clock in milliseconds, and what is under the keys. -/
structure Expiring (K : Type u) (V : Type v) where
  now : ℕ
  keys : K → Option (Expiring.Entry V)

namespace Expiring

variable {K : Type u} {V : Type v}

/-- What is under a key that has not expired. -/
def entry (s : Expiring K V) (key : K) : Option (Entry V) :=
  (s.keys key).filter fun e => e.expiresAt.all (s.now < ·)

/-- `GET`. -/
def get (s : Expiring K V) (key : K) : Option V := (s.entry key).map Entry.value

/-- `PTTL`: the milliseconds a key has left, `-1` if it does not expire, `-2` if there is none. -/
def pttl (s : Expiring K V) (key : K) : ℤ :=
  match s.entry key with
  | none => -2
  | some e =>
      match e.expiresAt with
      | none => -1
      | some t => t - s.now

/-- Time passes. -/
def pass (s : Expiring K V) (ms : ℕ) : Expiring K V := { s with now := s.now + ms }

variable [DecidableEq K]

/-- Put an entry under a key. -/
def put (s : Expiring K V) (key : K) (e : Entry V) : Expiring K V :=
  { s with keys := Function.update s.keys key e }

/-- `DEL`. -/
def del (s : Expiring K V) (key : K) : Expiring K V :=
  { s with keys := Function.update s.keys key none }

/-- `SET key value PX ms`. -/
def setPX (s : Expiring K V) (key : K) (value : V) (ms : ℕ) : Expiring K V :=
  s.put key ⟨value, some (s.now + ms)⟩

/-- `SET key value EX seconds`. -/
def setEX (s : Expiring K V) (key : K) (value : V) (seconds : ℕ) : Expiring K V :=
  s.setPX key value (seconds * 1000)

/-- `PEXPIRE`. -/
def pexpire (s : Expiring K V) (key : K) (ms : ℕ) : Expiring K V :=
  match s.entry key with
  | none => s
  | some e => s.put key { e with expiresAt := some (s.now + ms) }

/-- `INCR`: a key that is not there counts as `0`, and does not expire. -/
def incr (s : Expiring K ℕ) (key : K) : ℕ × Expiring K ℕ :=
  match s.entry key with
  | none => (1, s.put key ⟨1, none⟩)
  | some e => (e.value + 1, s.put key { e with value := e.value + 1 })

section

variable {s s' s'' : Expiring K V} {key key' : K} {e e' : Entry V} {ms t : ℕ}

theorem put_keys_self (s : Expiring K V) (key : K) (e : Entry V) :
    (s.put key e).keys key = some e :=
  Function.update_self ..

theorem put_keys_of_ne (h : key' ≠ key) (e : Entry V) : (s.put key e).keys key' = s.keys key' :=
  Function.update_of_ne h ..

theorem del_keys_self (s : Expiring K V) (key : K) : (s.del key).keys key = none :=
  Function.update_self ..

theorem del_keys_of_ne (h : key' ≠ key) : (s.del key).keys key' = s.keys key' :=
  Function.update_of_ne h ..

@[simp] theorem put_put (s : Expiring K V) (key : K) (e e' : Entry V) :
    (s.put key e).put key e' = s.put key e' := by
  rw [put, put, put, Function.update_idem]

omit [DecidableEq K] in
/-- What is there is under the key, and its time has not come. -/
theorem entry_eq_some (ht : e.expiresAt = some t) :
    s.entry key = some e ↔ s.keys key = some e ∧ s.now < t := by
  rw [entry, Option.filter_eq_some_iff, ht, Option.all_some, decide_eq_true_eq]

theorem entry_put (h : e.expiresAt.all (s.now < ·) = true) : (s.put key e).entry key = some e := by
  rw [entry, put_keys_self, Option.filter_some]
  exact if_pos h

theorem pexpire_put (h : e.expiresAt.all (s.now < ·) = true) :
    (s.put key e).pexpire key ms = s.put key { e with expiresAt := some (s.now + ms) } := by
  rw [pexpire, entry_put h]
  exact put_put s key _ _

theorem pttl_put {value : V} (h : s.now < t) :
    (s.put key ⟨value, some t⟩).pttl key = t - s.now := by
  have hlive : (some t).all (fun t => decide (s.now < t)) = true := decide_eq_true h
  rw [pttl, entry_put hlive]
  rfl

theorem incr_of_none {s : Expiring K ℕ} (h : s.entry key = none) :
    s.incr key = (1, s.put key ⟨1, none⟩) := by
  rw [incr, h]

theorem incr_of_some {s : Expiring K ℕ} {e : Entry ℕ} (h : s.entry key = some e) :
    s.incr key = (e.value + 1, s.put key { e with value := e.value + 1 }) := by
  rw [incr, h]

/-! ## What is changed -/

/-- Nothing has changed but what is under one key. -/
structure Touches (key : K) (s s' : Expiring K V) : Prop where
  now : s'.now = s.now
  keys : ∀ key', key' ≠ key → s'.keys key' = s.keys key'

omit [DecidableEq K] in
theorem Touches.refl (key : K) (s : Expiring K V) : Touches key s s := ⟨rfl, fun _ _ => rfl⟩

omit [DecidableEq K] in
theorem Touches.trans (h : Touches key s s') (h' : Touches key s' s'') : Touches key s s'' :=
  ⟨h'.now.trans h.now, fun key' hne => (h'.keys key' hne).trans (h.keys key' hne)⟩

theorem touches_put (s : Expiring K V) (key : K) (e : Entry V) : Touches key s (s.put key e) :=
  ⟨rfl, fun _ hne => put_keys_of_ne hne e⟩

theorem touches_pexpire (s : Expiring K V) (key : K) (ms : ℕ) :
    Touches key s (s.pexpire key ms) := by
  rw [pexpire]
  split
  · exact .refl key s
  · exact touches_put s key _

theorem touches_incr (s : Expiring K ℕ) (key : K) : Touches key s (s.incr key).2 := by
  rw [incr]
  split
  · exact touches_put s key _
  · exact touches_put s key _

end

end Expiring
