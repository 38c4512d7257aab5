import Mathlib.Data.Nat.ModEq

namespace Usize
set_option autoImplicit true

/-- Arithmetic that leaves the word panics in a debug build and wraps in a release build. -/
inductive Overflow
  | checked
  | wrapping
deriving DecidableEq, Repr

def add (m : Overflow) (a : BitVec w) (i : Nat) : Option Nat :=
  match m with
  | .checked => if a.toNat + i < 2 ^ w then some (a.toNat + i) else none
  | .wrapping => some ((a.toNat + i) % 2 ^ w)

def sub (m : Overflow) (a : BitVec w) (i : Nat) : Option Nat :=
  match m with
  | .checked => if i ≤ a.toNat then some (a.toNat - i) else none
  | .wrapping => some ((2 ^ w - i % 2 ^ w + a.toNat) % 2 ^ w)

theorem add_of_lt (m : Overflow) {a : BitVec w} (h : a.toNat + i < 2 ^ w) :
    add m a i = some (a.toNat + i) := by
  cases m with
  | checked => exact if_pos h
  | wrapping => rw [add, Nat.mod_eq_of_lt h]

end Usize
