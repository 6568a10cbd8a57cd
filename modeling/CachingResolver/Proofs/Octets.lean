import CachingResolver.Octets
import Mathlib.Algebra.Group.Nat.Defs

/-!
# Numbers as octets

Octets in a row write a number to the base 256 (`toNat_append`), and a number that fits into some
octets is read back from them (`toNat_ofNat`), with anything after it (`readNat_append`).
-/

namespace CachingResolver.Octets

theorem foldl_eq_add_toNat (bs : List UInt8) (n : Nat) :
    bs.foldl (fun n b => n * 256 + b.toNat) n = n * 256 ^ bs.length + toNat bs := by
  induction bs generalizing n with
  | nil => simp [toNat]
  | cons b bs ih =>
      have hrest := ih (0 * 256 + b.toNat)
      unfold toNat
      rw [List.foldl_cons, List.foldl_cons, ih, hrest, List.length_cons, Nat.pow_succ']
      simp only [Nat.add_mul, Nat.zero_mul, Nat.zero_add, Nat.mul_assoc, Nat.add_assoc]

theorem toNat_append (front back : List UInt8) :
    toNat (front ++ back) = toNat front * 256 ^ back.length + toNat back := by
  rw [toNat, List.foldl_append, foldl_eq_add_toNat]
  rfl

/-- A number that fits is read back from its octets. -/
theorem toNat_ofNat (width n : Nat) : toNat (ofNat width n) = n % 256 ^ width := by
  induction width generalizing n with
  | zero => simp [ofNat, toNat, Nat.mod_one]
  | succ width ih =>
      have hlast : toNat [UInt8.ofNat n] = n % 256 := by simp [toNat, Nat.reducePow]
      rw [ofNat, toNat_append, ih, hlast, List.length_singleton, Nat.pow_one, Nat.pow_succ',
        Nat.mod_mul, Nat.mul_comm, Nat.add_comm]

theorem readNat_append {width n : Nat} (h : n < 256 ^ width) (rest : List UInt8) :
    readNat width (ofNat width n ++ rest) = some (n, rest) := by
  have htake := take?_append (ofNat width n) rest
  rw [length_ofNat] at htake
  have hread : toNat (ofNat width n) = n := by rw [toNat_ofNat, Nat.mod_eq_of_lt h]
  rw [readNat, htake, Option.map_some]
  exact congrArg (fun m => some (m, rest)) hread

end CachingResolver.Octets
