import Onegram.Lib.Bytes

/-!
# The order of byte strings

Rows of bytes are compared from the front, as `memcmp` does it. Numbers of one width in big-endian
order come in the order of the numbers, so a row of them is compared one number after the other.
-/

namespace Bytes

/-! ## Numbers -/

theorem reverse_bytesLE : ∀ k n, (bytesLE k n).reverse = bytesBE k n
  | 0, _ => rfl
  | k + 1, n => by rw [bytesLE, List.reverse_cons, reverse_bytesLE k, bytesBE]

theorem bytesLE_mod (k n : ℕ) : bytesLE k (n % 256 ^ k) = bytesLE k n := by
  have h := bytesLE_littleEndian (bytesLE k n)
  rwa [length_bytesLE, littleEndian_bytesLE] at h

theorem bytesBE_mod (k n : ℕ) : bytesBE k (n % 256 ^ k) = bytesBE k n := by
  rw [← reverse_bytesLE, bytesLE_mod, reverse_bytesLE]

/-- The number of a row of bytes, the first one the highest, written again. -/
theorem bytesBE_littleEndian_reverse (b : Bytes) :
    bytesBE b.length (littleEndian b.reverse) = b := by
  have h := bytesLE_littleEndian b.reverse
  rw [List.length_reverse] at h
  rw [← reverse_bytesLE, h, List.reverse_reverse]

/-- The bytes of two numbers combined are those of the combination. -/
theorem bytesLE_xor : ∀ {a b : Bytes}, a.length = b.length →
    bytesLE a.length (littleEndian a ^^^ littleEndian b) = List.zipWith (· ^^^ ·) a b
  | [], [], _ => rfl
  | x :: a, y :: b, h => by
    have hx := x.toNat_lt
    have hy := y.toNat_lt
    have hhead : UInt8.ofNat ((x.toNat + 256 * littleEndian a) ^^^ (y.toNat + 256 * littleEndian b))
        = x ^^^ y := by
      have hmod := @Nat.xor_mod_two_pow (x.toNat + 256 * littleEndian a)
        (y.toNat + 256 * littleEndian b) 8
      apply UInt8.toNat_inj.mp
      rw [UInt8.toNat_ofNat', hmod, UInt8.toNat_xor]
      congr 1 <;> omega
    have hrest : ((x.toNat + 256 * littleEndian a) ^^^ (y.toNat + 256 * littleEndian b)) / 256
        = littleEndian a ^^^ littleEndian b := by
      have hdiv := @Nat.xor_div_two_pow (x.toNat + 256 * littleEndian a)
        (y.toNat + 256 * littleEndian b) 8
      refine hdiv.trans ?_
      congr 1 <;> omega
    rw [List.length_cons, bytesLE, littleEndian, littleEndian, hhead, hrest,
      bytesLE_xor (Nat.succ.inj h)]
    rfl

/-! ## Comparison -/

theorem compare_append_left (p a b : Bytes) : compare (p ++ a) (p ++ b) = compare a b := by
  induction p with
  | nil => rfl
  | cons x p ih =>
    rw [List.cons_append, List.cons_append, List.compare_cons_cons, ih,
      Std.ReflOrd.compare_self, Ordering.eq_then]

theorem compare_append {a b : Bytes} (h : a.length = b.length) (r s : Bytes) :
    compare (a ++ r) (b ++ s) = (compare a b).then (compare r s) := by
  induction a generalizing b with
  | nil =>
    rw [List.eq_nil_of_length_eq_zero h.symm, List.nil_append, List.nil_append,
      List.compare_nil_nil, Ordering.eq_then]
  | cons x a ih =>
    rcases b with _ | ⟨y, b⟩
    · simp at h
    · rw [List.cons_append, List.cons_append, List.compare_cons_cons, List.compare_cons_cons,
        ih (Nat.succ.inj h), Ordering.then_assoc]

/-- Two digits are compared by the upper one first. -/
theorem compare_mul_add {B a b c d : ℕ} (hb : b < B) (hd : d < B) :
    compare (a * B + b) (c * B + d) = (compare a c).then (compare b d) := by
  rcases Nat.lt_trichotomy a c with h | rfl | h
  · have hlt : a * B + b < c * B + d := by
      have hmul : (a + 1) * B ≤ c * B := Nat.mul_le_mul_right B h
      rw [Nat.succ_mul] at hmul
      omega
    rw [Nat.compare_eq_lt.mpr hlt, Nat.compare_eq_lt.mpr h]
    rfl
  · rw [Std.ReflOrd.compare_self, Ordering.eq_then, Nat.compare_eq_ite_lt, Nat.compare_eq_ite_lt]
    simp only [Nat.add_lt_add_iff_left]
  · have hlt : c * B + d < a * B + b := by
      have hmul : (c + 1) * B ≤ a * B := Nat.mul_le_mul_right B h
      rw [Nat.succ_mul] at hmul
      omega
    rw [Nat.compare_eq_gt.mpr hlt, Nat.compare_eq_gt.mpr h]
    rfl

theorem compare_byte (x y : ℕ) :
    compare [UInt8.ofNat x] [UInt8.ofNat y] = compare (x % 256) (y % 256) := by
  have hlt : UInt8.ofNat x < UInt8.ofNat y ↔ x % 256 < y % 256 := by
    rw [UInt8.lt_iff_toNat_lt, UInt8.toNat_ofNat', UInt8.toNat_ofNat']
  have heq : UInt8.ofNat x = UInt8.ofNat y ↔ x % 256 = y % 256 := by
    rw [← UInt8.toNat_inj, UInt8.toNat_ofNat', UInt8.toNat_ofNat']
  rw [List.compare_cons_cons, List.compare_nil_nil, Ordering.then_eq]
  show compareOfLessAndEq _ _ = compareOfLessAndEq _ _
  simp only [compareOfLessAndEq, hlt, heq]

/-- Numbers in big-endian order are in the order of the numbers. -/
theorem compare_bytesBE : ∀ k x y,
    compare (bytesBE k x) (bytesBE k y) = compare (x % 256 ^ k) (y % 256 ^ k)
  | 0, x, y => by simp [bytesBE, Nat.mod_one]
  | k + 1, x, y => by
    have hsplit : ∀ n, n % 256 ^ (k + 1) = n / 256 % 256 ^ k * 256 + n % 256 := by
      intro n
      rw [pow_succ', Nat.mod_mul, Nat.mul_comm, Nat.add_comm]
    rw [bytesBE, bytesBE, compare_append (by rw [length_bytesBE, length_bytesBE]),
      compare_bytesBE k, compare_byte, hsplit, hsplit,
      compare_mul_add (Nat.mod_lt x (by norm_num)) (Nat.mod_lt y (by norm_num))]

end Bytes
