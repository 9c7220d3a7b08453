import Mathlib.Data.List.GetD
import Mathlib.Tactic

/-!
# Byte strings

Buffers as lists of bytes, fixed arrays as vectors of bytes, and the reads and writes C does on
them: a slice at an offset, a copy into the middle of an array, words in little-endian order.
-/

abbrev Bytes := List UInt8

namespace Bytes

/-- The `n` bytes of a buffer from `off` on; a byte past its end reads as 0. -/
def slice (b : Bytes) (off n : ℕ) : Vector UInt8 n :=
  Vector.ofFn fun i => b.getD (off + i) 0

/-- `memcpy(v + off, src, src.length)`. -/
def blit {n : ℕ} (v : Vector UInt8 n) (off : ℕ) (src : Bytes) : Vector UInt8 n :=
  Vector.ofFn fun i => if off ≤ i ∧ i < off + src.length then src.getD (i - off) 0 else v[i]

/-- `n` zero bytes, as `memset` leaves them. -/
def zeros (n : ℕ) : Vector UInt8 n := Vector.replicate n 0

/-- The last `k` bytes of a number, in big-endian order. -/
def bytesBE : ℕ → ℕ → Bytes
  | 0, _ => []
  | k + 1, n => bytesBE k (n / 256) ++ [UInt8.ofNat n]

/-- The last `k` bytes of a number, in little-endian order. -/
def bytesLE : ℕ → ℕ → Bytes
  | 0, _ => []
  | k + 1, n => UInt8.ofNat n :: bytesLE k (n / 256)

/-- The number whose bytes, in little-endian order, these are. -/
def littleEndian : Bytes → ℕ
  | [] => 0
  | b :: rest => b.toNat + 256 * littleEndian rest

@[simp] theorem length_bytesBE : ∀ k n : ℕ, (bytesBE k n).length = k
  | 0, _ => rfl
  | k + 1, n => by
    rw [bytesBE, List.length_append, length_bytesBE k]
    rfl

@[simp] theorem length_bytesLE : ∀ k n : ℕ, (bytesLE k n).length = k
  | 0, _ => rfl
  | k + 1, n => by rw [bytesLE, List.length_cons, length_bytesLE k]

theorem littleEndian_bytesLE : ∀ k n, littleEndian (bytesLE k n) = n % 256 ^ k
  | 0, n => by simp [littleEndian, bytesLE, Nat.mod_one]
  | k + 1, n => by
    rw [bytesLE, littleEndian, littleEndian_bytesLE k, pow_succ', Nat.mod_mul, UInt8.toNat_ofNat']

/-! ## Slices -/

theorem littleEndian_lt : ∀ b : Bytes, littleEndian b < 256 ^ b.length
  | [] => by simp [littleEndian]
  | x :: b => by
    have hx := x.toNat_lt
    have hb := littleEndian_lt b
    rw [littleEndian, List.length_cons, Nat.pow_succ]
    omega

theorem bytesLE_littleEndian : ∀ b : Bytes, bytesLE b.length (littleEndian b) = b
  | [] => rfl
  | x :: b => by
    have hx := x.toNat_lt
    rw [List.length_cons, bytesLE, littleEndian]
    have hhead : UInt8.ofNat (x.toNat + 256 * littleEndian b) = x := by
      apply UInt8.toNat_inj.mp
      rw [UInt8.toNat_ofNat']
      omega
    have htail : (x.toNat + 256 * littleEndian b) / 256 = littleEndian b := by omega
    rw [hhead, htail, bytesLE_littleEndian b]

theorem toList_slice (b : Bytes) (off n : ℕ) (h : off + n ≤ b.length) :
    (slice b off n).toList = (b.drop off).take n := by
  apply List.ext_getElem
  · simp; omega
  · intro i h₁ h₂
    have hi : i < n := by simpa using h₁
    simp only [slice, Vector.toList_ofFn, List.getElem_ofFn, List.getElem_take, List.getElem_drop]
    rw [List.getD_eq_getElem _ _ (by omega)]

theorem slice_append_left {l : Bytes} (r : Bytes) {off n : ℕ} (h : off + n ≤ l.length) :
    slice (l ++ r) off n = slice l off n := by
  apply Vector.ext
  intro i hi
  simp only [slice, Vector.getElem_ofFn]
  rw [List.getD_append _ _ _ _ (by omega)]

theorem slice_append_right {l : Bytes} (r : Bytes) {off n : ℕ} (h : l.length ≤ off) :
    slice (l ++ r) off n = slice r (off - l.length) n := by
  apply Vector.ext
  intro i hi
  simp only [slice, Vector.getElem_ofFn]
  rw [List.getD_append_right _ _ _ _ (by omega), Nat.sub_add_comm h]

@[simp] theorem slice_toList {n : ℕ} (v : Vector UInt8 n) : slice v.toList 0 n = v := by
  apply Vector.ext
  intro i hi
  simp [slice, List.getD_eq_getElem?_getD]

theorem toList_slice_self (l : Bytes) {n : ℕ} (h : l.length = n) : (slice l 0 n).toList = l := by
  subst h
  rw [toList_slice _ _ _ (by omega)]
  simp

/-- The slice that starts where `l` ends is what follows it. -/
theorem slice_after {l : Bytes} (r : Bytes) {off n : ℕ} (h : l.length = off) :
    slice (l ++ r) off n = slice r 0 n := by
  rw [slice_append_right _ (by omega), h, Nat.sub_self]

/-! ## Copies -/

/-- What a copy leaves in an array up to its own end. -/
theorem take_blit {n off : ℕ} (v : Vector UInt8 n) {src : Bytes} (h : off + src.length ≤ n) :
    (blit v off src).toList.take (off + src.length) = v.toList.take off ++ src := by
  apply List.ext_getElem
  · simp; omega
  · intro i h₁ h₂
    simp only [blit, List.getElem_take, Vector.getElem_toList, Vector.getElem_ofFn]
    have hi : i < off + src.length := by simp at h₁; omega
    by_cases hoff : off ≤ i
    · rw [if_pos ⟨hoff, hi⟩, List.getElem_append_right (by simp; omega),
        List.getD_eq_getElem _ _ (by omega)]
      congr 1
      simp
      omega
    · rw [if_neg (by omega), List.getElem_append_left (by simp; omega)]
      simp

theorem toList_blit {n off : ℕ} (v : Vector UInt8 n) {src : Bytes} (h : off + src.length = n) :
    (blit v off src).toList = v.toList.take off ++ src := by
  rw [← take_blit v h.le, List.take_of_length_le (by simp; omega)]

/-! ## Masks -/

theorem xor_cancel (x y : UInt8) : x ^^^ y ^^^ y = x := by
  rw [UInt8.xor_assoc, UInt8.xor_self, UInt8.xor_zero]

theorem zipWith_xor_cancel : ∀ {a b : Bytes}, a.length ≤ b.length →
    List.zipWith (· ^^^ ·) (List.zipWith (· ^^^ ·) a b) b = a
  | [], _, _ => by simp
  | _ :: _, [], h => by simp at h
  | x :: _, y :: _, h => by
    simp only [List.zipWith_cons_cons, List.cons.injEq]
    exact ⟨xor_cancel x y, zipWith_xor_cancel (by simpa using h)⟩

/-! ## Little-endian words -/

theorem mod_or_byte (x i : ℕ) :
    x % 2 ^ i ||| x / 2 ^ i % 256 * 2 ^ i = x % 2 ^ (i + 8) := by
  have hlt : x % 2 ^ i < 2 ^ i := Nat.mod_lt _ (by positivity)
  rw [Nat.or_comm, ← Nat.shiftLeft_eq, ← Nat.shiftLeft_add_eq_or_of_lt hlt, Nat.shiftLeft_eq,
    Nat.pow_add, Nat.mod_mul, show (2 : ℕ) ^ 8 = 256 by norm_num, Nat.add_comm, Nat.mul_comm]

theorem byte_mul_mod (x : ℕ) {i w : ℕ} (h : i + 8 ≤ w) :
    x / 2 ^ i % 256 * 2 ^ i % 2 ^ w = x / 2 ^ i % 256 * 2 ^ i := by
  apply Nat.mod_eq_of_lt
  calc x / 2 ^ i % 256 * 2 ^ i < 256 * 2 ^ i :=
        Nat.mul_lt_mul_of_pos_right (Nat.mod_lt _ (by norm_num)) (by positivity)
    _ = 2 ^ (i + 8) := by rw [Nat.pow_add, Nat.mul_comm]
    _ ≤ 2 ^ w := Nat.pow_le_pow_right (by norm_num) h

/-- One step of a little-endian load into a `w`-bit word: the bits below `i`, and the byte stored
for the eight after them. -/
theorem load_step (x : ℕ) {i w : ℕ} (h : i + 8 ≤ w) :
    x % 2 ^ i ||| x / 2 ^ i % 256 * 2 ^ i % 2 ^ w = x % 2 ^ (i + 8) := by
  rw [byte_mul_mod x h, mod_or_byte]

end Bytes
