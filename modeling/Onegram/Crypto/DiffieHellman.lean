import Onegram.Lib.Bytes

/-!
# The key exchange of secret chats

The big-number functions of `MTEncryption` on byte strings in big-endian order, and what both the
establishment of a chat and its rekeying make of the result: a key of 256 bytes and its
fingerprint. The hash is a parameter.
-/

namespace Onegram

open Bytes

/-- `BN_bin2bn`. -/
def bin2bn (b : Bytes) : ℕ := b.foldl (fun n x => n * 256 + x.toNat) 0

/-- `BN_num_bytes`. -/
def bnNumBytes (n : ℕ) : ℕ := if n = 0 then 0 else Nat.log2 n / 8 + 1

/-- `BN_bn2bin`. -/
def bn2bin (n : ℕ) : Bytes := bytesBE (bnNumBytes n) n

/-- `MTExp`. `BN_mod_exp` refuses an even modulus in constant time, and the result stays 0. -/
def MTExp (base exp modulus : Bytes) : Bytes :=
  bn2bin (if bin2bn modulus % 2 = 1 then bin2bn base ^ bin2bn exp % bin2bn modulus else 0)

/-- `1 < gAOrB < p - 1`. -/
def MTCheckIsSafeGAOrB (gAOrB p : Bytes) : Bool :=
  1 < bin2bn gAOrB && bin2bn gAOrB + 1 < bin2bn p

/-- `TLmessages_DhConfig$messages_dhConfig`. Only a config whose `p` has 256 bytes is ever
cached. -/
structure DhConfig where
  g : ℕ
  p : Bytes
  p_length : p.length = 256
  deriving DecidableEq

/-- `g` as four bytes. -/
def DhConfig.gBytes (config : DhConfig) : Bytes := bytesBE 4 config.g

/-- Zero bytes in front of a key of less than 256 bytes. -/
def addKeyPadding (key : Bytes) : Bytes := List.replicate (256 - key.length) 0 ++ key

/-- The last eight bytes of the hash as a 64-bit integer of the machine. -/
def keyFingerprint (MTSha1 : Bytes → Bytes) (key : Bytes) : Int :=
  (BitVec.ofNat 64
    (bin2bn ((MTSha1 key).drop ((MTSha1 key).length - 8)).reverse)).toInt

/-! ## Numbers and bytes -/

theorem bin2bn_append_singleton (b : Bytes) (x : UInt8) :
    bin2bn (b ++ [x]) = bin2bn b * 256 + x.toNat := by
  simp [bin2bn]

theorem bin2bn_bytesBE : ∀ (k n : ℕ), bin2bn (bytesBE k n) = n % 256 ^ k
  | 0, n => by simp [bytesBE, bin2bn, Nat.mod_one]
  | k + 1, n => by
    have hsplit : n % (256 * 256 ^ k) = n % 256 + 256 * (n / 256 % 256 ^ k) := Nat.mod_mul
    have hbyte : (UInt8.ofNat n).toNat = n % 256 := UInt8.toNat_ofNat'
    rw [bytesBE, bin2bn_append_singleton, bin2bn_bytesBE k, hbyte, pow_succ', hsplit]
    omega

theorem lt_pow_bnNumBytes (n : ℕ) : n < 256 ^ bnNumBytes n := by
  unfold bnNumBytes
  split_ifs with h
  · simp [h]
  · have hlt := Nat.lt_log2_self (n := n)
    have hle : Nat.log2 n + 1 ≤ 8 * (Nat.log2 n / 8 + 1) := by omega
    calc n < 2 ^ (Nat.log2 n + 1) := hlt
      _ ≤ 2 ^ (8 * (Nat.log2 n / 8 + 1)) := Nat.pow_le_pow_right (by norm_num) hle
      _ = 256 ^ (Nat.log2 n / 8 + 1) := by rw [pow_mul]; rfl

theorem bnNumBytes_le {n k : ℕ} (h : n < 256 ^ k) : bnNumBytes n ≤ k := by
  unfold bnNumBytes
  split_ifs with hn
  · omega
  · have hlog : Nat.log2 n < 8 * k := by
      rw [Nat.log2_lt hn, pow_mul]
      exact h
    omega

@[simp] theorem bin2bn_bn2bin (n : ℕ) : bin2bn (bn2bin n) = n := by
  rw [bn2bin, bin2bn_bytesBE, Nat.mod_eq_of_lt (lt_pow_bnNumBytes n)]

theorem bytesBE_bin2bn (b : Bytes) : bytesBE b.length (bin2bn b) = b := by
  induction b using List.reverseRecOn with
  | nil => rfl
  | append_singleton b x ih =>
    have hx := x.toNat_lt
    have hdiv : (bin2bn b * 256 + x.toNat) / 256 = bin2bn b := by omega
    have hbyte : UInt8.ofNat (bin2bn b * 256 + x.toNat) = x := by
      apply UInt8.toNat_inj.mp
      rw [UInt8.toNat_ofNat']
      omega
    rw [List.length_append, List.length_singleton, bytesBE, bin2bn_append_singleton, hdiv, ih,
      hbyte]

theorem bin2bn_lt (b : Bytes) : bin2bn b < 256 ^ b.length := by
  have h := bin2bn_bytesBE b.length (bin2bn b)
  rw [bytesBE_bin2bn] at h
  rw [h]
  exact Nat.mod_lt _ (by positivity)

theorem bin2bn_zeros_append (k : ℕ) (b : Bytes) :
    bin2bn (List.replicate k 0 ++ b) = bin2bn b := by
  induction k with
  | zero => rfl
  | succ k ih => exact ih

theorem length_addKeyPadding {key : Bytes} (h : key.length ≤ 256) :
    (addKeyPadding key).length = 256 := by
  rw [addKeyPadding, List.length_append, List.length_replicate]
  omega

theorem bin2bn_addKeyPadding (key : Bytes) : bin2bn (addKeyPadding key) = bin2bn key :=
  bin2bn_zeros_append _ _

theorem bin2bn_MTExp {modulus : Bytes} (hodd : bin2bn modulus % 2 = 1) (base exp : Bytes) :
    bin2bn (MTExp base exp modulus) = bin2bn base ^ bin2bn exp % bin2bn modulus := by
  rw [MTExp, if_pos hodd, bin2bn_bn2bin]

theorem length_MTExp_le (base exp modulus : Bytes) :
    (MTExp base exp modulus).length ≤ modulus.length := by
  rw [MTExp, bn2bin, length_bytesBE]
  apply bnNumBytes_le
  split_ifs with hodd
  · exact (Nat.mod_lt _ (by omega)).trans (bin2bn_lt modulus)
  · positivity

/-- Modular exponentiation commutes. -/
theorem MTExp_comm (base a b modulus : Bytes) :
    MTExp (MTExp base a modulus) b modulus = MTExp (MTExp base b modulus) a modulus := by
  unfold MTExp
  split_ifs
  · rw [bin2bn_bn2bin, bin2bn_bn2bin, ← Nat.pow_mod, ← Nat.pow_mod, ← pow_mul, ← pow_mul, mul_comm]
  · rfl

end Onegram
