import Onegram.DatacenterAuth

/-!
# The envelope as a number

`MTRsaEncrypt` gives as many bytes as its result needs, or always 256, and the caller fills up in
front with random bytes. So what the server reads is the result just where no byte is filled in that
is not zero.
-/

namespace Onegram.DatacenterAuth

open Bytes

/-- Without padding a block below the modulus is raised to the exponent. -/
def RawRsa (SecKeyEncrypt : RSAKey → Bytes → Option Bytes) : Prop :=
  ∀ key block, block.length = bnNumBytes key.n → bin2bn block < key.n →
    SecKeyEncrypt key block = some (bytesBE (bnNumBytes key.n) (bin2bn block ^ key.e % key.n))

/-- What the server makes of the 256 bytes: the power of the number that was put in, and that number
again. -/
structure Enveloped (key : RSAKey) (dataWithHash encryptedData : Bytes) : Prop where
  length : encryptedData.length = 256
  number : bin2bn encryptedData = bin2bn dataWithHash ^ key.e % key.n
  decrypted : ∀ decrypt : ℕ → ℕ, (∀ x < key.n, decrypt (x ^ key.e % key.n) = x) →
    decrypt (bin2bn encryptedData) = bin2bn dataWithHash

theorem bin2bn_append (a : Bytes) (b : Bytes) :
    bin2bn (a ++ b) = bin2bn a * 256 ^ b.length + bin2bn b := by
  induction b using List.reverseRecOn with
  | nil => simp [bin2bn]
  | append_singleton b x ih =>
    rw [← List.append_assoc, bin2bn_append_singleton, bin2bn_append_singleton, ih,
      List.length_append, List.length_singleton, pow_succ]
    ring

theorem bin2bn_eq_zero : ∀ {b : Bytes}, bin2bn b = 0 ↔ ∀ x ∈ b, x = 0 := by
  intro b
  induction b using List.reverseRecOn with
  | nil => simp [bin2bn]
  | append_singleton b x ih =>
    have hx : x.toNat = 0 ↔ x = 0 := @UInt8.toNat_inj x 0
    rw [bin2bn_append_singleton, List.forall_mem_append, ← ih, List.forall_mem_singleton, ← hx]
    omega

theorem length_padRandom (draw : Draw) {length : ℕ} {data : Bytes} (h : data.length ≤ length) :
    (padRandom draw length data).length = length := by
  rw [padRandom, List.length_append, List.length_map, List.length_range]
  omega

section Variants

variable {SecKeyEncrypt : RSAKey → Bytes → Option Bytes} {key : RSAKey}

theorem encryptBlocks_nil (fuel : ℕ) : encryptBlocks SecKeyEncrypt key fuel [] = some [] := by
  cases fuel <;> rfl

/-- A single block. -/
theorem encryptData_block (hraw : RawRsa SecKeyEncrypt) {data : Bytes} (hne : data ≠ [])
    (hlength : data.length = bnNumBytes key.n) (hlt : bin2bn data < key.n) :
    encryptData SecKeyEncrypt key data
      = bytesBE (bnNumBytes key.n) (bin2bn data ^ key.e % key.n) := by
  obtain ⟨fuel, hfuel⟩ := Nat.exists_eq_succ_of_ne_zero (List.length_pos_iff.mpr hne).ne'
  rw [encryptData, hfuel, encryptBlocks, if_neg hne, List.take_of_length_le hlength.le,
    List.drop_of_length_le hlength.le, hraw key data hlength hlt, encryptBlocks_nil]
  simp

theorem bnNumBytes_modulus (hlo : 2 ^ 2047 ≤ key.n) (hhi : key.n < 2 ^ 2048) :
    bnNumBytes key.n = 256 ∧ 256 ^ 255 ≤ key.n := by
  have hbytes : ∀ k bits : ℕ, 8 * k = bits → 256 ^ k = 2 ^ bits := by
    rintro k bits rfl
    rw [pow_mul]
    rfl
  have hmono : ∀ a b : ℕ, a ≤ b → 2 ^ a ≤ 2 ^ b := fun a b h => Nat.pow_le_pow_right (by decide) h
  have hle : 256 ^ 255 ≤ key.n := by
    rw [hbytes 255 2040 rfl]
    exact (hmono 2040 2047 (by decide)).trans hlo
  have hupper : bnNumBytes key.n ≤ 256 :=
    bnNumBytes_le (lt_of_lt_of_eq hhi (hbytes 256 2048 rfl).symm)
  have hlower : 256 ≤ bnNumBytes key.n := by
    by_contra hlt
    have hpow : 256 ^ bnNumBytes key.n ≤ 256 ^ 255 :=
      Nat.pow_le_pow_right (by decide) (by omega)
    exact absurd ((lt_pow_bnNumBytes key.n).trans_le (hpow.trans hle)) (lt_irrefl _)
  exact ⟨le_antisymm hupper hlower, hle⟩

/-- Bytes in front of a result leave it as it is just where they are zero. -/
theorem enveloped_iff {data front encrypted : Bytes} (hlt : bin2bn data < key.n)
    (hlength : (front ++ encrypted).length = 256)
    (hencrypted : bin2bn encrypted = bin2bn data ^ key.e % key.n) :
    Enveloped key data (front ++ encrypted) ↔ ∀ x ∈ front, x = 0 := by
  have hvalue := bin2bn_append front encrypted
  have hpos : 0 < 256 ^ encrypted.length := by positivity
  rw [← bin2bn_eq_zero]
  constructor
  · intro h
    have hnumber := h.number
    rw [hvalue, hencrypted] at hnumber
    have hzero : bin2bn front * 256 ^ encrypted.length = 0 := by omega
    exact (Nat.mul_eq_zero.mp hzero).resolve_right hpos.ne'
  · intro hzero
    rw [hzero, zero_mul, zero_add] at hvalue
    refine ⟨hlength, hvalue.trans hencrypted, fun decrypt hdecrypt => ?_⟩
    rw [hvalue, hencrypted]
    exact hdecrypt _ hlt

end Variants

/-- On iOS always, elsewhere where the bytes in front are zero: that many are missing to the 256 as
the power has zero bytes at its head. -/
theorem encryptInnerData_enveloped_iff {SecKeyEncrypt : RSAKey → Bytes → Option Bytes}
    (hraw : RawRsa SecKeyEncrypt) (readKey : String → RSAKey) (build : Build) (config : Config)
    (draw : Draw) (publicKey : PublicKey) (innerDataBytes : Bytes)
    (hlo : 2 ^ 2047 ≤ (readKey publicKey.key).n) (hhi : (readKey publicKey.key).n < 2 ^ 2048)
    (hlength : (config.MTSha1 innerDataBytes ++ innerDataBytes).length ≤ 255) :
    Enveloped (readKey publicKey.key)
        (padRandom draw 255 (config.MTSha1 innerDataBytes ++ innerDataBytes))
        (encryptInnerData (withRsa SecKeyEncrypt readKey config build) draw publicKey innerDataBytes)
      ↔ build = .ios ∨ ∀ i < 256 - bnNumBytes
          (bin2bn (padRandom draw 255 (config.MTSha1 innerDataBytes ++ innerDataBytes))
            ^ (readKey publicKey.key).e % (readKey publicKey.key).n), draw.pad (255 + i) = 0 := by
  obtain ⟨data, hdata⟩ : ∃ data, padRandom draw 255
    (config.MTSha1 innerDataBytes ++ innerDataBytes) = data := ⟨_, rfl⟩
  obtain ⟨key, hkey⟩ : ∃ key, readKey publicKey.key = key := ⟨_, rfl⟩
  have hdatalength : data.length = 255 := hdata ▸ length_padRandom draw hlength
  rw [hkey] at hlo hhi
  obtain ⟨hbytes, hle⟩ := bnNumBytes_modulus hlo hhi
  have hlt : bin2bn data < key.n := (hdatalength ▸ bin2bn_lt data).trans_le hle
  have hencrypted : encryptInnerData (withRsa SecKeyEncrypt readKey config build) draw publicKey
      innerDataBytes = (List.range (256 - (MTRsaEncrypt SecKeyEncrypt readKey build publicKey.key
        data).length)).map (fun i => draw.pad (255 + i))
          ++ MTRsaEncrypt SecKeyEncrypt readKey build publicKey.key data := by
    rw [← hdata]
    rfl
  have hpower : bin2bn data ^ key.e % key.n < 256 ^ 256 :=
    (Nat.mod_lt _ ((Nat.zero_le _).trans_lt hlt)).trans (hbytes ▸ lt_pow_bnNumBytes key.n)
  rw [hencrypted, hdata, hkey]
  cases build with
  | ios =>
    have hblock : MTRsaEncrypt SecKeyEncrypt readKey .ios publicKey.key data
        = bytesBE 256 (bin2bn data ^ key.e % key.n) := by
      have hpadded : (addKeyPadding data).length = 256 := length_addKeyPadding (by omega)
      rw [MTRsaEncrypt, hkey, encryptData_block hraw, bin2bn_addKeyPadding, hbytes]
      · exact List.length_pos_iff.mp (by omega)
      · rw [hpadded, hbytes]
      · rw [bin2bn_addKeyPadding]
        exact hlt
    have hvalue : bin2bn (bytesBE 256 (bin2bn data ^ key.e % key.n))
        = bin2bn data ^ key.e % key.n := by
      rw [bin2bn_bytesBE, Nat.mod_eq_of_lt hpower]
    rw [hblock, length_bytesBE, enveloped_iff hlt _ hvalue]
    · simp
    · rw [List.length_append, List.length_map, List.length_range, length_bytesBE]
  | other =>
    have hresult : MTRsaEncrypt SecKeyEncrypt readKey .other publicKey.key data
        = bn2bin (bin2bn data ^ key.e % key.n) := by
      rw [MTRsaEncrypt, hkey]
    have hfits := bnNumBytes_le hpower
    rw [hresult, bn2bin, length_bytesBE, ← bn2bin, enveloped_iff hlt _ (bin2bn_bn2bin _)]
    · simp
    · rw [List.length_append, List.length_map, List.length_range, bn2bin, length_bytesBE]
      omega

/-! ## A handshake that fails -/

/-- The first of the default keys. -/
def firstKey : RSAKey where
  n := bin2bn
    [0xc6, 0xae, 0xda, 0x78, 0xb0, 0x2a, 0x25, 0x1d, 0xb4, 0xb6, 0x44, 0x10, 0x31, 0xf4, 0x67, 0xfa,
     0x87, 0x1f, 0xae, 0xd3, 0x25, 0x26, 0xc4, 0x36, 0x52, 0x4b, 0x1f, 0xb3, 0xb5, 0xdc, 0xa2, 0x8e,
     0xfb, 0x8c, 0x08, 0x9d, 0xd1, 0xb4, 0x6d, 0x92, 0xc8, 0x95, 0x99, 0x3d, 0x87, 0x10, 0x82, 0x54,
     0x95, 0x1c, 0x5f, 0x00, 0x1a, 0x0f, 0x05, 0x5f, 0x30, 0x63, 0xdc, 0xd1, 0x4d, 0x43, 0x1a, 0x30,
     0x0e, 0xb9, 0xe2, 0x95, 0x17, 0xe3, 0x59, 0xa1, 0xc9, 0x53, 0x7e, 0x5e, 0x87, 0xab, 0x1b, 0x11,
     0x6f, 0xae, 0xcf, 0x5d, 0x17, 0x54, 0x6e, 0xbc, 0x21, 0xdb, 0x23, 0x4d, 0x9d, 0x33, 0x6a, 0x69,
     0x3e, 0xfc, 0xb2, 0xb6, 0xfb, 0xcc, 0xa1, 0xe7, 0xd1, 0xa0, 0xbe, 0x41, 0x4d, 0xca, 0x40, 0x8a,
     0x11, 0x60, 0x9b, 0x9c, 0x42, 0x69, 0xa9, 0x20, 0xb0, 0x9f, 0xed, 0x1f, 0x9a, 0x15, 0x97, 0xbe,
     0x02, 0x76, 0x14, 0x30, 0xf0, 0x9e, 0x4b, 0xc4, 0x8f, 0xca, 0xfb, 0xe2, 0x89, 0x05, 0x4c, 0x99,
     0xdb, 0xa5, 0x1b, 0x6b, 0x5e, 0xb7, 0xd9, 0xc3, 0xa2, 0xab, 0x4e, 0x49, 0x05, 0x45, 0xb4, 0x67,
     0x6b, 0xd6, 0x20, 0xe9, 0x38, 0x04, 0xbc, 0xac, 0x93, 0xbf, 0x94, 0xf7, 0x3f, 0x92, 0xc7, 0x29,
     0xca, 0x89, 0x94, 0x77, 0xff, 0x17, 0x62, 0x5e, 0xf1, 0x4a, 0x93, 0x4d, 0x51, 0xdc, 0x11, 0xd5,
     0xf8, 0x65, 0x0a, 0x33, 0x64, 0x58, 0x6b, 0x3a, 0x52, 0xfc, 0xff, 0x2f, 0xed, 0xec, 0x8a, 0x84,
     0x06, 0xca, 0xc4, 0xe7, 0x51, 0x70, 0x5a, 0x47, 0x2e, 0x55, 0x70, 0x7e, 0x3c, 0x8c, 0xd5, 0x59,
     0x43, 0x42, 0xb1, 0x19, 0xc6, 0xc3, 0x29, 0x35, 0x32, 0xd8, 0x5d, 0xbe, 0x92, 0x71, 0xed, 0x54,
     0xa2, 0xfd, 0x18, 0xb4, 0xdc, 0x79, 0xc0, 0x4a, 0x30, 0x95, 0x11, 0x07, 0xd5, 0x63, 0x93, 0x97]
  e := 65537

/-- The inner data for a product of two primes, with nonces of rising bytes. -/
def envelopeInnerData : Bytes :=
  [236, 90, 201, 131, 8, 20, 104, 183, 102, 171, 217, 14, 45, 0, 0, 0, 4, 71, 232, 166, 163, 0,
   0, 0, 4, 72, 168, 84, 239, 0, 0, 0, 0, 1, 2, 3, 4, 5, 6, 7, 8, 9, 10, 11, 12, 13, 14, 15, 16,
   17, 18, 19, 20, 21, 22, 23, 24, 25, 26, 27, 28, 29, 30, 31, 0, 0, 0, 0, 0, 0, 0, 0, 0, 0, 0,
   0, 0, 0, 0, 0, 0, 0, 0, 0, 0, 0, 0, 0, 0, 0, 0, 0, 0, 0, 0, 0]

def envelopeHash : Bytes :=
  [228, 54, 110, 128, 29, 36, 181, 151, 107, 31, 48, 57, 219, 26, 24, 78, 222, 168, 156, 248]

/-- What is drawn: the padding makes a power with 255 bytes, and the byte in front is 7. -/
def envelopeDraw : Draw where
  nonce := Bytes.zeros 16
  newNonce := Bytes.zeros 32
  b := Bytes.zeros 256
  pad := fun i => if i = 0 then 121 else if i = 1 then 1 else if i = 255 then 7 else 0
  MTFactorize := fun _ => none
  BN_is_prime_ex := fun _ => false

def envelopeConfig : Config where
  tempAuth := false
  cdn := false
  datacenterId := 2
  defaultPublicKeys := []
  MTSha1 := fun _ => envelopeHash
  MTRsaEncrypt := fun _ data => data
  encrypt := fun _ data => data
  decrypt := fun _ data => data

/-- On iOS the server reads it. -/
theorem encryptInnerData_enveloped_sample :
    Enveloped firstKey (padRandom envelopeDraw 255 (envelopeHash ++ envelopeInnerData))
      (encryptInnerData (withRsa
        (fun key block => some (bytesBE (bnNumBytes key.n) (bin2bn block ^ key.e % key.n)))
        (fun _ => firstKey) envelopeConfig .ios) envelopeDraw ⟨"", 0⟩ envelopeInnerData) :=
  (encryptInnerData_enveloped_iff (fun _ _ _ _ => rfl) (fun _ => firstKey) .ios envelopeConfig
    envelopeDraw ⟨"", 0⟩ envelopeInnerData (by decide +kernel) (by decide +kernel)
    (by decide +kernel)).mpr (.inl rfl)

/-- With OpenSSL the server reads another number. -/
theorem encryptInnerData_misread :
    ¬Enveloped firstKey (padRandom envelopeDraw 255 (envelopeHash ++ envelopeInnerData))
      (encryptInnerData (withRsa (fun _ _ => none) (fun _ => firstKey) envelopeConfig .other)
        envelopeDraw ⟨"", 0⟩ envelopeInnerData) := by
  intro h
  have hnumber := h.number
  revert hnumber
  decide +kernel

end Onegram.DatacenterAuth
