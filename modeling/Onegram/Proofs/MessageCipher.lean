import Onegram.MessageCipher
import Mathlib.Logic.Equiv.Basic

/-!
# Secret messages survive encryption

The peer of whoever encrypted a message, with the same key and the opposite creator flag, gets back
the message with its length in front and its padding behind. Both schemes pad with a beginning of the
random buffer. Only an empty message, or one too long for the 32-bit lengths, is refused.
-/

namespace Onegram.MessageCipher

open Bytes

section

variable {sha1 sha256 : Bytes → Bytes} {encrypt decrypt : Bytes → Bytes → Bytes}

/-! ## Padding -/

theorem length_cut {b : Bytes} {off n : ℕ} (h : off + n ≤ b.length) : (cut b off n).length = n := by
  simp [cut]
  omega

theorem cut_append_cut (b : Bytes) (off n m : ℕ) :
    cut b off n ++ cut b (off + n) m = cut b off (n + m) := by
  simp only [cut, List.take_add, List.drop_drop]

theorem getElem?_cons_cut {b : Bytes} {off n : ℕ} (h : off + (n + 1) ≤ b.length) :
    ∃ byte, b[off]? = some byte ∧ cut b off (n + 1) = byte :: cut b (off + 1) n := by
  refine ⟨b[off], List.getElem?_eq_getElem (by omega), ?_⟩
  rw [cut, List.drop_eq_getElem_cons (by omega), List.take_succ_cons, cut]

theorem appendRandom_eq (r : Bytes) : ∀ (count : ℕ) (data : Bytes) (take : ℕ),
    take + count ≤ r.length →
    appendRandom r count (data, take) = some (data ++ cut r take count, take + count)
  | 0, data, take, _ => by simp [appendRandom, cut]
  | count + 1, data, take, h => by
    obtain ⟨byte, hbyte, hcut⟩ := getElem?_cons_cut h
    rw [appendRandom, hbyte, Option.bind_eq_bind, Option.bind_some,
      appendRandom_eq r count _ _ (by omega), hcut]
    simp [Nat.add_comm, Nat.add_left_comm]

/-- What is missing of a whole number of blocks. -/
def missing (n : ℕ) : ℕ := (16 - n % 16) % 16

theorem missing_spec (n : ℕ) : (n + missing n) % 16 = 0 ∧ missing n < 16 := by
  unfold missing
  omega

theorem padToBlock_eq (r : Bytes) : ∀ (fuel : ℕ) (data : Bytes) (take : ℕ),
    missing data.length < fuel → take + missing data.length ≤ r.length →
    padToBlock r fuel (data, take)
      = some (data ++ cut r take (missing data.length), take + missing data.length)
  | 0, _, _, h, _ => absurd h (Nat.not_lt_zero _)
  | fuel + 1, data, take, hfuel, hlen => by
    rw [padToBlock]
    split_ifs with hmod
    · obtain ⟨n, hn⟩ : ∃ n, missing data.length = n + 1 :=
        Nat.exists_eq_succ_of_ne_zero (by unfold missing; omega)
      rw [hn] at hlen hfuel ⊢
      obtain ⟨byte, hbyte, hcut⟩ := getElem?_cons_cut hlen
      have hnext : missing (data ++ [byte]).length = n := by
        rw [List.length_append, List.length_singleton]
        unfold missing at hn ⊢
        omega
      rw [hbyte, Option.bind_eq_bind, Option.bind_some,
        padToBlock_eq r fuel _ _ (by omega) (by omega), hnext, hcut]
      simp [Nat.add_comm, Nat.add_left_comm]
    · have hzero : missing data.length = 0 := by
        unfold missing
        omega
      simp [hzero, cut]

theorem roundDown_spec : ∀ n, roundDown n ≤ n ∧ roundDown n % 16 = 0
  | 0 => ⟨le_rfl, rfl⟩
  | n + 1 => by
    obtain ⟨hle, hmod⟩ := roundDown_spec n
    rw [roundDown]
    split_ifs with h
    · exact ⟨by omega, hmod⟩
    · exact ⟨le_rfl, by omega⟩

variable {randomBytes : Bytes}

/-- Both schemes pad with the first bytes of the buffer. -/
theorem padV1_eq (hr : randomBytes.length = 128) (data : Bytes) :
    ∃ n < 16, (data.length + n) % 16 = 0
      ∧ padV1 randomBytes data = some (data ++ cut randomBytes 0 n) := by
  obtain ⟨hmod, hlt⟩ := missing_spec data.length
  refine ⟨missing data.length, hlt, hmod, ?_⟩
  rw [padV1, padToBlock_eq _ _ _ _ hlt (by omega)]
  rfl

theorem padV2_eq (hr : randomBytes.length = 128) (random : ℕ) (data : Bytes) :
    ∃ n, 12 ≤ n ∧ n ≤ 72 ∧ (data.length + n) % 16 = 0
      ∧ padV2 randomBytes random data = some (data ++ cut randomBytes 0 n) := by
  obtain ⟨m, hm⟩ : ∃ m, missing (data ++ cut randomBytes 0 12).length = m := ⟨_, rfl⟩
  have hspec := missing_spec (data ++ cut randomBytes 0 12).length
  rw [hm, List.length_append, length_cut (by omega)] at hspec
  obtain ⟨k, hk⟩ : ∃ k, roundDown (arc4random_uniform random (72 + 1 - (0 + 12 + m))) = k := ⟨_, rfl⟩
  have hdraw : k ≤ 72 - (12 + m) ∧ k % 16 = 0 := by
    obtain ⟨hle, hmod⟩ := roundDown_spec (arc4random_uniform random (72 + 1 - (0 + 12 + m)))
    have : arc4random_uniform random (72 + 1 - (0 + 12 + m)) < 72 + 1 - (0 + 12 + m) :=
      Nat.mod_lt _ (by omega)
    omega
  refine ⟨12 + m + k, by omega, by omega, by omega, ?_⟩
  rw [padV2, appendRandom_eq _ _ _ _ (by omega), Option.bind_eq_bind, Option.bind_some,
    padToBlock_eq _ _ _ _ (by omega) (by omega), hm, Option.bind_some]
  simp only [hk]
  rw [appendRandom_eq _ _ _ _ (by omega), Option.bind_some]
  have hcut := cut_append_cut randomBytes 0 (12 + m) k
  have hcut' := cut_append_cut randomBytes 0 12 m
  rw [Nat.zero_add] at hcut hcut'
  simp only [List.append_assoc, Nat.zero_add]
  rw [← hcut, ← hcut', List.append_assoc]
  rfl

/-! ## Lengths and numbers -/

theorem toInt32_mod (n : ℕ) : toInt32 (n % 2 ^ 32) = toInt32 n := by
  unfold toInt32
  rw [Int.natCast_mod, Int.emod_bmod]

theorem readInt32_bytesLE (n : ℕ) (rest : Bytes) : readInt32 (bytesLE 4 n ++ rest) = toInt32 n := by
  have hmod : n % 256 + n / 256 % 256 * 256 + n / 256 / 256 % 256 * 65536
      + n / 256 / 256 / 256 % 256 * 16777216 = n % 2 ^ 32 := by omega
  rw [← toInt32_mod, ← hmod]
  unfold readInt32
  rfl

theorem toInt32_of_lt {n : ℕ} (h : n < 2 ^ 31) : toInt32 n = n := by
  unfold toInt32
  rw [Int.bmod_eq_of_le (by omega) (by omega)]

/-- A digest is as long as it should be. -/
structure Digests (sha1 sha256 : Bytes → Bytes) : Prop where
  length_sha1 : ∀ b, (sha1 b).length = 20
  length_sha256 : ∀ b, (sha256 b).length = 32

variable {key : Bytes}

theorem generateMessageKeyData_eq (hd : Digests sha1 sha256) (hkey : key.length = 256)
    (messageKey : Bytes) (incoming v2 : Bool) :
    ∃ k iv, generateMessageKeyData sha1 sha256 messageKey incoming key v2 = some (k, iv)
      ∧ k.length = 32 ∧ iv.length = 32 := by
  have hne : key ≠ [] := fun h => by simp [h] at hkey
  cases v2 with
  | true =>
    refine ⟨_, _, by rw [generateMessageKeyData, if_neg hne, if_pos rfl], ?_, ?_⟩ <;>
      simp [cut, hd.length_sha256]
  | false =>
    refine ⟨_, _, by rw [generateMessageKeyData, if_neg hne, if_neg (by simp)], ?_, ?_⟩ <;>
      simp [cut, hd.length_sha1]

/-! ## The round trip -/

/-- The padded message, its key and the bytes that are sent. -/
theorem encryptMessage_eq (hd : Digests sha1 sha256) (hkey : key.length = 256)
    (hr : randomBytes.length = 128) (random : ℕ) (message : Bytes) (keyId : Int)
    (isCreator v2 : Bool) :
    ∃ n k iv messageKey,
      (4 + message.length + n) % 16 = 0 ∧ n ≤ 72 ∧ (v2 = true → 12 ≤ n)
      ∧ k.length = 32 ∧ iv.length = 32 ∧ messageKey.length = 16
      ∧ generateMessageKeyData sha1 sha256 messageKey (!isCreator) key v2 = some (k, iv)
      ∧ messageKey = (if v2 then messageKeyV2 sha256 key (if isCreator then 0 else 8)
            (bytesLE 4 message.length ++ message ++ cut randomBytes 0 n)
          else messageKeyV1 sha1 (bytesLE 4 message.length ++ message))
      ∧ encryptMessage sha1 sha256 encrypt randomBytes random (some message) key keyId isCreator v2
        = some (bytesLE 8 (keyId % 2 ^ 64).toNat ++ messageKey ++ MTAesEncryptInplace encrypt
            (bytesLE 4 message.length ++ message ++ cut randomBytes 0 n) k iv) := by
  have hlen : (bytesLE 4 message.length ++ message).length = 4 + message.length := by
    rw [List.length_append, length_bytesLE]
  cases v2 with
  | true =>
    obtain ⟨n, hmin, hmax, hmod, hpad⟩ :=
      padV2_eq hr random (bytesLE 4 message.length ++ message)
    obtain ⟨mk, hmk⟩ : ∃ mk, messageKeyV2 sha256 key (if isCreator then 0 else 8)
        (bytesLE 4 message.length ++ message ++ cut randomBytes 0 n) = mk := ⟨_, rfl⟩
    obtain ⟨k, iv, hgen, hk, hiv⟩ := generateMessageKeyData_eq hd hkey mk (!isCreator) true
    refine ⟨n, k, iv, mk, by omega, hmax, fun _ => hmin, hk, hiv, ?_, hgen, ?_, ?_⟩
    · rw [← hmk, messageKeyV2, length_cut (by rw [hd.length_sha256]; omega)]
    · rw [if_pos rfl, hmk]
    · simp only [encryptMessage, Option.bind_eq_bind, Option.bind_some, if_true, hpad, hmk, hgen]
      rfl
  | false =>
    obtain ⟨n, hlt, hmod, hpad⟩ := padV1_eq hr (bytesLE 4 message.length ++ message)
    obtain ⟨mk, hmk⟩ : ∃ mk, messageKeyV1 sha1 (bytesLE 4 message.length ++ message) = mk :=
      ⟨_, rfl⟩
    obtain ⟨k, iv, hgen, hk, hiv⟩ := generateMessageKeyData_eq hd hkey mk (!isCreator) false
    refine ⟨n, k, iv, mk, by omega, by omega, (fun h => by cases h), hk, hiv, ?_, hgen, ?_, ?_⟩
    · rw [← hmk, messageKeyV1, length_cut (by rw [hd.length_sha1])]
    · rw [if_neg (by simp), hmk]
    · simp only [encryptMessage, Option.bind_eq_bind, Option.bind_some, Bool.false_eq_true,
        if_false, hpad, hmk, hgen]
      rfl

/-- What the peer decrypts before it looks at the lengths and the message key. -/
theorem openMessage_eq (hc : BlockCipher encrypt decrypt) {data k iv messageKey keyIdBytes : Bytes}
    {isCreator v2 : Bool} (hkeyId : keyIdBytes.length = 8) (hmk : messageKey.length = 16)
    (hk : k.length = 32) (hiv : iv.length = 32) (hdata : data.length % 16 = 0)
    (hpos : 0 < data.length)
    (hgen : generateMessageKeyData sha1 sha256 messageKey isCreator key v2 = some (k, iv)) :
    openMessage sha1 sha256 decrypt
        (keyIdBytes ++ messageKey ++ MTAesEncryptInplace encrypt data k iv) key isCreator v2
      = if readInt32 data ≤ 0 ∨ readInt32 data > toInt32 data.length - 4 then none
        else if (v2 ∧ toInt32 data.length - (readInt32 data + 4) < 12)
            ∨ toInt32 data.length - (readInt32 data + 4) > 1024 then none
        else if (if v2 then messageKeyV2 sha256 key (if isCreator then 8 else 0) data
            else messageKeyV1 sha1 (data.take (readInt32 data + 4).toNat)) = messageKey
          then some data else none := by
  obtain ⟨hback, hlen⟩ := MTAesDecrypt_MTAesEncryptInplace hc hk hiv hdata
  have hcut : cut (keyIdBytes ++ messageKey ++ MTAesEncryptInplace encrypt data k iv) 8 16
      = messageKey := by
    rw [cut, List.append_assoc, List.drop_left' hkeyId, List.take_left' hmk]
  have hdrop : (keyIdBytes ++ messageKey ++ MTAesEncryptInplace encrypt data k iv).drop (8 + 16)
      = MTAesEncryptInplace encrypt data k iv := by
    rw [List.drop_left' (by simp [hkeyId, hmk])]
  have hshort : ¬ (keyIdBytes ++ messageKey ++ MTAesEncryptInplace encrypt data k iv).length
      < 8 + 16 + 16 := by
    simp only [List.length_append, hkeyId, hmk, hlen]
    omega
  unfold openMessage
  rw [if_neg hshort]
  simp only []
  rw [hcut, hgen]
  unfold decryptMessageData
  rw [Option.bind_eq_bind, Option.bind_some]
  simp only []
  have hwhole : (MTAesEncryptInplace encrypt data k iv).length % 16 = 0 := by omega
  rw [hdrop, hback, hwhole, List.replicate_zero, List.append_nil]

theorem toNat_add_four (n : ℕ) : ((n : Int) + 4).toNat = 4 + n := by omega

/-- The checks of the lengths pass for a message of `l` bytes with `n` bytes of padding. -/
theorem lengths_accepted {l n : ℕ} {v2 : Bool} (hpos : 0 < l) (hmin : v2 = true → 12 ≤ n)
    (hmax : n ≤ 72) (result : Option Bytes) :
    (if (l : Int) ≤ 0 ∨ (l : Int) > ((4 + l + n : ℕ) : Int) - 4 then none
      else if (v2 ∧ ((4 + l + n : ℕ) : Int) - (l + 4) < 12)
        ∨ ((4 + l + n : ℕ) : Int) - (l + 4) > 1024 then none
      else result) = result := by
  rw [if_neg (by omega), if_neg ?_]
  rintro (⟨hv2, h⟩ | h)
  · have := hmin hv2
    omega
  · omega

/-- The peer gets back every message but the empty one, with its length in front and its padding
behind; the padding is a beginning of the random buffer, and in the second scheme between 12 and
1024 bytes that complete a block. -/
theorem openMessage_encryptMessage (hc : BlockCipher encrypt decrypt) (hd : Digests sha1 sha256)
    (hkey : key.length = 256) (hr : randomBytes.length = 128) (random : ℕ) (message : Bytes)
    (keyId : Int) (isCreator v2 : Bool) :
    ∃ padding out : Bytes,
      encryptMessage sha1 sha256 encrypt randomBytes random (some message) key keyId isCreator v2
        = some out
      ∧ padding <+: randomBytes
      ∧ (v2 = true → 12 ≤ padding.length ∧ padding.length ≤ 1024
        ∧ (4 + message.length + padding.length) % 16 = 0)
      ∧ out.length = 8 + 16 + (4 + message.length + padding.length)
      ∧ (message ≠ [] → 4 + message.length + padding.length < 2 ^ 31 →
        openMessage sha1 sha256 decrypt out key (!isCreator) v2
          = some (bytesLE 4 message.length ++ message ++ padding)) := by
  obtain ⟨n, k, iv, mk, hmod, hmax, hmin, hk, hiv, hmk, hgen, hmkeq, hout⟩ :=
    @encryptMessage_eq sha1 sha256 encrypt randomBytes key hd hkey hr random message keyId isCreator v2
  have hpad : (cut randomBytes 0 n).length = n := length_cut (by omega)
  obtain ⟨data, hdata⟩ : ∃ d, bytesLE 4 message.length ++ message ++ cut randomBytes 0 n = d :=
    ⟨_, rfl⟩
  have hlen : data.length = 4 + message.length + n := by
    rw [← hdata, List.length_append, List.length_append, length_bytesLE, hpad]
  rw [hdata] at hmkeq hout
  refine ⟨cut randomBytes 0 n, _, hout, ?_, fun h => ?_, ?_, fun hne hlt => ?_⟩
  · rw [cut, List.drop_zero]
    exact List.take_prefix n randomBytes
  · rw [hpad]
    exact ⟨hmin h, by omega, hmod⟩
  · rw [List.length_append, List.length_append, length_bytesLE, hmk, hpad,
      (MTAesDecrypt_MTAesEncryptInplace hc hk hiv (by omega)).2, hlen]
  · rw [hpad] at hlt
    have hpos := List.length_pos_of_ne_nil hne
    have hdatamod : data.length % 16 = 0 := by omega
    have hdatapos : 0 < data.length := by omega
    have hread : readInt32 data = message.length := by
      rw [← hdata, List.append_assoc, readInt32_bytesLE, toInt32_of_lt (by omega)]
    have hsize : toInt32 data.length = data.length := toInt32_of_lt (by omega)
    have htake : data.take (readInt32 data + 4).toNat = bytesLE 4 message.length ++ message := by
      have hnat : (readInt32 data + 4).toNat = (bytesLE 4 message.length ++ message).length := by
        rw [hread, toNat_add_four, List.length_append, length_bytesLE]
      rw [hnat, ← hdata, List.take_left]
    have hlocal : (if v2 then messageKeyV2 sha256 key (if !isCreator then 8 else 0) data
        else messageKeyV1 sha1 (data.take (readInt32 data + 4).toNat)) = mk := by
      rw [htake, hmkeq]
      cases isCreator <;> rfl
    rw [openMessage_eq hc (length_bytesLE 8 _) hmk hk hiv hdatamod hdatapos hgen, hlocal, hread,
      hsize, hlen, lengths_accepted hpos hmin hmax, if_pos rfl, hdata]

/-- The empty message is refused. -/
theorem openMessage_empty (hc : BlockCipher encrypt decrypt) (hd : Digests sha1 sha256)
    (hkey : key.length = 256) (hr : randomBytes.length = 128) (random : ℕ) (keyId : Int)
    (isCreator v2 : Bool) :
    (encryptMessage sha1 sha256 encrypt randomBytes random (some []) key keyId isCreator v2).bind
      (openMessage sha1 sha256 decrypt · key (!isCreator) v2) = none := by
  obtain ⟨n, k, iv, mk, hmod, hmax, hmin, hk, hiv, hmk, hgen, -, hout⟩ :=
    @encryptMessage_eq sha1 sha256 encrypt randomBytes key hd hkey hr random [] keyId isCreator v2
  have hpad : (cut randomBytes 0 n).length = n := length_cut (by omega)
  have hlen : (bytesLE 4 0 ++ ([] : Bytes) ++ cut randomBytes 0 n).length = 4 + n := by
    rw [List.length_append, List.append_nil, length_bytesLE, hpad]
  have hmod' : (4 + n) % 16 = 0 := hmod
  rw [hout, Option.bind_some, List.length_nil,
    openMessage_eq hc (length_bytesLE 8 _) hmk hk hiv (by omega) (by omega) hgen, if_pos]
  left
  rw [List.append_assoc, readInt32_bytesLE, toInt32_of_lt (by omega)]
  exact le_rfl

end

/-! ## Two messages under the key of 256 zero bytes

The digests and the blocks are those of SHA-1 and of AES with 256 bits on these inputs.
-/

namespace Sample

def key : Bytes := List.replicate 256 0

def randomBytes : Bytes := (List.range 128).map UInt8.ofNat

/-- The digests needed to send `[119]` and `[]` in the first scheme. -/
def digests : List (Bytes × Bytes) :=
  [([1, 0, 0, 0, 119], [160, 169, 139, 4, 106, 66, 132, 144, 230, 242, 146, 200, 57, 160, 176,
      134, 11, 170, 87, 163]),
    ([106, 66, 132, 144, 230, 242, 146, 200, 57, 160, 176, 134, 11, 170, 87, 163] ++
      List.replicate 32 0, [135, 4, 50, 198, 141, 78, 187, 98, 155, 112, 151, 22, 204, 15, 231,
      167, 85, 134, 21, 64]),
    (List.replicate 16 0 ++ [106, 66, 132, 144, 230, 242, 146, 200, 57, 160, 176, 134, 11, 170,
      87, 163] ++ List.replicate 16 0, [51, 16, 161, 212, 175, 3, 189, 24, 187, 53, 181, 143,
      237, 16, 31, 253, 214, 239, 87, 155]),
    (List.replicate 32 0 ++ [106, 66, 132, 144, 230, 242, 146, 200, 57, 160, 176, 134, 11, 170,
      87, 163], [255, 234, 85, 255, 194, 157, 221, 218, 105, 147, 206, 104, 105, 206, 166, 85,
      103, 16, 19, 175]),
    ([0, 0, 0, 0], [144, 105, 202, 120, 231, 69, 10, 40, 81, 115, 67, 27, 62, 82, 197, 194, 82,
      153, 228, 115]),
    ([231, 69, 10, 40, 81, 115, 67, 27, 62, 82, 197, 194, 82, 153, 228, 115] ++ 
      List.replicate 32 0, [74, 161, 212, 62, 48, 18, 24, 173, 161, 45, 44, 123, 197, 254, 74, 159, 47, 230,
      165, 19]),
    (List.replicate 16 0 ++ [231, 69, 10, 40, 81, 115, 67, 27, 62, 82, 197, 194, 82, 153, 228,
      115] ++ List.replicate 16 0, [101, 121, 148, 52, 18, 253, 128, 150, 151, 113, 24, 22, 222,
      80, 108, 28, 231, 51, 53, 83]),
    (List.replicate 32 0 ++ [231, 69, 10, 40, 81, 115, 67, 27, 62, 82, 197, 194, 82, 153, 228,
      115], [171, 173, 152, 208, 134, 97, 245, 71, 89, 193, 65, 116, 200, 127, 192, 32, 106, 250,
      119, 115])]

def sha1 (b : Bytes) : Bytes := (digests.lookup b).getD (List.replicate 20 0)

def sha256 (_ : Bytes) : Bytes := List.replicate 32 0

def aesKey1 : Bytes :=
  [135, 4, 50, 198, 141, 78, 187, 98, 187, 53, 181, 143, 237, 16, 31, 253, 214, 239, 87, 155,
  194, 157, 221, 218, 105, 147, 206, 104, 105, 206, 166, 85]

def plain1 : Bytes :=
  [154, 112, 151, 22, 187, 15, 230, 165, 86, 130, 16, 70, 52, 24, 168, 222]

def cipher1 : Bytes :=
  [129, 123, 68, 209, 85, 131, 40, 27, 25, 248, 248, 242, 172, 51, 63, 208]

def aesKey2 : Bytes :=
  [74, 161, 212, 62, 48, 18, 24, 173, 151, 113, 24, 22, 222, 80, 108, 28, 231, 51, 53, 83, 134,
  97, 245, 71, 89, 193, 65, 116, 200, 127, 192, 32]

def plain2 : Bytes :=
  [161, 45, 44, 123, 197, 255, 72, 156, 43, 227, 163, 20, 109, 112, 158, 63]

def cipher2 : Bytes :=
  [251, 165, 181, 16, 210, 38, 207, 85, 178, 117, 247, 116, 149, 197, 122, 123]

/-- Blocks other than these stand for themselves. -/
def aes (key block : Bytes) : Bytes :=
  if key = aesKey1 then Equiv.swap plain1 cipher1 block
  else if key = aesKey2 then Equiv.swap plain2 cipher2 block
  else block

theorem length_swap {a b block : Bytes} (ha : a.length = 16) (hb : b.length = 16)
    (h : block.length = 16) : (Equiv.swap a b block).length = 16 := by
  rw [Equiv.swap_apply_def]
  split_ifs <;> assumption

theorem swap_swap_self (a b block : Bytes) : Equiv.swap a b (Equiv.swap a b block) = block := by
  rw [← Equiv.trans_apply, Equiv.swap_swap, Equiv.refl_apply]

theorem blockCipher_aes : BlockCipher aes aes where
  length_encrypt := by
    intro key block _ h
    unfold aes
    split_ifs
    · exact length_swap rfl rfl h
    · exact length_swap rfl rfl h
    · exact h
  decrypt_encrypt := by
    intro key block _ _
    unfold aes
    split_ifs
    · exact swap_swap_self _ _ _
    · exact swap_swap_self _ _ _
    · rfl

theorem digests_sha1 : Digests sha1 sha256 where
  length_sha1 := by
    intro b
    have hall : ∀ p ∈ digests, p.2.length = 20 := by decide
    unfold sha1
    rcases h : digests.lookup b with _ | d
    · simp
    · obtain ⟨l₁, l₂, hl, -⟩ := List.lookup_eq_some_iff.1 h
      exact hall (b, d) (by rw [hl]; simp)
  length_sha256 := fun _ => List.length_replicate

theorem length_key : key.length = 256 := List.length_replicate

theorem length_randomBytes : randomBytes.length = 128 := by simp [randomBytes]

end Sample

/-- The message `[119]` in the first scheme. -/
theorem openMessage_encryptMessage_one :
    ∃ padding out : Bytes,
      encryptMessage Sample.sha1 Sample.sha256 Sample.aes Sample.randomBytes 0 (some [119])
        Sample.key 5 true false = some out
      ∧ padding <+: Sample.randomBytes
      ∧ openMessage Sample.sha1 Sample.sha256 Sample.aes out Sample.key false false
        = some (bytesLE 4 1 ++ [119] ++ padding) := by
  obtain ⟨padding, out, hout, hpre, -, -, hopen⟩ := openMessage_encryptMessage
    Sample.blockCipher_aes Sample.digests_sha1 Sample.length_key Sample.length_randomBytes 0
    [119] 5 true false
  have hpad : padding.length ≤ 128 := Sample.length_randomBytes ▸ hpre.length_le
  refine ⟨padding, out, hout, hpre, hopen (List.cons_ne_nil _ _) ?_⟩
  rw [List.length_singleton]
  omega

/-- The empty message is encrypted, and refused by the peer. -/
theorem openMessage_encryptMessage_empty :
    (encryptMessage Sample.sha1 Sample.sha256 Sample.aes Sample.randomBytes 0 (some [])
        Sample.key 5 true false).isSome
      ∧ (encryptMessage Sample.sha1 Sample.sha256 Sample.aes Sample.randomBytes 0 (some [])
          Sample.key 5 true false).bind
        (openMessage Sample.sha1 Sample.sha256 Sample.aes · Sample.key false false) = none := by
  refine ⟨?_, openMessage_empty Sample.blockCipher_aes Sample.digests_sha1 Sample.length_key
    Sample.length_randomBytes 0 5 true false⟩
  obtain ⟨n, k, iv, mk, -, -, -, -, -, -, -, -, hout⟩ := @encryptMessage_eq Sample.sha1
    Sample.sha256 Sample.aes Sample.randomBytes Sample.key Sample.digests_sha1 Sample.length_key
    Sample.length_randomBytes 0 [] 5 true false
  rw [hout]
  rfl

end Onegram.MessageCipher
