import Onegram.EncryptedPackets
import Onegram.Proofs.MessageCipher

/-!
# Which packets are accepted

The padding is what follows the body, and the body follows 32 bytes of header; the code takes the
length of the body from the length of everything. So its window for the padding is 32 bytes low.
-/

namespace Onegram.Mtp

open Bytes MessageCipher
open DatacenterAuth (messageEncryptionKeyV2)

section

variable {MTSha256 : Bytes → Bytes} {encrypt decrypt : Bytes → Bytes → Bytes}

variable (MTSha256 decrypt) in
/-- The decrypted data of a packet, where there is any. -/
def decryptedPacket (key : MTDatacenterAuthKey) (packet : Bytes) : Option Bytes :=
  (messageEncryptionKeyV2 MTSha256 key.authKey (cut packet 8 16) true).bind fun (aesKey, iv) =>
    (subdataWithRange packet 24 (wholeBlocks (toInt32 (packet.length - 24)))).toOption.map
      (MTAesDecrypt decrypt · aesKey iv)

/-- The length the body is said to have. -/
def bodyLength (decrypted : Bytes) : Int := readInt32 (decrypted.drop 28)

variable (MTSha256 decrypt) in
/-- The key id and the message key are right, and the packet decrypts to this. -/
structure Authentic (key : MTDatacenterAuthKey) (packet decrypted : Bytes) : Prop where
  keyId : packet.take 8 = int64Bytes key.authKeyId
  decrypts : decryptedPacket MTSha256 decrypt key packet = some decrypted
  messageKey : cut (msgKeyLarge MTSha256 key.authKey 8 decrypted) 8 16 = cut packet 8 16

variable (MTSha256 decrypt) in
/-- What a packet has to be: authentic, with 12 to 1024 bytes behind the header and the body. -/
def Acceptable (key : MTDatacenterAuthKey) (packet decrypted : Bytes) : Prop :=
  Authentic MTSha256 decrypt key packet decrypted ∧ 0 ≤ bodyLength decrypted
    ∧ 12 ≤ (decrypted.length : Int) - 32 - bodyLength decrypted
    ∧ (decrypted.length : Int) - 32 - bodyLength decrypted ≤ 1024

variable (MTSha256 decrypt) in
/-- An authentic packet whose padding is in one of the windows and not in the other: too short by
up to 32 bytes, or one of the last 32 lengths that are allowed. -/
def Miscounted (key : MTDatacenterAuthKey) (packet : Bytes) : Prop :=
  ∃ decrypted, Authentic MTSha256 decrypt key packet decrypted ∧ 0 ≤ bodyLength decrypted
    ∧ (60 ≤ packet.length ∧ 32 ≤ decrypted.length
        ∧ 12 - 32 ≤ (decrypted.length : Int) - 32 - bodyLength decrypted
        ∧ (decrypted.length : Int) - 32 - bodyLength decrypted < 12
      ∨ 1024 - 32 < (decrypted.length : Int) - 32 - bodyLength decrypted
        ∧ (decrypted.length : Int) - 32 - bodyLength decrypted ≤ 1024)

theorem toInt32_lt (n : ℕ) : toInt32 n < 2 ^ 31 := by
  unfold toInt32
  have := Int.bmod_lt (x := n) (m := 2 ^ 32) (by norm_num)
  norm_num at this ⊢
  exact this

variable (decrypt) in
theorem length_igeDecrypt_le (key : Bytes) : ∀ (blocks : List Bytes) (ivp iv2p : Bytes),
    ivp.length ≤ 16 → (∀ block ∈ blocks, block.length ≤ 16) →
      (igeDecrypt decrypt key ivp iv2p blocks).flatten.length ≤ 16 * blocks.length
  | [], _, _, _, _ => by simp [igeDecrypt]
  | block :: blocks, ivp, iv2p, hivp, hblocks => by
    have htail := length_igeDecrypt_le key blocks block
      (xorBytes (decrypt key (xorBytes block iv2p)) ivp) (hblocks block List.mem_cons_self)
      fun b hb => hblocks b (List.mem_cons_of_mem _ hb)
    simp only [igeDecrypt, List.flatten_cons, List.length_append, length_xorBytes,
      List.length_cons] at htail ⊢
    omega

theorem length_toBlocks : ∀ (n : ℕ) (data : Bytes), (toBlocks n data).length = n
    ∧ ∀ block ∈ toBlocks n data, block.length ≤ 16
  | 0, _ => by simp [toBlocks]
  | n + 1, data => by
    obtain ⟨hlen, hall⟩ := length_toBlocks n (data.drop 16)
    refine ⟨by rw [toBlocks, List.length_cons, hlen], fun block hblock => ?_⟩
    rcases List.mem_cons.mp hblock with rfl | hblock
    · simp
    · exact hall block hblock

variable (decrypt) in
/-- Decryption does not make the data longer. -/
theorem length_MTAesDecrypt_le (data key iv : Bytes) :
    (MTAesDecrypt decrypt data key iv).length ≤ data.length := by
  obtain ⟨hlen, hall⟩ := length_toBlocks (data.length / 16) data
  have h := length_igeDecrypt_le decrypt key _ (iv.take 16) (iv.drop 16)
    (by simp) hall
  rw [hlen] at h
  unfold MTAesDecrypt
  omega

theorem subdataWithRange_ok {data : Bytes} {location : ℕ} {length : Int} {part : Bytes}
    (h : subdataWithRange data location length = .ok part) :
    0 ≤ length ∧ location + length.toNat ≤ data.length ∧ part = cut data location length.toNat
      ∧ part.length = length.toNat := by
  unfold subdataWithRange at h
  split_ifs at h with hrange
  obtain rfl := Except.ok.inj h
  have hroom : location + length.toNat ≤ data.length := by omega
  exact ⟨by omega, hroom, rfl, length_cut hroom⟩

/-- A packet that decrypts at all is as long as what it decrypts to and the two keys. -/
theorem decryptedPacket_length {key : MTDatacenterAuthKey} {packet decrypted : Bytes}
    (h : decryptedPacket MTSha256 decrypt key packet = some decrypted) :
    24 + decrypted.length ≤ packet.length ∧ (decrypted.length : Int) < 2 ^ 31 := by
  obtain ⟨⟨aesKey, iv⟩, -, h⟩ := Option.bind_eq_some_iff.mp h
  obtain ⟨part, hpart, rfl⟩ := Option.map_eq_some_iff.mp h
  rcases hsub : subdataWithRange packet 24 (wholeBlocks (toInt32 (packet.length - 24))) with e | d
  · rw [hsub] at hpart
    cases hpart
  · rw [hsub] at hpart
    obtain rfl := Option.some.inj hpart
    obtain ⟨hnonneg, hroom, -, hlen⟩ := subdataWithRange_ok hsub
    have hle := length_MTAesDecrypt_le decrypt d aesKey iv
    have hlt := toInt32_lt (packet.length - 24)
    unfold wholeBlocks at hnonneg hroom hlen
    omega

theorem checkDecryptedData_iff {key : MTDatacenterAuthKey} {messageKey data decrypted : Bytes}
    (hlen : data.length < 2 ^ 31) :
    checkDecryptedData MTSha256 key messageKey data = some decrypted
      ↔ data = decrypted ∧ cut (msgKeyLarge MTSha256 key.authKey 8 data) 8 16 = messageKey
        ∧ 0 ≤ bodyLength data ∧ 12 ≤ (data.length : Int) - bodyLength data
        ∧ (data.length : Int) - bodyLength data ≤ 1024 := by
  unfold checkDecryptedData
  simp only []
  rw [toInt32_of_lt hlen]
  change (if (data.length : Int) - bodyLength data < 12
    ∨ (data.length : Int) - bodyLength data > 1024 then none
    else if bodyLength data < 0 ∨ bodyLength data > data.length then none else _) = _ ↔ _
  split_ifs with hpadding hbody hkey
  · exact ⟨fun h => absurd h (by simp), fun h => by omega⟩
  · exact ⟨fun h => absurd h (by simp), fun h => by omega⟩
  · exact ⟨fun h => absurd h (by simp), fun h => absurd h.2.1 hkey⟩
  · rw [not_not] at hkey
    constructor
    · intro h
      exact ⟨Option.some.inj h, hkey, by omega, by omega, by omega⟩
    · exact fun h => congrArg some h.1

theorem subdataWithRange_inside {data : Bytes} {location length : ℕ} :
    subdataWithRange data location length
      = if data.length < location + length then .error .rangeException
        else .ok (cut data location length) := by
  unfold subdataWithRange
  rw [Int.toNat_natCast]
  refine if_congr ?_ rfl rfl
  omega

/-- The code accepts authentic packets by its own count. -/
theorem decryptIncoming_iff (key : MTDatacenterAuthKey) (packet decrypted : Bytes) :
    decryptIncomingTransportData MTSha256 decrypt (some key) packet = .ok (some decrypted)
      ↔ Authentic MTSha256 decrypt key packet decrypted ∧ 60 ≤ packet.length
        ∧ 32 ≤ decrypted.length ∧ 0 ≤ bodyLength decrypted
        ∧ 12 ≤ (decrypted.length : Int) - bodyLength decrypted
        ∧ (decrypted.length : Int) - bodyLength decrypted ≤ 1024 := by
  have hrefused : ¬(Except.ok none : Except NSException (Option Bytes)) = .ok (some decrypted) :=
    fun h => by cases h
  have hraised : ¬(Except.error .rangeException : Except NSException (Option Bytes))
      = .ok (some decrypted) := fun h => by cases h
  unfold decryptIncomingTransportData
  simp only []
  by_cases hshort : packet.length < 24 + 36
  · rw [if_pos hshort]
    exact ⟨fun h => absurd h hrefused, fun h => by omega⟩
  rw [if_neg hshort]
  by_cases hid : packet.take 8 = int64Bytes key.authKeyId
  swap
  · rw [if_pos hid]
    exact ⟨fun h => absurd h hrefused, fun h => absurd h.1.keyId hid⟩
  rw [if_neg (not_not.mpr hid)]
  rcases hkey : messageEncryptionKeyV2 MTSha256 key.authKey (cut packet 8 16) true with
    _ | ⟨aesKey, iv⟩
  · refine ⟨fun h => absurd h hrefused, fun h => ?_⟩
    have hnone := h.1.decrypts
    rw [decryptedPacket, hkey] at hnone
    cases hnone
  rcases hsub : subdataWithRange packet 24 (wholeBlocks (toInt32 (packet.length - 24))) with e | data
  · cases e
    refine ⟨fun h => absurd h hraised, fun h => ?_⟩
    have hnone := h.1.decrypts
    rw [decryptedPacket, hkey, Option.bind_some, hsub] at hnone
    cases hnone
  have hdecrypted : decryptedPacket MTSha256 decrypt key packet
      = some (MTAesDecrypt decrypt data aesKey iv) := by
    rw [decryptedPacket, hkey, Option.bind_some, hsub]
    rfl
  have hlen := (decryptedPacket_length hdecrypted).2
  change (subdataWithRange (MTAesDecrypt decrypt data aesKey iv) 28 (4 : ℕ) >>= fun _ =>
    pure (checkDecryptedData MTSha256 key (cut packet 8 16)
      (MTAesDecrypt decrypt data aesKey iv))) = _ ↔ _
  generalize MTAesDecrypt decrypt data aesKey iv = out at hdecrypted hlen ⊢
  rw [subdataWithRange_inside]
  split_ifs with hheader
  · refine ⟨fun h => absurd h hraised, fun h => ?_⟩
    obtain rfl := Option.some.inj (hdecrypted.symm.trans h.1.decrypts)
    omega
  · change Except.ok (checkDecryptedData MTSha256 key (cut packet 8 16) out) = _ ↔ _
    rw [Except.ok.injEq, checkDecryptedData_iff (by omega)]
    constructor
    · rintro ⟨rfl, hmessageKey, hwindow⟩
      exact ⟨⟨hid, hdecrypted, hmessageKey⟩, by omega, by omega, hwindow⟩
    · rintro ⟨hauthentic, -, -, hwindow⟩
      obtain rfl := Option.some.inj (hdecrypted.symm.trans hauthentic.decrypts)
      exact ⟨rfl, hauthentic.messageKey, hwindow⟩

theorem authentic_unique {key : MTDatacenterAuthKey} {packet d d' : Bytes}
    (h : Authentic MTSha256 decrypt key packet d) (h' : Authentic MTSha256 decrypt key packet d') :
    d = d' :=
  Option.some.inj (h.decrypts.symm.trans h'.decrypts)

/-- Exactly the acceptable packets are accepted, unless the padding is miscounted. -/
theorem accepted_iff (key : MTDatacenterAuthKey) (packet : Bytes) :
    (∀ decrypted, decryptIncomingTransportData MTSha256 decrypt (some key) packet
        = .ok (some decrypted) ↔ Acceptable MTSha256 decrypt key packet decrypted)
      ↔ ¬Miscounted MTSha256 decrypt key packet := by
  constructor
  · rintro hall ⟨decrypted, hauthentic, hbody, hwindow⟩
    have h := hall decrypted
    rw [decryptIncoming_iff] at h
    rcases hwindow with ⟨hpacket, hheader, hlow, hhigh⟩ | ⟨hlow, hhigh⟩
    · obtain ⟨-, -, hmin, -⟩ :=
        h.mp ⟨hauthentic, hpacket, hheader, hbody, by omega, by omega⟩
      omega
    · obtain ⟨-, -, -, -, -, hmax⟩ := h.mpr ⟨hauthentic, hbody, by omega, by omega⟩
      omega
  · intro hcounted decrypted
    rw [decryptIncoming_iff]
    constructor
    · rintro ⟨hauthentic, hpacket, hheader, hbody, hmin, hmax⟩
      refine ⟨hauthentic, hbody, ?_, by omega⟩
      by_contra hlow
      exact hcounted ⟨decrypted, hauthentic, hbody,
        .inl ⟨hpacket, hheader, by omega, by omega⟩⟩
    · rintro ⟨hauthentic, hbody, hmin, hmax⟩
      have hlen := (decryptedPacket_length hauthentic.decrypts).1
      refine ⟨hauthentic, by omega, by omega, hbody, by omega, ?_⟩
      by_contra hhigh
      exact hcounted ⟨decrypted, hauthentic, hbody, .inr ⟨by omega, by omega⟩⟩

/-! ## What a server sends -/

/-- A message of a server: the header, the body and the padding that completes a block. -/
structure Framed (plaintext body padding : Bytes) : Prop where
  contents : ∃ salt sessionId messageId seqNo,
    plaintext = decryptedOs salt sessionId messageId seqNo body ++ padding
  fits : body.length < 2 ^ 31
  window : 12 ≤ padding.length ∧ padding.length ≤ 1024
  blocks : plaintext.length % 16 = 0

theorem length_int32Bytes (n : Int) : (int32Bytes n).length = 4 := length_bytesLE 4 _

theorem length_int64Bytes (n : Int) : (int64Bytes n).length = 8 := length_bytesLE 8 _

theorem Framed.length {plaintext body padding : Bytes} (h : Framed plaintext body padding) :
    plaintext.length = 32 + body.length + padding.length ∧ bodyLength plaintext = body.length := by
  obtain ⟨salt, sessionId, messageId, seqNo, rfl⟩ := h.contents
  constructor
  · simp only [decryptedOs, List.length_append, length_int64Bytes, length_int32Bytes]
  · unfold bodyLength decryptedOs
    have hdrop : (int64Bytes salt ++ int64Bytes sessionId ++ int64Bytes messageId
        ++ int32Bytes seqNo ++ int32Bytes body.length ++ body ++ padding).drop 28
        = bytesLE 4 body.length ++ (body ++ padding) := by
      have hbytes : int32Bytes body.length = bytesLE 4 body.length := by
        unfold int32Bytes
        rw [Int.emod_eq_of_lt (by omega) (by have := h.fits; omega), Int.toNat_natCast]
      rw [List.append_assoc, List.append_assoc, List.drop_left'
        (by simp only [List.length_append, length_int64Bytes, length_int32Bytes]), hbytes]
    rw [hdrop, readInt32_bytesLE, toInt32_of_lt h.fits]

theorem length_messageEncryptionKeyV2 (hsha : ∀ b, (MTSha256 b).length = 32)
    {authKey messageKey : Bytes} (hauthKey : authKey ≠ []) (hmessageKey : messageKey ≠ [])
    (toClient : Bool) :
    ∃ aesKey iv, messageEncryptionKeyV2 MTSha256 authKey messageKey toClient = some (aesKey, iv)
      ∧ aesKey.length = 32 ∧ iv.length = 32 := by
  unfold messageEncryptionKeyV2
  rw [if_neg (by simp [hauthKey, hmessageKey])]
  refine ⟨_, _, rfl, ?_, ?_⟩ <;> simp [hsha]

theorem length_messageKey (hsha : ∀ b, (MTSha256 b).length = 32) (authKey : Bytes) (xValue : ℕ)
    (data : Bytes) : (cut (msgKeyLarge MTSha256 authKey xValue data) 8 16).length = 16 := by
  refine length_cut ?_
  rw [msgKeyLarge, hsha]
  norm_num

/-- A packet under the key has an authentic reading up to the lengths an `int32_t` has. -/
theorem encryptedData_spec (hc : BlockCipher encrypt decrypt)
    (hsha : ∀ b, (MTSha256 b).length = 32) {key : MTDatacenterAuthKey} (hkey : key.authKey ≠ [])
    {plaintext : Bytes} (hblocks : plaintext.length % 16 = 0) :
    ∃ packet, encryptedData MTSha256 encrypt key true plaintext = some packet
      ∧ packet.length = 24 + plaintext.length
      ∧ (plaintext.length < 2 ^ 31 → Authentic MTSha256 decrypt key packet plaintext) := by
  obtain ⟨messageKey, hmk⟩ :
    ∃ mk, cut (msgKeyLarge MTSha256 key.authKey 8 plaintext) 8 16 = mk := ⟨_, rfl⟩
  have hmklen : messageKey.length = 16 := hmk ▸ length_messageKey hsha _ _ _
  have hmkne : messageKey ≠ [] := fun h => by rw [h] at hmklen; cases hmklen
  obtain ⟨aesKey, iv, hkeys, haes, hiv⟩ :=
    length_messageEncryptionKeyV2 hsha hkey hmkne true
  obtain ⟨hback, hlen⟩ := MTAesDecrypt_MTAesEncryptInplace hc haes hiv hblocks
  have hidlen := length_int64Bytes key.authKeyId
  have hpacket : (int64Bytes key.authKeyId ++ messageKey
      ++ MTAesEncryptInplace encrypt plaintext aesKey iv).length = 24 + plaintext.length := by
    rw [List.length_append, List.length_append, hidlen, hmklen, hlen]
  refine ⟨int64Bytes key.authKeyId ++ messageKey ++ MTAesEncryptInplace encrypt plaintext aesKey iv,
    ?_, hpacket, fun hshort => ⟨?_, ?_, ?_⟩⟩
  · unfold encryptedData
    simp only [if_true]
    rw [hmk, hkeys]
    rfl
  · rw [List.append_assoc, List.take_left' hidlen]
  · have hcut : cut (int64Bytes key.authKeyId ++ messageKey
        ++ MTAesEncryptInplace encrypt plaintext aesKey iv) 8 16 = messageKey := by
      rw [cut, List.append_assoc, List.drop_left' hidlen, List.take_left' hmklen]
    have hsize : (int64Bytes key.authKeyId ++ messageKey
        ++ MTAesEncryptInplace encrypt plaintext aesKey iv).length - 24 = plaintext.length := by
      omega
    have hwhole : wholeBlocks (toInt32 plaintext.length) = (plaintext.length : ℕ) := by
      rw [toInt32_of_lt hshort, wholeBlocks]
      omega
    unfold decryptedPacket
    rw [hcut, hkeys, Option.bind_some, hsize, hwhole, subdataWithRange_inside, if_neg (by omega)]
    simp only [Except.toOption, Option.map_some]
    rw [cut, List.drop_left' (by rw [List.length_append, hidlen, hmklen]),
      List.take_of_length_le hlen.le, hback]
  · rw [hmk, cut, List.append_assoc, List.drop_left' hidlen, List.take_left' hmklen]

/-- A server's message comes back unless its padding is one of the last 32 lengths allowed, or the
packet is too long for an `int32_t`. -/
theorem framed_returned_iff (hc : BlockCipher encrypt decrypt)
    (hsha : ∀ b, (MTSha256 b).length = 32) {key : MTDatacenterAuthKey} (hkey : key.authKey ≠ [])
    {plaintext body padding : Bytes} (h : Framed plaintext body padding) :
    (∃ packet, encryptedData MTSha256 encrypt key true plaintext = some packet
        ∧ decryptIncomingTransportData MTSha256 decrypt (some key) packet = .ok (some plaintext))
      ↔ padding.length ≤ 1024 - 32 ∧ plaintext.length < 2 ^ 31 := by
  obtain ⟨packet, hpacket, hlen, hauthentic⟩ := encryptedData_spec hc hsha hkey h.blocks
  obtain ⟨hplain, hbody⟩ := h.length
  have hmin := h.window.1
  constructor
  · rintro ⟨packet', hpacket', hreturned⟩
    obtain rfl := Option.some.inj (hpacket.symm.trans hpacket')
    obtain ⟨hauthentic', -, -, -, -, hmax⟩ := (decryptIncoming_iff key packet plaintext).mp hreturned
    have hshort := (decryptedPacket_length hauthentic'.decrypts).2
    rw [hbody] at hmax
    omega
  · rintro ⟨hmax, hshort⟩
    refine ⟨packet, hpacket, (decryptIncoming_iff key packet plaintext).mpr
      ⟨hauthentic hshort, by omega, by omega, ?_, ?_, ?_⟩⟩
    all_goals rw [hbody]; omega

/-- Acceptance is as it should be on every packet whose padding is not miscounted, and a server's
message comes back unless it is miscounted or too long. -/
theorem acceptance_iff (hc : BlockCipher encrypt decrypt) (hsha : ∀ b, (MTSha256 b).length = 32) :
    (∀ key packet,
      (∀ decrypted, decryptIncomingTransportData MTSha256 decrypt (some key) packet
          = .ok (some decrypted) ↔ Acceptable MTSha256 decrypt key packet decrypted)
        ↔ ¬Miscounted MTSha256 decrypt key packet)
      ∧ ∀ key : MTDatacenterAuthKey, key.authKey ≠ [] → ∀ plaintext body padding,
        Framed plaintext body padding →
        ((∃ packet, encryptedData MTSha256 encrypt key true plaintext = some packet
            ∧ decryptIncomingTransportData MTSha256 decrypt (some key) packet = .ok (some plaintext))
          ↔ padding.length ≤ 1024 - 32 ∧ plaintext.length < 2 ^ 31) :=
  ⟨accepted_iff, fun _ hkey _ _ _ h => framed_returned_iff hc hsha hkey h⟩

end

/-! ## Two packets under the key of 256 zero bytes

The digests and the blocks are those of SHA-256 and of AES with 256 bits on these inputs. -/

namespace PacketSample

def key : MTDatacenterAuthKey := ⟨List.replicate 256 0, -7954749645261174607⟩

/-- A body of 16 bytes with nothing behind it. -/
def unpadded : Bytes := decryptedOs 1 7 4294967297 1 ((List.range 16).map UInt8.ofNat)

/-- A body of 4 bytes and 12 bytes of padding. -/
def padded : Bytes := decryptedOs 1 7 4294967297 1 [0xc5, 0x73, 0x77, 0x34] ++ List.replicate 12 0

def messageKey1 : Bytes :=
  [250, 49, 53, 204, 70, 214, 247, 248, 28, 226, 54, 8, 123, 58, 158, 95]

def messageKey2 : Bytes :=
  [66, 72, 182, 99, 50, 63, 115, 72, 69, 1, 159, 103, 156, 191, 57, 37]

def digests : List (Bytes × Bytes) :=
  [(List.replicate 32 0 ++ unpadded,
    [219, 4, 236, 194, 39, 76, 213, 22, 250, 49, 53, 204, 70, 214, 247, 248, 28, 226, 54, 8,
     123, 58, 158, 95, 59, 22, 94, 56, 23, 62, 4, 5]),
   (messageKey1 ++ List.replicate 36 0,
    [20, 171, 145, 122, 131, 87, 226, 70, 99, 41, 130, 130, 209, 248, 140, 208, 22, 16, 86, 187,
     94, 243, 94, 234, 141, 4, 252, 56, 194, 209, 92, 0]),
   (List.replicate 36 0 ++ messageKey1,
    [192, 228, 227, 21, 198, 52, 57, 140, 210, 89, 133, 118, 171, 72, 212, 180, 108, 125, 208,
     85, 190, 84, 132, 89, 85, 252, 81, 44, 88, 116, 45, 40]),
   (List.replicate 32 0 ++ padded,
    [68, 232, 98, 171, 230, 186, 42, 200, 66, 72, 182, 99, 50, 63, 115, 72, 69, 1, 159, 103,
     156, 191, 57, 37, 57, 209, 199, 115, 247, 24, 124, 77]),
   (messageKey2 ++ List.replicate 36 0,
    [247, 102, 120, 96, 36, 60, 215, 151, 142, 147, 102, 150, 132, 144, 220, 137, 248, 227, 253,
     166, 8, 208, 111, 0, 172, 189, 25, 108, 161, 193, 147, 22]),
   (List.replicate 36 0 ++ messageKey2,
    [178, 154, 82, 38, 48, 61, 171, 185, 238, 85, 185, 174, 51, 188, 32, 238, 196, 116, 76, 167,
     28, 154, 220, 240, 231, 194, 6, 72, 52, 148, 238, 108])]

def sha256 (b : Bytes) : Bytes := (digests.lookup b).getD (List.replicate 32 0)

def aesKey1 : Bytes :=
  [20, 171, 145, 122, 131, 87, 226, 70, 210, 89, 133, 118, 171, 72, 212, 180, 108, 125, 208, 85,
   190, 84, 132, 89, 141, 4, 252, 56, 194, 209, 92, 0]

def aesKey2 : Bytes :=
  [247, 102, 120, 96, 36, 60, 215, 151, 238, 85, 185, 174, 51, 188, 32, 238, 196, 116, 76, 167,
   28, 154, 220, 240, 172, 189, 25, 108, 161, 193, 147, 22]

def blocks1 : List (Bytes × Bytes) :=
  [([193, 228, 227, 21, 198, 52, 57, 140, 100, 41, 130, 130, 209, 248, 140, 208],
    [49, 228, 84, 114, 63, 104, 146, 83, 3, 210, 89, 138, 59, 99, 109, 147]),
   ([38, 244, 2, 201, 96, 155, 204, 185, 87, 46, 8, 166, 115, 23, 64, 187],
    [244, 44, 77, 50, 73, 252, 117, 84, 207, 173, 40, 252, 77, 160, 96, 15]),
   ([245, 45, 79, 49, 77, 249, 115, 83, 192, 164, 34, 247, 65, 173, 110, 0],
    [18, 137, 122, 18, 196, 221, 228, 85, 239, 19, 136, 122, 167, 189, 12, 209])]

def blocks2 : List (Bytes × Bytes) :=
  [([179, 154, 82, 38, 48, 61, 171, 185, 137, 147, 102, 150, 132, 144, 220, 137],
    [192, 7, 111, 55, 245, 46, 185, 79, 0, 107, 82, 225, 238, 78, 140, 23]),
   ([57, 228, 146, 145, 252, 254, 214, 79, 230, 169, 84, 169, 222, 218, 98, 123],
    [217, 107, 244, 168, 90, 119, 249, 239, 201, 100, 112, 152, 230, 184, 150, 197]),
   ([29, 24, 131, 156, 90, 119, 249, 239, 206, 100, 112, 152, 230, 184, 150, 197],
    [185, 218, 3, 12, 203, 0, 146, 216, 137, 160, 47, 81, 25, 149, 201, 52])]

/-- The blocks are exchanged in pairs; others stand for themselves. -/
def exchange (pairs : List (Bytes × Bytes)) : Equiv.Perm Bytes :=
  pairs.foldr (fun p e => e.trans (Equiv.swap p.1 p.2)) (Equiv.refl Bytes)

def permutation (aesKey : Bytes) : Equiv.Perm Bytes :=
  if aesKey = aesKey1 then exchange blocks1
  else if aesKey = aesKey2 then exchange blocks2
  else Equiv.refl Bytes

def encrypt (aesKey block : Bytes) : Bytes := permutation aesKey block

def decrypt (aesKey block : Bytes) : Bytes := (permutation aesKey).symm block

theorem length_exchange : ∀ {pairs : List (Bytes × Bytes)},
    (∀ p ∈ pairs, p.1.length = 16 ∧ p.2.length = 16) → ∀ {block : Bytes}, block.length = 16 →
      (exchange pairs block).length = 16
  | [], _, _, hblock => hblock
  | p :: pairs, h, block, hblock => by
    obtain ⟨hp, hall⟩ := List.forall_mem_cons.mp h
    change (Equiv.swap p.1 p.2 (exchange pairs block)).length = 16
    exact MessageCipher.Sample.length_swap hp.1 hp.2 (length_exchange hall hblock)

theorem blockCipher : BlockCipher encrypt decrypt where
  length_encrypt := by
    intro aesKey block _ h
    unfold encrypt permutation
    split_ifs
    · exact length_exchange (by decide) h
    · exact length_exchange (by decide) h
    · exact h
  decrypt_encrypt := fun aesKey block _ _ => (permutation aesKey).symm_apply_apply block

theorem length_sha256 (b : Bytes) : (sha256 b).length = 32 := by
  have hall : ∀ p ∈ digests, p.2.length = 32 := by decide
  unfold sha256
  rcases h : digests.lookup b with _ | d
  · exact List.length_replicate
  · obtain ⟨l₁, l₂, hl, -⟩ := List.lookup_eq_some_iff.1 h
    exact hall (b, d) (by rw [hl]; simp)

theorem framed : Framed padded [0xc5, 0x73, 0x77, 0x34] (List.replicate 12 0) where
  contents := ⟨1, 7, 4294967297, 1, rfl⟩
  fits := by decide
  window := by decide
  blocks := by decide

end PacketSample

theorem padded_returned :
    ∃ packet, encryptedData PacketSample.sha256 PacketSample.encrypt PacketSample.key true
        PacketSample.padded = some packet
      ∧ decryptIncomingTransportData PacketSample.sha256 PacketSample.decrypt
        (some PacketSample.key) packet = .ok (some PacketSample.padded) :=
  ((acceptance_iff PacketSample.blockCipher PacketSample.length_sha256).2 PacketSample.key
    (List.cons_ne_nil _ _) PacketSample.padded _ _ PacketSample.framed).mpr
    ⟨by decide, by decide⟩

/-- A packet without padding is accepted. -/
theorem unpadded_accepted :
    ∃ packet, encryptedData PacketSample.sha256 PacketSample.encrypt PacketSample.key true
        PacketSample.unpadded = some packet
      ∧ decryptIncomingTransportData PacketSample.sha256 PacketSample.decrypt
        (some PacketSample.key) packet = .ok (some PacketSample.unpadded)
      ∧ ¬Acceptable PacketSample.sha256 PacketSample.decrypt PacketSample.key packet
        PacketSample.unpadded := by
  have hlen : PacketSample.unpadded.length = 48 := by decide
  have hbody : bodyLength PacketSample.unpadded = 16 := by
    unfold bodyLength
    change readInt32 (bytesLE 4 16 ++ _) = _
    rw [readInt32_bytesLE, toInt32_of_lt (by norm_num)]
    rfl
  have hkey : PacketSample.key.authKey ≠ [] := List.cons_ne_nil _ _
  have hblocks : PacketSample.unpadded.length % 16 = 0 := by rw [hlen]
  obtain ⟨packet, hpacket, hsize, hauthentic⟩ :=
    encryptedData_spec PacketSample.blockCipher PacketSample.length_sha256 hkey hblocks
  refine ⟨packet, hpacket, ?_, fun h => ?_⟩
  · rw [decryptIncoming_iff, hbody, hlen]
    exact ⟨hauthentic (by rw [hlen]; norm_num), by omega, by norm_num, by norm_num, by norm_num,
      by norm_num⟩
  · have := h.2.2.1
    rw [hbody, hlen] at this
    norm_num at this

end Onegram.Mtp
