import Onegram.Proofs.LayerHeader

/-!
# Which secret messages are accepted

No range that is taken goes past its data, so the exceptions never come and what is left is the
decryption that the round trip is about. A message is accepted in one of the two schemes, and what
is given back is the block behind its length: the declared bytes, and behind them the padding.
-/

namespace Onegram.Acceptance

open Bytes MessageCipher
open Mtp (NSException subdataWithRange)

section

variable {sha1 sha256 : Bytes → Bytes} {decrypt : Bytes → Bytes → Bytes}

/-! ## One scheme -/

theorem length_aesDecrypt
    (hdecrypt : ∀ key block : Bytes, block.length = 16 → (decrypt key block).length = 16)
    {data key iv : Bytes} (hiv : iv.length = 32) :
    (aesDecrypt decrypt data key iv).length = data.length := by
  rw [aesDecrypt, List.length_append, List.length_replicate,
    length_MTAesDecrypt (hdecrypt key) hiv]
  omega

theorem length_generateMessageKeyData (hd : Digests sha1 sha256) {messageKey authKey : Bytes}
    {incoming v2 : Bool} {keyData : Bytes × Bytes}
    (h : generateMessageKeyData sha1 sha256 messageKey incoming authKey v2 = some keyData) :
    keyData.2.length = 32 := by
  unfold generateMessageKeyData at h
  split_ifs at h with hempty hv2 hincoming
  all_goals
    obtain rfl := Option.some.inj h
    simp [cut, hd.length_sha1, hd.length_sha256]

theorem localMessageKeyV2_eq (hd : Digests sha1 sha256) (authKey : Bytes)
    (currentClientIsCreator : Bool) (data : Bytes) :
    localMessageKeyV2 sha256 authKey currentClientIsCreator data
      = .ok (messageKeyV2 sha256 authKey (if currentClientIsCreator then 8 else 0) data) := by
  unfold localMessageKeyV2
  rw [subdataWithRange_of_le (by simp [hd.length_sha256])]
  rfl

/-- The checks of a block, where nothing raises. -/
theorem checkMessageData_eq (hd : Digests sha1 sha256) {data : Bytes} (hlength : 4 ≤ data.length)
    (authKey messageKey : Bytes) (currentClientIsCreator v2 : Bool) :
    checkMessageData sha1 sha256 authKey messageKey currentClientIsCreator v2 data
      = .ok (if readInt32 data ≤ 0 ∨ readInt32 data > toInt32 data.length - 4 then none
        else if (v2 ∧ toInt32 data.length - (readInt32 data + 4) < 12)
            ∨ toInt32 data.length - (readInt32 data + 4) > 1024 then none
        else if (if v2 then messageKeyV2 sha256 authKey (if currentClientIsCreator then 8 else 0) data
            else messageKeyV1 sha1 (data.take (readInt32 data + 4).toNat)) = messageKey
          then some data else none) := by
  have hread : int32At data 0 = .ok (readInt32 data) := by
    rw [int32At_of_le (by omega), List.drop_zero]
  obtain ⟨messageLength, hmessageLength⟩ : ∃ n, readInt32 data = n := ⟨_, rfl⟩
  obtain ⟨size, hsize⟩ : ∃ n, toInt32 data.length = n := ⟨_, rfl⟩
  unfold checkMessageData
  rw [hread, localMessageKeyV2_eq hd, hmessageLength, hsize]
  show (if _ then _ else _) = _
  by_cases hdeclared : messageLength ≤ 0 ∨ messageLength > size - 4
  · rw [if_pos hdeclared, if_pos hdeclared]
    cases v2 <;> rfl
  · rw [if_neg hdeclared, if_neg hdeclared]
    by_cases hpadding : (v2 ∧ size - (messageLength + 4) < 12) ∨ size - (messageLength + 4) > 1024
    · rw [if_pos hpadding, if_pos hpadding]
      cases v2 <;> rfl
    · rw [if_neg hpadding, if_neg hpadding]
      cases v2 <;> rfl

/-- `decryptMessageData` never raises. -/
theorem decryptMessageData_eq (hd : Digests sha1 sha256)
    (hdecrypt : ∀ key block : Bytes, block.length = 16 → (decrypt key block).length = 16)
    {bytes authKey messageKey : Bytes} {keyData : Option (Bytes × Bytes)}
    (hkeyData : ∀ pair, keyData = some pair → pair.2.length = 32) (hlength : 40 ≤ bytes.length)
    (currentClientIsCreator v2 : Bool) :
    decryptMessageData sha1 sha256 decrypt bytes authKey messageKey keyData
        currentClientIsCreator v2
      = .ok (MessageCipher.decryptMessageData sha1 sha256 decrypt bytes authKey messageKey keyData
          currentClientIsCreator v2) := by
  have hrest : subdataWithRange bytes (8 + 16) (bytes.length - (8 + 16))
      = .ok (bytes.drop (8 + 16)) := by
    have hcast : (bytes.length : Int) - (8 + 16) = ((bytes.length - (8 + 16) : ℕ) : Int) := by omega
    rw [hcast, subdataWithRange_of_le (by omega), cut, List.take_of_length_le (by simp)]
  unfold decryptMessageData
  rw [hrest]
  rcases keyData with _ | keyData
  · rfl
  · obtain ⟨data, hdata⟩ : ∃ data, aesDecrypt decrypt (bytes.drop (8 + 16)) keyData.1 keyData.2
      = data := ⟨_, rfl⟩
    have hlen : data.length = bytes.length - 24 := by
      rw [← hdata, length_aesDecrypt hdecrypt (hkeyData _ rfl), List.length_drop]
    show checkMessageData sha1 sha256 authKey messageKey currentClientIsCreator v2
      (aesDecrypt decrypt (bytes.drop (8 + 16)) keyData.1 keyData.2) = _
    rw [hdata, checkMessageData_eq hd (by omega)]
    rw [aesDecrypt] at hdata
    unfold MessageCipher.decryptMessageData
    rw [Option.bind_eq_bind, Option.bind_some]
    simp only []
    rw [hdata]

/-! ## What is accepted -/

variable (sha1 sha256) in
/-- The key that a block has: in the second scheme of 32 bytes of the key and the whole block, in
the first of the declared part. -/
def blockKey (isCreator : Bool) (key : Bytes) (v2 : Bool) (data : Bytes) : Bytes :=
  if v2 then ((sha256 (cut key (if isCreator then 96 else 88) 32 ++ data)).drop 8).take 16
  else (sha1 (data.take (readInt32 data + 4).toNat)).drop 4

variable (sha1 sha256 decrypt) in
/-- `data` is what the message decrypts to in a scheme, and its length, its padding and the message
key are right. -/
structure Opens (isCreator : Bool) (key bytes : Bytes) (v2 : Bool) (data : Bytes) : Prop where
  decrypted : ∃ aesKey iv,
    generateMessageKeyData sha1 sha256 (cut bytes 8 16) isCreator key v2 = some (aesKey, iv)
      ∧ data = aesDecrypt decrypt (bytes.drop (8 + 16)) aesKey iv
  positive : 0 < readInt32 data
  inside : readInt32 data ≤ data.length - 4
  atMost : data.length - (readInt32 data + 4) ≤ 1024
  atLeast : v2 = true → 12 ≤ data.length - (readInt32 data + 4)
  authentic : blockKey sha1 sha256 isCreator key v2 data = cut bytes 8 16

theorem messageKey_eq (hd : Digests sha1 sha256) (key data : Bytes) (isCreator v2 : Bool) :
    (if v2 then messageKeyV2 sha256 key (if isCreator then 8 else 0) data
        else messageKeyV1 sha1 (data.take (readInt32 data + 4).toNat))
      = blockKey sha1 sha256 isCreator key v2 data := by
  have hlength := hd.length_sha1 (data.take (readInt32 data + 4).toNat)
  rw [messageKeyV1, cut, hlength, List.take_of_length_le (by rw [List.length_drop, hlength]),
    blockKey]
  cases isCreator <;> rfl

theorem decryptMessageData_iff (hd : Digests sha1 sha256)
    (hdecrypt : ∀ key block : Bytes, block.length = 16 → (decrypt key block).length = 16)
    {bytes key data : Bytes} {isCreator v2 : Bool} (hlt : bytes.length < 2 ^ 24) :
    MessageCipher.decryptMessageData sha1 sha256 decrypt bytes key (cut bytes 8 16)
        (generateMessageKeyData sha1 sha256 (cut bytes 8 16) isCreator key v2) isCreator v2
      = some data ↔ Opens sha1 sha256 decrypt isCreator key bytes v2 data := by
  rcases hkeyData : generateMessageKeyData sha1 sha256 (cut bytes 8 16) isCreator key v2
    with _ | ⟨aesKey, iv⟩
  · refine ⟨fun h => (by cases h), fun h => ?_⟩
    obtain ⟨aesKey, iv, hsome, -⟩ := h.decrypted
    rw [hkeyData] at hsome
    cases hsome
  · obtain ⟨block, hblock⟩ : ∃ block, aesDecrypt decrypt (bytes.drop (8 + 16)) aesKey iv = block :=
      ⟨_, rfl⟩
    have hlength : block.length = bytes.length - 24 := by
      rw [← hblock, length_aesDecrypt hdecrypt (length_generateMessageKeyData hd hkeyData),
        List.length_drop]
    have hsize : toInt32 block.length = block.length := toInt32_of_lt (by omega)
    have hopens : Opens sha1 sha256 decrypt isCreator key bytes v2 data → data = block := by
      intro h
      obtain ⟨aesKey', iv', hsome, hdata⟩ := h.decrypted
      rw [hkeyData] at hsome
      obtain ⟨rfl, rfl⟩ := Prod.mk.inj (Option.some.inj hsome)
      rw [hdata, hblock]
    unfold MessageCipher.decryptMessageData
    rw [Option.bind_eq_bind, Option.bind_some]
    rw [aesDecrypt] at hblock
    simp only []
    rw [hblock, messageKey_eq hd, hsize]
    constructor
    · intro h
      split_ifs at h with hdeclared hpadding hkey
      obtain rfl := Option.some.inj h
      rw [not_or] at hdeclared hpadding
      refine ⟨⟨aesKey, iv, hkeyData, hblock.symm⟩, ?_, ?_, ?_, fun hv2 => ?_, hkey⟩
      · exact not_le.mp hdeclared.1
      · exact not_lt.mp hdeclared.2
      · exact not_lt.mp hpadding.2
      · exact not_lt.mp fun hshort => hpadding.1 ⟨hv2, hshort⟩
    · intro h
      obtain rfl := hopens h
      have hpositive := h.positive
      have hinside := h.inside
      have hatMost := h.atMost
      rw [if_neg (by omega), if_neg ?_, if_pos h.authentic]
      rintro (⟨hv2, hshort⟩ | hlong)
      · have := h.atLeast hv2
        omega
      · omega

variable (sha1 sha256 decrypt) in
/-- What is known where a message is accepted. -/
structure Accepts (chat : Chat) (bytes : Bytes) (record : EncryptionKeyData) (v2 : Bool)
    (data : Bytes) (accepted : Accepted) : Prop where
  stored : record ∈ chat.encryptionKeys
  fingerprint : record.keyId = Int.bmod (littleEndian (bytes.take 8)) (2 ^ 64)
  opens : Opens sha1 sha256 decrypt chat.isCreator record.key bytes v2 data
  /-- The first scheme comes second. -/
  second : v2 = false → ∀ data', ¬Opens sha1 sha256 decrypt chat.isCreator record.key bytes true data'
  /-- The declared bytes, and the padding behind them. -/
  content : accepted.content
    = cut data 4 (readInt32 data).toNat ++ data.drop (4 + (readInt32 data).toNat)
  layer : 73 ≤ accepted.decryptedLayer → v2 = true
  header : ∀ randomBytes (layer seqIn seqOut : Int32) message, randomBytes.length ≤ 253 →
    accepted.content = layerMessage .short randomBytes layer seqIn seqOut message →
    73 ≤ layer.toInt → v2 = true

theorem encryptionKey_mem {keys : List EncryptionKeyData} {keyId localKeyId : Int} {key : Bytes}
    (h : encryptionKeyForConversationId keys keyId = (some key, localKeyId)) :
    ∃ record ∈ keys, record.key = key ∧ record.keyId = localKeyId := by
  obtain ⟨record, hrecord⟩ : ∃ r, (if keys ≠ [] ∧ keyId = 0 then keys.getLast?
      else (keys.filter (·.keyId = keyId)).getLast?) = r := ⟨_, rfl⟩
  unfold encryptionKeyForConversationId at h
  simp only [hrecord] at h
  rcases record with _ | record
  · cases h
  · obtain ⟨hkey, hid⟩ := Prod.mk.inj h
    refine ⟨record, ?_, Option.some.inj hkey, hid⟩
    split_ifs at hrecord with hlast
    · exact List.mem_of_getLast? hrecord
    · exact List.mem_of_mem_filter (List.mem_of_getLast? hrecord)

theorem le_asLayer {layer : Int32} {n : ℕ} (h : n ≤ layer.toInt) : n ≤ asLayer layer.toInt := by
  have hlt := layer.toInt_lt
  unfold asLayer
  omega

theorem checkContent_returns (chat : Chat) {content : Bytes} (hlength : 4 ≤ content.length)
    (v2 : Bool) :
    ∃ header result, readHeader content = .ok header ∧ checkContent chat content v2 = .ok result
      ∧ ∀ accepted, result = some accepted →
        accepted = ⟨content, header.layer, header.outSeqIn, header.outSeqOut⟩
          ∧ (73 ≤ header.layer → v2 = true) := by
  obtain ⟨header, hheader⟩ := readHeader_returns content
  have hcheck : checkContent chat content v2
      = if content.length ≥ 4 ∧ ¬parityPasses chat.isCreator header then .ok none
        else if content.length ≥ 4 ∧ header.layer ≥ 73 ∧ ¬v2 then .ok none
        else if chat.participantUid ≠ 0 then
          .ok (some ⟨content, header.layer, header.outSeqIn, header.outSeqOut⟩)
        else .ok none := by
    unfold checkContent
    rw [hheader]
    rfl
  rw [hcheck]
  split_ifs with hparity hlayer huid
  · exact ⟨header, none, hheader, rfl, fun _ h => by cases h⟩
  · exact ⟨header, none, hheader, rfl, fun _ h => by cases h⟩
  · refine ⟨header, _, hheader, rfl, fun accepted h => ?_⟩
    obtain rfl := Option.some.inj h
    refine ⟨rfl, fun h73 => ?_⟩
    by_contra hv2
    exact hlayer ⟨hlength, h73, hv2⟩
  · exact ⟨header, none, hheader, rfl, fun _ h => by cases h⟩

theorem ok_bind {α β : Type} (value : α) (f : α → Except NSException β) :
    (Except.ok value >>= f) = f value := rfl

/-- What is accepted of a block that a scheme opens. -/
theorem accepts_of_opens {chat : Chat} {bytes : Bytes} {record : EncryptionKeyData} {v2 : Bool}
    {data : Bytes} (hstored : record ∈ chat.encryptionKeys)
    (hfingerprint : record.keyId = Int.bmod (littleEndian (bytes.take 8)) (2 ^ 64))
    (hopens : Opens sha1 sha256 decrypt chat.isCreator record.key bytes v2 data)
    (hsecond : v2 = false →
      ∀ data', ¬Opens sha1 sha256 decrypt chat.isCreator record.key bytes true data')
    (hlength : 16 ≤ data.length) :
    ∃ result, (subdataWithRange data 4 (data.length - 4) >>= fun messageContentData =>
        checkContent chat messageContentData v2) = .ok result
      ∧ ∀ accepted, result = some accepted →
        Accepts sha1 sha256 decrypt chat bytes record v2 data accepted := by
  have hrest : subdataWithRange data 4 (data.length - 4) = .ok (data.drop 4) := by
    have hcast : (data.length : Int) - 4 = ((data.length - 4 : ℕ) : Int) := by omega
    rw [hcast, subdataWithRange_of_le (by omega), cut, List.take_of_length_le (by simp)]
  have hdrop : 4 ≤ (data.drop 4).length := by
    rw [List.length_drop]
    omega
  obtain ⟨header, result, hheader, hresult, haccepted⟩ := checkContent_returns chat hdrop v2
  refine ⟨result, by rw [hrest, ok_bind, hresult], fun accepted h => ?_⟩
  obtain ⟨rfl, hlayer⟩ := haccepted accepted h
  refine ⟨hstored, hfingerprint, hopens, hsecond, ?_, hlayer, ?_⟩
  · rw [cut, ← List.drop_drop, List.take_append_drop]
  · intro randomBytes layer seqIn seqOut message hshort hcontent h73
    rw [show data.drop 4 = _ from hcontent, readHeader_short hshort] at hheader
    obtain rfl := Except.ok.inj hheader
    exact hlayer (le_asLayer h73)

theorem Opens.length_eq (hd : Digests sha1 sha256)
    (hdecrypt : ∀ key block : Bytes, block.length = 16 → (decrypt key block).length = 16)
    {isCreator v2 : Bool} {key bytes data : Bytes}
    (h : Opens sha1 sha256 decrypt isCreator key bytes v2 data) :
    data.length = bytes.length - 24 := by
  obtain ⟨aesKey, iv, hkeyData, rfl⟩ := h.decrypted
  rw [length_aesDecrypt hdecrypt (length_generateMessageKeyData hd hkeyData), List.length_drop]

/-- Nothing raises, and what is accepted was opened with a key of the chat, in the second scheme or,
where that fails, in the first. -/
theorem decryptEncryptedMessageData_spec (hd : Digests sha1 sha256)
    (hdecrypt : ∀ key block : Bytes, block.length = 16 → (decrypt key block).length = 16)
    (chat : Chat) (encryptedMessage : TLEncryptedMessage) :
    ∃ result, decryptEncryptedMessageData sha1 sha256 decrypt chat encryptedMessage = .ok result
      ∧ ∀ accepted, result = some accepted → ∃ record v2 data,
        Accepts sha1 sha256 decrypt chat encryptedMessage.bytes record v2 data accepted := by
  obtain ⟨bytes, hlt⟩ := encryptedMessage
  have hnone : ∀ accepted : Accepted, (none : Option Accepted) = some accepted →
      ∃ record v2 data, Accepts sha1 sha256 decrypt chat bytes record v2 data accepted :=
    fun _ h => by cases h
  unfold decryptEncryptedMessageData
  simp only []
  split_ifs with hshort hconversation
  · exact ⟨none, rfl, hnone⟩
  · exact ⟨none, rfl, hnone⟩
  have hkeyId : subdataWithRange bytes 0 (8 : ℕ) = .ok (bytes.take 8) :=
    subdataWithRange_of_le (by omega)
  have hmessageKey : subdataWithRange bytes 8 (16 : ℕ) = .ok (cut bytes 8 16) :=
    subdataWithRange_of_le (by omega)
  rw [hkeyId, ok_bind, hmessageKey, ok_bind]
  rcases hkey : encryptionKeyForConversationId chat.encryptionKeys
    (Int.bmod (littleEndian (bytes.take 8)) (2 ^ 64)) with ⟨_ | key, localKeyId⟩
  · exact ⟨none, rfl, hnone⟩
  simp only []
  split_ifs with hlocal
  · exact ⟨none, rfl, hnone⟩
  obtain ⟨record, hstored, rfl, hid⟩ := encryptionKey_mem hkey
  rw [ne_eq, not_not] at hlocal
  have hfingerprint := hid.trans hlocal.symm
  rw [decryptMessageData_eq hd hdecrypt
    (fun pair hpair => length_generateMessageKeyData hd hpair) (by omega), ok_bind]
  rcases hv2 : MessageCipher.decryptMessageData sha1 sha256 decrypt bytes record.key
    (cut bytes 8 16) (generateMessageKeyData sha1 sha256 (cut bytes 8 16) chat.isCreator record.key
      true) chat.isCreator true with _ | data
  · simp only []
    rw [decryptMessageData_eq hd hdecrypt
      (fun pair hpair => length_generateMessageKeyData hd hpair) (by omega), ok_bind]
    rcases hv1 : MessageCipher.decryptMessageData sha1 sha256 decrypt bytes record.key
      (cut bytes 8 16) (generateMessageKeyData sha1 sha256 (cut bytes 8 16) chat.isCreator
        record.key false) chat.isCreator false with _ | data
    · exact ⟨none, rfl, hnone⟩
    · have hopens := (decryptMessageData_iff hd hdecrypt hlt).mp hv1
      have hlength := hopens.length_eq hd hdecrypt
      obtain ⟨result, hresult, haccepted⟩ := accepts_of_opens hstored hfingerprint hopens
        (fun _ data' h => by
          rw [(decryptMessageData_iff hd hdecrypt hlt).mpr h] at hv2
          cases hv2) (by omega)
      exact ⟨result, hresult, fun accepted h => ⟨record, false, data, haccepted accepted h⟩⟩
  · have hopens := (decryptMessageData_iff hd hdecrypt hlt).mp hv2
    have hlength := hopens.length_eq hd hdecrypt
    obtain ⟨result, hresult, haccepted⟩ := accepts_of_opens hstored hfingerprint hopens
      (fun h => by cases h) (by omega)
    exact ⟨result, hresult, fun accepted h => ⟨record, true, data, haccepted accepted h⟩⟩

end

/-! ## A message of four bytes -/

namespace Sample

def authKey : Bytes := List.replicate 256 0

def block : Bytes := [4, 0, 0, 0, 1, 2, 3, 4] ++ List.replicate 24 0

def messageKey : Bytes :=
  [49, 98, 132, 91, 149, 227, 81, 234, 213, 62, 210, 57, 131, 58, 75, 152]

def digests : List (Bytes × Bytes) :=
  [(List.replicate 32 0 ++ block,
    [68, 84, 233, 121, 29, 224, 141, 231, 49, 98, 132, 91, 149, 227, 81, 234, 213, 62, 210, 57,
      131, 58, 75, 152, 217, 235, 52, 33, 242, 167, 182, 60]),
    (messageKey ++ List.replicate 36 0,
    [70, 77, 27, 113, 173, 117, 3, 170, 43, 249, 16, 35, 209, 17, 121, 112, 1, 107, 221, 184,
      196, 250, 116, 180, 58, 200, 59, 194, 16, 183, 94, 146]),
    (List.replicate 36 0 ++ messageKey,
    [251, 114, 199, 246, 62, 169, 158, 148, 67, 8, 62, 40, 129, 157, 11, 171, 66, 163, 27, 158,
      38, 76, 217, 99, 22, 111, 12, 221, 28, 170, 218, 9])]

def sha1 (_ : Bytes) : Bytes := List.replicate 20 0

def sha256 (b : Bytes) : Bytes := (digests.lookup b).getD (List.replicate 32 0)

def blocks : List (Bytes × Bytes) :=
  [([124, 48, 159, 132, 239, 151, 72, 247, 238, 25, 181, 3, 179, 77, 39, 84],
    [255, 114, 199, 246, 63, 171, 157, 144, 43, 249, 16, 35, 209, 17, 121, 112]),
    ([147, 153, 101, 20, 84, 243, 92, 128, 85, 13, 116, 192, 243, 144, 178, 251],
    [125, 91, 66, 60, 43, 109, 60, 67, 248, 118, 185, 222, 175, 231, 253, 93])]

/-- Under any key but the one that is used a block stands for itself. -/
def decrypt (key block : Bytes) : Bytes :=
  if key = [70, 77, 27, 113, 173, 117, 3, 170, 67, 8, 62, 40, 129, 157, 11, 171, 66, 163, 27, 158, 38,
        76, 217, 99, 58, 200, 59, 194, 16, 183, 94, 146] then
    (blocks.lookup block).getD block
  else block

def bytes : Bytes :=
  [5, 0, 0, 0, 0, 0, 0, 0] ++ messageKey ++
    [125, 91, 66, 60, 43, 109, 60, 67, 248, 118, 185, 222, 175, 231, 253, 93, 151, 153, 101, 20,
      85, 241, 95, 132, 85, 13, 116, 192, 243, 144, 178, 251]

theorem bytes_lt : bytes.length < 2 ^ 24 := by decide +kernel

def encryptedMessage : TLEncryptedMessage := ⟨bytes, bytes_lt⟩

def chat : Chat where
  conversationId := 1
  encryptionKeys := [⟨5, authKey, 0⟩]
  isCreator := false
  participantUid := 2

theorem digests_sha256 : Digests sha1 sha256 where
  length_sha1 := fun _ => List.length_replicate
  length_sha256 := by
    intro b
    have hall : ∀ p ∈ digests, p.2.length = 32 := by decide
    unfold sha256
    rcases h : digests.lookup b with _ | d
    · exact List.length_replicate
    · obtain ⟨l₁, l₂, hl, -⟩ := List.lookup_eq_some_iff.1 h
      exact hall (b, d) (by rw [hl]; simp)

theorem length_decrypt (key block : Bytes) (hblock : block.length = 16) :
    (decrypt key block).length = 16 := by
  have hall : ∀ p ∈ blocks, p.2.length = 16 := by decide
  unfold decrypt
  split_ifs
  · rcases h : blocks.lookup block with _ | d
    · exact hblock
    · obtain ⟨l₁, l₂, hl, -⟩ := List.lookup_eq_some_iff.1 h
      exact hall (block, d) (by rw [hl]; simp)
  · exact hblock

theorem opens_block : Opens sha1 sha256 decrypt false authKey bytes true block where
  decrypted := ⟨_, _, rfl, by decide +kernel⟩
  positive := by decide +kernel
  inside := by decide +kernel
  atMost := by decide +kernel
  atLeast := fun _ => by decide +kernel
  authentic := by decide +kernel

end Sample

/-- The message of the sample is accepted in the second scheme. -/
theorem decryptEncryptedMessageData_sample :
    ∃ accepted, decryptEncryptedMessageData Sample.sha1 Sample.sha256 Sample.decrypt Sample.chat
        Sample.encryptedMessage = .ok (some accepted)
      ∧ ∃ record v2 data, Accepts Sample.sha1 Sample.sha256 Sample.decrypt Sample.chat
        Sample.encryptedMessage.bytes record v2 data accepted := by
  obtain ⟨result, hresult, haccepted⟩ := decryptEncryptedMessageData_spec Sample.digests_sha256
    Sample.length_decrypt Sample.chat Sample.encryptedMessage
  have hcontent : decryptEncryptedMessageData Sample.sha1 Sample.sha256 Sample.decrypt Sample.chat
      Sample.encryptedMessage = .ok (some ⟨Sample.block.drop 4, 1, none, none⟩) := by
    decide +kernel
  have hsome := Except.ok.inj (hresult.symm.trans hcontent)
  exact ⟨_, hcontent, haccepted _ hsome⟩

/-- What is returned there is longer than the four bytes that are declared. -/
theorem padding_is_returned :
    ∃ accepted, decryptEncryptedMessageData Sample.sha1 Sample.sha256 Sample.decrypt Sample.chat
        Sample.encryptedMessage = .ok (some accepted)
      ∧ Opens Sample.sha1 Sample.sha256 Sample.decrypt Sample.chat.isCreator Sample.authKey
        Sample.bytes true Sample.block
      ∧ accepted.content ≠ cut Sample.block 4 (readInt32 Sample.block).toNat :=
  ⟨⟨Sample.block.drop 4, 1, none, none⟩, by decide +kernel, Sample.opens_block, by decide +kernel⟩

end Onegram.Acceptance
