import Onegram.EncryptedPackets
import Onegram.SecretChat

/-!
# Accepting a secret message

`decryptMessageData` and `decryptEncryptedMessageData` of the update builder, with the ranges they
take out of the data; one that goes past it is an exception. The header of a layered message is read
by hand here, and built by `requestForAction` of the outgoing queue. Below it the TL encoding of
`decryptedMessageLayer`.
-/

namespace Onegram.Acceptance

open Bytes MessageCipher
open Mtp (NSException subdataWithRange int32Bytes)

/-- `[data getBytes:&value range:NSMakeRange(location, 4)]`. -/
def int32At (data : Bytes) (location : ℕ) : Except NSException Int := do
  return readInt32 (← subdataWithRange data location (4 : ℕ))

/-! ## The header -/

/-- The signature of `decryptedMessageLayer`. -/
def layerSignature : Int := 0x1be31789

/-- `while ((randomBytesLength + 1) % 4 != 0) randomBytesLength++`, in eight bits. -/
def alignLength : ℕ → UInt8 → UInt8
  | 0, randomBytesLength => randomBytesLength
  | turns + 1, randomBytesLength =>
    if (randomBytesLength.toNat + 1) % 4 ≠ 0 then alignLength turns (randomBytesLength + 1)
    else randomBytesLength

/-- What has been read; the numbers go out only when there was room for the header. -/
structure Header where
  layer : ℕ := 1
  seqIn : Int := 0
  seqOut : Int := 0
  outSeqIn : Option Int := none
  outSeqOut : Option Int := none
  deriving DecidableEq

/-- An `int32_t` as an `NSUInteger`, and no less than 1. -/
def asLayer (value : Int) : ℕ := max 1 (value % 2 ^ 64).toNat

def readHeader (messageContentData : Bytes) : Except NSException Header :=
  if readInt32 (messageContentData.take 4) = layerSignature then
    if messageContentData.length ≥ 4 + 1 then do
      let byte ← subdataWithRange messageContentData 4 (1 : ℕ)
      let randomBytesLength := (alignLength 4 (byte.getD 0 0)).toNat
      if messageContentData.length ≥ 4 + 1 + randomBytesLength + 4 + 4 + 4 then do
        let layer ← int32At messageContentData (4 + 1 + randomBytesLength)
        let seqIn ← int32At messageContentData (4 + 1 + randomBytesLength + 4)
        let seqOut ← int32At messageContentData (4 + 1 + randomBytesLength + 4 + 4)
        return {
          layer := asLayer layer
          seqIn
          seqOut
          outSeqIn := some (seqIn.tdiv 2)
          outSeqOut := some (seqOut.tdiv 2) }
      else return {}
    else return {}
  else return {}

/-- The parity both numbers must have, from a layer with numbers on. -/
def parityPasses (isCreator : Bool) (h : Header) : Bool :=
  if h.layer ≥ 17 then
    if isCreator then h.seqIn % 2 ≠ 0 && h.seqOut % 2 = 0
    else h.seqIn % 2 = 0 && h.seqOut % 2 ≠ 0
  else true

/-! ## Decryption -/

variable (sha1 sha256 : Bytes → Bytes) (decrypt : Bytes → Bytes → Bytes)

/-- `MTAesDecrypt`; zeros stay where there is no whole block. -/
def aesDecrypt (data key iv : Bytes) : Bytes :=
  MTAesDecrypt decrypt data key iv ++ List.replicate (data.length % 16) 0

/-- The second scheme's message key, computed in every branch. -/
def localMessageKeyV2 (authKey : Bytes) (currentClientIsCreator : Bool) (messageData : Bytes) :
    Except NSException Bytes :=
  let xValue := if currentClientIsCreator then 8 else 0
  subdataWithRange (sha256 (cut authKey (88 + xValue) 32 ++ messageData)) 8 (16 : ℕ)

/-- What is checked of a block that has been decrypted. -/
def checkMessageData (authKey messageKey : Bytes) (currentClientIsCreator v2 : Bool)
    (messageData : Bytes) : Except NSException (Option Bytes) := do
  let messageLength ← int32At messageData 0
  let paddingLength := toInt32 messageData.length - (messageLength + 4)
  if messageLength ≤ 0 ∨ messageLength > toInt32 messageData.length - 4 then
    if v2 then
      let _ ← localMessageKeyV2 sha256 authKey currentClientIsCreator messageData
    return none
  else if (v2 ∧ paddingLength < 12) ∨ paddingLength > 1024 then
    if v2 then
      let _ ← localMessageKeyV2 sha256 authKey currentClientIsCreator messageData
    return none
  else
    let localMessageKey ←
      if v2 then localMessageKeyV2 sha256 authKey currentClientIsCreator messageData
      else pure (messageKeyV1 sha1 (messageData.take (messageLength + 4).toNat))
    return if localMessageKey = messageKey then some messageData else none

/-- Without a key nothing is decrypted, and the length of nothing is 0. -/
def decryptMessageData (bytes authKey messageKey : Bytes) (keyData : Option (Bytes × Bytes))
    (currentClientIsCreator v2 : Bool) : Except NSException (Option Bytes) := do
  let encryptedMessageData ← subdataWithRange bytes (8 + 16) (bytes.length - (8 + 16))
  match keyData with
  | none => return none
  | some keyData =>
    checkMessageData sha1 sha256 authKey messageKey currentClientIsCreator v2
      (aesDecrypt decrypt encryptedMessageData keyData.1 keyData.2)

/-- A message as it was read from TL, whose byte strings have a length of three bytes. -/
structure TLEncryptedMessage where
  bytes : Bytes
  length_lt : bytes.length < 2 ^ 24

/-- What is known of the chat that a message is for. -/
structure Chat where
  conversationId : Int
  encryptionKeys : List EncryptionKeyData
  isCreator : Bool
  participantUid : Int

/-- What is returned, and what is left in the parameters. -/
structure Accepted where
  content : Bytes
  decryptedLayer : ℕ
  seqIn : Option Int
  seqOut : Option Int
  deriving DecidableEq

/-- The checks behind the decryption. -/
def checkContent (chat : Chat) (messageContentData : Bytes) (decryptedByV2 : Bool) :
    Except NSException (Option Accepted) := do
  let header ← readHeader messageContentData
  if messageContentData.length ≥ 4 ∧ ¬parityPasses chat.isCreator header then return none
  else if messageContentData.length ≥ 4 ∧ header.layer ≥ 73 ∧ ¬decryptedByV2 then return none
  else if chat.participantUid ≠ 0 then
    return some ⟨messageContentData, header.layer, header.outSeqIn, header.outSeqOut⟩
  else return none

def decryptEncryptedMessageData (chat : Chat) (encryptedMessage : TLEncryptedMessage) :
    Except NSException (Option Accepted) :=
  if encryptedMessage.bytes.length < 8 + 16 + 16 then .ok none
  else if chat.conversationId = 0 then .ok none
  else do
    let bytes := encryptedMessage.bytes
    let keyId := Int.bmod (littleEndian (← subdataWithRange bytes 0 (8 : ℕ))) (2 ^ 64)
    let messageKey ← subdataWithRange bytes 8 (16 : ℕ)
    match encryptionKeyForConversationId chat.encryptionKeys keyId with
    | (none, _) => return none
    | (some key, localKeyId) =>
      if keyId ≠ localKeyId then return none
      else
        let v2 ← decryptMessageData sha1 sha256 decrypt bytes key messageKey
          (generateMessageKeyData sha1 sha256 messageKey chat.isCreator key true) chat.isCreator true
        let (messageData, decryptedByV2) ←
          match v2 with
          | some messageData => pure (some messageData, true)
          | none => do
            let v1 ← decryptMessageData sha1 sha256 decrypt bytes key messageKey
              (generateMessageKeyData sha1 sha256 messageKey chat.isCreator key false)
              chat.isCreator false
            pure (v1, false)
        match messageData with
        | none => return none
        | some messageData => do
          let messageContentData ← subdataWithRange messageData 4 (messageData.length - 4)
          checkContent chat messageContentData decryptedByV2

/-! ## The header as the sender builds it -/

def layerHeader (randomBytes : Vector UInt8 15) (layer seqIn seqOut : Int) (isCreator : Bool) :
    Bytes :=
  int32Bytes layerSignature ++ [15] ++ randomBytes.toList ++ int32Bytes layer
    ++ int32Bytes (seqIn * 2 + if isCreator then 0 else 1)
    ++ int32Bytes (seqOut * 2 + if isCreator then 1 else 0)

/-! ## The TL encoding -/

/-- The two forms of a byte string. -/
inductive Form
  | short
  | long
  deriving DecidableEq

/-- Whether the form has room for so many bytes. -/
def Form.allows : Form → ℕ → Prop
  | .short, n => n ≤ 253
  | .long, n => n < 2 ^ 24

/-- A byte string, completed to a whole number of words. -/
def tlBytes : Form → Bytes → Bytes
  | .short, data =>
    UInt8.ofNat data.length :: data ++ List.replicate ((4 - (1 + data.length) % 4) % 4) 0
  | .long, data =>
    254 :: bytesLE 3 data.length ++ data ++ List.replicate ((4 - data.length % 4) % 4) 0

/-- `decryptedMessageLayer`. -/
def layerMessage (form : Form) (randomBytes : Bytes) (layer seqIn seqOut : Int32)
    (message : Bytes) : Bytes :=
  int32Bytes layerSignature ++ tlBytes form randomBytes ++ int32Bytes layer.toInt
    ++ int32Bytes seqIn.toInt ++ int32Bytes seqOut.toInt ++ message

end Onegram.Acceptance
