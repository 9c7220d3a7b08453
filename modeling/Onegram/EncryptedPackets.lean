import Onegram.DatacenterAuth
import Onegram.MessageCipher
import Onegram.RequestService

/-!
# Encrypted packets

What `MTProto` makes of a payload before the transport takes it, what is recorded of its quick ack,
and what `_decryptIncomingTransportData` makes of a packet that comes in. The digest and the block
cipher are parameters, and so are the bytes that `arc4random_buf` gives.

An `NSRange` that goes past the data is an exception, which nothing catches.
-/

namespace Onegram.Mtp

open Bytes MessageCipher
open DatacenterAuth (messageEncryptionKeyV2)

structure MTDatacenterAuthKey where
  authKey : Bytes
  authKeyId : Int
deriving DecidableEq, Repr

structure MTDatacenterAuthInfo where
  authKey : Bytes
  authKeyId : Int
  mainTempAuthKey : Option MTDatacenterAuthKey := none
  mediaTempAuthKey : Option MTDatacenterAuthKey := none
deriving DecidableEq, Repr

/-- A key with neither data nor id stands for the fields of an info that is not there. -/
def effectiveAuthKey (useTempAuthKeys : Bool) (authInfo : Option MTDatacenterAuthInfo)
    (preferForMedia : Bool) : Option MTDatacenterAuthKey :=
  if useTempAuthKeys then
    authInfo.bind fun info => if preferForMedia then info.mediaTempAuthKey else info.mainTempAuthKey
  else
    some ((authInfo.map fun info => ⟨info.authKey, info.authKeyId⟩).getD ⟨[], 0⟩)

def int32Bytes (n : Int) : Bytes := bytesLE 4 (n % 2 ^ 32).toNat

def int64Bytes (n : Int) : Bytes := bytesLE 8 (n % 2 ^ 64).toNat

variable (MTSha256 : Bytes → Bytes) (encrypt decrypt : Bytes → Bytes → Bytes)

/-! ## Out -/

/-- `randomBytes`, and what `arc4random_uniform` draws from. -/
structure Draw where
  randomBytes : Bytes
  random : ℕ
deriving DecidableEq, Repr

/-- `paddedData:extendedPadding:`. -/
def paddedData (data : Bytes) (extendedPadding : Bool) (draw : Draw) : Option Bytes := do
  let s ← appendRandom draw.randomBytes 12 (data, 0)
  let s ← padToBlock draw.randomBytes 16 s
  let extraPaddingSize := if extendedPadding then 256 else 72
  let remainingCount := roundDown (arc4random_uniform draw.random (extraPaddingSize + 1 - s.2))
  let s ← appendRandom draw.randomBytes remainingCount s
  return s.1

/-- What is written before the padding. -/
def decryptedOs (salt sessionId messageId seqNo : Int) (data : Bytes) : Bytes :=
  int64Bytes salt ++ int64Bytes sessionId ++ int64Bytes messageId ++ int32Bytes seqNo
    ++ int32Bytes data.length ++ data

/-- `msgKeyLarge`, with the offset of the direction. -/
def msgKeyLarge (authKey : Bytes) (xValue : ℕ) (decryptedData : Bytes) : Bytes :=
  MTSha256 (cut authKey (88 + xValue) 32 ++ decryptedData)

/-- The packet around padded data, in either direction. -/
def encryptedData (effectiveAuthKey : MTDatacenterAuthKey) (toClient : Bool)
    (decryptedData : Bytes) : Option Bytes :=
  let xValue := if toClient then 8 else 0
  let messageKey := cut (msgKeyLarge MTSha256 effectiveAuthKey.authKey xValue decryptedData) 8 16
  (messageEncryptionKeyV2 MTSha256 effectiveAuthKey.authKey messageKey toClient).map
    fun (key, iv) => int64Bytes effectiveAuthKey.authKeyId ++ messageKey
      ++ MTAesEncryptInplace encrypt decryptedData key iv

/-- The first 32 bits of the digest, without the highest. -/
def quickAckId (digest : Bytes) : Int := littleEndian (cut digest 0 4) % 2 ^ 31

/-- A payload with its padding. -/
structure Sealed where
  decryptedData : Bytes
  encryptedData : Option Bytes
  /-- `*quickAckId` after the call. -/
  quickAckId : Int
deriving DecidableEq, Repr

/-- `_dataForEncryptedMessage`. The place of the quick ack id is passed and not written to. -/
def dataForEncryptedMessage (effectiveAuthKey : MTDatacenterAuthKey)
    (preparedMessage : PreparedMessage) (sessionId : Int) (extendedPadding : Bool) (draw : Draw)
    (quickAckId : Int) : Option Sealed := do
  let decryptedData ← paddedData
    (decryptedOs preparedMessage.salt sessionId preparedMessage.messageId preparedMessage.seqNo
      preparedMessage.data) extendedPadding draw
  return {
    decryptedData
    encryptedData := Mtp.encryptedData MTSha256 encrypt effectiveAuthKey false decryptedData
    quickAckId }

def containerData (preparedMessages : List PreparedMessage) : Bytes :=
  [0xdc, 0xf8, 0xf1, 0x73] ++ int32Bytes preparedMessages.length
    ++ preparedMessages.flatMap fun m =>
      int64Bytes m.messageId ++ int32Bytes m.seqNo ++ int32Bytes m.data.length ++ m.data

/-- `_dataForEncryptedContainerWithMessages`, once the container is numbered. -/
def sealContainer (effectiveAuthKey : MTDatacenterAuthKey)
    (sessionId messageId seqNo salt : Int) (preparedMessages : List PreparedMessage)
    (extendedPadding : Bool) (draw : Draw) : Option Sealed := do
  let decryptedData ← paddedData
    (decryptedOs salt sessionId messageId seqNo (containerData preparedMessages)) extendedPadding
    draw
  return {
    decryptedData
    encryptedData := Mtp.encryptedData MTSha256 encrypt effectiveAuthKey false decryptedData
    quickAckId := Mtp.quickAckId (msgKeyLarge MTSha256 effectiveAuthKey.authKey 0 decryptedData) }

/-- The branches of the packing loop that encrypt, each with its local `int32_t quickAckId = 0`. -/
def Payload.seal (effectiveAuthKey : MTDatacenterAuthKey) (extendedPadding : Bool) (draw : Draw) :
    Payload → Option Sealed
  | .message sessionId m =>
    dataForEncryptedMessage MTSha256 encrypt effectiveAuthKey m sessionId extendedPadding draw 0
  | .container sessionId messageId seqNo salt messages =>
    sealContainer MTSha256 encrypt effectiveAuthKey sessionId messageId seqNo salt messages
      extendedPadding draw
  | _ => none

/-! ## Quick acks -/

/-- A row of the lists kept by payload: `messageInternalIdsByPayload`, `quickAckIdsByPayload`. -/
structure SealedPayload where
  payload : Payload
  contents : Sealed
  messageInternalIds : List Nat
deriving DecidableEq, Repr

/-- The rows of a transaction, in order. A payload without data has none. -/
def sealAll (effectiveAuthKey : MTDatacenterAuthKey) (extendedPadding : Bool) :
    List (Payload × List Nat) → List Draw → List SealedPayload
  | (payload, messageInternalIds) :: payloads, draw :: draws =>
    ((payload.seal MTSha256 encrypt effectiveAuthKey extendedPadding draw).filter
        (·.encryptedData.isSome)).toList.map (⟨payload, ·, messageInternalIds⟩)
      ++ sealAll effectiveAuthKey extendedPadding payloads draws
  | _, _ => []

/-- The rows of one request of the transport. -/
def MTProto.sealedPayloads (clock : Nat → Int) (p : MTProto) (r : TransactionRequest)
    (effectiveAuthKey : MTDatacenterAuthKey) (extendedPadding : Bool) (draws : List Draw) :
    List SealedPayload :=
  sealAll MTSha256 encrypt effectiveAuthKey extendedPadding (p.payloads clock r).1 draws

/-- A request of the service as quick acks see it: the `quickAckId` of its context, if any. -/
structure QuickAckRequest where
  internalId : Nat
  quickAckId : Option Int
deriving DecidableEq, Repr

/-- The `completion` block of the service, for a payload the transport took. -/
def quickAckCompletion (requestInternalIdToMessageInternalId : List (Nat × Nat))
    (requests : List QuickAckRequest) (s : SealedPayload) : List QuickAckRequest :=
  requests.map fun r =>
    match requestInternalIdToMessageInternalId.lookup r.internalId with
    | none => r
    | some messageInternalId =>
      if messageInternalId ∈ s.messageInternalIds then
        { r with quickAckId := some s.contents.quickAckId }
      else r

/-- The requests whose `acknowledgementReceived` is called. -/
def receivedQuickAck (requests : List QuickAckRequest) (quickAckId : Int) : List Nat :=
  (requests.filter (·.quickAckId == some quickAckId)).map (·.internalId)

/-! ## In -/

inductive NSException where
  | rangeException
deriving DecidableEq, Repr

/-- `[data subdataWithRange:NSMakeRange(location, length)]` of a length that is converted from an
`int`: a negative one is past any data. -/
def subdataWithRange (data : Bytes) (location : ℕ) (length : Int) : Except NSException Bytes :=
  if length < 0 ∨ data.length < location + length.toNat then .error .rangeException
  else .ok (cut data location length.toNat)

/-- `n & (~15)`. -/
def wholeBlocks (n : Int) : Int := n / 16 * 16

/-- The tests of a packet that is decrypted. The subtraction leaves the range of an `int32_t` for a
length below all these, and the difference is refused either way. -/
def checkDecryptedData (effectiveAuthKey : MTDatacenterAuthKey)
    (embeddedMessageKey decryptedData : Bytes) : Option Bytes :=
  let messageDataLength := readInt32 (decryptedData.drop 28)
  let paddingLength := toInt32 decryptedData.length - messageDataLength
  if paddingLength < 12 ∨ paddingLength > 1024 then none
  else if messageDataLength < 0 ∨ messageDataLength > toInt32 decryptedData.length then none
  else if cut (msgKeyLarge MTSha256 effectiveAuthKey.authKey 8 decryptedData) 8 16
      ≠ embeddedMessageKey then none
  else some decryptedData

/-- `_decryptIncomingTransportData:address:`. -/
def decryptIncomingTransportData (effectiveAuthKey : Option MTDatacenterAuthKey)
    (transportData : Bytes) : Except NSException (Option Bytes) :=
  match effectiveAuthKey with
  | none => .ok none
  | some effectiveAuthKey =>
    if transportData.length < 24 + 36 then .ok none
    else if transportData.take 8 ≠ int64Bytes effectiveAuthKey.authKeyId then .ok none
    else
      let embeddedMessageKey := cut transportData 8 16
      match messageEncryptionKeyV2 MTSha256 effectiveAuthKey.authKey embeddedMessageKey true with
      | none => .ok none
      | some (key, iv) => do
        let dataToDecrypt ← subdataWithRange transportData 24
          (wholeBlocks (toInt32 (transportData.length - 24)))
        let decryptedData := MTAesDecrypt decrypt dataToDecrypt key iv
        let _ ← subdataWithRange decryptedData 28 4
        return checkDecryptedData MTSha256 effectiveAuthKey embeddedMessageKey decryptedData

end Onegram.Mtp
