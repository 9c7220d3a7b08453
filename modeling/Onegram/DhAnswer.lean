import Onegram.DatacenterAuth
import Onegram.TLSerialization

/-!
# The answer in `server_DH_params_ok`

`parseMessage:` with the exceptions of `readTLBytes:`, and the stage ReqDH with them. The other
cases of the `switch` read no byte strings, and are those of the parser that takes from the front.
-/

namespace Onegram.DatacenterAuth.DhAnswer

open Bytes TL

/-- `dataWithBytesNoCopy:length:` with a length of nearly `2 ^ 64`. -/
inductive ParseException
  | invalidArgument
  deriving DecidableEq

abbrev BufferReader := Cursor ParseException UInt8

def readBytes (length : ℕ) : BufferReader Bytes :=
  Cursor.read (fun data offset length => .ok ((data.drop offset).take length)) length

def readInt32 : BufferReader Int32 := do
  let bytes ← readBytes 4
  pure (UInt32.ofNat (littleEndian bytes)).toInt32

def readInt64 : BufferReader Int64 := do
  let bytes ← readBytes 8
  pure (UInt64.ofNat (littleEndian bytes)).toInt64

def readTLBytes : BufferReader Bytes := fun data offset =>
  match TLStrings.MTBufferReader.readTLBytes data offset with
  | (.accepted value, offset) => .ok (some (value, offset))
  | (.failed, _) => .ok none
  | (.raised, _) => .error .invalidArgument

def readTLString : BufferReader (Option String) := do
  let bytes ← readTLBytes
  pure (ofUtf8 bytes)

/-! ## `parseMessage:` -/

def readVector : BufferReader (List Int64) := do
  let _ ← readInt32
  let count ← readInt32
  Cursor.times readInt64 count.toInt.toNat

def readResPq : BufferReader Message := do
  let nonce ← readBytes 16
  let serverNonce ← readBytes 16
  let pq ← readTLBytes
  let serverPublicKeyFingerprints ← readVector
  pure (.resPq nonce serverNonce pq serverPublicKeyFingerprints)

def readServerDhParamsOk : BufferReader Message := do
  let nonce ← readBytes 16
  let serverNonce ← readBytes 16
  let encryptedResponse ← readTLBytes
  pure (.serverDhParamsOk nonce serverNonce encryptedResponse)

def readServerDhInnerData : BufferReader Message := do
  let nonce ← readBytes 16
  let serverNonce ← readBytes 16
  let g ← readInt32
  let dhPrime ← readTLBytes
  let gA ← readTLBytes
  let serverTime ← readInt32
  pure (.serverDhInnerData nonce serverNonce g dhPrime gA serverTime)

def readRpcError : BufferReader Message := do
  let errorCode ← readInt32
  let errorDescription ← readTLString
  pure (.rpcError errorCode errorDescription)

def readMsgsStateInfo : BufferReader Message := do
  let requestMessageId ← readInt64
  let info ← readTLBytes
  pure (.msgsStateInfo requestMessageId info)

def readMsgAllInfo : BufferReader Message := do
  let messageIds ← readVector
  let info ← readTLBytes
  pure (.msgAllInfo messageIds info)

/-- A case without byte strings. Nothing is read after it, so the place does not matter. -/
def readPlain (r : Reader UInt8 Message) : BufferReader Message := fun data offset =>
  .ok ((r (data.drop offset)).map fun p => (p.1, data.length))

/-- The cases with byte strings. -/
def stringCases : List (UInt32 × BufferReader Message) :=
  [(0x05162463, readResPq),
   (0xd0e8075c, readServerDhParamsOk),
   (0xb5890dba, readServerDhInnerData),
   (0x2144ca19, readRpcError),
   (0x04deb57d, readMsgsStateInfo),
   (0x8cc0d131, readMsgAllInfo)]

def readCase (signature : UInt32) : BufferReader Message :=
  (stringCases.lookup signature).getD
    (readPlain ((MTInternalMessageParser.cases.lookup signature).getD Reader.fail))

def readSigned : BufferReader Message := do
  let signature ← readInt32
  readCase signature.toUInt32

def parseMessage (data : Bytes) : Except ParseException (Option Message) :=
  (readSigned data 0).map (·.map Prod.fst)

/-! ## The stage -/

variable (config : Config)

def receivedServerDhParamsOk (w : World) (draw : Draw) (nonce serverNonce : Bytes)
    (encryptedResponse : Bytes) : Result :=
  let newNonce := w.service.newNonce.getD []
  match answerData config (decryptAnswer config encryptedResponse newNonce serverNonce) with
  | none => exception w
  | some none => reset config w
  | some (some answer) =>
    match parseMessage answer with
    | .error _ => exception w
    | .ok dhInnerData => receivedInnerData config w draw nonce serverNonce newNonce dhInnerData

/-- The message is looked at in the stage ReqDH, and with the nonces of the service. -/
def receivedMessage (w : World) (draw : Draw) (messageId : Int64) (body : Message) : Result :=
  match w.service.stage, body with
  | .reqDH, .serverDhParamsOk nonce serverNonce encryptedResponse =>
    if ownNonces w nonce serverNonce then
      receivedServerDhParamsOk config w draw nonce serverNonce encryptedResponse
    else (w, [])
  | _, _ => DatacenterAuth.receivedMessage config w draw messageId body

end Onegram.DatacenterAuth.DhAnswer
