import Onegram.TLSerialization

/-!
# Service messages

What `MTInternalMessageParser` makes of the service messages, beside their encodings in the schema
and the two encodings this client has of its own. A message is kept under the name of its class.

A vector has a word in front of its count, `vectorSignature`; the messages of a container and the
salts of `future_salts` are in bare vectors, which have the count alone. The answer inside
`rpc_result` and the answers inside `destroy_sessions_res` are kept as the bytes they are.
-/

namespace Onegram.TL

open Bytes Reader

structure MTMessage where
  messageId : Int64
  seqNo : Int32
  data : Bytes

structure MTFutureSalt where
  validSince : Int32
  validUntil : Int32
  salt : Int64

inductive Message
  | resPq (nonce serverNonce pq : Bytes) (serverPublicKeyFingerprints : List Int64)
  | serverDhParamsFail (nonce serverNonce nextNonceHash : Bytes)
  | serverDhParamsOk (nonce serverNonce encryptedResponse : Bytes)
  | serverDhInnerData (nonce serverNonce : Bytes) (g : Int32) (dhPrime gA : Bytes)
    (serverTime : Int32)
  | setClientDhParamsResponseOk (nonce serverNonce nextNonceHash1 : Bytes)
  | setClientDhParamsResponseRetry (nonce serverNonce nextNonceHash2 : Bytes)
  | setClientDhParamsResponseFail (nonce serverNonce nextNonceHash3 : Bytes)
  | rpcResult (requestMessageId : Int64) (data : Bytes)
  | rpcError (errorCode : Int32) (errorDescription : Option String)
  | dropRpcResultUnknown
  | dropRpcResultDroppedRunning
  | dropRpcResultDropped (messageId : Int64) (seqNo size : Int32)
  | msgsStateReq (messageIds : List Int64)
  | msgsStateInfo (requestMessageId : Int64) (info : Bytes)
  | msgDetailedResponseInfo (requestMessageId responseMessageId : Int64)
    (responseLength status : Int32)
  | msgDetailedInfo (responseMessageId : Int64) (responseLength status : Int32)
  | msgAllInfo (messageIds : List Int64) (info : Bytes)
  | message (message : MTMessage)
  | msgResendReq (messageIds : List Int64)
  | badMsgNotification (badMessageId : Int64) (badMessageSeqNo errorCode : Int32)
  | badServerSaltNotification (badMessageId : Int64) (badMessageSeqNo errorCode : Int32)
    (nextServerSalt : Int64)
  | msgsAck (messageIds : List Int64)
  | ping (pingId : Int64)
  | pong (messageId pingId : Int64)
  | newSessionCreated (firstMessageId uniqueId serverSalt : Int64)
  | destroySessionResponseOk (sessionId : Int64)
  | destroySessionResponseNone (sessionId : Int64)
  | destroySessionMultipleResponse (responses : Bytes)
  | msgContainer (messages : List MTMessage)
  | futureSalts (requestMessageId : Int64) (now : Int32) (salts : List MTFutureSalt)

/-- `481674261`. -/
def vectorSignature : Int32 := 0x1cb5c415

/-! ## The parser -/

namespace MTInternalMessageParser

open MTBufferReader

/-- A loop over `int32_t i < count`. -/
def readCounted {α : Type} (r : Reader UInt8 α) : Reader UInt8 (List α) := do
  let count ← readInt32
  times r count.toInt.toNat

/-- The word in front of the count is read into `NULL`. -/
def readVector {α : Type} (r : Reader UInt8 α) : Reader UInt8 (List α) := do
  let _ ← readInt32
  readCounted r

def readResPq : Reader UInt8 Message := do
  let nonce ← readBytes 16
  let serverNonce ← readBytes 16
  let pq ← readTLBytes
  let serverPublicKeyFingerprints ← readVector readInt64
  pure (.resPq nonce serverNonce pq serverPublicKeyFingerprints)

/-- The messages that are two nonces and a hash. -/
def readNonces (message : Bytes → Bytes → Bytes → Message) : Reader UInt8 Message := do
  let nonce ← readBytes 16
  let serverNonce ← readBytes 16
  let nextNonceHash ← readBytes 16
  pure (message nonce serverNonce nextNonceHash)

def readServerDhParamsFail : Reader UInt8 Message := readNonces .serverDhParamsFail

def readServerDhParamsOk : Reader UInt8 Message := do
  let nonce ← readBytes 16
  let serverNonce ← readBytes 16
  let encryptedResponse ← readTLBytes
  pure (.serverDhParamsOk nonce serverNonce encryptedResponse)

def readServerDhInnerData : Reader UInt8 Message := do
  let nonce ← readBytes 16
  let serverNonce ← readBytes 16
  let g ← readInt32
  let dhPrime ← readTLBytes
  let gA ← readTLBytes
  let serverTime ← readInt32
  pure (.serverDhInnerData nonce serverNonce g dhPrime gA serverTime)

def readSetClientDhParamsResponseOk : Reader UInt8 Message :=
  readNonces .setClientDhParamsResponseOk

def readSetClientDhParamsResponseRetry : Reader UInt8 Message :=
  readNonces .setClientDhParamsResponseRetry

def readSetClientDhParamsResponseFail : Reader UInt8 Message :=
  readNonces .setClientDhParamsResponseFail

def readRpcResult : Reader UInt8 Message := do
  let requestMessageId ← readInt64
  let responseData ← rest
  pure (.rpcResult requestMessageId responseData)

def readRpcError : Reader UInt8 Message := do
  let errorCode ← readInt32
  let errorDescription ← readTLString
  pure (.rpcError errorCode errorDescription)

def readDropRpcResultDropped : Reader UInt8 Message := do
  let messageId ← readInt64
  let seqNo ← readInt32
  let size ← readInt32
  pure (.dropRpcResultDropped messageId seqNo size)

def readMsgsStateReq : Reader UInt8 Message := do
  let messageIds ← readVector readInt64
  pure (.msgsStateReq messageIds)

def readMsgsStateInfo : Reader UInt8 Message := do
  let requestMessageId ← readInt64
  let info ← readTLBytes
  pure (.msgsStateInfo requestMessageId info)

def readMsgDetailedResponseInfo : Reader UInt8 Message := do
  let requestMessageId ← readInt64
  let responseMessageId ← readInt64
  let responseLength ← readInt32
  let status ← readInt32
  pure (.msgDetailedResponseInfo requestMessageId responseMessageId responseLength status)

def readMsgDetailedInfo : Reader UInt8 Message := do
  let responseMessageId ← readInt64
  let responseLength ← readInt32
  let status ← readInt32
  pure (.msgDetailedInfo responseMessageId responseLength status)

def readMsgAllInfo : Reader UInt8 Message := do
  let messageIds ← readVector readInt64
  let info ← readTLBytes
  pure (.msgAllInfo messageIds info)

/-- The rest of the data, if it has the length that was read. -/
def readRestOf (length : Int32) : Reader UInt8 Bytes := do
  let data ← rest
  if data.length ≠ (length.toInt % 2 ^ 64).toNat then fail else pure data

/-- Fails unless the next word is `signature`. -/
def readSignature (signature : Int32) : Reader UInt8 Unit := do
  let word ← readInt32
  if word ≠ signature then fail else pure ()

def readMessage : Reader UInt8 Message := do
  let _ ← readSignature (0x5bb8e511 : UInt32).toInt32
  let messageId ← readInt64
  let seqNo ← readInt32
  let length ← readInt32
  let data ← readRestOf length
  pure (.message ⟨messageId, seqNo, data⟩)

-- There is no `readInt32:NULL` in this one.
def readMsgResendReq : Reader UInt8 Message := do
  let messageIds ← readCounted readInt64
  pure (.msgResendReq messageIds)

def readBadMsgNotification : Reader UInt8 Message := do
  let badMessageId ← readInt64
  let badMessageSeqNo ← readInt32
  let errorCode ← readInt32
  pure (.badMsgNotification badMessageId badMessageSeqNo errorCode)

def readBadServerSaltNotification : Reader UInt8 Message := do
  let badMessageId ← readInt64
  let badMessageSeqNo ← readInt32
  let errorCode ← readInt32
  let nextServerSalt ← readInt64
  pure (.badServerSaltNotification badMessageId badMessageSeqNo errorCode nextServerSalt)

def readMsgsAck : Reader UInt8 Message := do
  let _ ← readSignature vectorSignature
  let messageIds ← readCounted readInt64
  pure (.msgsAck messageIds)

def readPing : Reader UInt8 Message := do
  let pingId ← readInt64
  pure (.ping pingId)

def readPong : Reader UInt8 Message := do
  let messageId ← readInt64
  let pingId ← readInt64
  pure (.pong messageId pingId)

def readNewSessionCreated : Reader UInt8 Message := do
  let firstMessageId ← readInt64
  let uniqueId ← readInt64
  let serverSalt ← readInt64
  pure (.newSessionCreated firstMessageId uniqueId serverSalt)

def readDestroySessionResponseOk : Reader UInt8 Message := do
  let sessionId ← readInt64
  pure (.destroySessionResponseOk sessionId)

def readDestroySessionResponseNone : Reader UInt8 Message := do
  let sessionId ← readInt64
  pure (.destroySessionResponseNone sessionId)

def readDestroySessionMultipleResponse : Reader UInt8 Message := do
  let responsesData ← rest
  pure (.destroySessionMultipleResponse responsesData)

/-- The data of a message in a container. -/
def readMessageData (length : Int32) : Reader UInt8 Bytes :=
  if length.toInt < 0 ∨ 16 * 1024 * 1024 < length.toInt then fail
  else readBytes length.toInt.toNat

def readContainerMessage : Reader UInt8 MTMessage := do
  let messageId ← readInt64
  let seqNo ← readInt32
  let length ← readInt32
  let messageData ← readMessageData length
  pure ⟨messageId, seqNo, messageData⟩

def readMsgContainer : Reader UInt8 Message := do
  let messages ← readCounted readContainerMessage
  pure (.msgContainer messages)

def readFutureSalt : Reader UInt8 MTFutureSalt := do
  let validSince ← readInt32
  let validUntil ← readInt32
  let salt ← readInt64
  pure ⟨validSince, validUntil, salt⟩

def readFutureSalts : Reader UInt8 Message := do
  let requestMessageId ← readInt64
  let now ← readInt32
  let salts ← readCounted readFutureSalt
  pure (.futureSalts requestMessageId now salts)

/-- The cases of the `switch`. -/
def cases : List (UInt32 × Reader UInt8 Message) :=
  [(0x05162463, readResPq),
   (0x79cb045d, readServerDhParamsFail),
   (0xd0e8075c, readServerDhParamsOk),
   (0xb5890dba, readServerDhInnerData),
   (0x3bcbf734, readSetClientDhParamsResponseOk),
   (0x46dc1fb9, readSetClientDhParamsResponseRetry),
   (0xa69dae02, readSetClientDhParamsResponseFail),
   (0xf35c6d01, readRpcResult),
   (0x2144ca19, readRpcError),
   (0x5e2ad36e, pure .dropRpcResultUnknown),
   (0xcd78e586, pure .dropRpcResultDroppedRunning),
   (0xa43ad8b7, readDropRpcResultDropped),
   (0xda69fb52, readMsgsStateReq),
   (0x04deb57d, readMsgsStateInfo),
   (0x276d3ec6, readMsgDetailedResponseInfo),
   (0x809db6df, readMsgDetailedInfo),
   (0x8cc0d131, readMsgAllInfo),
   (0xe06046b2, readMessage),
   (0x7d861a08, readMsgResendReq),
   (0xa7eff811, readBadMsgNotification),
   (0xedab447b, readBadServerSaltNotification),
   (0x62d6b459, readMsgsAck),
   (0x7abe77ec, readPing),
   (0x347773c5, readPong),
   (0x9ec20908, readNewSessionCreated),
   (0xe22045fc, readDestroySessionResponseOk),
   (0x62d350c9, readDestroySessionResponseNone),
   (0xfb95abcd, readDestroySessionMultipleResponse),
   (0x73f1f8dc, readMsgContainer),
   (0xae500895, readFutureSalts)]

def readSigned : Reader UInt8 Message := do
  let signature ← readInt32
  (cases.lookup signature.toUInt32).getD fail

def parseMessage (data : Bytes) : Option Message := (readSigned data).map Prod.fst

end MTInternalMessageParser

/-! ## The schema -/

namespace Message

open MTBuffer

def int32 (value : Int32) : Bytes := appendInt32 [] value

def int64 (value : Int64) : Bytes := appendInt64 [] value

def tlBytes (bytes : Bytes) : Bytes := appendTLBytes [] bytes

def bareVector {α : Type} (item : α → Bytes) (items : List α) : Bytes :=
  int32 (Int32.ofNat items.length) ++ items.flatMap item

def vector {α : Type} (item : α → Bytes) (items : List α) : Bytes :=
  int32 vectorSignature ++ bareVector item items

/-- `message msg_id:long seqno:int bytes:int body:Object`. -/
def bareMessage (message : MTMessage) : Bytes :=
  int64 message.messageId ++ (int32 message.seqNo
    ++ (int32 (Int32.ofNat message.data.length) ++ message.data))

/-- `future_salt valid_since:int valid_until:int salt:long`. -/
def futureSalt (salt : MTFutureSalt) : Bytes :=
  int32 salt.validSince ++ (int32 salt.validUntil ++ int64 salt.salt)

def signature : Message → UInt32
  | .resPq .. => 0x05162463
  | .serverDhParamsFail .. => 0x79cb045d
  | .serverDhParamsOk .. => 0xd0e8075c
  | .serverDhInnerData .. => 0xb5890dba
  | .setClientDhParamsResponseOk .. => 0x3bcbf734
  | .setClientDhParamsResponseRetry .. => 0x46dc1fb9
  | .setClientDhParamsResponseFail .. => 0xa69dae02
  | .rpcResult .. => 0xf35c6d01
  | .rpcError .. => 0x2144ca19
  | .dropRpcResultUnknown => 0x5e2ad36e
  | .dropRpcResultDroppedRunning => 0xcd78e586
  | .dropRpcResultDropped .. => 0xa43ad8b7
  | .msgsStateReq .. => 0xda69fb52
  | .msgsStateInfo .. => 0x04deb57d
  | .msgDetailedResponseInfo .. => 0x276d3ec6
  | .msgDetailedInfo .. => 0x809db6df
  | .msgAllInfo .. => 0x8cc0d131
  | .message .. => 0xe06046b2
  | .msgResendReq .. => 0x7d861a08
  | .badMsgNotification .. => 0xa7eff811
  | .badServerSaltNotification .. => 0xedab447b
  | .msgsAck .. => 0x62d6b459
  | .ping .. => 0x7abe77ec
  | .pong .. => 0x347773c5
  | .newSessionCreated .. => 0x9ec20908
  | .destroySessionResponseOk .. => 0xe22045fc
  | .destroySessionResponseNone .. => 0x62d350c9
  | .destroySessionMultipleResponse .. => 0xfb95abcd
  | .msgContainer .. => 0x73f1f8dc
  | .futureSalts .. => 0xae500895

def fields : Message → Bytes
  | .resPq nonce serverNonce pq fingerprints =>
    nonce ++ (serverNonce ++ (tlBytes pq ++ vector int64 fingerprints))
  | .serverDhParamsFail nonce serverNonce hash
  | .setClientDhParamsResponseOk nonce serverNonce hash
  | .setClientDhParamsResponseRetry nonce serverNonce hash
  | .setClientDhParamsResponseFail nonce serverNonce hash => nonce ++ (serverNonce ++ hash)
  | .serverDhParamsOk nonce serverNonce encryptedResponse =>
    nonce ++ (serverNonce ++ tlBytes encryptedResponse)
  | .serverDhInnerData nonce serverNonce g dhPrime gA serverTime =>
    nonce ++ (serverNonce ++ (int32 g ++ (tlBytes dhPrime ++ (tlBytes gA ++ int32 serverTime))))
  | .rpcResult requestMessageId data => int64 requestMessageId ++ data
  | .rpcError errorCode errorDescription =>
    int32 errorCode ++ tlBytes (utf8 (errorDescription.getD ""))
  | .dropRpcResultUnknown => []
  | .dropRpcResultDroppedRunning => []
  | .dropRpcResultDropped messageId seqNo size => int64 messageId ++ (int32 seqNo ++ int32 size)
  | .msgsStateReq messageIds => vector int64 messageIds
  | .msgsStateInfo requestMessageId info => int64 requestMessageId ++ tlBytes info
  | .msgDetailedResponseInfo requestMessageId responseMessageId responseLength status =>
    int64 requestMessageId ++ (int64 responseMessageId ++ (int32 responseLength ++ int32 status))
  | .msgDetailedInfo responseMessageId responseLength status =>
    int64 responseMessageId ++ (int32 responseLength ++ int32 status)
  | .msgAllInfo messageIds info => vector int64 messageIds ++ tlBytes info
  | .message m => int32 (0x5bb8e511 : UInt32).toInt32 ++ bareMessage m
  | .msgResendReq messageIds => vector int64 messageIds
  | .badMsgNotification badMessageId badMessageSeqNo errorCode =>
    int64 badMessageId ++ (int32 badMessageSeqNo ++ int32 errorCode)
  | .badServerSaltNotification badMessageId badMessageSeqNo errorCode nextServerSalt =>
    int64 badMessageId ++ (int32 badMessageSeqNo ++ (int32 errorCode ++ int64 nextServerSalt))
  | .msgsAck messageIds => vector int64 messageIds
  | .ping pingId => int64 pingId
  | .pong messageId pingId => int64 messageId ++ int64 pingId
  | .newSessionCreated firstMessageId uniqueId serverSalt =>
    int64 firstMessageId ++ (int64 uniqueId ++ int64 serverSalt)
  | .destroySessionResponseOk sessionId => int64 sessionId
  | .destroySessionResponseNone sessionId => int64 sessionId
  | .destroySessionMultipleResponse responses => responses
  | .msgContainer messages => bareVector bareMessage messages
  | .futureSalts requestMessageId now salts =>
    int64 requestMessageId ++ (int32 now ++ bareVector futureSalt salts)

def encode (m : Message) : Bytes := int32 m.signature.toInt32 ++ m.fields

/-- The messages there are: what is an `int128` has 16 bytes, lengths and counts fit. -/
def Encodable : Message → Prop
  | .resPq nonce serverNonce pq fingerprints =>
    nonce.length = 16 ∧ serverNonce.length = 16 ∧ pq.length < 2 ^ 24 ∧ fingerprints.length < 2 ^ 31
  | .serverDhParamsFail nonce serverNonce hash
  | .setClientDhParamsResponseOk nonce serverNonce hash
  | .setClientDhParamsResponseRetry nonce serverNonce hash
  | .setClientDhParamsResponseFail nonce serverNonce hash =>
    nonce.length = 16 ∧ serverNonce.length = 16 ∧ hash.length = 16
  | .serverDhParamsOk nonce serverNonce encryptedResponse =>
    nonce.length = 16 ∧ serverNonce.length = 16 ∧ encryptedResponse.length < 2 ^ 24
  | .serverDhInnerData nonce serverNonce _ dhPrime gA _ =>
    nonce.length = 16 ∧ serverNonce.length = 16 ∧ dhPrime.length < 2 ^ 24 ∧ gA.length < 2 ^ 24
  | .rpcError _ errorDescription =>
    ∃ string, errorDescription = some string ∧ (utf8 string).length < 2 ^ 24
  | .msgsStateInfo _ info => info.length < 2 ^ 24
  | .msgAllInfo messageIds info => messageIds.length < 2 ^ 31 ∧ info.length < 2 ^ 24
  | .message m => m.data.length < 2 ^ 31
  | .msgsStateReq messageIds | .msgResendReq messageIds | .msgsAck messageIds =>
    messageIds.length < 2 ^ 31
  | .msgContainer messages =>
    messages.length < 2 ^ 31 ∧ ∀ message ∈ messages, message.data.length < 2 ^ 31
  | .futureSalts _ _ salts => salts.length < 2 ^ 31
  | _ => True

end Message

/-! ## The client's own encodings -/

/-- The body of `msgs_ack` in a transport transaction. -/
def msgsAckBuffer (scheduledMessageConfirmations : List Int64) : Bytes :=
  let buffer := MTBuffer.appendInt32 [] (0x62d6b459 : UInt32).toInt32
  let buffer := MTBuffer.appendInt32 buffer 481674261
  let buffer := MTBuffer.appendInt32 buffer (Int32.ofNat scheduledMessageConfirmations.length)
  scheduledMessageConfirmations.foldl MTBuffer.appendInt64 buffer

/-- What `MTResendMessageService` asks with. -/
def resendRequestBuffer (messageId : Int64) : Bytes :=
  let buffer := MTBuffer.appendInt32 [] (0x7d861a08 : UInt32).toInt32
  let buffer := MTBuffer.appendInt32 buffer 481674261
  let buffer := MTBuffer.appendInt32 buffer 1
  MTBuffer.appendInt64 buffer messageId

/-- The bytes that stand for a message: the schema's, and this client's. -/
inductive Encodes : Message → Bytes → Prop
  | schema (m : Message) : Encodes m m.encode
  | msgsAck (messageIds : List Int64) : Encodes (.msgsAck messageIds) (msgsAckBuffer messageIds)
  | resend (messageId : Int64) : Encodes (.msgResendReq [messageId]) (resendRequestBuffer messageId)

end Onegram.TL
