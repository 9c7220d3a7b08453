import Onegram.EncryptedPackets
import Onegram.Lib.Run

/-!
# The binding of a temporary key

`MTProto` works on one queue. A temporary key that is not bound is bound by a request of its own,
`auth.bindTempAuthKey`, which goes out in a transaction without other messages. The answer is looked
for under the message id of the request once the transport has said that the transaction was sent.

What the context has is read anew in each turn of the queue, so an event brings it. What the context
tells of comes later, in turns of its own. The messages of a packet are processed one after the
other, and nothing but the time sync service's completion comes between them; each is an event.

An assertion that fails ends the program: the step leaves the state as it is. `requests`,
`outstanding` and `marks` record what was done.
-/

namespace Onegram.Mtp.TempKeyBinding

open Bytes

/-! ## Keys -/

structure TempAuthKey extends MTDatacenterAuthKey where
  notBound : Bool
deriving DecidableEq, Repr

inductive MTDatacenterAuthTempKeyType
  | main
  | media
deriving DecidableEq, Repr

structure AuthInfo where
  authKey : Bytes
  authKeyId : Int
  authKeyAttributes : List (String × String) := []
  mainTempAuthKey : Option TempAuthKey := none
  mediaTempAuthKey : Option TempAuthKey := none
deriving DecidableEq, Repr

namespace AuthInfo

def tempAuthKeyWithType (info : AuthInfo) : MTDatacenterAuthTempKeyType → Option TempAuthKey
  | .main => info.mainTempAuthKey
  | .media => info.mediaTempAuthKey

def withUpdatedTempAuthKeyWithType (info : AuthInfo) (type : MTDatacenterAuthTempKeyType)
    (key : Option TempAuthKey) : AuthInfo :=
  match type with
  | .main => { info with mainTempAuthKey := key }
  | .media => { info with mediaTempAuthKey := key }

def removeAuthKeyAttribute (info : AuthInfo) (name : String) : AuthInfo :=
  { info with authKeyAttributes := info.authKeyAttributes.filter (·.1 ≠ name) }

@[simp] theorem tempAuthKeyWithType_updated (info : AuthInfo) (type : MTDatacenterAuthTempKeyType)
    (key : Option TempAuthKey) :
    (info.withUpdatedTempAuthKeyWithType type key).tempAuthKeyWithType type = key := by
  cases type <;> rfl

@[simp] theorem tempAuthKeyWithType_removed (info : AuthInfo) (name : String)
    (type : MTDatacenterAuthTempKeyType) :
    (info.removeAuthKeyAttribute name).tempAuthKeyWithType type
      = info.tempAuthKeyWithType type := by
  cases type <;> rfl

end AuthInfo

/-- The address of a transport scheme. `endpoint` stands for its host, port and secret. -/
structure MTDatacenterAddress where
  endpoint : ℕ
  preferForMedia : Bool
deriving DecidableEq, Repr

def MTDatacenterAddress.tempAuthKeyType (address : MTDatacenterAddress) :
    MTDatacenterAuthTempKeyType :=
  if address.preferForMedia then .media else .main

structure MTTransport where
  number : ℕ
  address : MTDatacenterAddress
deriving DecidableEq, Repr

/-! ## State -/

/-- The properties that are set once, before the first turn. -/
structure Settings where
  useTempAuthKeys : Bool := true
  useUnauthorizedMode : Bool := false
  cdn : Bool := false
  media : Bool := false
  enforceMedia : Bool := false
  requiredAuthToken : Option String := none
deriving DecidableEq, Repr

/-- What the context answers in a turn. -/
structure MTContext where
  transportScheme : Option MTDatacenterAddress
  authInfo : Option AuthInfo
  authToken : Option String := none
deriving DecidableEq, Repr

/-- The bits of `_mtState`. -/
structure MTProtoState where
  awaitingDatacenterScheme : Bool := false
  awaitingDatacenterAuthorization : Bool := false
  awaitingDatacenterTempAuthKey : Bool := false
  awaitingDatacenterAuthToken : Bool := false
  awaitingTimeFixAndSalts : Bool := false
  stopped : Bool := false
  paused : Bool := false
  bindingTempAuthKey : Bool := false
deriving DecidableEq, Repr

structure MTTimeFixContext where
  messageId : Int
  messageSeqNo : Int
  transactionId : ℕ
deriving DecidableEq, Repr

/-- A bind request as it was sent: `permAuthKeyId`, `nonce` and `expiresAt` in the clear, and in the
message encrypted with the permanent key also `tempAuthKeyId` and the session. -/
structure BindRequest where
  messageId : Int
  messageSeqNo : Int
  sessionId : Int
  nonce : Int
  tempAuthKeyId : Int
  permAuthKeyId : Int
  expiresAt : Int
deriving DecidableEq, Repr

/-- The context has the ids of the request, not the request: `tempAuthKeyId` is only recorded. -/
structure MTBindingTempAuthKeyContext where
  messageId : Int
  messageSeqNo : Int
  transactionId : ℕ
  tempAuthKeyId : Int
deriving DecidableEq, Repr

/-- What `[MTInternalMessageParser parseMessage:]` makes of the data of an `rpc_result`: an error,
or nothing that is looked at. -/
inductive RpcAnswer
  | rpcError (errorCode : Int) (errorDescription : String)
  | data (bytes : Bytes)
deriving DecidableEq, Repr

inductive Body
  | badServerSaltNotification (badMessageId : Int)
  | badMsgNotification (badMessageId errorCode : Int)
  | pong (messageId : Int)
  | rpcResult (requestMessageId : Int) (answer : RpcAnswer)
  | other
deriving DecidableEq, Repr

structure MTIncomingMessage where
  messageId : Int
  body : Body
deriving DecidableEq, Repr

/-- A key was marked as bound, on the answer to the request with the message id. -/
structure Mark where
  tempAuthKeyId : Int
  requestMessageId : Int
  signature : ℕ
deriving DecidableEq, Repr

structure State where
  authInfo : Option AuthInfo
  sessionInfo : SessionInfo
  processedMessageIds : List Int := []
  timeFixContext : Option MTTimeFixContext := none
  bindingTempAuthKeyId : Int := 0
  bindingTempAuthKeyContext : Option MTBindingTempAuthKeyContext := none
  transportScheme : Option MTDatacenterAddress := none
  transport : Option MTTransport := none
  transportCount : ℕ := 0
  mtState : MTProtoState := {}
  willRequestTransaction : Bool := false
  timeSyncService : Bool := false
  /-- The messages of the packet in hand, each with the address of the packet's transport. -/
  inHand : List (MTDatacenterAddress × MTIncomingMessage) := []
  requests : List BindRequest := []
  /-- The bind requests whose transaction has not had its completion called. -/
  outstanding : List BindRequest := []
  /-- The message ids and sequence numbers of the pings whose transaction has not either. -/
  outstandingTimeFixes : List (Int × Int) := []
  marks : List Mark := []
deriving DecidableEq, Repr

/-- `initWithContext:datacenterId:`. -/
def init (authInfo : Option AuthInfo) (sessionId : Int) : State :=
  { authInfo, sessionInfo := { sessionId } }

/-- What a transaction is made with: the messages that still need an id, by whether they require a
confirmation, and in how many containers they go; whether there is no salt; and for a bind request
its nonce and `expires_at`. -/
structure Ask where
  messages : List Bool := []
  containers : ℕ := 0
  saltSetEmpty : Bool := false
  nonce : Int := 0
  expiresAt : Int := 0
deriving DecidableEq, Repr

namespace State

def tempAuthKey (s : State) (address : MTDatacenterAddress) : Option TempAuthKey :=
  s.authInfo.bind (·.tempAuthKeyWithType address.tempAuthKeyType)

def canAskForServiceTransactions (s : State) : Bool :=
  !s.mtState.awaitingDatacenterScheme && !s.mtState.awaitingDatacenterAuthorization
    && !s.mtState.awaitingDatacenterTempAuthKey && !s.mtState.awaitingDatacenterAuthToken
    && !s.mtState.stopped

def canAskForTransactions (s : State) : Bool :=
  s.canAskForServiceTransactions && !s.mtState.awaitingTimeFixAndSalts
    && !s.mtState.bindingTempAuthKey

def requestTransportTransaction (s : State) : State := { s with willRequestTransaction := true }

/-! ## Transport and session -/

/-- The contexts of the two requests are only made with a transaction id. -/
def allTransactionsMayHaveFailed (s : State) : State :=
  if s.mtState.stopped then s
  else
    let requestTransaction := s.timeFixContext.isSome || s.bindingTempAuthKeyContext.isSome
    let s := { s with timeFixContext := none, bindingTempAuthKeyContext := none }
    if requestTransaction && !s.mtState.paused then s.requestTransportTransaction else s

/-- `transportTransactionsMayHaveFailed:transactionIds:`. -/
def transactionsMayHaveFailed (transactionIds : List ℕ) (s : State) : State :=
  if s.mtState.stopped then s
  else
    let timeFix := s.timeFixContext.any (·.transactionId ∈ transactionIds)
    let binding := s.bindingTempAuthKeyContext.any (·.transactionId ∈ transactionIds)
    let s := { s with
      timeFixContext := if timeFix then none else s.timeFixContext
      bindingTempAuthKeyContext := if binding then none else s.bindingTempAuthKeyContext }
    if (timeFix || binding) && !s.mtState.paused then s.requestTransportTransaction else s

/-- The transactions the old transport holds are told of in a turn of their own. -/
def setTransport (transport : Option MTTransport) (s : State) : State :=
  { s.allTransactionsMayHaveFailed with
    timeFixContext := none
    bindingTempAuthKeyContext := none
    transport }

def bindToPersistentKey (address : MTDatacenterAddress) (s : State) : State :=
  { s with
    bindingTempAuthKeyId := ((s.tempAuthKey address).map (·.authKeyId)).getD 0
    bindingTempAuthKeyContext := none
    mtState.bindingTempAuthKey := true }

/-- The state bit is cleared, and the queue asked for a transaction, if it was set. -/
def endBinding (s : State) : State :=
  if s.mtState.bindingTempAuthKey then
    { s with mtState.bindingTempAuthKey := false }.requestTransportTransaction
  else s

variable (cfg : Settings)

/-- The key in use still has to be bound. -/
def unboundTempAuthKey (address : MTDatacenterAddress) (s : State) : Option TempAuthKey :=
  if cfg.useTempAuthKeys then (s.tempAuthKey address).filter (·.notBound) else none

def checkTempAuthKeyBinding (address : MTDatacenterAddress) (s : State) : State :=
  match s.unboundTempAuthKey cfg address with
  | some effectiveTempAuthKey =>
    let isAlreadyBinding :=
      s.bindingTempAuthKeyId ≠ 0 ∧ s.bindingTempAuthKeyId = effectiveTempAuthKey.authKeyId
    let s :=
      if s.bindingTempAuthKeyId ≠ 0 ∧ s.bindingTempAuthKeyId ≠ effectiveTempAuthKey.authKeyId then
        { s with bindingTempAuthKeyId := 0, bindingTempAuthKeyContext := none }
      else s
    if ¬ isAlreadyBinding ∧ s.mtState.bindingTempAuthKey = false then s.bindToPersistentKey address
    else s
  | none =>
    { s with bindingTempAuthKeyId := 0, bindingTempAuthKeyContext := none }.endBinding

def resetTransport (context : MTContext) (s : State) : State :=
  if s.mtState.stopped then s
  else
    let s := if s.transport.isSome then s.setTransport none else s
    let transportScheme := context.transportScheme.filter fun address =>
      !(cfg.media && cfg.enforceMedia && !address.preferForMedia)
    let s := { s with transportScheme }
    match transportScheme with
    | none => { s with mtState.awaitingDatacenterScheme := true }
    | some address =>
      if !cfg.useUnauthorizedMode && context.authInfo.isNone then
        { s with mtState.awaitingDatacenterAuthorization := true }
      else if !cfg.useUnauthorizedMode && cfg.useTempAuthKeys
          && (context.authInfo.bind (·.tempAuthKeyWithType address.tempAuthKeyType)).isNone then
        { s with mtState.awaitingDatacenterTempAuthKey := true }
      else if cfg.requiredAuthToken.isSome && !cfg.useUnauthorizedMode
          && cfg.requiredAuthToken != context.authToken then
        { s with mtState.awaitingDatacenterAuthToken := true }
      else
        checkTempAuthKeyBinding cfg address
          { s.setTransport (some ⟨s.transportCount, address⟩) with
            transportCount := s.transportCount + 1 }

def resetSessionInfo (context : MTContext) (sessionId : Int) (s : State) : State :=
  (resetTransport cfg context
    { s with
      sessionInfo := s.sessionInfo.reset sessionId
      processedMessageIds := []
      timeFixContext := none
      bindingTempAuthKeyContext := none }).requestTransportTransaction

/-! ## Time sync -/

def initiateTimeSync (s : State) : State :=
  if s.mtState.awaitingTimeFixAndSalts then s
  else { s with mtState.awaitingTimeFixAndSalts := true, timeSyncService := true }

def completeTimeSync (s : State) : State :=
  if s.mtState.awaitingTimeFixAndSalts then
    { s with mtState.awaitingTimeFixAndSalts := false, timeSyncService := false }
  else s

def requestTransactionIfAble (s : State) : State :=
  if s.canAskForTransactions || s.canAskForServiceTransactions then s.requestTransportTransaction
  else s

/-! ## Transactions -/

variable (clock : ℕ → Int)

/-- The ids and sequence numbers of messages, and whether the clock was behind in one. -/
def numberMessages : List Bool → SessionInfo → Bool × SessionInfo
  | [], s => (false, s)
  | requiresConfirmation :: messages, s =>
    let (_, violated, s) := s.generateClientMessageId clock
    let (violated', s) := numberMessages messages (s.takeSeqNo requiresConfirmation).2
    (violated || violated', s)

def effectiveAuthKey (address : MTDatacenterAddress) (s : State) : Option MTDatacenterAuthKey :=
  if cfg.useTempAuthKeys then (s.tempAuthKey address).map (·.toMTDatacenterAuthKey)
  else some ((s.authInfo.map fun info => ⟨info.authKey, info.authKeyId⟩).getD ⟨[], 0⟩)

/-- A transaction with the messages of the services. The containers are numbered after them. -/
def messageTransaction (context : MTContext) (sessionId : Int) (ask : Ask) (s : State) : State :=
  let (monotonityViolated, sessionInfo) := numberMessages clock ask.messages s.sessionInfo
  if monotonityViolated then resetSessionInfo cfg context sessionId { s with sessionInfo }
  else if ask.saltSetEmpty && !cfg.useUnauthorizedMode then initiateTimeSync { s with sessionInfo }
  else
    { s with
      sessionInfo := (numberMessages clock (List.replicate ask.containers false) sessionInfo).2 }

/-- A key without data encrypts nothing, and then nothing is sent. -/
def timeFixTransaction (address : MTDatacenterAddress) (s : State) : State :=
  match effectiveAuthKey cfg address s with
  | none => s
  | some effectiveAuthKey =>
    let (messageId, _, sessionInfo) := s.sessionInfo.generateClientMessageId clock
    let (seqNo, sessionInfo) := sessionInfo.takeSeqNo false
    let s := { s with sessionInfo }
    if effectiveAuthKey.authKey = [] then s
    else { s with outstandingTimeFixes := s.outstandingTimeFixes ++ [(messageId, seqNo)] }

def bindingTransaction (address : MTDatacenterAddress) (ask : Ask) (s : State) : State :=
  match s.tempAuthKey address with
  | none => s
  | some effectiveTempAuthKey =>
    let (messageId, _, sessionInfo) := s.sessionInfo.generateClientMessageId clock
    let (messageSeqNo, sessionInfo) := sessionInfo.takeSeqNo true
    let s := { s with sessionInfo }
    if effectiveTempAuthKey.authKey = [] then s
    else
      let request : BindRequest := {
        messageId
        messageSeqNo
        sessionId := s.sessionInfo.sessionId
        nonce := ask.nonce
        tempAuthKeyId := effectiveTempAuthKey.authKeyId
        permAuthKeyId := ((s.authInfo.map (·.authKeyId)).getD 0)
        expiresAt := ask.expiresAt }
      { s with
        requests := s.requests ++ [request]
        outstanding := s.outstanding ++ [request] }

/-- `transportReadyForTransaction:`. -/
def readyForTransaction (transport : ℕ) (context : MTContext) (sessionId : Int) (ask : Ask)
    (s : State) : State :=
  match s.transport with
  | none => s
  | some current =>
    if current.number ≠ transport then s
    else if s.canAskForTransactions then messageTransaction cfg clock context sessionId ask s
    else if s.mtState.awaitingTimeFixAndSalts && s.canAskForServiceTransactions
        && s.timeFixContext.isNone then
      timeFixTransaction cfg clock current.address s
    else if !s.mtState.awaitingTimeFixAndSalts && s.mtState.bindingTempAuthKey
        && s.canAskForServiceTransactions && s.bindingTempAuthKeyContext.isNone then
      bindingTransaction clock current.address ask s
    else s

/-- The completion of a ping's transaction. -/
def timeFixCompletion (i : ℕ) (success : Bool) (transactionId : Option ℕ) (s : State) : State :=
  match s.outstandingTimeFixes[i]? with
  | none => s
  | some (messageId, messageSeqNo) =>
    let s := { s with outstandingTimeFixes := s.outstandingTimeFixes.eraseIdx i }
    match success, transactionId with
    | true, some transactionId =>
      { s with timeFixContext := some { messageId, messageSeqNo, transactionId } }
    | true, none => s
    | false, _ => s.requestTransportTransaction

/-- The completion of a bind request's transaction. -/
def bindingCompletion (i : ℕ) (success : Bool) (transactionId : Option ℕ) (s : State) : State :=
  match s.outstanding[i]? with
  | none => s
  | some request =>
    let s := { s with outstanding := s.outstanding.eraseIdx i }
    match success, transactionId with
    | true, some transactionId =>
      { s with bindingTempAuthKeyContext := some {
          messageId := request.messageId
          messageSeqNo := request.messageSeqNo
          transactionId
          tempAuthKeyId := request.tempAuthKeyId } }
    | true, none => s
    | false, _ => s.requestTransportTransaction

/-! ## Incoming data -/

def handleMissingKey (address : MTDatacenterAddress) (s : State) : State :=
  if cfg.cdn then { s with authInfo := none, mtState.awaitingDatacenterAuthorization := true }
  else if cfg.useTempAuthKeys then
    { s with
      authInfo :=
        s.authInfo.map (·.withUpdatedTempAuthKeyWithType address.tempAuthKeyType none)
      mtState.awaitingDatacenterTempAuthKey := true }
  else s

end State

/-- What a packet is once it is decrypted: `intact` is whether the lengths and the message key are
right, and `messages` has nothing for what cannot be parsed. -/
structure Packet where
  authKeyId : Int
  intact : Bool := true
  sessionId : Int
  messages : Option (List MTIncomingMessage)
  transactionId : ℕ
  requestTransactionAfterProcessing : Bool := false
deriving DecidableEq, Repr

inductive IncomingData
  | protocolError (protocolErrorCode : Int) (transactionId : ℕ)
  | packet (packet : Packet)
deriving DecidableEq, Repr

def MTIncomingMessage.isPermEmptyError (message : MTIncomingMessage) : Bool :=
  match message.body with
  | .rpcResult _ (.rpcError errorCode errorDescription) =>
    errorCode == 401 && errorDescription == "AUTH_KEY_PERM_EMPTY"
  | _ => false

/-- `boolTrue#997275b5` and `boolFalse#bc799737`. -/
def boolTrue : ℕ := 0x997275b5

def boolFalse : ℕ := 0xbc799737

/-- The first four bytes of an answer that is not an error. -/
def RpcAnswer.signature : RpcAnswer → Option ℕ
  | .rpcError _ _ => none
  | .data bytes => if 4 ≤ bytes.length then some (littleEndian (bytes.take 4)) else none

/-- `rpcResult`: `@true` for the one signature, `@false` for the other, in the source's order. -/
def RpcAnswer.rpcResult (answer : RpcAnswer) : Option Bool :=
  match answer.signature with
  | none => none
  | some signature =>
    if signature = 0xbc799737 then some true
    else if signature = 0x997275b5 then some false
    else none

namespace State

variable (cfg : Settings) (clock : ℕ → Int)

/-- `_decryptIncomingTransportData:` gives the data. -/
def decrypts (address : MTDatacenterAddress) (packet : Packet) (s : State) : Bool :=
  cfg.useUnauthorizedMode
    || (packet.intact && (effectiveAuthKey cfg address s).any fun effectiveAuthKey =>
      effectiveAuthKey.authKey ≠ [] ∧ effectiveAuthKey.authKeyId = packet.authKeyId)

/-- `_parseIncomingMessages:`. -/
def parseIncomingMessages (packet : Packet) (s : State) : Option (List MTIncomingMessage) :=
  if cfg.useUnauthorizedMode then if packet.authKeyId = 0 then packet.messages else none
  else if packet.sessionId = s.sessionInfo.sessionId then packet.messages else none

/-- `transportHasIncomingData:`. A reset of the transport's connection is the transport's. -/
def hasIncomingData (transport : ℕ) (context : MTContext) (sessionId : Int) (data : IncomingData)
    (s : State) : State :=
  match s.transport with
  | none => s
  | some current =>
    if current.number ≠ transport ∨ s.mtState.stopped then s
    else
      match data with
      | .protocolError protocolErrorCode transactionId =>
        let s := s.transactionsMayHaveFailed [transactionId]
        if protocolErrorCode = -404 then handleMissingKey cfg current.address s else s
      | .packet packet =>
        if decrypts cfg current.address packet s then
          match parseIncomingMessages cfg packet s with
          | none =>
            resetSessionInfo cfg context sessionId
              (s.transactionsMayHaveFailed [packet.transactionId])
          | some messages =>
            if messages.any (·.isPermEmptyError) then handleMissingKey cfg current.address s
            else
              let s := { s with inHand := messages.map (current.address, ·) }
              if packet.requestTransactionAfterProcessing then s.requestTransportTransaction
              else s
        else s.transactionsMayHaveFailed [packet.transactionId]

/-- A bad server salt has no error code. -/
def receivedBadMsgNotification (context : MTContext) (sessionId badMessageId : Int)
    (errorCode : Option Int) (s : State) : State :=
  let s :=
    if errorCode = none ∨ errorCode = some 16 ∨ errorCode = some 17 then
      if s.timeFixContext.any (·.messageId = badMessageId) then
        { s with timeFixContext := none }.completeTimeSync.requestTransactionIfAble
      else s.initiateTimeSync
    else if errorCode = some 32 ∨ errorCode = some 33 then
      (resetSessionInfo cfg context sessionId s).initiateTimeSync
    else if errorCode = some 48 then s.initiateTimeSync
    else s
  let s :=
    if s.bindingTempAuthKeyContext.any (·.messageId = badMessageId) then
      { s with bindingTempAuthKeyContext := none }
    else s
  s.requestTransactionIfAble

def receivedPong (messageId : Int) (s : State) : State :=
  if s.timeFixContext.any (·.messageId = messageId) then
    { s with timeFixContext := none }.completeTimeSync.requestTransactionIfAble
  else s

/-- The key in use is not unbound any more, and the server is to be told again who is there. -/
def markAsBound (address : MTDatacenterAddress) (requestMessageId : Int) (signature : ℕ)
    (s : State) : State :=
  match s.tempAuthKey address with
  | none => s
  | some effectiveTempAuthKey =>
    { s with
      authInfo := s.authInfo.map fun info =>
        (info.withUpdatedTempAuthKeyWithType address.tempAuthKeyType
          (some { effectiveTempAuthKey with notBound := false })).removeAuthKeyAttribute
            "apiInitializationHash"
      marks := s.marks ++ [⟨effectiveTempAuthKey.authKeyId, requestMessageId, signature⟩] }

/-- An answer of either kind responds to `boolValue`. -/
def receivedBindingResult (address : MTDatacenterAddress) (requestMessageId : Int)
    (answer : RpcAnswer) (s : State) : State :=
  if s.bindingTempAuthKeyContext.any (·.messageId = requestMessageId) then
    let s := { s with bindingTempAuthKeyContext := none }
    match answer.rpcResult with
    | some _ =>
      { s.markAsBound address requestMessageId (answer.signature.getD 0) with
        bindingTempAuthKeyId := 0 }.endBinding
    | none => s.requestTransportTransaction
  else s

/-- `_processIncomingMessage:`. Confirmations, and what the services do with a message, only ask for
transactions. -/
def processIncomingMessage (address : MTDatacenterAddress) (context : MTContext) (sessionId : Int)
    (incomingMessage : MTIncomingMessage) (s : State) : State :=
  if incomingMessage.messageId ∈ s.processedMessageIds then s
  else
    let s := { s with processedMessageIds := incomingMessage.messageId :: s.processedMessageIds }
    match incomingMessage.body with
    | .badServerSaltNotification badMessageId =>
      if cfg.useUnauthorizedMode then s
      else receivedBadMsgNotification cfg context sessionId badMessageId none s
    | .badMsgNotification badMessageId errorCode =>
      if cfg.useUnauthorizedMode then s
      else receivedBadMsgNotification cfg context sessionId badMessageId (some errorCode) s
    | .pong messageId => s.receivedPong messageId
    | .rpcResult requestMessageId answer =>
      s.receivedBindingResult address requestMessageId answer
    | .other => s

/-! ## The context's notifications -/

/-- `contextDatacenterTransportSchemeUpdated:`, for the datacenter and kind of this object. -/
def transportSchemeUpdated (transportScheme : Option MTDatacenterAddress) (context : MTContext)
    (s : State) : State :=
  if s.mtState.stopped = false ∧ (s.transportScheme = none ∨ s.transportScheme ≠ transportScheme)
  then
    (resetTransport cfg context
      { s with mtState.awaitingDatacenterScheme := false }).requestTransportTransaction
  else s

/-- Whether a temporary key is awaited, once an info has come for the address of the scheme. -/
def awaitsTempAuthKey (address : MTDatacenterAddress) (context : MTContext) (s : State) : Bool :=
  let awaiting := s.mtState.awaitingDatacenterTempAuthKey
    || (cfg.useTempAuthKeys
      && (context.authInfo.bind (·.tempAuthKeyWithType address.tempAuthKeyType)).isNone)
  awaiting && (s.tempAuthKey address).isNone

/-- `contextDatacenterAuthInfoUpdated:`. -/
def authInfoUpdated (authInfo : AuthInfo) (context : MTContext) (s : State) : State :=
  if cfg.useUnauthorizedMode then s
  else
    let wasSuspended := s.mtState.awaitingDatacenterAuthorization
      || s.mtState.awaitingDatacenterTempAuthKey
    let s := { s with authInfo := some authInfo, mtState.awaitingDatacenterAuthorization := false }
    let s :=
      match s.transportScheme with
      | none => s
      | some address =>
        checkTempAuthKeyBinding cfg address
          { s with
            mtState.awaitingDatacenterTempAuthKey := awaitsTempAuthKey cfg address context s }
    if s.mtState.awaitingDatacenterAuthorization = false
        ∧ s.mtState.awaitingDatacenterTempAuthKey = false ∧ wasSuspended then
      (resetTransport cfg context s).requestTransportTransaction
    else s

/-- `contextDatacenterAuthTokenUpdated:`. -/
def authTokenUpdated (authToken : Option String) (context : MTContext) (s : State) : State :=
  if !cfg.useUnauthorizedMode && cfg.requiredAuthToken.isSome && cfg.requiredAuthToken == authToken
      && s.mtState.awaitingDatacenterAuthToken then
    (resetTransport cfg context
      { s with mtState.awaitingDatacenterAuthToken := false }).requestTransportTransaction
  else s

def pause (s : State) : State :=
  if s.mtState.paused then s else { s with mtState.paused := true }.setTransport none

def resume (context : MTContext) (s : State) : State :=
  if s.mtState.paused then
    (resetTransport cfg context { s with mtState.paused := false }).requestTransportTransaction
  else s

def stop (s : State) : State :=
  if s.mtState.stopped then s
  else
    let s := { s with mtState.stopped := true }
    if s.transport.isSome then s.setTransport none else s

/-- The next pass after `requestTransportTransaction`. -/
def queuePass (context : MTContext) (s : State) : State :=
  if s.willRequestTransaction then
    let s := { s with willRequestTransaction := false }
    if s.mtState.stopped ∨ s.mtState.paused then s
    else if s.transport.isNone then resetTransport cfg context s
    else s
  else s

end State

/-! ## Turns of the queue -/

inductive Turn
  | pause
  | resume
  | stop
  | resetSessionInfo
  | requestTimeResync
  | requestTransportTransaction
  | queuePass
  | readyForTransaction (transport : ℕ) (ask : Ask)
  | timeFixCompletion (i : ℕ) (success : Bool) (transactionId : Option ℕ)
  | bindingCompletion (i : ℕ) (success : Bool) (transactionId : Option ℕ)
  | transactionsMayHaveFailed (transactionIds : List ℕ)
  | hasIncomingData (transport : ℕ) (data : IncomingData)
  | transportSchemeUpdated (transportScheme : Option MTDatacenterAddress)
  | authInfoUpdated (authInfo : AuthInfo)
  | authTokenUpdated (authToken : Option String)
  | apiEnvironmentUpdated (resetConnection : Bool)
deriving DecidableEq, Repr

inductive Task
  | turn (turn : Turn)
  | nextMessage
  | timeSyncServiceCompleted
deriving DecidableEq, Repr

/-- `sessionId` is the random id of a session the task begins. -/
structure Event where
  task : Task
  context : MTContext
  sessionId : Int := 0
deriving DecidableEq, Repr

open State

variable (cfg : Settings) (clock : ℕ → Int)

def takeTurn (context : MTContext) (sessionId : Int) (s : State) : Turn → State
  | .pause => s.pause
  | .resume => s.resume cfg context
  | .stop => s.stop
  | .resetSessionInfo => s.resetSessionInfo cfg context sessionId
  | .requestTimeResync => { s with timeSyncService := true }
  | .requestTransportTransaction => s.requestTransportTransaction
  | .queuePass => s.queuePass cfg context
  | .readyForTransaction transport ask =>
    s.readyForTransaction cfg clock transport context sessionId ask
  | .timeFixCompletion i success transactionId => s.timeFixCompletion i success transactionId
  | .bindingCompletion i success transactionId => s.bindingCompletion i success transactionId
  | .transactionsMayHaveFailed transactionIds => s.transactionsMayHaveFailed transactionIds
  | .hasIncomingData transport data => s.hasIncomingData cfg transport context sessionId data
  | .transportSchemeUpdated transportScheme => s.transportSchemeUpdated cfg transportScheme context
  | .authInfoUpdated authInfo => s.authInfoUpdated cfg authInfo context
  | .authTokenUpdated authToken => s.authTokenUpdated cfg authToken context
  | .apiEnvironmentUpdated resetConnection =>
    if resetConnection then (s.resetTransport cfg context).requestTransportTransaction else s

/-- A turn is taken when no message of a packet is left. -/
def step (s : State) (e : Event) : State :=
  match e.task with
  | .turn turn => if s.inHand = [] then takeTurn cfg clock e.context e.sessionId s turn else s
  | .nextMessage =>
    match s.inHand with
    | [] => s
    | (address, incomingMessage) :: inHand =>
      { s with inHand }.processIncomingMessage cfg address e.context e.sessionId incomingMessage
  | .timeSyncServiceCompleted =>
    if s.timeSyncService then
      { s.completeTimeSync with timeSyncService := false }.requestTransactionIfAble
    else s

end Onegram.Mtp.TempKeyBinding
