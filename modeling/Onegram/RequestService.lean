import Onegram.Lib.Bytes
import Onegram.TransportTransaction

/-!
# The request service

`MTRequestMessageService` keeps the requests of the application, hands them to `MTProto` whenever
the transport asks, and ends each with its answer. What a request waits for is written on its
`requestContext`, which the callbacks of `MTProto` set and clear.

Times are in milliseconds. An answer comes parsed by `MTInternalMessageParser`. The requests for a
new transport transaction are left out: the transport may ask at any time.
-/

namespace Onegram.Mtp

/-- The internal id of a connection, with the transport the connection is of. -/
structure TransactionId where
  transport : Nat
  connection : Nat
deriving DecidableEq, Repr

structure RequestContext where
  messageId : Int
  messageSeqNo : Int
  transactionId : Option TransactionId := none
  willInitializeApi : Bool := false
  waitingForMessageId : Bool := false
  delivered : Bool := false
  responseMessageId : Int := 0
  /-- The session the message was numbered in. Not in the source. -/
  session : Nat
deriving DecidableEq, Repr

structure RequestErrorContext where
  minimalExecuteTime : Int := 0
  internalServerErrorCount : Nat := 0
  floodWaitSeconds : Int := 0
  waitingForTokenExport : Bool := false
deriving DecidableEq, Repr

structure DropResponseContext where
  dropMessageId : Int
  messageId : Int := 0
  messageSeqNo : Int := 0
deriving DecidableEq, Repr

structure MTRpcError where
  errorCode : Int
  errorDescription : String
deriving DecidableEq, Repr

structure MTRequest (ρ : Type) where
  internalId : Nat
  payload : List UInt8
  responseParser : List UInt8 → Option ρ
  hasHighPriority : Bool := false
  /-- `acknowledgementReceived != nil`. -/
  needsQuickAck : Bool := false
  dependsOnPasswordEntry : Bool := false
  passthroughPasswordEntryError : Bool := false
  shouldContinueExecutionWithErrorContext : Option (RequestErrorContext → Bool) := none
  /-- Asked of another request, given by its internal id. -/
  shouldDependOnRequest : Option (Nat → Bool) := none
  requestContext : Option RequestContext := none
  errorContext : Option RequestErrorContext := none

structure MTApiEnvironment where
  apiInitializationHash : String
  /-- `invokeWithLayer` and `initConnection`, up to the query. -/
  initConnection : List UInt8
  disableUpdates : Bool := false
deriving DecidableEq, Repr

/-- What becomes of requests, newest last. Not in the source. -/
inductive Happening (ρ : Type) where
  | added (internalId : Nat)
  | removed (internalId : Nat)
  | completed (internalId : Nat) (result : Option ρ) (timestamp : Int) (error : Option MTRpcError)

structure MTRequestMessageService (ρ : Type) where
  requests : List (MTRequest ρ) := []
  dropResponseContexts : List DropResponseContext := []
  apiEnvironment : Option MTApiEnvironment := none
  /-- `apiInitializationHash` of the key's attributes in the context. -/
  initializedHash : Option String := none
  forceBackgroundRequests : Bool := false
  /-- `isPasswordInputRequiredForDatacenterWithId:`. -/
  passwordInputRequired : Bool := false
  /-- `requiredAuthToken != nil`. -/
  requiredAuthToken : Bool := false
  nextMessageInternalId : Nat := 0
  log : List (Happening ρ) := []

/-- The first element that passes the test is changed. -/
def updateFirst {α : Type} (test : α → Bool) (f : α → α) : List α → List α
  | [] => []
  | a :: l => if test a then f a :: l else a :: updateFirst test f l

section Scanner

/-- `rangeOfString:` finds the word. -/
def hasWord (text word : String) : Bool := decide (word.toList <:+: text.toList)

/-- What follows the first place of the word, in any case of letters, as `NSScanner` compares. -/
def scanAfter (word : List Char) : List Char → Option (List Char)
  | [] => none
  | c :: l =>
    if ((c :: l).take word.length).map Char.toLower = word.map Char.toLower then
      some ((c :: l).drop word.length)
    else scanAfter word l

/-- `scanInt:` of `NSScanner`. -/
def scanInt (l : List Char) : Option Int :=
  let l := l.dropWhile Char.isWhitespace
  let (negative, l) := match l with
    | '-' :: l => (true, l)
    | '+' :: l => (false, l)
    | l => (false, l)
  let digits := l.takeWhile Char.isDigit
  let value : Int := digits.foldl (fun n c => 10 * n + (c.toNat - 48 : Nat)) 0
  if digits = [] then none
  else some (if negative then max (-2 ^ 31) (-value) else min (2 ^ 31 - 1) value)

/-- The seconds after `FLOOD_WAIT_`. -/
def scanFloodWait (description : String) : Option Int :=
  (scanAfter "FLOOD_WAIT_".toList description.toList).bind scanInt

end Scanner

variable {ρ : Type}

namespace MTRequest

def hasMessageId (r : MTRequest ρ) (messageId : Int) : Bool :=
  r.requestContext.any (·.messageId == messageId)

/-- The request is not to be sent before some time, or before the token is exported. -/
def parked (r : MTRequest ρ) (now : Int) : Bool :=
  r.errorContext.any fun e => decide (now < e.minimalExecuteTime) || e.waitingForTokenExport

def idle (r : MTRequest ρ) : Bool :=
  r.requestContext.all fun c => !c.waitingForMessageId && !c.delivered && c.transactionId.isNone

def updateContext (r : MTRequest ρ) (f : RequestContext → RequestContext) : MTRequest ρ :=
  { r with requestContext := r.requestContext.map f }

def dropContext (r : MTRequest ρ) : MTRequest ρ := { r with requestContext := none }

/-- What an error makes of the request, and whether it is sent again. -/
def receivedError (requiredAuthToken : Bool) (now : Int) (r : MTRequest ρ) (e : MTRpcError) :
    MTRequest ρ × Bool :=
  if e.errorCode = 401 then
    if hasWord e.errorDescription "SESSION_PASSWORD_NEEDED" then (r, false)
    else if requiredAuthToken && (hasWord e.errorDescription "SESSION_REVOKED"
        || hasWord e.errorDescription "AUTH_KEY_UNREGISTERED") then
      let context := r.errorContext.getD {}
      ({ r with errorContext := some { context with waitingForTokenExport := true } }, true)
    else (r, false)
  else if e.errorCode = -500 ∨ e.errorCode = 500 then
    let context := r.errorContext.getD {}
    let context :=
      { context with internalServerErrorCount := context.internalServerErrorCount + 1 }
    if r.shouldContinueExecutionWithErrorContext.any (· context) then
      ({ r with errorContext := some { context with
          minimalExecuteTime := max context.minimalExecuteTime (now + 2000) } }, true)
    else ({ r with errorContext := some context }, false)
  else if e.errorCode = 420 ∨ hasWord e.errorDescription "FLOOD_WAIT_" then
    let context := r.errorContext.getD {}
    match if hasWord e.errorDescription "FLOOD_WAIT_" then scanFloodWait e.errorDescription
      else none with
    | none => ({ r with errorContext := some context }, false)
    | some errorWaitTime =>
      let context := { context with floodWaitSeconds := errorWaitTime }
      if r.shouldContinueExecutionWithErrorContext.all (· context) then
        ({ r with errorContext := some { context with
            minimalExecuteTime := max context.minimalExecuteTime (now + 1000 * errorWaitTime) } },
          true)
      else ({ r with errorContext := some context }, false)
  else (r, false)

end MTRequest

/-- An answer of the server: that it dropped one, an error, or data. -/
inductive RpcAnswer where
  | dropped
  | error (e : MTRpcError)
  | data (bytes : List UInt8)

/-- What `mtProtoMessageTransaction:` returns, with what its blocks capture. -/
structure MessageTransaction where
  messagePayload : List OutgoingMessage
  requestInternalIdToMessageInternalId : List (Nat × Nat)
  dropMessageIdToMessageInternalId : List (Int × Nat)
  requestsWillInitializeApi : Bool

namespace MTRequestMessageService

def addRequest (s : MTRequestMessageService ρ) (r : MTRequest ρ) : MTRequestMessageService ρ :=
  if r.internalId ∈ s.requests.map (·.internalId) then s
  else { s with
    requests := s.requests ++ [r]
    log := s.log ++ [.added r.internalId] }

/-- The part of `updateRequestsTimer` that is not the timer: a time that has passed is cleared. -/
def updateRequestsTimer (s : MTRequestMessageService ρ) (now : Int) : MTRequestMessageService ρ :=
  { s with requests := s.requests.map fun r =>
      if r.requestContext.isNone then
        { r with errorContext := r.errorContext.map fun e =>
            if now < e.minimalExecuteTime then e else { e with minimalExecuteTime := 0 } }
      else r }

def removeRequestByInternalId (s : MTRequestMessageService ρ) (internalId : Nat) (now : Int) :
    MTRequestMessageService ρ :=
  match s.requests.find? (·.internalId == internalId) with
  | none => s.updateRequestsTimer now
  | some r =>
    ({ s with
      dropResponseContexts := s.dropResponseContexts
        ++ (r.requestContext.map fun c => { dropMessageId := c.messageId }).toList
      requests := s.requests.eraseP (·.internalId == internalId)
      log := s.log ++ [.removed internalId] } : MTRequestMessageService ρ).updateRequestsTimer now

def requestsWillInitializeApi (s : MTRequestMessageService ρ) : Bool :=
  s.apiEnvironment.any fun e => decide (s.initializedHash ≠ some e.apiInitializationHash)

def int64Bytes (n : Int) : List UInt8 := Bytes.bytesLE 8 (n % 2 ^ 64).toNat

/-- `invokeAfterMsg`. -/
def invokeAfterMsg (messageId : Int) (data : List UInt8) : List UInt8 :=
  [0x2d, 0x37, 0x9f, 0xcb] ++ int64Bytes messageId ++ data

/-- The last request before `r` that `r` depends on. -/
def dependency (s : MTRequestMessageService ρ) (r : MTRequest ρ) : Option (MTRequest ρ) :=
  r.shouldDependOnRequest.bind fun dependsOn =>
    (s.requests.takeWhile (·.internalId != r.internalId)).reverse.find?
      fun another => dependsOn another.internalId

/-- The data of a request, and the request it is to wait for whose message has no number yet. -/
def decorateRequestData (s : MTRequestMessageService ρ) (r : MTRequest ρ) (initializeApi : Bool) :
    List UInt8 × Option Nat :=
  let currentData := r.payload
  let currentData := match s.apiEnvironment with
    | some e => if initializeApi then e.initConnection ++ currentData else currentData
    | none => currentData
  let currentData :=
    if s.apiEnvironment.any (·.disableUpdates) || s.forceBackgroundRequests then
      [0xb7, 0x59, 0x94, 0xbf] ++ currentData
    else currentData
  match s.dependency r with
  | none => (currentData, none)
  | some another =>
    match another.requestContext with
    | some c => (invokeAfterMsg c.messageId currentData, none)
    | none => (currentData, some another.internalId)

/-- The requests the next transaction is made of. -/
def sendable (s : MTRequestMessageService ρ) (now : Int) : List (MTRequest ρ) :=
  s.requests.filter fun r =>
    !(r.dependsOnPasswordEntry && s.passwordInputRequired) && !r.parked now && r.idle

def outgoingMessage (s : MTRequestMessageService ρ) (messageInternalIds : List (Nat × Nat))
    (r : MTRequest ρ) (internalId : Nat) : OutgoingMessage :=
  let (data, unresolved) := s.decorateRequestData r s.requestsWillInitializeApi
  { internalId, data
    messageId := (r.requestContext.map (·.messageId)).getD 0
    messageSeqNo := (r.requestContext.map (·.messageSeqNo)).getD 0
    needsQuickAck := r.needsQuickAck
    hasHighPriority := r.hasHighPriority
    dynamicDecorator := unresolved.map fun requestInternalId =>
      fun currentData prepared =>
        match (messageInternalIds.lookup requestInternalId).bind prepared with
        | some message => some (invokeAfterMsg message.messageId currentData)
        | none => some currentData }

def dropMessage (d : DropResponseContext) (internalId : Nat) : OutgoingMessage :=
  { internalId, data := [0x40, 0xa7, 0xe4, 0x58] ++ int64Bytes d.dropMessageId
    messageId := d.messageId, messageSeqNo := d.messageSeqNo, requiresConfirmation := false }

/-- A transaction of all requests that can be sent and all answers to be dropped, or none. -/
def mtProtoMessageTransaction (s : MTRequestMessageService ρ) (now : Int) :
    Option MessageTransaction :=
  let requests := (s.sendable now).zipIdx s.nextMessageInternalId
  let messageInternalIds := requests.map fun (r, id) => (r.internalId, id)
  let drops := s.dropResponseContexts.zipIdx (s.nextMessageInternalId + requests.length)
  let messages := (requests.map fun (r, id) => s.outgoingMessage messageInternalIds r id)
    ++ drops.map fun (d, id) => dropMessage d id
  if messages = [] then none
  else some
    { messagePayload := messages
      requestInternalIdToMessageInternalId := messageInternalIds
      -- of two drops of one message the later stands in the dictionary
      dropMessageIdToMessageInternalId := (drops.map fun (d, id) => (d.dropMessageId, id)).reverse
      requestsWillInitializeApi := s.requestsWillInitializeApi }

/-- The `prepared` block: the numbered messages now wait for the transport. -/
def prepared (s : MTRequestMessageService ρ) (t : MessageTransaction) (session : Nat)
    (preparedMessage : Nat → Option PreparedMessage) : MTRequestMessageService ρ :=
  { s with requests := s.requests.map fun r =>
      match (t.requestInternalIdToMessageInternalId.lookup r.internalId).bind preparedMessage with
      | some message =>
        { r with
          requestContext := some
            { messageId := message.messageId
              messageSeqNo := message.seqNo
              willInitializeApi := t.requestsWillInitializeApi
              waitingForMessageId := true
              session } }
      | none => r }

/-- The `completion` block. `sent` gives the messages of the payload and the transaction that took
it; a payload that was not taken comes without. -/
def completion (s : MTRequestMessageService ρ) (t : MessageTransaction) (session : Nat)
    (preparedMessage : Nat → Option PreparedMessage) (sent : Option (List Nat × TransactionId)) :
    MTRequestMessageService ρ :=
  { s with
    requests := s.requests.map fun r =>
      match t.requestInternalIdToMessageInternalId.lookup r.internalId with
      | none => r
      | some id =>
        let r := r.updateContext fun c => { c with waitingForMessageId := false }
        match sent with
        | none => r
        | some (messageInternalIds, transactionId) =>
          match if id ∈ messageInternalIds then preparedMessage id else none with
          | none => r
          | some message =>
            { r with
              requestContext := some
                { messageId := message.messageId
                  messageSeqNo := message.seqNo
                  transactionId := some transactionId
                  willInitializeApi := t.requestsWillInitializeApi
                  session } }
    dropResponseContexts := s.dropResponseContexts.map fun d =>
      match sent, t.dropMessageIdToMessageInternalId.lookup d.dropMessageId with
      | some (messageInternalIds, _), some id =>
        match if id ∈ messageInternalIds then preparedMessage id else none with
        | none => d
        | some message => { d with messageId := message.messageId, messageSeqNo := message.seqNo }
      | _, _ => d }

/-- What the answer is to the request: a result, or an error in place of one. -/
def rpcOutcome (r : MTRequest ρ) : RpcAnswer → Option ρ × Option MTRpcError
  | .error e => (none, some e)
  | .data bytes =>
    match r.responseParser bytes with
    | some result => (some result, none)
    | none => (none, some { errorCode := 500, errorDescription := "TL_PARSING_ERROR" })
  | .dropped => (none, none)

/-- What an answer changes in the context of the datacenter. -/
def rpcContext (s : MTRequestMessageService ρ) (r : MTRequest ρ) :
    Option MTRpcError → MTRequestMessageService ρ
  | none =>
    if r.requestContext.any (·.willInitializeApi) then
      { s with initializedHash := s.apiEnvironment.map (·.apiInitializationHash) }
    else s
  | some e =>
    if e.errorCode = 401 then
      if hasWord e.errorDescription "SESSION_PASSWORD_NEEDED" && !r.passthroughPasswordEntryError
      then { s with passwordInputRequired := true } else s
    else if e.errorCode = 400 ∧ hasWord e.errorDescription "FLOOD_WAIT_" = false
        ∧ hasWord e.errorDescription "CONNECTION_NOT_INITED" then
      { s with initializedHash := none }
    else s

/-- The request as the error leaves it, and whether it is to be sent again. -/
def rpcVerdict (s : MTRequestMessageService ρ) (now : Int) (r : MTRequest ρ) :
    Option MTRpcError → MTRequest ρ × Bool
  | some e => r.receivedError s.requiredAuthToken now e
  | none => (r, false)

/-- The first request that waits under the id is restarted, or leaves and is completed. -/
def endRpc (s : MTRequestMessageService ρ) (requestMessageId timestamp : Int) (r : MTRequest ρ)
    (restartRequest : Bool) (result : Option ρ) (error : Option MTRpcError) :
    MTRequestMessageService ρ :=
  if restartRequest then
    { s with requests :=
        updateFirst (·.hasMessageId requestMessageId) (fun _ => r.dropContext) s.requests }
  else
    { s with
      requests := s.requests.eraseP (·.hasMessageId requestMessageId)
      log := s.log ++ [.completed r.internalId result timestamp error] }

/-- `receivedMessage:` with an `MTRpcResultMessage`. -/
def receivedRpcResult (s : MTRequestMessageService ρ) (requestMessageId timestamp now : Int)
    (answer : RpcAnswer) : MTRequestMessageService ρ :=
  match answer with
  | .dropped => { s with dropResponseContexts :=
      s.dropResponseContexts.eraseP (·.messageId == requestMessageId) }
  | answer =>
    match s.requests.find? (·.hasMessageId requestMessageId) with
    | none => s.updateRequestsTimer now
    | some r =>
      let (result, error) := rpcOutcome r answer
      let s := s.rpcContext r error
      let (r, restartRequest) := s.rpcVerdict now r error
      (s.endRpc requestMessageId timestamp r restartRequest result error).updateRequestsTimer now

def messageDeliveryConfirmed (s : MTRequestMessageService ρ) (messageIds : List Int) :
    MTRequestMessageService ρ :=
  { s with requests := messageIds.foldl (fun requests messageId =>
      updateFirst (·.hasMessageId messageId)
        (fun r => r.updateContext fun c => { c with delivered := true }) requests) s.requests }

def messageDeliveryFailed (s : MTRequestMessageService ρ) (messageId : Int) :
    MTRequestMessageService ρ :=
  { s with
    requests := updateFirst (·.hasMessageId messageId) (·.dropContext) s.requests
    dropResponseContexts := updateFirst (·.messageId == messageId)
      (fun d => { d with messageId := 0, messageSeqNo := 0 }) s.dropResponseContexts }

/-- The transactions that pass the test may have failed. -/
def forgetTransactions (s : MTRequestMessageService ρ) (failed : TransactionId → Bool) :
    MTRequestMessageService ρ :=
  { s with requests := s.requests.map fun r => r.updateContext fun c =>
      if c.transactionId.any failed then { c with transactionId := none } else c }

def transactionsMayHaveFailed (s : MTRequestMessageService ρ)
    (transactionIds : List TransactionId) : MTRequestMessageService ρ :=
  s.forgetTransactions fun t => decide (t ∈ transactionIds)

def allTransactionsMayHaveFailed (s : MTRequestMessageService ρ) : MTRequestMessageService ρ :=
  s.forgetTransactions fun _ => true

/-- `shouldRequestMessageWithId:`, which says yes when some request waits under the id. -/
def shouldRequestMessage (s : MTRequestMessageService ρ) (responseMessageId messageId : Int)
    (currentTransactionId : TransactionId) : MTRequestMessageService ρ × Bool :=
  let update (r : MTRequest ρ) := r.updateContext fun c =>
    if c.transactionId.all (· == currentTransactionId) then { c with responseMessageId } else c
  ({ s with requests := updateFirst (·.hasMessageId messageId) update s.requests },
    s.requests.any (·.hasMessageId messageId))

def messageResendRequestFailed (s : MTRequestMessageService ρ) (messageId : Int) :
    MTRequestMessageService ρ :=
  { s with requests := s.requests.map fun r =>
      if r.requestContext.any (·.responseMessageId == messageId) then r.dropContext else r }

def didChangeSession (s : MTRequestMessageService ρ) : MTRequestMessageService ρ :=
  { s with requests := s.requests.map (·.dropContext), dropResponseContexts := [] }

def serverDidChangeSession (s : MTRequestMessageService ρ) (firstValidMessageId : Int)
    (otherValidMessageIds : List Int) : MTRequestMessageService ρ :=
  { s with requests := s.requests.map fun r =>
      if r.requestContext.any fun c =>
          decide (c.messageId < firstValidMessageId ∧ ¬c.messageId ∈ otherValidMessageIds) then
        r.dropContext
      else r }

def authTokenUpdated (s : MTRequestMessageService ρ) : MTRequestMessageService ρ :=
  { s with requests := s.requests.map fun r =>
      { r with errorContext := r.errorContext.map fun e =>
        { e with waitingForTokenExport := false } } }

end MTRequestMessageService

end Onegram.Mtp

/-!
## The request service in a connection

`MTProto` asks the service for a transaction, numbers its messages, calls `prepared` and hands the
payloads to the transport, which calls back once for each: with success and the internal id of the
connection that took it, or without. In between anything else may happen. All calls run on
`managerQueue`, one after the other.
-/

namespace Onegram.Mtp

variable {ρ : Type}

/-- A transaction with its numbered messages and the payloads whose completion is still to come.
The transport and the session are those it was made for. -/
structure PendingTransaction where
  transaction : MessageTransaction
  preparedMessage : Nat → Option PreparedMessage
  payloads : List (List Nat)
  transport : Nat
  session : Nat

structure World (ρ : Type) where
  service : MTRequestMessageService ρ
  mtProto : MTProto
  pending : List PendingTransaction := []
  /-- The number of the transport, counted up when it is replaced, and its open connections. -/
  transport : Nat := 0
  connections : List Nat := []
  /-- The number of the session, counted up with each new one. -/
  session : Nat := 0

/-- A request outside the service: only the service writes a `requestContext`, and it clears it
when the request leaves. -/
abbrev NewRequest (ρ : Type) := { r : MTRequest ρ // r.requestContext = none }

inductive WorldEvent (ρ : Type) where
  | addRequest (r : NewRequest ρ)
  | removeRequest (internalId : Nat) (now : Int)
  /-- The transport asks; the transactions of other services come before and after. -/
  | transportReady (now : Int) (before after : List (List OutgoingMessage)) (r : TransactionRequest)
  /-- The transport is done with one payload of a pending transaction; `connection` took it. -/
  | completion (transaction payload : Nat) (connection : Option Nat)
  | rpcResult (requestMessageId timestamp now : Int) (answer : RpcAnswer)
  | messagesAcknowledged (messageIds : List Int)
  | badMessage (messageIds : List Int)
  | responseAnnounced (responseMessageId messageId : Int) (transactionId : TransactionId)
  | resendRequestFailed (messageId : Int)
  | transactionsMayHaveFailed (transactionIds : List TransactionId)
  | connectionOpened (connection : Nat)
  | connectionClosed (connection : Nat)
  | transportReplaced
  | sessionReset (sessionId : Int)
  | serverSessionChanged (firstValidMessageId : Int) (otherValidMessageIds : List Int)
  | authTokenUpdated
  | passwordInputRequired (required : Bool)

namespace World

variable (clock : Nat → Int)

/-- `setTransport:`. -/
def replaceTransport (w : World ρ) : World ρ :=
  { w with
    service := w.service.allTransactionsMayHaveFailed
    transport := w.transport + 1
    connections := [] }

/-- The services learn of a new session, and its transport is a new one. -/
def changeSession (w : World ρ) : World ρ :=
  { w with service := w.service.didChangeSession, session := w.session + 1 }.replaceTransport

/-- The payloads `transactionReady` is called with, as the messages of each. -/
def handedOver (w : World ρ) (r : TransactionRequest) : List (List Nat) :=
  if (!w.mtProto.useUnauthorizedMode && r.messageSalt == 0) || !r.transactionReady then []
  else (w.mtProto.payloads clock r).1.map (·.2)

/-- What the service sees of `transportReadyForTransaction` when it has a transaction `t` in it. -/
def transact (w : World ρ) (r : TransactionRequest) (t : MessageTransaction) : World ρ :=
  let preparedMessage := (w.mtProto.prepareAll clock r).messageInternalIdToPreparedMessage
  let service := w.service.prepared t w.session preparedMessage
  let payloads := w.handedOver clock r
  if (w.mtProto.prepareAll clock r).monotonityViolated || payloads.isEmpty then
    { w with service := service.completion t w.session preparedMessage none }
  else
    { w with
      service
      pending := w.pending ++
        [{ transaction := t, preparedMessage, payloads, transport := w.transport
           session := w.session }] }

/-- The request with the transaction of the service among those of the others. -/
def askService (w : World ρ) (now : Int) (before after : List (List OutgoingMessage))
    (r : TransactionRequest) : TransactionRequest :=
  { r with messageTransactions :=
      before ++ ((w.service.mtProtoMessageTransaction now).map (·.messagePayload)).toList ++ after }

/-- The service gives its transaction, if it has one, and sees what becomes of it. -/
def serve (w : World ρ) (now : Int) (r : TransactionRequest) : World ρ :=
  match w.service.mtProtoMessageTransaction now with
  | none => w
  | some t =>
    { w with service := { w.service with
        nextMessageInternalId := w.service.nextMessageInternalId + t.messagePayload.length }
      }.transact clock r t

/-- `transportReadyForTransaction`. A message out of order ends the session. -/
def transportReady (w : World ρ) (now : Int) (before after : List (List OutgoingMessage))
    (r : TransactionRequest) : World ρ :=
  let r := w.askService now before after r
  let served := { w.serve clock now r with mtProto := w.mtProto.transaction clock r }
  if (w.mtProto.prepareAll clock r).monotonityViolated then served.changeSession else served

def completion (w : World ρ) (transaction payload : Nat) (connection : Option Nat) : World ρ :=
  match w.pending[transaction]? with
  | none => w
  | some p =>
    match p.payloads[payload]? with
    | none => w
    | some messageInternalIds =>
      { w with
        service := w.service.completion p.transaction p.session p.preparedMessage
          (connection.map fun connection =>
            (messageInternalIds, { transport := p.transport, connection }))
        pending := w.pending.set transaction { p with payloads := p.payloads.eraseIdx payload } }

def step (w : World ρ) : WorldEvent ρ → World ρ
  | .addRequest r => { w with service := w.service.addRequest r }
  | .removeRequest internalId now =>
    { w with service := w.service.removeRequestByInternalId internalId now }
  | .transportReady now before after r => w.transportReady clock now before after r
  | .completion transaction payload connection => w.completion transaction payload connection
  | .rpcResult requestMessageId timestamp now answer =>
    { w with service := w.service.receivedRpcResult requestMessageId timestamp now answer }
  | .messagesAcknowledged messageIds =>
    { w with service := w.service.messageDeliveryConfirmed messageIds }
  -- the message and those of its container
  | .badMessage messageIds =>
    { w with service := messageIds.foldl MTRequestMessageService.messageDeliveryFailed w.service }
  | .responseAnnounced responseMessageId messageId transactionId =>
    { w with
      service := (w.service.shouldRequestMessage responseMessageId messageId transactionId).1 }
  | .resendRequestFailed messageId =>
    { w with service := w.service.messageResendRequestFailed messageId }
  | .transactionsMayHaveFailed transactionIds =>
    { w with service := w.service.transactionsMayHaveFailed transactionIds }
  | .connectionOpened connection => { w with connections := connection :: w.connections }
  | .connectionClosed connection =>
    { w with
      service := w.service.transactionsMayHaveFailed [{ transport := w.transport, connection }]
      connections := w.connections.filter (· ≠ connection) }
  | .transportReplaced => w.replaceTransport
  | .sessionReset sessionId =>
    { w with mtProto := w.mtProto.resetSessionInfo sessionId }.changeSession
  | .serverSessionChanged firstValidMessageId otherValidMessageIds =>
    { w with
      service := w.service.serverDidChangeSession firstValidMessageId otherValidMessageIds }
  | .authTokenUpdated => { w with service := w.service.authTokenUpdated }
  | .passwordInputRequired required =>
    { w with service := { w.service with passwordInputRequired := required } }

end World

end Onegram.Mtp
