import Onegram.RequestService

/-!
# Acknowledging what the server sends

A session remembers which messages it has processed and which are still to be confirmed. A
transaction lists all of the latter in one `msgs_ack`; the transport that takes its payload names
the transaction, and a packet that comes back in a transaction takes the confirmations sent in it
off the schedule.

The run is that of one session: nothing is followed beyond its end. Requesting a transaction,
logging and what the services do with a message are left out.
-/

namespace Onegram.Mtp

def MTMaxUnacknowledgedMessageSize : Int := 1 * 1024 * 1024
def MTMaxUnacknowledgedMessageCount : Nat := 64

structure MTScheduledMessageConfirmation where
  messageId : Int
  size : Int
  transactionIds : List TransactionId := []
deriving DecidableEq, Repr

def MTScheduledMessageConfirmation.addTransactionId (c : MTScheduledMessageConfirmation)
    (transactionId : TransactionId) : MTScheduledMessageConfirmation :=
  if transactionId ∈ c.transactionIds then c
  else { c with transactionIds := c.transactionIds ++ [transactionId] }

/-- The part of `MTSessionInfo` that is about incoming messages. -/
structure IncomingSession where
  processedMessageIds : List Int := []
  scheduledMessageConfirmations : List MTScheduledMessageConfirmation := []
deriving DecidableEq, Repr

namespace IncomingSession

def setMessageProcessed (s : IncomingSession) (messageId : Int) : IncomingSession :=
  if messageId ∈ s.processedMessageIds then s
  else { s with processedMessageIds := s.processedMessageIds ++ [messageId] }

def scheduleMessageConfirmation (s : IncomingSession) (messageId size : Int) : IncomingSession :=
  if messageId ∈ s.scheduledMessageConfirmations.map (·.messageId) then s
  else { s with scheduledMessageConfirmations :=
    s.scheduledMessageConfirmations ++ [{ messageId, size }] }

/-- `scheduledMessageConfirmations`. -/
def scheduledMessageIds (s : IncomingSession) : List Int :=
  s.scheduledMessageConfirmations.map (·.messageId)

def scheduledMessageConfirmationsExceedSize (s : IncomingSession) (sizeLimit : Int)
    (countLimit : Nat) : Bool :=
  if countLimit < s.scheduledMessageConfirmations.length then true
  else if s.scheduledMessageConfirmations.length = 0 then false
  else sizeLimit < (s.scheduledMessageConfirmations.map (·.size)).sum

def assignTransactionId (s : IncomingSession) (transactionId : TransactionId)
    (messageIds : List Int) : IncomingSession :=
  { s with scheduledMessageConfirmations := s.scheduledMessageConfirmations.map fun c =>
      if c.messageId ∈ messageIds then c.addTransactionId transactionId else c }

def removeScheduledMessageConfirmationsWithTransactionIds (s : IncomingSession)
    (transactionIds : List TransactionId) : IncomingSession :=
  { s with scheduledMessageConfirmations := s.scheduledMessageConfirmations.filter fun c =>
      !transactionIds.any (· ∈ c.transactionIds) }

end IncomingSession

/-! ## Messages -/

/-- What `_processIncomingMessage` tells apart. For detailed info it also gives what the services
say about requesting the message. -/
inductive IncomingBody where
  | badMsgNotification (errorCode : Int) (badServerSalt : Bool)
  | msgsAck
  | detailedInfo (responseMessageId responseLength : Int) (shouldRequest : Bool)
  | newSessionCreated
  | other
deriving DecidableEq, Repr

structure MTIncomingMessage where
  messageId : Int
  seqNo : Int
  size : Int
  body : IncomingBody
deriving DecidableEq, Repr

def msgsAck (messageIds : List Int) : List UInt8 :=
  [0x59, 0xb4, 0xd6, 0x62] ++ [0x15, 0xc4, 0xb5, 0x1c] ++ Bytes.bytesLE 4 messageIds.length
    ++ messageIds.flatMap MTRequestMessageService.int64Bytes

/-- What happens in a session, newest last. Not in the source. -/
inductive AckHappening where
  | processed (m : MTIncomingMessage)
  /-- `receivedMessage:` of the message services. -/
  | dispatched (messageId : Int)
  | accepted (payload : Payload) (transactionId : TransactionId)
  | succeeded (transactionIds : List TransactionId)

/-- The `completion` block of a `msgs_ack`, and the payloads of its transaction that the transport
is not done with. -/
structure PendingAck where
  internalId : Nat
  messageIds : List Int
  payloads : List (Payload × List Nat)

structure AckSession where
  mtProto : MTProto
  incoming : IncomingSession := {}
  pending : List PendingAck := []
  /-- `resetSessionInfo` has put another session in this one's place. -/
  ended : Bool := false
  log : List AckHappening := []

namespace AckSession

variable (clock : Nat → Int)

/-! ## Sending -/

/-- The ids a transaction acknowledges, if it does. -/
def messageIdsToAcknowledge (w : AckSession) (forceConfirmations : Bool)
    (services : List (List OutgoingMessage)) : List Int :=
  let anyTransactionHasHighPriorityMessages := services.flatten.any (·.hasHighPriority)
  if forceConfirmations || !anyTransactionHasHighPriorityMessages
      || w.incoming.scheduledMessageConfirmationsExceedSize MTMaxUnacknowledgedMessageSize
        MTMaxUnacknowledgedMessageCount then
    w.incoming.scheduledMessageIds
  else []

/-- An internal id none of the messages has. -/
def freshInternalId (messages : List OutgoingMessage) : Nat :=
  (messages.map (·.internalId)).foldr max 0 + 1

def ackMessage (internalId : Nat) (messageIds : List Int) : OutgoingMessage :=
  { internalId, data := msgsAck messageIds, requiresConfirmation := false }

/-- The transactions of the transport and of the services, with the acknowledgement between. -/
def withAck (w : AckSession) (specific services : List (List OutgoingMessage))
    (r : TransactionRequest) : TransactionRequest :=
  let messageIds := w.messageIdsToAcknowledge r.forceConfirmations services
  let internalId := freshInternalId (specific ++ services).flatten
  { r with messageTransactions :=
      specific ++ (if messageIds = [] then [] else [[ackMessage internalId messageIds]])
        ++ services }

/-- The payloads `transactionReady` is called with. -/
def handedOver (w : AckSession) (r : TransactionRequest) : List (Payload × List Nat) :=
  if (!w.mtProto.useUnauthorizedMode && r.messageSalt == 0) || !r.transactionReady then []
  else (w.mtProto.payloads clock r).1

/-- `transportReadyForTransaction`. A message out of order ends the session. -/
def transportReady (w : AckSession) (specific services : List (List OutgoingMessage))
    (r : TransactionRequest) : AckSession :=
  let ack : PendingAck :=
    { internalId := freshInternalId (specific ++ services).flatten
      messageIds := w.messageIdsToAcknowledge r.forceConfirmations services
      payloads := w.handedOver clock (w.withAck specific services r) }
  let mtProto := w.mtProto.transaction clock (w.withAck specific services r)
  if (w.mtProto.prepareAll clock (w.withAck specific services r)).monotonityViolated then
    { w with mtProto, ended := true }
  else if ack.messageIds = [] then { w with mtProto }
  else { w with mtProto, pending := w.pending ++ [ack] }

/-- The transport is done with one payload of a pending transaction; it took it in a transaction
of its own, or not. -/
def completion (w : AckSession) (transaction payload : Nat)
    (transactionId : Option TransactionId) : AckSession :=
  match w.pending[transaction]? with
  | none => w
  | some ack =>
    match ack.payloads[payload]? with
    | none => w
    | some (sent, messageInternalIds) =>
      let w := { w with
        pending := w.pending.set transaction { ack with payloads := ack.payloads.eraseIdx payload } }
      match transactionId with
      | none => w
      | some transactionId =>
        if ack.internalId ∈ messageInternalIds then
          { w with
            incoming := w.incoming.assignTransactionId transactionId ack.messageIds
            log := w.log ++ [.accepted sent transactionId] }
        else w

/-! ## Receiving -/

/-- `transportTransactionsSucceeded:`. -/
def transactionsSucceeded (w : AckSession) (transactionIds : List TransactionId) : AckSession :=
  { w with
    incoming := w.incoming.removeScheduledMessageConfirmationsWithTransactionIds transactionIds
    log := w.log ++ [.succeeded transactionIds] }

/-- What becomes of a message by its body, once it is marked and scheduled. -/
def dispatch (w : AckSession) (m : MTIncomingMessage) : AckSession :=
  let received := { w with log := w.log ++ [.dispatched m.messageId] }
  match m.body with
  | .badMsgNotification errorCode badServerSalt =>
    if w.mtProto.useUnauthorizedMode then received
    else if !badServerSalt && (errorCode == 32 || errorCode == 33) then { w with ended := true }
    else w
  | .msgsAck => w
  | .detailedInfo responseMessageId responseLength shouldRequest =>
    if shouldRequest then w
    else { w with incoming :=
      w.incoming.scheduleMessageConfirmation responseMessageId responseLength }
  | .newSessionCreated => w
  | .other => received

/-- `_processIncomingMessage`. -/
def processIncomingMessage (w : AckSession) (m : MTIncomingMessage) : AckSession :=
  if w.ended then w
  else if m.messageId ∈ w.incoming.processedMessageIds then
    { w with incoming := w.incoming.scheduleMessageConfirmation m.messageId m.size }
  else
    let incoming := w.incoming.setMessageProcessed m.messageId
    let incoming :=
      if !w.mtProto.useUnauthorizedMode && m.seqNo % 2 != 0 then
        incoming.scheduleMessageConfirmation m.messageId m.size
      else incoming
    dispatch { w with incoming, log := w.log ++ [.processed m] } m

/-- `transportHasIncomingData`, of a packet that was decrypted and parsed. -/
def hasIncomingData (w : AckSession) (transactionId : TransactionId)
    (parsedMessages : List MTIncomingMessage) : AckSession :=
  parsedMessages.foldl processIncomingMessage (w.transactionsSucceeded [transactionId])

inductive Event where
  | transportReady (specific services : List (List OutgoingMessage)) (r : TransactionRequest)
  | completion (transaction payload : Nat) (transactionId : Option TransactionId)
  | hasIncomingData (transactionId : TransactionId) (parsedMessages : List MTIncomingMessage)
  | sessionReset

def step (w : AckSession) (e : Event) : AckSession :=
  if w.ended then w else
  match e with
  | .transportReady specific services r => w.transportReady clock specific services r
  | .completion transaction payload transactionId => w.completion transaction payload transactionId
  | .hasIncomingData transactionId parsedMessages => w.hasIncomingData transactionId parsedMessages
  | .sessionReset => { w with ended := true }

end AckSession

end Onegram.Mtp
