import Mathlib.Data.List.Sort
import Mathlib.Tactic

/-!
# The numbers of a session

`MTSessionInfo` gives out the message ids and sequence numbers of one MTProto session. An id is the
context's time in units of `2 ^ -32` seconds, moved off the last id and up to a multiple of four.

`clock n` is what the `n`-th call of the generator reads from `globalTime`, as the `int64_t` the
product is converted to. The time is a double, so before 2038 the product is at most
`2 ^ 63 - 1024` and no increment leaves the range (`generateClientMessageId_int64`).
-/

namespace Onegram.Mtp

structure SessionInfo where
  sessionId : Int
  lastClientMessageId : Int := 0
  seqNo : Int := 0
  /-- The message ids in each container, newest container first. -/
  containerMessagesMapping : List (Int × List Int) := []
  /-- How often the generator has read the clock, over all sessions. -/
  readings : Nat := 0
deriving DecidableEq, Repr

/-- `while (messageId % 4 != 0) messageId++`. -/
def alignClientMessageId (messageId : Int) : Int :=
  if messageId % 4 = 0 then messageId else alignClientMessageId (messageId + 1)
termination_by ((4 - messageId % 4) % 4).toNat
decreasing_by omega

/-- The id, whether the clock is behind the last id, and the session after the call. Only a caller
that passes a flag learns of the second. -/
def SessionInfo.generateClientMessageId (clock : Nat → Int) (s : SessionInfo) :
    Int × Bool × SessionInfo :=
  let messageId := clock s.readings
  let monotonityViolated := decide (messageId < s.lastClientMessageId)
  let messageId := if messageId = s.lastClientMessageId then s.lastClientMessageId + 1 else messageId
  let messageId := alignClientMessageId messageId
  (messageId, monotonityViolated,
    { s with lastClientMessageId := messageId, readings := s.readings + 1 })

def SessionInfo.takeSeqNo (s : SessionInfo) (messageIsMeaningful : Bool) : Int × SessionInfo :=
  if messageIsMeaningful then (s.seqNo + 1, { s with seqNo := s.seqNo + 2 }) else (s.seqNo, s)

def SessionInfo.addContainerMessageIdMapping (s : SessionInfo) (containerMessageId : Int)
    (childMessageIds : List Int) : SessionInfo :=
  { s with containerMessagesMapping :=
      (containerMessageId, childMessageIds) :: s.containerMessagesMapping }

/-- `resetSessionInfo`: a new session under a random id. The clock goes on. -/
def SessionInfo.reset (s : SessionInfo) (sessionId : Int) : SessionInfo :=
  { sessionId, readings := s.readings }

theorem alignClientMessageId_eq (m : Int) : alignClientMessageId m = m + (4 - m % 4) % 4 := by
  induction m using alignClientMessageId.induct with
  | case1 m h =>
    rw [alignClientMessageId, if_pos h]
    omega
  | case2 m h ih =>
    rw [alignClientMessageId, if_neg h, ih]
    omega

theorem alignClientMessageId_mod (m : Int) : alignClientMessageId m % 4 = 0 := by
  rw [alignClientMessageId_eq]
  omega

section Generator

variable (clock : Nat → Int) (s : SessionInfo)

@[simp] theorem generateClientMessageId_last :
    (s.generateClientMessageId clock).2.2.lastClientMessageId
      = (s.generateClientMessageId clock).1 := rfl

@[simp] theorem generateClientMessageId_readings :
    (s.generateClientMessageId clock).2.2.readings = s.readings + 1 := rfl

@[simp] theorem generateClientMessageId_violated :
    (s.generateClientMessageId clock).2.1 = true
      ↔ clock s.readings < s.lastClientMessageId := by
  simp [SessionInfo.generateClientMessageId]

theorem generateClientMessageId_mod : (s.generateClientMessageId clock).1 % 4 = 0 :=
  alignClientMessageId_mod _

/-- With the clock at the last id or past it, the new id is greater than the last one. -/
theorem generateClientMessageId_gt (h : s.lastClientMessageId ≤ clock s.readings) :
    s.lastClientMessageId < (s.generateClientMessageId clock).1 := by
  simp only [SessionInfo.generateClientMessageId, alignClientMessageId_eq]
  split <;> omega

/-- Ids made from readings a double can give stay in the range of an `int64_t`. -/
theorem generateClientMessageId_int64 (hlow : -2 ^ 63 ≤ clock s.readings)
    (hhigh : clock s.readings ≤ 2 ^ 63 - 1024) :
    -2 ^ 63 ≤ (s.generateClientMessageId clock).1
      ∧ (s.generateClientMessageId clock).1 < 2 ^ 63 := by
  simp only [SessionInfo.generateClientMessageId, alignClientMessageId_eq]
  split <;> omega

@[simp] theorem takeSeqNo_last (b : Bool) :
    (s.takeSeqNo b).2.lastClientMessageId = s.lastClientMessageId := by
  unfold SessionInfo.takeSeqNo
  split <;> rfl

@[simp] theorem addContainerMessageIdMapping_last (id : Int) (ids : List Int) :
    (s.addContainerMessageIdMapping id ids).lastClientMessageId = s.lastClientMessageId := rfl

end Generator

end Onegram.Mtp

/-!
## What the transport asks for

`transportReadyForTransaction` of `MTProto`: the messages of all services are numbered, ordered by
id with the ones of high priority first, packed into containers and handed to the transport. The
service messages that fix the time and bind a temporary key are sent on their own.

A payload is what is encrypted, not the bytes of the ciphertext, so the quick ack ids, which are
read off a hash of it, are left out. Which of the three branches is open depends on the rest of
`MTProto`'s state and is an input here.
-/

namespace Onegram.Mtp

structure PreparedMessage where
  data : List UInt8
  messageId : Int
  seqNo : Int
  salt : Int
  requiresConfirmation : Bool
  hasHighPriority : Bool
  inResponseToMessageId : Int
  /-- `preparedMessageInternalIdToMessageInternalId` of it. -/
  messageInternalId : Nat
  /-- Whether the generator was asked for its id. -/
  fresh : Bool
deriving DecidableEq, Repr

structure OutgoingMessage where
  internalId : Nat
  data : List UInt8
  /-- Zero until the message is numbered; a message sent again comes with its old number. -/
  messageId : Int := 0
  messageSeqNo : Int := 0
  requiresConfirmation : Bool := true
  needsQuickAck : Bool := false
  hasHighPriority : Bool := false
  inResponseToMessageId : Int := 0
  /-- Wraps the data, given the messages prepared so far. -/
  dynamicDecorator : Option (List UInt8 → (Nat → Option PreparedMessage) → Option (List UInt8)) :=
    none

/-- What the numbering loop fills. -/
structure Preparation where
  session : SessionInfo
  monotonityViolated : Bool := false
  messageInternalIdToPreparedMessage : Nat → Option PreparedMessage := fun _ => none
  transactionMessageList : List PreparedMessage := []
  transactionNeedsQuickAck : Bool := false
  transactionExpectsDataInResponse : Bool := false

def OutgoingMessage.decoratedData (m : OutgoingMessage)
    (prepared : Nat → Option PreparedMessage) : List UInt8 :=
  ((m.dynamicDecorator.bind fun decorate => decorate m.data prepared)).getD m.data

section Numbering

variable (clock : Nat → Int) (useUnauthorizedMode : Bool) (messageSalt : Int)

/-- The id and sequence number of a message: its own, or the next ones of the session. -/
def Preparation.number (p : Preparation) (m : OutgoingMessage) : Int × Int × Preparation :=
  if m.messageId = 0 then
    let (messageId, violated, session) := p.session.generateClientMessageId clock
    let (messageSeqNo, session) := session.takeSeqNo m.requiresConfirmation
    (messageId, messageSeqNo,
      { p with session, monotonityViolated := p.monotonityViolated || violated })
  else (m.messageId, m.messageSeqNo, p)

def Preparation.prepare (p : Preparation) (m : OutgoingMessage) : Preparation :=
  let data := m.decoratedData p.messageInternalIdToPreparedMessage
  let (messageId, seqNo, p) := p.number clock m
  if !p.monotonityViolated || useUnauthorizedMode then
    let prepared : PreparedMessage :=
      { data, messageId, seqNo, salt := messageSalt,
        requiresConfirmation := m.requiresConfirmation, hasHighPriority := m.hasHighPriority,
        inResponseToMessageId := m.inResponseToMessageId, messageInternalId := m.internalId,
        fresh := m.messageId = 0 }
    { p with
      messageInternalIdToPreparedMessage :=
        Function.update p.messageInternalIdToPreparedMessage m.internalId (some prepared)
      transactionMessageList := p.transactionMessageList ++ [prepared]
      transactionNeedsQuickAck := p.transactionNeedsQuickAck || m.needsQuickAck
      transactionExpectsDataInResponse :=
        p.transactionExpectsDataInResponse || m.requiresConfirmation }
  else p

def Preparation.prepareTransaction (needsParityCorrection : Bool) (p : Preparation)
    (messagePayload : List OutgoingMessage) : Preparation :=
  let p := messagePayload.foldl (Preparation.prepare clock useUnauthorizedMode messageSalt) p
  if needsParityCorrection && !p.transactionExpectsDataInResponse then
    { p with transactionNeedsQuickAck := true }
  else p

end Numbering

/-- Sorted by id, the messages of high priority moved to the front unless acknowledgements are
forced. -/
def orderMessages (forceConfirmations : Bool) (messages : List PreparedMessage) :
    List PreparedMessage :=
  if messages.length = 1 then messages
  else
    let sorted := messages.insertionSort fun m m' => m.messageId ≤ m'.messageId
    if forceConfirmations then sorted
    else sorted.filter (·.hasHighPriority) ++ sorted.filter (!·.hasHighPriority)

def MTMaxContainerSize : Nat := 3 * 1024

/-- One pass of the inner packing loop: the container, what is left of the list, and
`currentlyProcessingHighPriority`. -/
def takeContainer (forceConfirmations : Bool) :
    List PreparedMessage → Bool → List PreparedMessage → Nat →
      List PreparedMessage × List PreparedMessage × Bool
  | [], high, current, _ => (current, [], high)
  | m :: rest, high, current, size =>
    let breakContainer := !forceConfirmations && !m.hasHighPriority && high
    let high := if forceConfirmations then high else m.hasHighPriority
    if MTMaxContainerSize < size + m.data.length || (breakContainer && size != 0) then
      if size = 0 then (current ++ [m], rest, high) else (current, m :: rest, high)
    else takeContainer forceConfirmations rest high (current ++ [m]) (size + m.data.length)

theorem takeContainer_append (forceConfirmations : Bool) :
    ∀ (l : List PreparedMessage) (high : Bool) (current : List PreparedMessage) (size : Nat),
      (takeContainer forceConfirmations l high current size).1
        ++ (takeContainer forceConfirmations l high current size).2.1 = current ++ l
  | [], _, _, _ => by simp [takeContainer]
  | m :: rest, high, current, size => by
    unfold takeContainer
    simp only []
    split
    · split <;> simp
    · rw [takeContainer_append forceConfirmations rest]
      simp

/-- The first message always fits: the size is zero there. -/
theorem takeContainer_rest (forceConfirmations : Bool) :
    ∀ (l : List PreparedMessage) (high : Bool) (current : List PreparedMessage) (size : Nat),
      (takeContainer forceConfirmations l high current size).2.1.length ≤ l.length
        ∧ (size = 0 → l ≠ [] →
          (takeContainer forceConfirmations l high current size).2.1.length < l.length)
  | [], _, _, _ => by simp [takeContainer]
  | m :: rest, high, current, size => by
    unfold takeContainer
    simp only []
    split
    · split <;> simp_all
    · have := (takeContainer_rest forceConfirmations rest
        (if forceConfirmations then high else m.hasHighPriority) (current ++ [m])
        (size + m.data.length)).1
      simp only [List.length_cons]
      exact ⟨by omega, fun _ _ => by omega⟩

/-- The outer packing loop. -/
def packContainers (forceConfirmations : Bool) (l : List PreparedMessage) (high : Bool) :
    List (List PreparedMessage) :=
  if l = [] then []
  else
    (takeContainer forceConfirmations l high [] 0).1 ::
      packContainers forceConfirmations (takeContainer forceConfirmations l high [] 0).2.1
        (takeContainer forceConfirmations l high [] 0).2.2
termination_by l.length
decreasing_by exact (takeContainer_rest _ _ _ _ _).2 rfl ‹_›

@[simp] theorem packContainers_nil (forceConfirmations high : Bool) :
    packContainers forceConfirmations [] high = [] := by
  rw [packContainers, if_pos rfl]

@[simp] theorem packContainers_cons (forceConfirmations : Bool) (m : PreparedMessage)
    (rest : List PreparedMessage) (high : Bool) :
    packContainers forceConfirmations (m :: rest) high =
      (takeContainer forceConfirmations (m :: rest) high [] 0).1 ::
        packContainers forceConfirmations
          (takeContainer forceConfirmations (m :: rest) high [] 0).2.1
          (takeContainer forceConfirmations (m :: rest) high [] 0).2.2 := by
  rw [packContainers, if_neg (List.cons_ne_nil m rest)]

/-- What is encrypted, or written as it is for `plain`. -/
inductive Payload where
  | message (sessionId : Int) (m : PreparedMessage)
  | container (sessionId messageId seqNo salt : Int) (messages : List PreparedMessage)
  | plain (m : PreparedMessage)
  | service (sessionId messageId seqNo salt : Int) (data : List UInt8)
deriving DecidableEq, Repr

structure TransportTransaction where
  payload : Payload
  /-- The messages the completion is reported for. -/
  messageInternalIds : List Nat := []
  needsQuickAck : Bool := false
  expectsDataInResponse : Bool := true
deriving DecidableEq, Repr

/-- `keyed` stands for `encryptionKey != nil`. -/
def dataForEncryptedContainerWithMessages (clock : Nat → Int) (keyed : Bool) (s : SessionInfo)
    (preparedMessages : List PreparedMessage) : Option Payload × SessionInfo :=
  let salt := (preparedMessages.getLast?.map (·.salt)).getD 0
  let containerMessageIds := (preparedMessages.filter (·.requiresConfirmation)).map (·.messageId)
  let (containerMessageId, _, s) := s.generateClientMessageId clock
  let s := if containerMessageIds ≠ [] then
      s.addContainerMessageIdMapping containerMessageId containerMessageIds else s
  let (seqNo, s) := s.takeSeqNo false
  (if keyed then some (.container s.sessionId containerMessageId seqNo salt preparedMessages)
    else none, s)

def dataForContainer (clock : Nat → Int) (keyed : Bool) (s : SessionInfo) :
    List PreparedMessage → Option Payload × SessionInfo
  | [] => (none, s)
  | [m] => (if keyed then some (.message s.sessionId m) else none, s)
  | messages => dataForEncryptedContainerWithMessages clock keyed s messages

/-- The payloads of the containers, in order, with the messages each is made of. -/
def dataForContainers (clock : Nat → Int) (keyed : Bool) :
    SessionInfo → List (List PreparedMessage) → List (Payload × List Nat) × SessionInfo
  | s, [] => ([], s)
  | s, messages :: rest =>
    let (payload, s) := dataForContainer clock keyed s messages
    let (payloads, s) := dataForContainers clock keyed s rest
    ((payload.map (·, messages.map (·.messageInternalId))).toList ++ payloads, s)

/-- A request of the transport while transactions may be made. -/
structure TransactionRequest where
  messageTransactions : List (List OutgoingMessage)
  forceConfirmations : Bool := false
  needsParityCorrection : Bool := false
  /-- `authSaltForMessageId`, zero when no salt is valid. -/
  messageSalt : Int := 0
  keyed : Bool := true
  /-- `transactionReady != nil`. -/
  transactionReady : Bool := true
  /-- The random id of the session that follows a violated order. -/
  nextSessionId : Int := 0

/-- The part of `MTProto` that sends, with what its current session has put on the wire. -/
structure MTProto where
  sessionInfo : SessionInfo
  useUnauthorizedMode : Bool := false
  wire : List TransportTransaction := []

section Send

variable (clock : Nat → Int)

/-- The messages of all transactions, numbered. -/
def MTProto.prepareAll (p : MTProto) (r : TransactionRequest) : Preparation :=
  r.messageTransactions.foldl
    (Preparation.prepareTransaction clock p.useUnauthorizedMode
      (if p.useUnauthorizedMode then 0 else r.messageSalt) r.needsParityCorrection)
    { session := p.sessionInfo }

/-- The list the packing loop works on. -/
def MTProto.containers (p : MTProto) (r : TransactionRequest) : List (List PreparedMessage) :=
  packContainers r.forceConfirmations
    (orderMessages r.forceConfirmations (p.prepareAll clock r).transactionMessageList) false

def MTProto.payloads (p : MTProto) (r : TransactionRequest) :
    List (Payload × List Nat) × SessionInfo :=
  if p.useUnauthorizedMode then
    ((orderMessages r.forceConfirmations (p.prepareAll clock r).transactionMessageList).map
      fun m => (.plain m, [m.messageInternalId]), (p.prepareAll clock r).session)
  else dataForContainers clock r.keyed (p.prepareAll clock r).session (p.containers clock r)

/-- A message behind the last one restarts the session; without a salt, or with nobody to hand the
payloads to, nothing is sent. -/
def MTProto.transaction (p : MTProto) (r : TransactionRequest) : MTProto :=
  let prep := p.prepareAll clock r
  if prep.monotonityViolated then
    { p with sessionInfo := prep.session.reset r.nextSessionId, wire := [] }
  else if (!p.useUnauthorizedMode && r.messageSalt == 0) || !r.transactionReady then
    { p with sessionInfo := prep.session }
  else
    let (payloads, session) := p.payloads clock r
    { p with
      sessionInfo := session
      wire := p.wire ++ payloads.map fun (payload, messageInternalIds) =>
        { payload, messageInternalIds, needsQuickAck := prep.transactionNeedsQuickAck
          expectsDataInResponse := prep.transactionExpectsDataInResponse } }

/-- The time fix ping and the binding of a temporary key: one message on its own, numbered without
a flag. `sent` is whether the message is encrypted and handed over. -/
def MTProto.serviceMessage (p : MTProto) (messageIsMeaningful sent : Bool)
    (salt : Int) (data : List UInt8) : MTProto :=
  let (messageId, _, s) := p.sessionInfo.generateClientMessageId clock
  let (seqNo, s) := s.takeSeqNo messageIsMeaningful
  { p with
    sessionInfo := s
    wire := if sent then
        p.wire ++ [{ payload := .service s.sessionId messageId seqNo salt data }] else p.wire }

def MTProto.timeFixPing (p : MTProto) (sent : Bool) (salt : Int) (data : List UInt8) : MTProto :=
  p.serviceMessage clock false sent salt data

def MTProto.bindTempAuthKey (p : MTProto) (sent : Bool) (salt : Int) (data : List UInt8) :
    MTProto :=
  p.serviceMessage clock true sent salt data

def MTProto.resetSessionInfo (p : MTProto) (sessionId : Int) : MTProto :=
  { p with sessionInfo := p.sessionInfo.reset sessionId, wire := [] }

inductive Event where
  | transaction (r : TransactionRequest)
  | timeFixPing (sent : Bool) (salt : Int) (data : List UInt8)
  | bindTempAuthKey (sent : Bool) (salt : Int) (data : List UInt8)
  | resetSessionInfo (sessionId : Int)

def MTProto.step (p : MTProto) : Event → MTProto
  | .transaction r => p.transaction clock r
  | .timeFixPing sent salt data => p.timeFixPing clock sent salt data
  | .bindTempAuthKey sent salt data => p.bindTempAuthKey clock sent salt data
  | .resetSessionInfo sessionId => p.resetSessionInfo sessionId

end Send

end Onegram.Mtp
