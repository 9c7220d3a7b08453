import Onegram.Lib.Run
import Onegram.SecretChat

/-!
# The incoming queue

`TGSecretIncomingQueueActor`. A poll dequeues on the database queue and is then worked off on the
stage queue: it decrypts what it has a key for, selects what is in turn, asks for what is missing,
processes, and dispatches the deletions and the new number back to the database queue. The key
exchange a processed message may be part of is a protocol of its own; what processing does to the
message list is left out.
-/

namespace Onegram

/-! ## Decryption -/

/-- `value / 2` of a 32-bit integer. -/
def halfSeq (v : Int32) : Int := v.toInt.tdiv 2

theorem halfSeq_lt (v : Int32) : halfSeq v < INT32_MAX := by
  have h := Int32.toInt_lt v
  unfold halfSeq INT32_MAX
  rw [Int.tdiv_eq_ediv]
  split_ifs
  · omega
  · have hsign : Int.sign 2 = 1 := rfl
    omega

/-- The parity a message from the peer must have. -/
def parityOk (isCreator : Bool) (p : Payload) : Bool :=
  if isCreator then p.seqIn &&& 1 ≠ 0 ∧ p.seqOut &&& 1 = 0
  else p.seqIn &&& 1 = 0 ∧ p.seqOut &&& 1 ≠ 0

def decryptEncryptedMessageData (db : ChatDb) (m : EncryptedMessage) : Option Payload :=
  let r := encryptionKeyForConversationId db.encryptionKeys m.keyId
  if r.1 = none ∨ r.2 ≠ m.keyId then none else
  match m.payload with
  | none => none
  | some p =>
    if 17 ≤ p.layer ∧ ¬ parityOk db.isCreator p then none
    else if 73 ≤ p.layer ∧ ¬ p.v2 then none
    else some p

def encryptedAction (id : ℕ) (p : Payload) : SeqAction :=
  ⟨⟨.encrypted, id⟩, ⟨p.layer, p.action⟩, halfSeq p.seqIn, halfSeq p.seqOut, halfSeq_lt _⟩

/-- `addedDecryptedActions`. -/
def decryptedActions (db : ChatDb) (encryptedActions : List (ℕ × EncryptedMessage)) :
    List SeqAction :=
  encryptedActions.filterMap fun r =>
    (decryptEncryptedMessageData db r.2).map (encryptedAction r.1)

def mergedActions (db : ChatDb) (snap : IncomingSnapshot) : List SeqAction :=
  (snap.actions ++ decryptedActions db snap.encryptedActions).insertionSort actionLe

/-! ## Selection -/

def isResendAction (m : IncomingMessage) : Bool :=
  m.layer ∈ knownLayers && match m.action with
    | .resendActions _ _ => true
    | _ => false

structure Selection where
  nextExpectedSeqOut : Int
  currentPeerLayer : ℕ
  minLocalSeqOut : Int
  maxSeqIn : Int
  actionsToProcess : List SeqAction
  removeActionIds : List ℕ
  removeEncryptedActionIds : List ℕ

/-- The id goes to the list of its table. -/
def Selection.remove (sel : Selection) (a : SeqAction) : Selection :=
  match a.actionId.type with
  | .generic => { sel with removeActionIds := sel.removeActionIds ++ [a.actionId.value] }
  | .encrypted =>
    { sel with removeEncryptedActionIds := sel.removeEncryptedActionIds ++ [a.actionId.value] }

def Selection.process (sel : Selection) (a : SeqAction) : Selection :=
  { sel with actionsToProcess := sel.actionsToProcess ++ [a] }

/-- The body both branches for numbered messages share. -/
def selectNumbered (sel : Selection) (a : SeqAction) : Selection :=
  let sel := { sel with minLocalSeqOut := min sel.minLocalSeqOut a.seqOut }
  if a.seqOut = sel.nextExpectedSeqOut then
    { sel.process a with
      nextExpectedSeqOut := sel.nextExpectedSeqOut + 1
      maxSeqIn := max sel.maxSeqIn a.seqIn }
  else if a.seqOut < sel.nextExpectedSeqOut then sel.remove a
  else if isResendAction a.action then sel.process a
  else sel

def selectAction (sel : Selection) (a : SeqAction) : Selection :=
  if 17 ≤ sel.currentPeerLayer then selectNumbered sel a
  else if 17 ≤ a.action.layer then
    selectNumbered { sel with currentPeerLayer := a.action.layer } a
  else sel.process a

def selectStart (peerLayer : ℕ) (nextExpectedSeqOut : Int) : Selection :=
  ⟨nextExpectedSeqOut, peerLayer, INT32_MAX, -1, [], [], []⟩

def selectActions (peerLayer : ℕ) (nextExpectedSeqOut : Int) (merged : List SeqAction) :
    Selection :=
  merged.foldl selectAction (selectStart peerLayer nextExpectedSeqOut)

/-- The lists of removals after the selected actions were processed. -/
def Selection.processed (sel : Selection) : Selection :=
  sel.actionsToProcess.foldl Selection.remove sel

/-! ## The resend request -/

/-- The layers `…resendMessagesFromSeq:toSeq:randomId:` serializes for. -/
def resendLayers : List ℕ := [17, 20, 23, 46, 66, 73]

/-- `fromSeq` and `toSeq` of the request, when one is enqueued; `sel` is the selection after
processing. -/
def resendRequest (isCreator : Bool) (actions : List SeqAction) (sel : Selection) :
    Option (Int × Int) :=
  if sel.removeActionIds.length < actions.length then
    let minLocalSeqOut :=
      if sel.minLocalSeqOut = INT32_MAX then sel.nextExpectedSeqOut + 1 else sel.minLocalSeqOut
    let fromSeq := sel.nextExpectedSeqOut * 2 + (if isCreator then 0 else 1)
    let toSeq := (minLocalSeqOut - 1) * 2 + (if isCreator then 0 else 1)
    if min sel.currentPeerLayer currentLayer ∈ resendLayers then some (fromSeq, toSeq) else none
  else none

/-! ## A poll -/

/-- What is dispatched to the database queue. -/
inductive DbOp
  | enqueueIncoming (actions : List IncomingRow)
  | enqueueIncomingEncrypted (actions : List EncryptedMessage)
  | dequeueIncoming
  | setResendSeqIn (seqIn : Int)
  | enqueueService (layer : ℕ) (randomId : Int) (messageData : MessageData)
  | deleteIncoming (actionIds : List ℕ)
  | deleteIncomingEncrypted (actionIds : List ℕ)
  | applySeqIn (seqIn : Int)
  | confirmSeqOut (seqOut : Int)
  | discardKeys (beforeSeqOut : Int)
  | enqueueResend (fromSeq toSeq : Int)
  | setPeerLayer (layer : ℕ)

def DbOp.apply (db : ChatDb) : DbOp → ChatDb
  | .enqueueIncoming actions => enqueuePeerIncomingActions db actions
  | .enqueueIncomingEncrypted actions => enqueuePeerIncomingEncryptedActions db actions
  | .dequeueIncoming => db
  | .setResendSeqIn seqIn => setCurrentPeerResendSeqIn db seqIn
  | .enqueueService layer randomId messageData =>
    (enqueueOutgoingServiceMessage db layer randomId messageData).1
  | .deleteIncoming actionIds => deletePeerIncomingActions db actionIds
  | .deleteIncomingEncrypted actionIds => deletePeerIncomingEncryptedActions db actionIds
  | .applySeqIn seqIn => applyPeerSeqIn db seqIn
  | .confirmSeqOut seqOut => confirmPeerSeqOut db seqOut
  | .discardKeys beforeSeqOut =>
    { db with encryptionKeys := discardEncryptionKeys db.encryptionKeys beforeSeqOut }
  | .enqueueResend fromSeq toSeq => (enqueuePeerOutgoingResendActions db fromSeq toSeq).1
  | .setPeerLayer layer => { db with peerLayer := layer }

/-- The request for what is missing, or the note that nothing is. -/
def askOps (isCreator : Bool) (actions : List SeqAction) (sel : Selection) (randomId : Int) :
    List DbOp :=
  if sel.removeActionIds.length < actions.length then
    .setResendSeqIn sel.nextExpectedSeqOut ::
      match resendRequest isCreator actions sel with
      | some (fromSeq, toSeq) =>
        [.enqueueService (min sel.currentPeerLayer currentLayer) randomId (.resend fromSeq toSeq)]
      | none => []
  else [.setResendSeqIn (-1)]

/-- The deletions, the new number, and what the peer confirms. -/
def writeOps (sel : Selection) : List DbOp :=
  [.deleteIncoming sel.removeActionIds, .deleteIncomingEncrypted sel.removeEncryptedActionIds,
      .applySeqIn sel.nextExpectedSeqOut]
    ++ if sel.maxSeqIn > 0 then [.confirmSeqOut (sel.maxSeqIn - 1), .discardKeys sel.maxSeqIn]
      else []

/-- `resendActions` of the processed messages. -/
def resendOps (processed : List SeqAction) : List DbOp :=
  processed.filterMap fun a =>
    if a.action.layer ∈ knownLayers then
      match a.action.action with
      | .resendActions fromSeq toSeq => some (.enqueueResend (fromSeq.tdiv 2) (toSeq.tdiv 2))
      | _ => none
    else none

/-- `layerUpdate`: the largest layer of a processed message or announced by one. -/
def layerUpdate (processed : List SeqAction) : ℕ :=
  processed.foldl (fun m a => max m (max a.action.layer (match a.action.action with
    | .updateLayer layer => if a.action.layer ∈ knownLayers then layer else 0
    | _ => 0))) 0

def layerOps (peerLayer : ℕ) (processed : List SeqAction) (randomId : Int) : List DbOp :=
  let update := layerUpdate processed
  if update ≠ 0 ∧ update > peerLayer then
    .setPeerLayer update :: if min update currentLayer ∈ knownLayers then
      [.enqueueService (min update currentLayer) randomId (.notifyLayer currentLayer)] else []
  else []

/-- The block a poll runs on the stage queue: the messages handed to `_processIncomingMessage`,
and what it dispatches. -/
def pollBlock (db : ChatDb) (snap : IncomingSnapshot) (resendId layerId : Int) :
    List SeqAction × List DbOp :=
  let sel := (selectActions db.peerLayer snap.nextExpectedSeqOut (mergedActions db snap)).processed
  (sel.actionsToProcess,
    askOps db.isCreator snap.actions sel resendId ++ writeOps sel
      ++ resendOps sel.actionsToProcess ++ layerOps db.peerLayer sel.actionsToProcess layerId)

/-- A poll with nothing in between. -/
def poll (db : ChatDb) (resendId layerId : Int) : ChatDb :=
  (pollBlock db (dequeuePeerIncomingActions db) resendId layerId).2.foldl DbOp.apply db

/-! ## The two queues -/

structure IncomingQueue where
  db : ChatDb
  /-- Blocks on the database queue, the first to run next. -/
  dbQueue : List DbOp
  /-- Blocks of polls on the stage queue. -/
  stageQueue : List IncomingSnapshot
  /-- Every message handed to `_processIncomingMessage`, in order. -/
  handed : List SeqAction
  /-- Every row stored so far. -/
  stored : List IncomingRow
  storedEncrypted : List EncryptedMessage

inductive QueueEvent
  | enqueue (actions : List IncomingRow)
  | enqueueEncrypted (actions : List EncryptedMessage)
  /-- `_poll` is called. -/
  | poll
  /-- The database queue runs a block. -/
  | db
  /-- The stage queue runs the block of a poll. -/
  | stage (resendId layerId : Int)
  /-- A key exchange ends. -/
  | storeKey (key : Bytes) (keyFingerprint firstSeqOut : Int)

/-- A block of the database queue; a dequeue sends what it found to the stage queue. -/
def runDbOp (s : IncomingQueue) (op : DbOp) : IncomingQueue :=
  match op with
  | .dequeueIncoming =>
    { s with stageQueue := s.stageQueue ++ [dequeuePeerIncomingActions s.db] }
  | .enqueueIncoming actions =>
    { s with db := op.apply s.db, stored := s.stored ++ actions }
  | .enqueueIncomingEncrypted actions =>
    { s with db := op.apply s.db, storedEncrypted := s.storedEncrypted ++ actions }
  | _ => { s with db := op.apply s.db }

def queueStep (s : IncomingQueue) : QueueEvent → IncomingQueue
  | .enqueue actions => { s with dbQueue := s.dbQueue ++ [.enqueueIncoming actions] }
  | .enqueueEncrypted actions =>
    { s with dbQueue := s.dbQueue ++ [.enqueueIncomingEncrypted actions] }
  | .poll => { s with dbQueue := s.dbQueue ++ [.dequeueIncoming] }
  | .db =>
    match s.dbQueue with
    | [] => s
    | op :: rest => runDbOp { s with dbQueue := rest } op
  | .stage resendId layerId =>
    match s.stageQueue with
    | [] => s
    | snap :: rest =>
      { s with
        stageQueue := rest
        handed := s.handed ++ (pollBlock s.db snap resendId layerId).1
        dbQueue := s.dbQueue ++ (pollBlock s.db snap resendId layerId).2 }
  | .storeKey key keyFingerprint firstSeqOut =>
    { s with db := { s.db with
        encryptionKeys := storeEncryptionKey s.db.encryptionKeys key keyFingerprint firstSeqOut } }

end Onegram
