import Onegram.Lib.Run
import Onegram.SecretChat

/-!
# The outgoing queue

`TGSecretOutgoingQueueActor`. A poll dequeues the rows of both tables on the database queue; its
block on the stage queue builds a request for every row whose id is not in the set of executing
ids, and puts the ids into it. A request that fails takes its id out again, one that succeeds
leaves it there and dispatches what is to be recorded to the database queue.
-/

namespace Onegram

def OutgoingAction.layer : OutgoingAction → ℕ
  | .message _ layer _ _ _ => layer
  | .service _ layer _ _ => layer

/-! ## Requests -/

/-- What is encrypted. The random bytes of the header and the padding are left out. -/
inductive Plaintext
  | numbered (layer : ℕ) (inSeqNo outSeqNo : Int) (actionData : Option MessageData)
  | bare (actionData : MessageData)
  deriving DecidableEq

structure Ciphertext where
  keyId : Int
  key : Bytes
  v2 : Bool
  plaintext : Plaintext
  deriving DecidableEq

/-- `nil` without a message or without a key. -/
def encryptMessage (serializedMessage : Option Plaintext) (key : Option Bytes) (keyId : Int)
    (v2 : Bool) : Option Ciphertext :=
  match serializedMessage, key with
  | some plaintext, some key => if key = [] then none else some ⟨keyId, key, v2, plaintext⟩
  | _, _ => none

inductive RequestBody
  | sendEncrypted (random_id : Int) (data : Option Ciphertext)
  | sendEncryptedFile (random_id : Int) (data : Option Ciphertext) (file : FileInfo)
  | sendEncryptedService (random_id : Int) (data : Option Ciphertext)
  deriving DecidableEq

/-- `TGSecretOutgoingRequest`. -/
structure OutgoingRequest where
  actionId : ℕ
  isResend : Bool
  seqOut : Int
  layer : ℕ
  body : RequestBody
  deriving DecidableEq

/-- `decryptedServiceMessageActionWithLayer:deleteMessagesWithRandomIds:randomId:`. -/
def deleteMessagesData (layer : ℕ) (randomIds : List Int) : Option MessageData :=
  if layer ∈ knownLayers then some (.deleteMessages randomIds) else none

/-- The message with its numbers in front, from layer 17 on. -/
def serializedMessage (isCreator : Bool) (layer : ℕ) (seqIn seqOut : Int)
    (actionData : Option MessageData) : Option Plaintext :=
  if 17 ≤ layer then
    some (.numbered layer (seqIn * 2 + if isCreator then 0 else 1)
      (seqOut * 2 + if isCreator then 1 else 0) actionData)
  else actionData.map .bare

/-- The data a request for the action carries. A message no executing send actor waits for (they
are known by `_actionId`) is replaced by its own deletion. -/
def requestData (waiting : List ℕ) (action : OutgoingAction) (actionId : ℕ) :
    Option MessageData :=
  match action with
  | .message randomId layer _ data _ =>
    if actionId ∈ waiting then some data else deleteMessagesData layer [randomId]
  | .service _ _ _ data => some data

def requestForAction (db : ChatDb) (waiting : List ℕ) (action : OutgoingAction) (actionId : ℕ)
    (seqIn seqOut : Int) (isResend : Bool) : OutgoingRequest :=
  let key := encryptionKeyForConversationId db.encryptionKeys action.keyId
  let messageData := encryptMessage
    (serializedMessage db.isCreator action.layer seqIn seqOut (requestData waiting action actionId))
    key.1 key.2 (73 ≤ action.layer)
  { actionId := actionId
    isResend := isResend
    seqOut := if 17 ≤ action.layer then seqOut else -1
    layer := action.layer
    body := match action with
      | .message randomId _ _ _ none => .sendEncrypted randomId messageData
      | .message randomId _ _ _ (some file) => .sendEncryptedFile randomId messageData file
      | .service randomId _ _ _ => .sendEncryptedService randomId messageData }

def requestForRow (db : ChatDb) (waiting : List ℕ) (isResend : Bool) (r : ℕ × OutgoingRow) :
    OutgoingRequest :=
  requestForAction db waiting r.2.action r.1 r.2.seq_in r.2.seq_out isResend

/-! ## The queues -/

/-- What `dequeuePeerOutgoingActions` hands to its completion. -/
structure OutgoingSnapshot where
  actions : List (ℕ × OutgoingRow)
  resendActions : List (ℕ × OutgoingRow)

def dequeueOutgoing (db : ChatDb) : OutgoingSnapshot :=
  ⟨(dequeuePeerOutgoingActions db).1, (dequeuePeerOutgoingActions db).2⟩

/-- The requests a poll builds. -/
def pollRequests (db : ChatDb) (waiting executing : List ℕ) (snap : OutgoingSnapshot) :
    List OutgoingRequest :=
  ((snap.actions.filter (·.1 ∉ executing)).map (requestForRow db waiting false))
    ++ (snap.resendActions.filter (·.1 ∉ executing)).map (requestForRow db waiting true)

/-- Blocks of the database queue. -/
inductive OutgoingOp
  | enqueueAction (action : OutgoingAction)
  | enqueueResend (fromSeq toSeq : Int)
  | dequeueOutgoing
  | deleteOutgoing (actionId : ℕ)
  | deleteOutgoingResend (actionId : ℕ)
  | applySeqOut (seqOut : Int)
  /-- Another chat stores a row in one of the tables. -/
  | otherRow (isResend : Bool)
  | setPeerLayer (layer : ℕ)

structure OutgoingQueue where
  db : ChatDb
  dbQueue : List OutgoingOp
  stageQueue : List OutgoingSnapshot
  /-- `_executingRequestsActionIds`. -/
  executing : List ℕ
  inFlight : List OutgoingRequest
  /-- Every request that succeeded. -/
  completed : List OutgoingRequest
  /-- Every id a row of the chat was given, with the table. -/
  given : List (Bool × ℕ)

def runOutgoingOp (s : OutgoingQueue) : OutgoingOp → OutgoingQueue
  | .enqueueAction action =>
    let r := enqueuePeerOutgoingAction s.db action (17 ≤ action.layer)
    { s with db := r.1, given := s.given ++ [(false, r.2.2)] }
  | .enqueueResend fromSeq toSeq =>
    let db := (enqueuePeerOutgoingResendActions s.db fromSeq toSeq).1
    { s with
      db := db
      given := s.given
        ++ (db.outgoingResend.rows.drop s.db.outgoingResend.rows.length).map (true, ·.1) }
  | .dequeueOutgoing => { s with stageQueue := s.stageQueue ++ [dequeueOutgoing s.db] }
  | .deleteOutgoing actionId => { s with db := deletePeerOutgoingActions s.db [actionId] }
  | .deleteOutgoingResend actionId =>
    { s with db := deletePeerOutgoingResendActions s.db [actionId] }
  | .applySeqOut seqOut => { s with db := applyPeerSeqOut s.db seqOut }
  | .otherRow false => { s with db := { s.db with outgoing := s.db.outgoing.skip 1 } }
  | .otherRow true => { s with db := { s.db with outgoingResend := s.db.outgoingResend.skip 1 } }
  | .setPeerLayer layer => { s with db := { s.db with peerLayer := layer } }

/-- `actionCompletedWithId:…`: what is dispatched to the database queue. -/
def actionCompletedOp (request : OutgoingRequest) : OutgoingOp :=
  if request.isResend then .deleteOutgoingResend request.actionId
  else if 0 ≤ request.seqOut ∧ 17 ≤ request.layer then .applySeqOut request.seqOut
  else .deleteOutgoing request.actionId

inductive OutgoingEvent
  | enqueueAction (action : OutgoingAction)
  | enqueueResend (fromSeq toSeq : Int)
  | otherRow (isResend : Bool)
  | setPeerLayer (layer : ℕ)
  /-- `_poll` is called. -/
  | poll
  /-- The database queue runs a block. -/
  | db
  /-- The stage queue runs the block of a poll, while send actors wait for `waiting`. -/
  | stage (waiting : List ℕ)
  /-- The request at `i` of those in flight is answered. -/
  | complete (i : ℕ) (success : Bool)

def completeRequest (s : OutgoingQueue) (request : OutgoingRequest) (success : Bool) :
    OutgoingQueue :=
  if success then
    { s with
      dbQueue := s.dbQueue ++ [actionCompletedOp request]
      completed := s.completed ++ [request] }
  else { s with executing := s.executing.filter (· ≠ request.actionId) }

def outgoingStep (s : OutgoingQueue) : OutgoingEvent → OutgoingQueue
  | .enqueueAction action => { s with dbQueue := s.dbQueue ++ [.enqueueAction action] }
  | .enqueueResend fromSeq toSeq =>
    { s with dbQueue := s.dbQueue ++ [.enqueueResend fromSeq toSeq] }
  | .otherRow isResend => { s with dbQueue := s.dbQueue ++ [.otherRow isResend] }
  | .setPeerLayer layer => { s with dbQueue := s.dbQueue ++ [.setPeerLayer layer] }
  | .poll => { s with dbQueue := s.dbQueue ++ [.dequeueOutgoing] }
  | .db =>
    match s.dbQueue with
    | [] => s
    | op :: rest => runOutgoingOp { s with dbQueue := rest } op
  | .stage waiting =>
    match s.stageQueue with
    | [] => s
    | snap :: rest =>
      let requests := pollRequests s.db waiting s.executing snap
      { s with
        stageQueue := rest
        inFlight := s.inFlight ++ requests
        executing := s.executing ++ requests.map (·.actionId) }
  | .complete i success =>
    match s.inFlight[i]? with
    | none => s
    | some request =>
      completeRequest { s with inFlight := s.inFlight.eraseIdx i } request success

/-- A chat nothing was sent in yet, and the actor just started. -/
def OutgoingQueue.start (peerLayer : ℕ) (isCreator : Bool) (keys : List EncryptionKeyData) :
    OutgoingQueue :=
  ⟨.fresh peerLayer isCreator keys, [], [], [], [], [], []⟩

end Onegram
