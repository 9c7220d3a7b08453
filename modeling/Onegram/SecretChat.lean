import Onegram.Lib.Bytes
import Onegram.Lib.Table

/-!
# The tables of a secret chat

What `TGDatabase` keeps for one secret chat, and the methods the two queue actors call. The chat
is fixed, so `peer_id` is not written; the ids of rows that belong to other chats are skipped. A
method that runs synchronously and one that is only dispatched to the database queue are the same
function here; when it runs is a matter of the actors.
-/

namespace Onegram

def INT32_MAX : Int := 2147483647

/-- `[TGModernSendSecretMessageActor currentLayer]`. -/
def currentLayer : ℕ := 73

/-- The layers there is a `Secret…__Environment` for. -/
def knownLayers : List ℕ := [1, 17, 20, 23, 46, 66, 73]

/-! ## Stored data -/

/-- What the actors look at in an incoming message. -/
inductive IncomingAction
  | message (randomId : Int)
  | updateLayer (layer : ℕ)
  | resendActions (fromSeq toSeq : Int)
  | requestKey (exchangeId : Int) (g_a : Bytes)
  | acceptKey (exchangeId : Int) (g_b : Bytes) (key_fingerprint : Int)
  | commitKey (exchangeId key_fingerprint : Int)
  | abortKey (exchangeId : Int)
  | other
  deriving DecidableEq

/-- `TGStoredIncomingMessageSecretAction`: the layer, and the data as that layer's parser reads
it. -/
structure IncomingMessage where
  layer : ℕ
  action : IncomingAction
  deriving DecidableEq

/-- A row of the incoming table. Both numbers are halves of a 32-bit integer. -/
structure IncomingRow where
  seqIn : Int
  seqOut : Int
  action : IncomingMessage
  seqOut_lt : seqOut < INT32_MAX := by decide
  deriving DecidableEq

/-- The content of an encrypted message, for whoever has its key. -/
structure Payload where
  layer : ℕ
  seqIn : Int32
  seqOut : Int32
  /-- The message key is that of the second scheme. -/
  v2 : Bool
  action : IncomingAction
  deriving DecidableEq

/-- `TGStoredIncomingEncryptedDataSecretAction`; bytes too short for a message, or that no key
opens, have no payload. -/
structure EncryptedMessage where
  keyId : Int
  payload : Option Payload
  deriving DecidableEq

/-- A serialized outgoing message. -/
inductive MessageData
  | content (bytes : Bytes)
  | resend (fromSeq toSeq : Int)
  | deleteMessages (randomIds : List Int)
  | notifyLayer (layer : ℕ)
  | requestKey (exchangeId : Int) (g_a : Bytes)
  | acceptKey (exchangeId : Int) (g_b : Bytes) (key_fingerprint : Int)
  | commitKey (exchangeId key_fingerprint : Int)
  | abortKey (exchangeId : Int)
  | noop
  deriving DecidableEq

/-- `TGStoredOutgoingMessageFileInfo` and its three subclasses. -/
inductive FileInfo
  | uploaded (n_id : Int) (parts : Int) (key_fingerprint : Int)
  | existing (n_id : Int) (access_hash : Int)
  | bigUploaded (n_id : Int) (parts : Int) (key_fingerprint : Int)
  deriving DecidableEq

/-- `TGStoredOutgoingMessageSecretAction` and `TGStoredOutgoingServiceMessageSecretAction`. -/
inductive OutgoingAction
  | message (randomId : Int) (layer : ℕ) (keyId : Int) (data : MessageData)
      (fileInfo : Option FileInfo)
  | service (randomId : Int) (layer : ℕ) (keyId : Int) (data : MessageData)
  deriving DecidableEq

def OutgoingAction.keyId : OutgoingAction → Int
  | .message _ _ keyId _ _ => keyId
  | .service _ _ keyId _ => keyId

structure OutgoingRow where
  seq_out : Int
  seq_in : Int
  action : OutgoingAction
  deriving DecidableEq

/-- `TGEncryptionKeyData`. -/
structure EncryptionKeyData where
  keyId : Int
  key : Bytes
  firstSeqOut : Int
  deriving DecidableEq

/-- The rows and properties of the chat. -/
structure ChatDb where
  incoming : Table IncomingRow
  incomingEncrypted : Table EncryptedMessage
  outgoing : Table OutgoingRow
  outgoingResend : Table OutgoingRow
  seq_in : Option Int
  seq_out : Option Int
  sent_seq_out : Option Int
  resend_seq_in : Option Int
  peerLayer : ℕ
  isCreator : Bool
  encryptionKeys : List EncryptionKeyData

/-- A chat nothing was sent in yet. -/
def ChatDb.fresh (peerLayer : ℕ) (isCreator : Bool) (encryptionKeys : List EncryptionKeyData) :
    ChatDb where
  incoming := .empty
  incomingEncrypted := .empty
  outgoing := .empty
  outgoingResend := .empty
  seq_in := none
  seq_out := none
  sent_seq_out := none
  resend_seq_in := none
  peerLayer := peerLayer
  isCreator := isCreator
  encryptionKeys := encryptionKeys

/-! ## Encryption keys -/

/-- `encryptionKeyForConversationId:requestedKeyFingerprint:outKeyFingerprint:`: the last key for
a request of 0, else the last one with that id; the fingerprint is 0 where there is no key. -/
def encryptionKeyForConversationId (keys : List EncryptionKeyData)
    (requestedKeyFingerprint : Int) : Option Bytes × Int :=
  let record :=
    if keys ≠ [] ∧ requestedKeyFingerprint = 0 then keys.getLast?
    else (keys.filter (·.keyId = requestedKeyFingerprint)).getLast?
  (record.map (·.key), (record.map (·.keyId)).getD 0)

/-- `maxKeySeqOut`, from 0 up. -/
def maxKeySeqOut (keys : List EncryptionKeyData) : Int :=
  keys.foldl (fun m k => if k.firstSeqOut > m then k.firstSeqOut else m) 0

/-- `discardEncryptionKeysForConversationId:beforeSeqOut:`. -/
def discardEncryptionKeys (keys : List EncryptionKeyData) (beforeSeqOut : Int) :
    List EncryptionKeyData :=
  if beforeSeqOut > maxKeySeqOut keys then
    keys.filter (·.firstSeqOut = maxKeySeqOut keys)
  else keys

/-- `storeEncryptionKeyForConversationId:key:keyFingerprint:firstSeqOut:`; a fingerprint that has a
key already keeps it. -/
def storeEncryptionKey (keys : List EncryptionKeyData) (key : Bytes) (keyFingerprint : Int)
    (firstSeqOut : Int) : List EncryptionKeyData :=
  if (encryptionKeyForConversationId keys keyFingerprint).1 = none then
    keys ++ [⟨keyFingerprint, key, firstSeqOut⟩]
  else keys

/-! ## The incoming tables -/

inductive ActionIdType
  | generic
  | encrypted
  deriving DecidableEq

/-- `TGStoredSecretActionWithSeqActionId`. -/
structure ActionId where
  type : ActionIdType
  value : ℕ
  deriving DecidableEq

/-- `TGStoredSecretActionWithSeq` of an incoming message. -/
structure SeqAction where
  actionId : ActionId
  action : IncomingMessage
  seqIn : Int
  seqOut : Int
  seqOut_lt : seqOut < INT32_MAX := by decide
  deriving DecidableEq

/-- The comparator of both sorts: by `seqOut`, then by the value of the id. -/
def actionLe (a b : SeqAction) : Prop :=
  a.seqOut < b.seqOut ∨ (a.seqOut = b.seqOut ∧ a.actionId.value ≤ b.actionId.value)

instance : DecidableRel actionLe := fun _ _ =>
  inferInstanceAs (Decidable (_ ∨ (_ ∧ _)))

def enqueuePeerIncomingActions (db : ChatDb) (actions : List IncomingRow) : ChatDb :=
  { db with incoming := db.incoming.insertAll actions }

def enqueuePeerIncomingEncryptedActions (db : ChatDb) (actions : List EncryptedMessage) :
    ChatDb :=
  { db with incomingEncrypted := db.incomingEncrypted.insertAll actions }

/-- What `dequeuePeerIncomingActions` hands to its completion. -/
structure IncomingSnapshot where
  actions : List SeqAction
  nextExpectedSeqOut : Int
  encryptedActions : List (ℕ × EncryptedMessage)

def genericAction (r : ℕ × IncomingRow) : SeqAction :=
  ⟨⟨.generic, r.1⟩, r.2.action, r.2.seqIn, r.2.seqOut, r.2.seqOut_lt⟩

def dequeuePeerIncomingActions (db : ChatDb) : IncomingSnapshot where
  actions := (db.incoming.rows.map genericAction).insertionSort actionLe
  nextExpectedSeqOut := db.seq_in.getD 0
  encryptedActions := db.incomingEncrypted.rows

def deletePeerIncomingActions (db : ChatDb) (actionIds : List ℕ) : ChatDb :=
  { db with incoming := db.incoming.deleteIds actionIds }

def deletePeerIncomingEncryptedActions (db : ChatDb) (actionIds : List ℕ) : ChatDb :=
  { db with incomingEncrypted := db.incomingEncrypted.deleteIds actionIds }

def applyPeerSeqIn (db : ChatDb) (seqIn : Int) : ChatDb := { db with seq_in := some seqIn }

def setCurrentPeerResendSeqIn (db : ChatDb) (seqIn : Int) : ChatDb :=
  { db with resend_seq_in := some seqIn }

/-! ## The outgoing tables -/

def peerNextSeqOut (db : ChatDb) : Int := (db.seq_out.map (· + 1)).getD 0

/-- `enqueuePeerOutgoingAction:…`: the chat, the row's `seqOut` and its id. -/
def enqueuePeerOutgoingAction (db : ChatDb) (action : OutgoingAction) (useSeq : Bool) :
    ChatDb × Int × ℕ :=
  let blockSeqOut := if useSeq then peerNextSeqOut db else 0
  let blockSeqIn := if useSeq then db.seq_in.getD 0 else 0
  let outgoing := db.outgoing.insert ⟨blockSeqOut, blockSeqIn, action⟩
  ({ db with
      seq_out := if useSeq then some blockSeqOut else db.seq_out
      outgoing := outgoing },
    blockSeqOut, outgoing.seq)

/-- `enqueueOutgoingServiceMessageForPeerId:layer:keyId:randomId:messageData:` with the key id 0,
which stands for the current key. -/
def enqueueOutgoingServiceMessage (db : ChatDb) (layer : ℕ) (randomId : Int)
    (messageData : MessageData) : ChatDb × Int :=
  let keyId := (encryptionKeyForConversationId db.encryptionKeys 0).2
  let r := enqueuePeerOutgoingAction db (.service randomId layer keyId messageData) (17 ≤ layer)
  (r.1, r.2.1)

def currentPeerSentSeqOut (db : ChatDb) : Int := db.sent_seq_out.getD (-1)

def applyPeerSeqOut (db : ChatDb) (seqOut : Int) : ChatDb :=
  { db with sent_seq_out := some seqOut }

/-- `DELETE … WHERE seq_out<=?`. -/
def confirmPeerSeqOut (db : ChatDb) (seqOut : Int) : ChatDb :=
  { db with outgoing := db.outgoing.filter fun r => seqOut < r.2.seq_out }

/-- `dequeuePeerOutgoingActions`: the rows not sent yet, and the rows to resend. -/
def dequeuePeerOutgoingActions (db : ChatDb) :
    List (ℕ × OutgoingRow) × List (ℕ × OutgoingRow) :=
  let sentSeqOut := if db.peerLayer < 17 then -1 else currentPeerSentSeqOut db
  (db.outgoing.rows.filter (sentSeqOut < ·.2.seq_out), db.outgoingResend.rows)

/-- `enqueuePeerOutgoingResendActions:fromSeq:toSeq:`: the rows of the range, by `seq_out`, and
whether every number of the range had one. -/
def enqueuePeerOutgoingResendActions (db : ChatDb) (fromSeq toSeq : Int) : ChatDb × Bool :=
  let found := (db.outgoing.rows.filter
    fun r => fromSeq ≤ r.2.seq_out ∧ r.2.seq_out ≤ toSeq).insertionSort
      (fun r q => r.2.seq_out ≤ q.2.seq_out)
  let complete := (List.range (toSeq - fromSeq + 1).toNat).all
    fun i => found.any fun r => r.2.seq_out = fromSeq + i
  ({ db with outgoingResend := db.outgoingResend.insertAll (found.map (·.2)) }, complete)

def deletePeerOutgoingResendActions (db : ChatDb) (actionIds : List ℕ) : ChatDb :=
  { db with outgoingResend := db.outgoingResend.deleteIds actionIds }

def deletePeerOutgoingActions (db : ChatDb) (actionIds : List ℕ) : ChatDb :=
  { db with outgoing := db.outgoing.deleteIds actionIds }

end Onegram

/-!
## The range of a resend request

`enqueuePeerOutgoingResendActions:fromSeq:toSeq:` with the loop that fills the set of the numbers
asked for, and the halving with which the incoming queue calls it.
-/

namespace Onegram

/-- `seq++` of an `int32_t`. -/
def nextSeq (seq : Int) : Int := Int.bmod (seq + 1) (2 ^ 32)

/-- `for (int32_t seq = fromSeq; seq <= toSeq; seq++)`; `none` if `fuel` turns do not do. -/
def rangeIndices : ℕ → Int → Int → Finset Int → Option (Finset Int)
  | 0, _, _, _ => none
  | fuel + 1, seq, toSeq, indices =>
    if seq ≤ toSeq then rangeIndices fuel (nextSeq seq) toSeq (insert seq indices)
    else some indices

/-- The rows of the range, by `seq_out`, are copied; what is left of the numbers has no row. -/
def enqueueResendActions (fuel : ℕ) (db : ChatDb) (fromSeq toSeq : Int) : Option (ChatDb × Bool) := do
  let result := (db.outgoing.rows.filter
    fun r => fromSeq ≤ r.2.seq_out ∧ r.2.seq_out ≤ toSeq).insertionSort
      (fun r q => r.2.seq_out ≤ q.2.seq_out)
  let indices ← rangeIndices fuel fromSeq toSeq ∅
  let indices := result.foldl (fun indices r => indices.erase r.2.seq_out) indices
  return ({ db with outgoingResend := db.outgoingResend.insertAll (result.map (·.2)) },
    indices.card = 0)

end Onegram
