import Onegram.Lib.KeyedTable
import Onegram.PeerId

/-!
# Pinned dialogs in a batch of updates

`applyUpdates` goes once over its updates and collects what they say of pinned dialogs: the last
whole order, and for every other dialog named whether it is pinned, with the dialogs in the order
they were last named. What it collected is merged with the stored list afterwards.
-/

namespace Onegram.PinnedDialogs

inductive TLPeer
  | peerUser (userId : BitVec 32)
  | peerChat (chatId : BitVec 32)
  | peerChannel (channelId : BitVec 32)
  | other

/-- The peer of an update: a `TLDialogPeer`, or in older layers a `TLPeer`. -/
inductive DialogPeer
  | dialogPeer (peer : TLPeer)
  | dialogPeerFeed (feedId : BitVec 32)
  | tlPeer (peer : TLPeer)
  | other

inductive PinnedUpdate
  | updatePinnedDialogs (order : Option (List DialogPeer))
  | updateDialogPinned (flags : BitVec 32) (peer : DialogPeer)

def TLPeer.peerId : TLPeer → ℤ
  | .peerChat chatId => TGPeerIdFromGroupId chatId
  | .peerUser userId => userId.toInt
  | .peerChannel channelId => TGPeerIdFromChannelId channelId
  | .other => 0

/-- The peer id of an entry of a whole order, where it adds one. -/
def DialogPeer.orderPeerId : DialogPeer → Option ℤ
  | .dialogPeer peer => some peer.peerId
  | .dialogPeerFeed feedId => some (TGPeerIdFromAdminLogId feedId)
  | .tlPeer peer => some peer.peerId
  | .other => none

/-- The peer id of a single update. -/
def DialogPeer.peerId : DialogPeer → ℤ
  | .dialogPeer peer => peer.peerId
  | .dialogPeerFeed feedId => TGPeerIdFromAdminLogId feedId
  | .tlPeer peer => peer.peerId
  | .other => 0

/-- What the loop over the updates collects. -/
structure Collected where
  requestPinnedDialogs : Bool
  replacedPinnedDialogs : Option (List ℤ)
  updatedPinnedDialogs : KeyedTable Bool
  updatedPinnedDialogsKeyOrder : List ℤ

def Collected.empty : Collected := ⟨false, none, .empty, []⟩

def Collected.collect (c : Collected) : PinnedUpdate → Collected
  | .updatePinnedDialogs (some order) =>
    { c with replacedPinnedDialogs := some (order.filterMap DialogPeer.orderPeerId) }
  | .updatePinnedDialogs none => { c with requestPinnedDialogs := true }
  | .updateDialogPinned flags peer =>
    { c with
      updatedPinnedDialogs :=
        c.updatedPinnedDialogs.insertOrReplace peer.peerId (flags.getLsbD 0)
      updatedPinnedDialogsKeyOrder :=
        c.updatedPinnedDialogsKeyOrder.filter (· ≠ peer.peerId) ++ [peer.peerId] }

/-- What is done in the end: `transactionUpdatePinnedConversations:` is called with a list, or the
list is pulled from the server, or there is nothing to do. -/
inductive Outcome
  | pull
  | transaction (peerIds : List ℤ)
  | nothing
deriving DecidableEq

/-- The loop over the key order, which puts each pinned dialog in front. -/
def insertPinned (updatedPinnedDialogs : KeyedTable Bool) (keyOrder peerIds : List ℤ) : List ℤ :=
  keyOrder.foldl (fun peerIds nPeerId =>
    if updatedPinnedDialogs.lookup nPeerId = some true then nPeerId :: peerIds else peerIds) peerIds

/-- The block on the database thread. `pinned` stands for the ids of `_getPinnedConversations`. -/
def Collected.merge (containsConversationWithId : ℤ → Bool) (pinned : List ℤ) (c : Collected) :
    Outcome :=
  let missing (peerIds : List ℤ) : Bool := peerIds.any fun peerId =>
    !containsConversationWithId peerId
  if c.requestPinnedDialogs || missing (c.replacedPinnedDialogs.getD []) ||
      missing (c.updatedPinnedDialogs.rows.map (·.1)) then .pull
  else
    match c.replacedPinnedDialogs with
    | some replacedPinnedDialogs => .transaction replacedPinnedDialogs
    | none =>
      if c.updatedPinnedDialogs.rows ≠ [] then
        .transaction (insertPinned c.updatedPinnedDialogs c.updatedPinnedDialogsKeyOrder
          (pinned.filter fun conversationId =>
            !(c.updatedPinnedDialogs.lookup conversationId = some false)))
      else .nothing

def applyUpdates (containsConversationWithId : ℤ → Bool) (pinned : List ℤ)
    (updates : List PinnedUpdate) : Outcome :=
  (updates.foldl Collected.collect .empty).merge containsConversationWithId pinned

end Onegram.PinnedDialogs
