import Onegram.ChannelIngest

/-!
# Applying updates of a channel

`TGManagedChannelState` sorts the updates that carry a pts, takes those that continue the stored
one, and collects the messages that are new, those that are edited and the ids of those that are
deleted. The replies among the messages get a copy of what they reply to, from the batch or by a
download. Then the edits are stored, and after them the deletions and the new messages.
-/

namespace Onegram.ChannelState

/-- The updates with a pts. -/
inductive PtsUpdate (μ : Type*)
  | updateNewChannelMessage (message : TGMessage μ) (pts pts_count : ℤ)
  | updateEditChannelMessage (message : TGMessage μ) (pts pts_count : ℤ)
  | updateDeleteChannelMessages (messages : List ℤ) (pts pts_count : ℤ)
  | updateChannelWebPage (pts pts_count : ℤ)

/-- The updates of a channel, as far as they concern which messages are stored. -/
inductive ChannelUpdate (μ : Type*)
  | ptsUpdate (update : PtsUpdate μ)
  | updateMessageID (random_id n_id : ℤ)
  | updateChannelTooLong

/-- What is stored of a channel: its pts and its messages. -/
@[ext] structure ChannelStore (μ : Type*) where
  pts : ℤ
  messages : MessageTable μ

variable {μ : Type*}

def PtsUpdate.pts : PtsUpdate μ → ℤ
  | .updateNewChannelMessage _ pts _ => pts
  | .updateEditChannelMessage _ pts _ => pts
  | .updateDeleteChannelMessages _ pts _ => pts
  | .updateChannelWebPage pts _ => pts

def PtsUpdate.pts_count : PtsUpdate μ → ℤ
  | .updateNewChannelMessage _ _ pts_count => pts_count
  | .updateEditChannelMessage _ _ pts_count => pts_count
  | .updateDeleteChannelMessages _ _ pts_count => pts_count
  | .updateChannelWebPage _ pts_count => pts_count

def ChannelUpdate.ptsUpdate? : ChannelUpdate μ → Option (PtsUpdate μ)
  | .ptsUpdate update => some update
  | _ => none

def ChannelUpdate.messageId? : ChannelUpdate μ → Option (ℤ × ℤ)
  | .updateMessageID random_id n_id => some (random_id, n_id)
  | _ => none

def ChannelUpdate.isTooLong : ChannelUpdate μ → Bool
  | .updateChannelTooLong => true
  | _ => false

/-- By pts. The comparison never answers that two are the same. -/
def sortUpdates (updates : List (PtsUpdate μ)) : List (PtsUpdate μ) :=
  updates.insertionSort (·.pts ≤ ·.pts)

/-- The id that is assigned to a random id, by the last update about it. -/
def randomIdToMessageId (updates : List (ChannelUpdate μ)) (randomId : ℤ) : Option ℤ :=
  (updates.filterMap ChannelUpdate.messageId?).reverse.lookup randomId

/-- The ids of the messages that are being sent, by the random ids of the executing actors. -/
def skipMessageIds (actors : List ℤ) (updates : List (ChannelUpdate μ)) : List ℤ :=
  (actors.filter (· ≠ 0)).filterMap (randomIdToMessageId updates)

/-! ## Collecting -/

structure CollectedUpdates (μ : Type*) where
  updatedPts : ℤ
  addedMessages : List (TGMessage μ)
  updatedMessages : List (TGMessage μ)
  deletedMessageIds : List ℤ
  failed : Bool

/-- An update is skipped where it is old, taken where it continues the pts, and else a gap. -/
def CollectedUpdates.chain (collected : CollectedUpdates μ) (update : PtsUpdate μ)
    (taken : CollectedUpdates μ → CollectedUpdates μ) : CollectedUpdates μ :=
  if update.pts ≤ collected.updatedPts then collected
  else if collected.updatedPts + update.pts_count = update.pts then
    { taken collected with updatedPts := update.pts }
  else { collected with failed := true }

/-- One turn of the loop over the updates. -/
def CollectedUpdates.collect (skip : List ℤ) (collected : CollectedUpdates μ)
    (update : PtsUpdate μ) : CollectedUpdates μ :=
  collected.chain update fun collected =>
    match update with
    | .updateNewChannelMessage message pts _ =>
      if message.mid ≠ 0 ∧ message.mid ∉ skip then
        { collected with
          addedMessages := collected.addedMessages ++ [{ message with pts }] }
      else collected
    | .updateEditChannelMessage message pts _ =>
      if message.mid ≠ 0 ∧ message.mid ∉ skip then
        { collected with
          updatedMessages := collected.updatedMessages ++ [{ message with pts }] }
      else collected
    | .updateDeleteChannelMessages messages _ _ =>
      { collected with deletedMessageIds := collected.deletedMessageIds ++ messages }
    | .updateChannelWebPage _ _ => collected

/-! ## Replies -/

/-- The last message of a list with an id. -/
def lastWithId (messages : List (TGMessage μ)) (mid : ℤ) : Option (TGMessage μ) :=
  messages.reverse.find? (·.mid = mid)

/-- The id of the message that a reply without a copy of it is to. -/
def missingReply (message : TGMessage μ) : Option ℤ :=
  message.reply.bind fun reply =>
    if reply.replyMessage.isNone ∧ reply.replyMessageId ≠ 0 then some reply.replyMessageId
    else none

/-- Puts the copy in. It is without the reply that the message itself may be. -/
def fillReply (addedMessageIdToMessage : ℤ → Option (TGMessage μ)) (message : TGMessage μ) :
    TGMessage μ :=
  (missingReply message).elim message fun replyMessageId =>
    { message with
      reply := some ⟨replyMessageId, (addedMessageIdToMessage replyMessageId).map fun replied =>
        (replied.text, replied.mediaAttachments)⟩ }

/-- The ids that are downloaded: those of replies to messages that are not among the added ones. -/
def downloadIds (added messages : List (TGMessage μ)) : List ℤ :=
  (messages.map (fillReply (lastWithId added))).filterMap missingReply

/-- A message of a batch with the copy of what it replies to. The messages that are downloaded are
taken after the added ones; without an answer there are none. -/
def withReply (download : List ℤ → List (TGMessage μ)) (added updated : List (TGMessage μ))
    (message : TGMessage μ) : TGMessage μ :=
  let filled := fillReply (lastWithId added) message
  let ids := downloadIds added (added ++ updated)
  if ids = [] then filled else fillReply (lastWithId (added ++ download ids)) filled

/-! ## Storing -/

/-- `_updateMessages:` for one edited message. The stored one is loaded by the peer of the new one,
and the key is made anew. -/
def updateMessage (peerId : ℤ) (messages : MessageTable μ) (message : TGMessage μ) :
    MessageTable μ :=
  let updatePeerId := if message.cid = 0 then peerId else message.cid
  let stored := (messages.lookup message.mid).filter fun stored =>
    stored.mid = message.mid ∧ stored.cid = updatePeerId
  if updatePeerId = peerId ∧ stored.isSome then
    messages.insertOrReplace message.mid { message with
      sortKey := TGMessageSortKeyMake message.sortKey.space message.date message.mid }
  else messages

/-- What `addMessagesToChannel:` does to the table of messages. -/
def ingestMessages (automaticallyReadPeerIds : List ℤ) (table : MessageTable μ)
    (messages : List (TGMessage μ)) (deleteMessages : List ℤ) : MessageTable μ :=
  let messages := (readMentions automaticallyReadPeerIds messages).1
  (newMessages table messages).foldl
    (fun table message => table.insertOrReplace message.mid message)
    (deleteMessages.foldl KeyedTable.delete table)

/-- What the channel state works with: the peers whose messages are read as they come in, the random
ids of the messages being sent, and what a download gives. -/
structure ChannelContext (μ : Type*) where
  peerId : ℤ
  automaticallyReadPeerIds : List ℤ
  executingActors : List ℤ
  downloadMessages : List ℤ → List (TGMessage μ)

/-- `addMessagesToChannelAndDispatch:` for a stored channel. -/
def addMessagesAndDispatch (context : ChannelContext μ) (store : ChannelStore μ)
    (messages : List (TGMessage μ)) (deletedMessages : List ℤ) (pts : ℤ) : ChannelStore μ where
  pts := if pts > 0 then pts else store.pts
  messages :=
    ingestMessages context.automaticallyReadPeerIds store.messages messages deletedMessages

/-- The store after updates or a difference, with the messages that were handed to it as new, and
whether the channel has to be polled. -/
structure Received (μ : Type*) where
  store : ChannelStore μ
  addedMessages : List (TGMessage μ)
  failed : Bool

/-- `applyUpdates:`. The ids to skip are there before the updates are collected. -/
def applyUpdates (context : ChannelContext μ) (updates : List (ChannelUpdate μ))
    (store : ChannelStore μ) : Received μ :=
  let skip := skipMessageIds context.executingActors updates
  let collected := (sortUpdates (updates.filterMap ChannelUpdate.ptsUpdate?)).foldl
    (CollectedUpdates.collect skip) ⟨store.pts, [], [], [], updates.any ChannelUpdate.isTooLong⟩
  let fill := withReply context.downloadMessages collected.addedMessages collected.updatedMessages
  let addedMessages := collected.addedMessages.map fill
  let updatedMessages := collected.updatedMessages.map fill
  let updated : ChannelStore μ :=
    ⟨store.pts, updatedMessages.foldl (updateMessage context.peerId) store.messages⟩
  { store :=
      if collected.updatedPts ≠ store.pts then
        addMessagesAndDispatch context updated addedMessages collected.deletedMessageIds
          collected.updatedPts
      else updated
    addedMessages
    failed := collected.failed }

/-! ## A difference -/

/-- What is used of a difference that the server answers a poll with. -/
structure ChannelDifference (μ : Type*) where
  pts : ℤ
  n_new_messages : List (TGMessage μ)
  other_updates : List (ChannelUpdate μ)

def ChannelUpdate.deletedIds : ChannelUpdate μ → List ℤ
  | .ptsUpdate (.updateDeleteChannelMessages messages _ _) => messages
  | _ => []

def ChannelUpdate.editedMessage : ChannelUpdate μ → Option (TGMessage μ)
  | .ptsUpdate (.updateEditChannelMessage message pts _) => some { message with pts }
  | _ => none

/-- `pollOnce:`, for an answer that is a difference. -/
def pollOnce (context : ChannelContext μ) (difference : ChannelDifference μ)
    (store : ChannelStore μ) : Received μ :=
  let messages := (difference.n_new_messages.map fun message =>
    { message with pts := difference.pts }).filter fun message =>
      message.mid ≠ 0 ∧ message.cid = context.peerId
  -- the signal that would fill the set is bound to a name of the branch that ends with it; the one
  -- that is run, after the messages were filtered, is complete from the start
  let skip : List ℤ := []
  let filled := (messages.filter (·.mid ∉ skip)).map (fillReply (lastWithId messages))
  let ids := filled.filterMap missingReply
  let downloaded := if ids = [] then [] else context.downloadMessages ids
  let addedMessages := filled.map (fillReply (lastWithId (messages ++ downloaded)))
  let added := addMessagesAndDispatch context store addedMessages
    (difference.other_updates.flatMap ChannelUpdate.deletedIds) difference.pts
  { store := { added with
      messages := (difference.other_updates.filterMap ChannelUpdate.editedMessage).foldl
        (updateMessage context.peerId) added.messages }
    addedMessages
    failed := false }

end Onegram.ChannelState
