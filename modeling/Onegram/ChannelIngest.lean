import Onegram.ChannelSortKeys
import Onegram.Lib.Transaction
import Onegram.MessageHole

/-!
# Storing messages of a channel

`addMessagesToChannel:` deletes and inserts messages, keeps the tables of holes and of unread
mentions and the place of the channel in step with them, and reports what changed. All of it is
done in one transaction, where the caller has none open in one of its own. For a channel that is
not stored it reports nothing and returns.
-/

namespace Onegram

/-- What is used of a group of messages. -/
structure TGMessageGroup where
  minId : ℤ
  count : ℤ

/-- `updatedMessageSortKeys` are triples in an array. -/
structure UpdatedSortKey (μ : Type*) where
  previousSortKey : TGMessageSortKey
  updatedSortKey : TGMessageSortKey
  updatedMessage : TGMessage μ

structure ChannelBatch (μ : Type*) where
  messages : List (TGMessage μ)
  deleteMessages : List ℤ
  unimportantGroups : List TGMessageGroup
  addedHoles : List MessageHole
  removedHoles : List MessageHole
  removedUnimportantHoles : List MessageHole
  updatedMessageSortKeys : List (UpdatedSortKey μ)
  keepUnreadCounters : Bool

structure TGUnseenPeerMentionsState where
  version : ℤ
  count : ℤ
  maxIdWithPrecalculatedCount : ℤ

structure TGDatabaseAction where
  type : ℤ
  subject : ℤ
  arg0 : ℤ
  arg1 : ℤ
deriving DecidableEq

def TGDatabaseActionReadMessageContents : ℤ := 7

/-- The tables of the database. What only the functions for media, tags and bot keyboards write is
of a type `ω`. -/
structure Tables (μ ω : Type*) where
  channels : KeyedTable (ChannelRow μ)
  messages : ℤ → MessageTable μ
  feedMessages : List (ℤ × ℤ)
  pendingMessages : List (ℤ × ℤ)
  holes : ℤ → HoleTable
  unimportantHoles : ℤ → HoleTable
  mentionIds : List (ℤ × ℤ)
  mentionStates : KeyedTable TGUnseenPeerMentionsState
  validateReadState : List ℤ
  actionQueue : List TGDatabaseAction
  others : ω

/-- What is done with these tables: the mids of the files of a message, its tags, the keyboard of
the chat, the count of channels with unread messages. -/
structure OtherTables (μ ω : Type*) where
  removeFileMid : ℤ → TGMessage μ → ω → ω
  addFileMid : ℤ → TGMessage μ → ω → ω
  cacheMediaForPeerId : ℤ → List (TGMessage μ) → ω → ω
  hasReplyMarkup : TGMessage μ → Bool
  storeBotReplyMarkup : ℤ → TGMessage μ → ω → ω
  updateUnreadChannelsCount : ℤ → ω → ω

/-- What `changedMessages` is called with. The messages that stand for holes come after the others.
-/
structure ChangedMessages (μ : Type*) where
  addedMessages : List (TGMessage μ)
  addedHoles : List MessageHole
  removedMessages : List ℤ
  addedUnimportantHoles : List MessageHole
  removedUnimportantHoles : List ℤ

variable {μ ω : Type*}

/-- The table of the messages of one channel. -/
def Tables.setMessages (t : Tables μ ω) (peerId : ℤ) (table : MessageTable μ) : Tables μ ω :=
  { t with messages := Function.update t.messages peerId table }

/-- `_loadChannelConversation:`. -/
def loadChannelConversation (channels : KeyedTable (ChannelRow μ)) (peerId : ℤ) :
    Option (TGConversation μ) :=
  ((channels.lookup peerId).map ChannelRow.load).filter (·.conversationId ≠ 0)

/-! ## Unread mentions -/

/-- `_updateUnseenPeerMentionsState:`. -/
def updateUnseenPeerMentionsState (t : Tables μ ω) (peerId : ℤ)
    (updated : Option TGUnseenPeerMentionsState) : Tables μ ω :=
  { t with
    mentionStates := updated.elim (t.mentionStates.delete peerId)
      (t.mentionStates.insertOrReplace peerId) }

/-- `_addUnreadMention:`. -/
def addUnreadMention (peerId messageId : ℤ) (t : Tables μ ω) : Tables μ ω :=
  if (peerId, messageId) ∈ t.mentionIds then t
  else
    let updated : TGUnseenPeerMentionsState :=
      (t.mentionStates.lookup peerId).elim ⟨0, 1, 0⟩ fun current =>
        if messageId > current.maxIdWithPrecalculatedCount then
          { current with count := current.count + 1 }
        else current
    { updateUnseenPeerMentionsState t peerId (some updated) with
      mentionIds := t.mentionIds ++ [(peerId, messageId)] }

/-- `_markMentionsAsRead:`, with whether the state is no longer valid and the count to dispatch. -/
def markMentionsAsRead (peerId : ℤ) (messageIds : List ℤ) (t : Tables μ ω) :
    Tables μ ω × Bool × ℤ :=
  let (mentionIds, invalidateState) := messageIds.foldl
    (fun (ids, invalid) messageId =>
      if (peerId, messageId) ∈ ids then (ids.filter (· ≠ (peerId, messageId)), invalid)
      else (ids, true)) (t.mentionIds, false)
  let updated := (t.mentionStates.lookup peerId).map fun current =>
    { current with count := max 0 (current.count - messageIds.length) }
  (updateUnseenPeerMentionsState { t with mentionIds } peerId updated, invalidateState,
    updated.elim 0 (·.count))

/-! ## Messages -/

/-- Mentions of peers that are read as they come in are taken off, and their ids kept. -/
def readMentions (automaticallyReadPeerIds : List ℤ) (messages : List (TGMessage μ)) :
    List (TGMessage μ) × List ℤ :=
  let isRead (message : TGMessage μ) : Bool :=
    message.containsUnseenMention && !message.hasUnreadContent &&
      message.cid ∈ automaticallyReadPeerIds
  (messages.map fun message =>
      if isRead message then { message with containsUnseenMention := false } else message,
    (messages.filter isRead).map (·.mid))

/-- The ids of the messages that are stored already. -/
def skipMessages (table : MessageTable μ) (messages : List (TGMessage μ)) : List ℤ :=
  (messages.map (·.mid)).filter fun mid => (table.lookup mid).isSome

/-- The messages that are inserted. Those that are stored already are skipped, also where they are
among the ones to delete. -/
def newMessages (table : MessageTable μ) (messages : List (TGMessage μ)) : List (TGMessage μ) :=
  messages.filter (·.mid ∉ skipMessages table messages)

/-- One turn of the loop over the messages to delete. The ids of unseen mentions are kept. -/
def deleteMessage (other : OtherTables μ ω) (peerId : ℤ) (state : Tables μ ω × List ℤ)
    (messageId : ℤ) : Tables μ ω × List ℤ :=
  let (t, removeUnseenMentionIds) := state
  let table := t.messages peerId
  let (others, removeUnseenMentionIds) :=
    (table.lookup messageId).elim (t.others, removeUnseenMentionIds) fun message =>
      (other.removeFileMid peerId message t.others,
        if message.containsUnseenMention then removeUnseenMentionIds ++ [message.mid]
        else removeUnseenMentionIds)
  ({ t.setMessages peerId (table.delete messageId) with
      feedMessages := t.feedMessages.filter (· ≠ (peerId, messageId))
      others }, removeUnseenMentionIds)

/-- One turn of the loop over the messages to insert. -/
def insertMessage (other : OtherTables μ ω) (peerId : ℤ) (t : Tables μ ω) (message : TGMessage μ) :
    Tables μ ω :=
  let t := t.setMessages peerId ((t.messages peerId).insertOrReplace message.mid message)
  let t :=
    if message.deliveryState = .pending ∧ (message.cid, message.mid) ∉ t.pendingMessages then
      { t with pendingMessages := t.pendingMessages ++ [(message.cid, message.mid)] }
    else t
  let t := { t with others := other.addFileMid peerId message t.others }
  if !message.outgoing && message.containsUnseenMention then addUnreadMention peerId message.mid t
  else t

/-! ## The newest messages and the unread ones -/

/-- `_knownChannelEarlierRemoteMessageSortKey:`. -/
def knownChannelEarlierRemoteMessageSortKey (table : MessageTable μ) (space : BitVec 8) :
    TGMessageSortKey :=
  let upperBound := TGMessageSortKeyMake space (2 ^ 31 - 1) (2 ^ 31 - 1)
  let keys := ((table.rows.map (·.2.sortKey)).filter fun key =>
    key.rank < upperBound.rank ∧ (topLowerBound space).rank < key.rank ∧
      key.mid.toInt < TGMessageLocalMidBaseline)
  (keys.argmax TGMessageSortKey.rank).getD (topLowerBound space)

/-- The newest message so far, with its key. -/
abbrev MaxMessage (μ : Type*) := TGMessageSortKey × Option (TGMessage μ)

/-- A message takes the place of the newest one, where its key is above the bound. -/
def MaxMessage.update (bound : TGMessageSortKey) (key : TGMessageSortKey) (message : TGMessage μ)
    (newest : MaxMessage μ) : MaxMessage μ :=
  if TGMessageSortKeyCompare key bound = .gt then (key, some message) else newest

/-- What the loops over messages collect for the place of the channel. -/
structure Newest (μ : Type*) where
  important : MaxMessage μ
  unimportant : MaxMessage μ
  addImportantUnreadCount : ℤ
  addUnimportantUnreadCount : ℤ

/-- The keys above which messages count as unread. -/
structure UnreadBounds where
  important : TGMessageSortKey
  unimportant : TGMessageSortKey

def Newest.add (maxReadMessageId : ℤ) (bounds : UnreadBounds) (newest : Newest μ)
    (message : TGMessage μ) : Newest μ :=
  let isUnread (bound : TGMessageSortKey) : Bool :=
    !message.outgoing && message.mid > maxReadMessageId && message.mid < TGMessageLocalMidBaseline
      && TGMessageSortKeyCompare message.sortKey bound = .gt
  if message.sortKey.space = TGMessageSpaceImportant then
    { newest with
      important := newest.important.update newest.important.1 message.sortKey message
      addImportantUnreadCount :=
        newest.addImportantUnreadCount + if isUnread bounds.important then 1 else 0 }
  else
    { newest with
      unimportant := newest.unimportant.update newest.unimportant.1 message.sortKey message
      addUnimportantUnreadCount :=
        newest.addUnimportantUnreadCount + if isUnread bounds.unimportant then 1 else 0 }

/-- A message with a new key. The important one is compared with the newest unimportant one. -/
def Newest.update (newest : Newest μ) (updated : UpdatedSortKey μ) : Newest μ :=
  if updated.updatedSortKey.space = TGMessageSpaceImportant then
    { newest with
      important := newest.important.update newest.unimportant.1 updated.updatedSortKey
        updated.updatedMessage }
  else if updated.updatedSortKey.space = TGMessageSpaceUnimportant then
    { newest with
      unimportant := newest.unimportant.update newest.unimportant.1 updated.updatedSortKey
        updated.updatedMessage }
  else newest

def Newest.addGroup (maxReadMessageId : ℤ) (bounds : UnreadBounds) (newest : Newest μ)
    (group : TGMessageGroup) : Newest μ :=
  if group.minId > maxReadMessageId ∧ group.minId > bounds.unimportant.mid.toInt then
    { newest with
      addUnimportantUnreadCount := newest.addUnimportantUnreadCount + group.count }
  else newest

/-! ## Holes -/

/-- The holes of one table after a list of changes, with what they report. -/
def changeHoles (change : HoleTable → MessageHole → HoleTable × HoleReport)
    (state : HoleTable × HoleReport) (holes : List MessageHole) : HoleTable × HoleReport :=
  holes.foldl (fun (table, report) hole =>
    let (table, next) := change table hole
    (table, ⟨report.addedMessages ++ next.addedMessages,
      report.removedMessages ++ next.removedMessages⟩)) state

/-! ## A batch -/

/-- What is left of a batch once its messages, holes and mentions are stored. -/
structure StoredBatch (μ ω : Type*) where
  tables : Tables μ ω
  changed : ChangedMessages μ
  newest : Newest μ
  invalidateReadState : Bool
  unseenMentionCount : ℤ

/-- The part of `addMessagesToChannel:` before the media are cached. -/
def storeBatch (other : OtherTables μ ω) (peerId : ℤ) (conversation : TGConversation μ)
    (messages : List (TGMessage μ)) (batch : ChannelBatch μ) (t : Tables μ ω) :
    StoredBatch μ ω :=
  let table := t.messages peerId
  let maxReadMessageId := conversation.maxReadMessageId
  let bounds : UnreadBounds :=
    if messages ≠ [] ∧ maxReadMessageId ≠ 0 then
      ⟨knownChannelEarlierRemoteMessageSortKey table TGMessageSpaceImportant,
        knownChannelEarlierRemoteMessageSortKey table TGMessageSpaceUnimportant⟩
    else ⟨topLowerBound TGMessageSpaceImportant, topLowerBound TGMessageSpaceUnimportant⟩
  let addedMessages := newMessages table messages
  let (t, removeUnseenMentionIds) := batch.deleteMessages.foldl (deleteMessage other peerId) (t, [])
  let t := addedMessages.foldl (insertMessage other peerId) t
  let newest := addedMessages.foldl (Newest.add maxReadMessageId bounds)
    ⟨(topLowerBound TGMessageSpaceImportant, none), (topLowerBound TGMessageSpaceUnimportant, none),
      0, 0⟩
  let newest := batch.updatedMessageSortKeys.foldl Newest.update newest
  let newest := batch.unimportantGroups.foldl (Newest.addGroup maxReadMessageId bounds) newest
  let (holes, report) :=
    changeHoles removeChannelHole (t.holes peerId, ⟨[], batch.deleteMessages⟩) batch.removedHoles
  let (unimportantHoles, unimportantReport) :=
    changeHoles removeChannelHole (t.unimportantHoles peerId, ⟨[], []⟩)
      batch.removedUnimportantHoles
  let (holes, report) := changeHoles addChannelHole (holes, report) batch.addedHoles
  let t := { t with
    holes := Function.update t.holes peerId holes
    unimportantHoles := Function.update t.unimportantHoles peerId unimportantHoles }
  let (t, invalidateReadState, unseenMentionCount) :=
    markMentionsAsRead peerId removeUnseenMentionIds t
  { tables := t
    changed := ⟨addedMessages, report.addedMessages, report.removedMessages,
      unimportantReport.addedMessages, unimportantReport.removedMessages⟩
    newest, invalidateReadState, unseenMentionCount }

/-- `_updateChannelConversationSortKeys:` on the stored channel. -/
def updateSortKeys (other : OtherTables μ ω) (r : Rendering) (peerId : ℤ) (batch : ChannelBatch μ)
    (newest : Newest μ) (t : Tables μ ω) : Tables μ ω :=
  (t.channels.lookup peerId).elim t fun row =>
    let updated := updateChannelConversationSortKeys r (t.messages peerId) row newest.important.2
      newest.unimportant.2
      (if batch.keepUnreadCounters then 0 else newest.addImportantUnreadCount)
      (if batch.keepUnreadCounters then 0 else newest.addUnimportantUnreadCount)
      (batch.deleteMessages ≠ [] ∨ batch.updatedMessageSortKeys ≠ [])
    let previousUnread : Bool := row.data.unreadCount > 0
    let updatedUnread : Bool := updated.data.unreadCount > 0
    { t with
      channels := t.channels.insertOrReplace peerId updated
      others :=
        if previousUnread && !updatedUnread then other.updateUnreadChannelsCount (-1) t.others
        else if !previousUnread && updatedUnread then other.updateUnreadChannelsCount 1 t.others
        else t.others }

/-- `_enqueueValidatePeersReadStates:` of one peer. -/
def enqueueValidateReadState (peerId : ℤ) (t : Tables μ ω) : Tables μ ω :=
  if peerId ∈ t.validateReadState then t
  else { t with validateReadState := t.validateReadState ++ [peerId] }

/-- The rows are keyed by type and subject. -/
def storeQueuedAction (action : TGDatabaseAction) (t : Tables μ ω) : Tables μ ω :=
  { t with
    actionQueue := t.actionQueue.filter
      (fun stored => stored.type ≠ action.type ∨ stored.subject ≠ action.subject) ++ [action] }

/-- The action for a mention that was read as it came in. -/
def readContentsAction (peerId messageId : ℤ) : TGDatabaseAction where
  type := TGDatabaseActionReadMessageContents
  subject := messageId
  arg0 :=
    if TGIOS6PeerIdLooksLikeModernRawChannel peerId then
      (BitVec.ofInt 32 (-peerId - 4294967296)).toInt
    else if TGPeerIdIsChannel peerId then (BitVec.ofInt 32 (INT32_MIN * 2 - peerId)).toInt
    else 0
  arg1 := if TGPeerIdIsChannel peerId then 1 else 0

/-- A call of `addMessagesToChannel:`, with what it reads elsewhere: the peers whose messages are
read as they come in, and the draft and the pin of the channel. -/
structure IngestCall (μ : Type*) where
  peerId : ℤ
  batch : ChannelBatch μ
  automaticallyReadPeerIds : List ℤ
  rendering : Rendering

/-- What is done before the commit: the batch, the tags of its media in a block of their own, and
the place of the channel. -/
def ingestBatch (other : OtherTables μ ω) (call : IngestCall μ) (stored : StoredBatch μ ω)
    (c : Connection (Tables μ ω)) : Connection (Tables μ ω) :=
  let changed := stored.changed
  let c := c.execute fun _ => stored.tables
  let c :=
    if changed.addedMessages ≠ [] ∨ changed.addedHoles ≠ [] then
      c.transaction (Connection.execute fun t =>
        { t with others := other.cacheMediaForPeerId call.peerId changed.addedMessages t.others })
    else c
  if changed.addedMessages ≠ [] ∨ changed.addedHoles ≠ [] ∨ call.batch.deleteMessages ≠ [] ∨
      call.batch.updatedMessageSortKeys ≠ [] ∨ stored.newest.addImportantUnreadCount ≠ 0 ∨
      stored.newest.addUnimportantUnreadCount ≠ 0 then
    c.execute (updateSortKeys other call.rendering call.peerId call.batch stored.newest)
  else c

/-- What is done after it: the check of the read state, the keyboards by the order of their
messages, and the actions for the mentions that were read, each in a block of its own. -/
def ingestAfterwards (other : OtherTables μ ω) (peerId : ℤ) (stored : StoredBatch μ ω)
    (readMentionIds : List ℤ) (c : Connection (Tables μ ω)) : Connection (Tables μ ω) :=
  let c := if stored.invalidateReadState then c.execute (enqueueValidateReadState peerId) else c
  let markupMessages := stored.changed.addedMessages.filter other.hasReplyMarkup
  let replyMarkupMessages := markupMessages.insertionSort (·.sortKey.rank ≤ ·.sortKey.rank)
  let c := replyMarkupMessages.foldl (fun c message =>
    c.execute fun t => { t with others := other.storeBotReplyMarkup peerId message t.others }) c
  readMentionIds.foldl (fun c messageId =>
    c.transaction (Connection.execute (storeQueuedAction (readContentsAction peerId messageId)))) c

/-- The connection after a call, the calls of `changedMessages`, and the count of unseen mentions
that is dispatched. -/
structure Ingested (μ ω : Type*) where
  connection : Connection (Tables μ ω)
  changedMessages : List (Option (ChangedMessages μ))
  unseenMentionCount : Option ℤ

/-- `addMessagesToChannel:`. The feed of a channel is always 0, so that nothing is done for it. -/
def addMessagesToChannel (other : OtherTables μ ω) (call : IngestCall μ)
    (c : Connection (Tables μ ω)) : Ingested μ ω :=
  let wasInTransaction := c.inTransaction
  let c := if wasInTransaction then c else c.beginTransaction
  match loadChannelConversation c.tables.channels call.peerId with
  | some conversation =>
    let (messages, readMentionIds) :=
      readMentions call.automaticallyReadPeerIds call.batch.messages
    let stored := storeBatch other call.peerId conversation messages call.batch c.tables
    let c := ingestBatch other call stored c
    let c := if wasInTransaction then c else c.commit
    ⟨ingestAfterwards other call.peerId stored readMentionIds c, [some stored.changed],
      some stored.unseenMentionCount⟩
  -- neither a commit nor a rollback
  | none => ⟨c, [none], none⟩

end Onegram
