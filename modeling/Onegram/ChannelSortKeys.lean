import Onegram.ChannelMessage

/-!
# The place of a channel in the list

A channel keeps the sort keys of its newest important and its newest unimportant message. The
variant key, by which the list is sorted, is one of the two, and a preview of its message is kept.
The keys are computed in two ways: from the message tables after a conversation was updated, and
after messages were added or, with a forced reload, removed or changed.
-/

namespace Onegram

structure TGConversationSortKey where
  kind : BitVec 8
  timestamp : BitVec 32
  mid : BitVec 32
deriving DecidableEq

def TGConversationSortKey.rank (key : TGConversationSortKey) : ℕ :=
  keyRank key.kind key.timestamp key.mid

def TGConversationSortKeyMake (kind : BitVec 8) (timestamp mid : ℤ) : TGConversationSortKey :=
  ⟨kind, .ofInt 32 timestamp, .ofInt 32 mid⟩

def TGConversationSortKeyCompare (lhs rhs : TGConversationSortKey) : Ordering :=
  compare lhs.rank rhs.rank

/-- A key with a later timestamp, where the date is later. -/
def TGConversationSortKey.raise (key : TGConversationSortKey) (date : ℤ) : TGConversationSortKey :=
  if key.timestamp.toInt < date then TGConversationSortKeyMake key.kind date key.mid.toInt else key

def TGConversationKindPersistentChannel : BitVec 8 := 0

def TGChannelDisplayVariantAll : ℤ := 1

/-- What is used of a channel's conversation. The dates of the draft and of the pin are not stored
with it. -/
structure TGConversation (μ : Type*) where
  conversationId : ℤ
  kind : BitVec 8
  displayVariant : ℤ
  pts : ℤ
  importantSortKey : TGConversationSortKey
  unimportantSortKey : TGConversationSortKey
  variantSortKey : TGConversationSortKey
  maxReadMessageId : ℤ
  maxOutgoingReadMessageId : ℤ
  maxKnownMessageId : ℤ
  unreadCount : ℤ
  messageDate : BitVec 32
  outgoing : Bool
  fromUid : ℤ
  text : String
  media : List μ
  unread : Bool
  deliveryError : Bool
  deliveryState : TGMessageDeliveryState
  messageFlags : ℤ
  draftDate : ℤ
  pinnedDate : ℤ

namespace TGConversation

variable {μ : Type*}

/-- `minMessageDate` is not stored and 0. -/
def date (channel : TGConversation μ) : ℤ :=
  max channel.pinnedDate (max 0 (max channel.draftDate channel.messageDate.toInt))

def setVariantSortKey (channel : TGConversation μ) (variantSortKey : TGConversationSortKey) :
    TGConversation μ :=
  { channel with variantSortKey, messageDate := variantSortKey.timestamp }

/-- `isMessageUnread:`, for an id that is not one of a secret chat. -/
def isMessageUnread (channel : TGConversation μ) (message : TGMessage μ) : Bool :=
  if TGPeerIdIsChannel channel.conversationId ∧
      channel.kind ≠ TGConversationKindPersistentChannel then false
  else if message.outgoing then
    if message.mid < TGMessageLocalMidBaseline then
      message.mid > channel.maxOutgoingReadMessageId
    else true
  else if message.mid < TGMessageLocalMidBaseline then message.mid > channel.maxReadMessageId
  else false

def mergeMessage (channel : TGConversation μ) (message : TGMessage μ) : TGConversation μ :=
  let maxKnownMessageId :=
    if channel.maxKnownMessageId > TGMessageLocalMidBaseline then 0 else channel.maxKnownMessageId
  { channel with
    outgoing := message.outgoing
    messageDate := .ofInt 32 message.date
    fromUid := message.fromUid
    text := message.text
    media := message.mediaAttachments
    unread := channel.isMessageUnread message
    deliveryError := message.deliveryState = .failed
    deliveryState := message.deliveryState
    messageFlags := message.flags
    maxKnownMessageId :=
      if message.mid < TGMessageLocalMidBaseline ∧ message.mid > maxKnownMessageId then message.mid
      else maxKnownMessageId }

/-- What is done where no message is left to show. -/
def clearPreview (channel : TGConversation μ) : TGConversation μ :=
  { channel with media := [], text := "", deliveryState := .delivered }

def mergeDraft (channel : TGConversation μ) (draftDate : ℤ) : TGConversation μ :=
  { channel with draftDate, variantSortKey := channel.variantSortKey.raise draftDate }

def setPinnedDate (channel : TGConversation μ) (pinnedDate : ℤ) : TGConversation μ :=
  { channel with pinnedDate, variantSortKey := channel.variantSortKey.raise pinnedDate }

/-- The raise to the date of the channel that both ways end with. -/
def raiseToDate (channel : TGConversation μ) : TGConversation μ :=
  if channel.variantSortKey.timestamp.toInt < channel.date then
    channel.setVariantSortKey (TGConversationSortKeyMake channel.variantSortKey.kind channel.date
      channel.variantSortKey.mid.toInt)
  else channel

/-- The key of a message as one of the conversation. -/
def keyOf (channel : TGConversation μ) (message : TGMessage μ) : TGConversationSortKey :=
  TGConversationSortKeyMake channel.kind message.sortKey.timestamp.toInt message.sortKey.mid.toInt

end TGConversation

/-- A row of the list of channels. -/
structure ChannelRow (μ : Type*) where
  variantSortKey : TGConversationSortKey
  data : TGConversation μ

/-- What `_renderConversations` reads for the channel: the date of its draft and of its pin, 0
without one. -/
structure Rendering where
  draftDate : ℤ
  pinnedDate : ℤ

variable {μ : Type*}

/-- `initWithKeyValueCoder:` of the data. -/
def ChannelRow.load (row : ChannelRow μ) : TGConversation μ :=
  { row.data with draftDate := 0, pinnedDate := 0 }

def Rendering.render (r : Rendering) (channel : TGConversation μ) : TGConversation μ :=
  (channel.mergeDraft r.draftDate).setPinnedDate r.pinnedDate

/-- `_updateChannelConversation:` of a stored channel. -/
def updateChannelConversation (r : Rendering) (messages : MessageTable μ) (row : ChannelRow μ) :
    ChannelRow μ :=
  let channel := row.load
  let actualImportantMessage := topChannelMessage messages true
  let actualUnimportantMessage := topChannelMessage messages false
  let channel := actualImportantMessage.elim channel fun message =>
    { channel with importantSortKey := channel.keyOf message }
  let channel := actualUnimportantMessage.elim channel fun message =>
    { channel with unimportantSortKey := channel.keyOf message }
  let channel :=
    if channel.displayVariant = TGChannelDisplayVariantAll then
      match actualUnimportantMessage, actualImportantMessage with
      | some unimportant, some important =>
        -- the three-way comparison is itself the condition
        if TGMessageSortKeyCompare unimportant.sortKey important.sortKey ≠ .eq then
          (channel.setVariantSortKey channel.unimportantSortKey).mergeMessage unimportant
        else (channel.setVariantSortKey channel.importantSortKey).mergeMessage important
      | some unimportant, none =>
        (channel.setVariantSortKey channel.unimportantSortKey).mergeMessage unimportant
      | none, some important =>
        (channel.setVariantSortKey channel.importantSortKey).mergeMessage important
      | none, none => channel.clearPreview
    else
      match actualImportantMessage with
      | some important =>
        (channel.setVariantSortKey channel.importantSortKey).mergeMessage important
      | none => channel.clearPreview
  let channel := r.render channel.raiseToDate
  ⟨channel.variantSortKey, channel⟩

/-- The keys and the messages they are of, with a forced reload or from proposed messages. -/
def topKeys (messages : MessageTable μ) (channel : TGConversation μ)
    (proposedTopImportantMessage proposedTopUnimportantMessage : Option (TGMessage μ))
    (forceReloadTopMessages : Bool) :
    TGConversation μ × Option (TGMessage μ) × Option (TGMessage μ) :=
  if forceReloadTopMessages then
    let actualImportantMessage := topChannelMessage messages true
    let actualUnimportantMessage := topChannelMessage messages false
    let emptyKey := TGConversationSortKeyMake channel.kind channel.date 0
    ({ channel with
        importantSortKey := actualImportantMessage.elim emptyKey channel.keyOf
        unimportantSortKey := actualUnimportantMessage.elim emptyKey channel.keyOf },
      actualImportantMessage, actualUnimportantMessage)
  else
    let isNewer (key : TGConversationSortKey) (message : TGMessage μ) : Bool :=
      key.mid = 0 ∨ TGConversationSortKeyCompare (channel.keyOf message) key = .gt
    let actualImportantMessage :=
      proposedTopImportantMessage.filter (isNewer channel.importantSortKey)
    let actualUnimportantMessage :=
      proposedTopUnimportantMessage.filter (isNewer channel.unimportantSortKey)
    ({ channel with
        importantSortKey := actualImportantMessage.elim channel.importantSortKey channel.keyOf
        unimportantSortKey :=
          actualUnimportantMessage.elim channel.unimportantSortKey channel.keyOf },
      actualImportantMessage, actualUnimportantMessage)

/-- Whether the unimportant key is the newer one. -/
def hasNewerUnimportant (channel : TGConversation μ) : Bool :=
  let hasImportant : Bool := channel.importantSortKey.mid ≠ 0
  let hasUnimportant : Bool := channel.unimportantSortKey.mid ≠ 0
  if hasImportant && hasUnimportant then
    TGConversationSortKeyCompare channel.unimportantSortKey channel.importantSortKey = .gt
  else hasUnimportant

/-- `_updateChannelConversationSortKeys:` of a stored channel. -/
def updateChannelConversationSortKeys (r : Rendering) (messages : MessageTable μ)
    (row : ChannelRow μ)
    (proposedTopImportantMessage proposedTopUnimportantMessage : Option (TGMessage μ))
    (addImportantUnread addUnimportantUnread : ℤ) (forceReloadTopMessages : Bool) :
    ChannelRow μ :=
  let previous := row.load
  let (channel, actualImportantMessage, actualUnimportantMessage) :=
    topKeys messages previous proposedTopImportantMessage proposedTopUnimportantMessage
      forceReloadTopMessages
  let channel :=
    if channel.displayVariant = TGChannelDisplayVariantAll ∧ hasNewerUnimportant channel then
      let channel := channel.setVariantSortKey channel.unimportantSortKey
      actualUnimportantMessage.elim channel channel.mergeMessage
    else
      let channel := channel.setVariantSortKey channel.importantSortKey
      actualImportantMessage.elim channel channel.mergeMessage
  let channel := channel.raiseToDate
  let channel :=
    if channel.kind = TGConversationKindPersistentChannel then
      { channel with
        unreadCount := channel.unreadCount + (addImportantUnread + addUnimportantUnread) }
    else channel
  let sortKeysChanged :=
    TGConversationSortKeyCompare previous.importantSortKey channel.importantSortKey ≠ .eq ∨
      TGConversationSortKeyCompare previous.unimportantSortKey channel.unimportantSortKey ≠ .eq ∨
      TGConversationSortKeyCompare previous.variantSortKey channel.variantSortKey ≠ .eq
  if ¬ sortKeysChanged ∧ previous.unreadCount = channel.unreadCount then row
  -- the data is encoded before the channel is rendered, its column is not
  else ⟨(r.render channel).variantSortKey, channel⟩

end Onegram
