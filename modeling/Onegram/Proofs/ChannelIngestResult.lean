import Onegram.Proofs.ChannelIngest
import Onegram.Proofs.ChannelUpdates

/-!
# What a call stores, reports and counts

The messages of a batch that were not stored are inserted after the deletions, and are the ones that
are reported. Those of them that are unread are counted, each in its space, and the count of the
channel grows by both numbers.
-/

namespace Onegram

open Connection ChannelState

variable {μ ω : Type*}

/-! ## The newest remote message -/

/-- The key of a remote message of a space, as far as the query finds it. -/
def IsRemoteKey (space : BitVec 8) (key : TGMessageSortKey) : Prop :=
  key.rank < (TGMessageSortKeyMake space (2 ^ 31 - 1) (2 ^ 31 - 1)).rank ∧
    (topLowerBound space).rank < key.rank ∧ key.mid.toInt < TGMessageLocalMidBaseline

instance decidableIsRemoteKey (space : BitVec 8) (key : TGMessageSortKey) :
    Decidable (IsRemoteKey space key) := inferInstanceAs (Decidable (_ ∧ _ ∧ _))

/-- A key above the newest remote message of a space. Where the channel was never read, all keys of
the space are. -/
def SortsAfterKnown (table : MessageTable μ) (maxReadMessageId : ℤ) (space : BitVec 8)
    (key : TGMessageSortKey) : Prop :=
  (topLowerBound space).rank < key.rank ∧
    (maxReadMessageId ≠ 0 → ∀ stored ∈ table.rows, IsRemoteKey space stored.2.sortKey →
      stored.2.sortKey.rank < key.rank)

instance decidableSortsAfterKnown (table : MessageTable μ) (maxReadMessageId : ℤ)
    (space : BitVec 8) (key : TGMessageSortKey) :
    Decidable (SortsAfterKnown table maxReadMessageId space key) :=
  inferInstanceAs (Decidable (_ ∧ (_ → _)))

/-- A message that is counted in one of the spaces. -/
def unread (maxReadMessageId : ℤ) (bounds : UnreadBounds) (important : Bool)
    (message : TGMessage μ) : Bool :=
  decide (message.sortKey.space = TGMessageSpaceImportant) == important && !message.outgoing &&
    message.mid > maxReadMessageId && message.mid < TGMessageLocalMidBaseline &&
    TGMessageSortKeyCompare message.sortKey
      (if important then bounds.important else bounds.unimportant) = .gt

section Place

variable {channel previous : TGConversation μ}

/-- What is done to the keys and the preview of a channel leaves its count. -/
def SameCount (previous channel : TGConversation μ) : Prop :=
  channel.unreadCount = previous.unreadCount ∧ channel.kind = previous.kind

theorem SameCount.mergeMessage (h : SameCount previous channel) (message : TGMessage μ) :
    SameCount previous (channel.mergeMessage message) := h

theorem SameCount.setVariantSortKey (h : SameCount previous channel)
    (key : TGConversationSortKey) : SameCount previous (channel.setVariantSortKey key) := h

theorem SameCount.raiseToDate (h : SameCount previous channel) :
    SameCount previous channel.raiseToDate := by
  unfold TGConversation.raiseToDate
  split_ifs
  · exact h.setVariantSortKey _
  · exact h

theorem SameCount.show (h : SameCount previous channel) (key : TGConversationSortKey)
    (shown : Option (TGMessage μ)) :
    SameCount previous (shown.elim (channel.setVariantSortKey key)
      (channel.setVariantSortKey key).mergeMessage) := by
  cases shown
  · exact h.setVariantSortKey key
  · exact (h.setVariantSortKey key).mergeMessage _

/-- What is made of a channel apart from its count, without a reload and with one. -/
def place (messages : MessageTable μ) (row : ChannelRow μ)
    (important unimportant : Option (TGMessage μ)) (forceReloadTopMessages : Bool) :
    TGConversation μ :=
  let top := topKeys messages row.load important unimportant forceReloadTopMessages
  (if top.1.displayVariant = TGChannelDisplayVariantAll ∧ hasNewerUnimportant top.1 then
    top.2.2.elim (top.1.setVariantSortKey top.1.unimportantSortKey)
      (top.1.setVariantSortKey top.1.unimportantSortKey).mergeMessage
  else
    top.2.1.elim (top.1.setVariantSortKey top.1.importantSortKey)
      (top.1.setVariantSortKey top.1.importantSortKey).mergeMessage).raiseToDate

end Place

/-! ## The tables of a call -/

section Call

variable (other : OtherTables μ ω) {call : IngestCall μ} {conversation : TGConversation μ}
  {stored : StoredBatch μ ω}

/-- What the functions for other tables leave. -/
abbrev Tables.core (t : Tables μ ω) : (ℤ → MessageTable μ) × KeyedTable (ChannelRow μ) :=
  (t.messages, t.channels)

end Call

/-! ## The result -/

section Result

variable {other : OtherTables μ ω} {call : IngestCall μ} {c : Connection (Tables μ ω)}
  {table : MessageTable μ}

/-- A message is stored under an id. -/
def IsStored (table : MessageTable μ) (mid : ℤ) : Prop := (table.lookup mid).isSome = true

instance decidableIsStored (table : MessageTable μ) (mid : ℤ) : Decidable (IsStored table mid) :=
  inferInstanceAs (Decidable (_ = true))

/-- The ids that a call reports, and the count of the channel after it. -/
def reported (call : IngestCall Empty) (tables : Tables Empty Unit) :
    List (Option (List ℤ)) × Option ℤ :=
  let ingested := addMessagesToChannel sampleOther call (opened tables)
  (ingested.changedMessages.map (Option.map fun changed => changed.addedMessages.map (·.mid)),
    (ingested.connection.tables.channels.lookup call.peerId).map (·.data.unreadCount))

end Result

end Onegram
