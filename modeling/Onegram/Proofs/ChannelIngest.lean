import Onegram.ChannelIngest
import Onegram.Lib.Run
import Onegram.Proofs.ChannelSortKeys

/-!
# Transactions of the channel ingest

A call for a stored channel leaves the transaction as it found it, and what it changes is committed
by its end where none was open. A call for an unknown channel, outside of a transaction, leaves one
open: later calls then find it and commit nothing.
-/

namespace Onegram

open Connection

variable {μ ω : Type*} {other : OtherTables μ ω} {call : IngestCall μ}
  {c : Connection (Tables μ ω)} {conversation : TGConversation μ}

/-! ## One call -/

theorem ingestBatch_nested (other : OtherTables μ ω) (call : IngestCall μ)
    (stored : StoredBatch μ ω) : Nested (ingestBatch other call stored) := by
  have hcached : Nested (fun c : Connection (Tables μ ω) =>
      if stored.changed.addedMessages ≠ [] ∨ stored.changed.addedHoles ≠ [] then
        c.transaction (Connection.execute fun t => { t with
          others := other.cacheMediaForPeerId call.peerId stored.changed.addedMessages t.others })
      else c) := (Nested.execute _).transaction.ite .id _
  exact ((Nested.execute fun _ => stored.tables).comp hcached).comp ((Nested.execute _).ite .id _)

theorem ingestAfterwards_nested (other : OtherTables μ ω) (peerId : ℤ) (stored : StoredBatch μ ω)
    (readMentionIds : List ℤ) : Nested (ingestAfterwards other peerId stored readMentionIds) := by
  have hvalidated : Nested (fun c : Connection (Tables μ ω) =>
      if stored.invalidateReadState then c.execute (enqueueValidateReadState peerId) else c) :=
    (Nested.execute _).ite .id _
  have hmarkup := Nested.foldl (fun message : TGMessage μ => Nested.execute fun t : Tables μ ω =>
    { t with others := other.storeBotReplyMarkup peerId message t.others })
    ((stored.changed.addedMessages.filter other.hasReplyMarkup).insertionSort
      (·.sortKey.rank ≤ ·.sortKey.rank))
  have hactions := Nested.foldl (fun messageId : ℤ => (Nested.execute (storeQueuedAction
    (readContentsAction peerId messageId) : Tables μ ω → Tables μ ω)).transaction) readMentionIds
  exact (hvalidated.comp hmarkup).comp hactions

/-- The channel of a call is stored. -/
def Known (c : Connection (Tables μ ω)) (call : IngestCall μ) : Prop :=
  loadChannelConversation c.tables.channels call.peerId ≠ none

/-- What a call does for a channel that is not stored. -/
theorem addMessagesToChannel_unknown (other : OtherTables μ ω) (h : ¬ Known c call) :
    addMessagesToChannel other call c =
      ⟨if c.inTransaction then c else c.beginTransaction, [none], none⟩ := by
  have hload : loadChannelConversation
      (if c.inTransaction then c else c.beginTransaction).tables.channels call.peerId = none := by
    rw [apply_ite Connection.tables, tables_beginTransaction, ite_self]
    exact not_not.mp h
  unfold addMessagesToChannel
  simp only [hload]

/-- What a call does for one that is. -/
theorem addMessagesToChannel_stored (other : OtherTables μ ω)
    (hload : loadChannelConversation c.tables.channels call.peerId = some conversation) :
    addMessagesToChannel other call c =
      let stored := storeBatch other call.peerId conversation
        (readMentions call.automaticallyReadPeerIds call.batch.messages).1 call.batch c.tables
      ⟨ingestAfterwards other call.peerId stored
        (readMentions call.automaticallyReadPeerIds call.batch.messages).2
        (transaction (ingestBatch other call stored) c), [some stored.changed],
        some stored.unseenMentionCount⟩ := by
  have hopened : loadChannelConversation
      (if c.inTransaction then c else c.beginTransaction).tables.channels call.peerId =
        some conversation := by
    rw [apply_ite Connection.tables, tables_beginTransaction, ite_self]
    exact hload
  unfold addMessagesToChannel transaction
  simp only [hopened]
  by_cases hopen : c.inTransaction = true
  · simp only [hopen, if_true]
  · simp only [hopen]
    rfl

theorem addMessagesToChannel_known (other : OtherTables μ ω) (h : Known c call) :
    ∃ stored readMentionIds, addMessagesToChannel other call c =
      ⟨ingestAfterwards other call.peerId stored readMentionIds
        (transaction (ingestBatch other call stored) c), [some stored.changed],
        some stored.unseenMentionCount⟩ := by
  obtain ⟨conversation, hconversation⟩ := Option.ne_none_iff_exists'.mp h
  exact ⟨_, _, addMessagesToChannel_stored other hconversation⟩

/-- What a call keeps: the transaction is left as it was found, an unknown channel changes nothing,
`changedMessages` is called once, and what a call outside of a transaction changes is committed. -/
structure Transactional (other : OtherTables μ ω) (c : Connection (Tables μ ω))
    (call : IngestCall μ) : Prop where
  inTransaction : (addMessagesToChannel other call c).connection.inTransaction = c.inTransaction
  unknown : ¬ Known c call → (addMessagesToChannel other call c).connection.tables = c.tables
  once : (addMessagesToChannel other call c).changedMessages.length = 1
  committed : c.inTransaction = false →
    (addMessagesToChannel other call c).connection.committed =
      (addMessagesToChannel other call c).connection.tables

theorem transactional_iff : Transactional other c call ↔ Known c call ∨ c.inTransaction = true := by
  by_cases hknown : Known c call
  · refine iff_of_true ?_ (.inl hknown)
    obtain ⟨stored, readMentionIds, hcall⟩ := addMessagesToChannel_known other hknown
    have hnested := (ingestBatch_nested other call stored).transaction.comp
      (ingestAfterwards_nested other call.peerId stored readMentionIds)
    refine ⟨?_, fun h => absurd hknown h, ?_, fun hclosed => ?_⟩ <;> rw [hcall]
    · exact hnested.inTransaction c
    · rfl
    · exact Connection.settled _ ((hnested.inTransaction c).trans hclosed)
  · have hcall := addMessagesToChannel_unknown other hknown
    constructor
    · intro h
      refine .inr (Bool.of_not_eq_false fun hclosed => ?_)
      have hopen := h.inTransaction
      rw [hcall, hclosed] at hopen
      cases hopen
    · intro h
      have hopen := h.resolve_left hknown
      rw [if_pos hopen] at hcall
      refine ⟨?_, fun _ => ?_, ?_, fun hclosed => ?_⟩ <;> rw [hcall]
      · rfl
      · rw [hopen] at hclosed
        cases hclosed

/-! ## A sequence of calls -/

/-- One call after another. -/
def ingestStep (other : OtherTables μ ω) (c : Connection (Tables μ ω)) (call : IngestCall μ) :
    Connection (Tables μ ω) := (addMessagesToChannel other call c).connection

/-- In a sequence of calls, each keeps the transaction exactly where each is for a channel that is
stored by then or finds a transaction. -/
theorem calls_transactional_iff (other : OtherTables μ ω) (c : Connection (Tables μ ω))
    (calls : List (IngestCall μ)) :
    Run.AllSteps (ingestStep other) (Transactional other) c calls ↔
      Run.AllSteps (ingestStep other) (fun c call => Known c call ∨ c.inTransaction = true) c
        calls :=
  @Run.allSteps_congr _ _ _ _ (fun _ => True) _ (fun _ _ _ => trivial)
    (fun _ _ _ => transactional_iff) calls _ trivial

/-! ## An unknown channel, then a stored one -/

def sampleOther : OtherTables Empty Unit where
  removeFileMid _ _ _ := ()
  addFileMid _ _ _ := ()
  cacheMediaForPeerId _ _ _ := ()
  hasReplyMarkup _ := false
  storeBotReplyMarkup _ _ _ := ()
  updateUnreadChannelsCount _ _ := ()

def sampleTables : Tables Empty Unit where
  channels := KeyedTable.empty.insertOrReplace (-1000000005) sampleRow
  messages _ := KeyedTable.empty
  feedMessages := []
  pendingMessages := []
  holes _ := HoleTable.empty
  unimportantHoles _ := HoleTable.empty
  mentionIds := []
  mentionStates := KeyedTable.empty
  validateReadState := []
  actionQueue := []
  others := ()

/-- A call that adds one message to a channel. -/
def sampleIngest (peerId : ℤ) : IngestCall Empty where
  peerId := peerId
  batch := ⟨[sampleMessage TGMessageSpaceImportant 1 10], [], [], [], [], [], [], false⟩
  automaticallyReadPeerIds := []
  rendering := ⟨0, 0⟩

/-- The message of the second call is stored, and not committed. -/
theorem unknown_leaves_transaction :
    (addMessagesToChannel sampleOther (sampleIngest (-7))
        (opened sampleTables)).connection.inTransaction = true ∧
      (((ingestStep sampleOther (ingestStep sampleOther (opened sampleTables) (sampleIngest (-7)))
        (sampleIngest (-1000000005))).tables.messages (-1000000005)).lookup 1).isSome = true ∧
      (((ingestStep sampleOther (ingestStep sampleOther (opened sampleTables) (sampleIngest (-7)))
        (sampleIngest (-1000000005))).committed.messages (-1000000005)).lookup 1).isSome =
          false := by
  decide +kernel

end Onegram
