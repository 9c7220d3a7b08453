import Onegram.QueuedPolls
import Onegram.Proofs.KeyValueCoder

/-!
# What a subscriber is given after a restart

The table of polls holds what the calls left to be polled, encoded, and the coder gives it back. But
the query has one column and the data is taken from the second, so every row decodes as the poll of
peer 0, which is of no kind, and nothing is given. Of the reads of feeds only the last of a feed is
held, and the keys of the dictionary are given in place of its values.
-/

namespace Onegram.QueuedPolls

open KeyValueCoder TGDatabase

/-! ## What is left to be done -/

/-- The poll each peer is waiting for, and the reads of feeds that are not confirmed. -/
structure Outstanding where
  polls : ℤ → Option TGQueuedPeerPoll
  reads : List TGQueuedReadFeedMessages

def Outstanding.empty : Outstanding := ⟨fun _ => none, []⟩

def Outstanding.poll (o : Outstanding) (poll : TGQueuedPeerPoll) : Outstanding :=
  { o with polls := Function.update o.polls poll.peerId (some poll) }

/-- Whether a confirmation is one of a read. -/
def Confirms (confirmed messages : TGQueuedReadFeedMessages) : Prop :=
  messages.feedPeerId = confirmed.feedPeerId ∧ messages.maxId = confirmed.maxId ∧
    messages.maxPeerId = confirmed.maxPeerId

instance decidableConfirms (confirmed messages : TGQueuedReadFeedMessages) :
    Decidable (Confirms confirmed messages) := inferInstanceAs (Decidable (_ ∧ _))

def Outstanding.record (o : Outstanding) : Event → Outstanding
  | .enqueueChannelPoll peerId => o.poll ⟨peerId, none⟩
  | .enqueueFeedMessagesPoll feedId position => o.poll ⟨TGPeerIdFromAdminLogId feedId, position⟩
  | .confirmPeerPoll peerPoll =>
    { o with polls := Function.update o.polls peerPoll.peerId none }
  | .readFeed messages => { o with reads := messages :: o.reads }
  | .confirmFeedHistoryRead messages =>
    { o with reads := o.reads.filter fun other => ¬ Confirms messages other }
  | .conversation _ _ => o

def outstanding (events : List Event) : Outstanding := Run.run Outstanding.record .empty events

variable {F : Foundation} {database : TGDatabase} {o : Outstanding} {e : Event}
  {events : List Event} {isWanted : ℤ → Bool}

/-- The database holds the polls that are outstanding, and of the reads only outstanding ones. -/
structure Holds (database : TGDatabase) (o : Outstanding) : Prop where
  peerId : ∀ {peerId poll}, o.polls peerId = some poll → poll.peerId = peerId
  polls : ∀ peerId, database.queuedChannelActions.lookup peerId =
    (o.polls peerId).map TGQueuedPeerPoll.encode
  reads : ∀ r ∈ database.feedReadHistory.rows, ⟨r.1, r.2.fromUid, r.2.mid, r.2.date⟩ ∈ o.reads

theorem Holds.enqueue (h : Holds database o) (peerId : ℤ) (position : Option TGFeedPosition) :
    Holds (database.enqueueChannelOrFeedMessagesPoll peerId position).1
      (o.poll ⟨peerId, position⟩) where
  peerId {key poll} hpoll := by
    simp only [Outstanding.poll, Function.update_apply] at hpoll
    split_ifs at hpoll with hkey
    · cases hpoll
      exact hkey.symm
    · exact h.peerId hpoll
  polls key := by
    simp only [enqueueChannelOrFeedMessagesPoll, Outstanding.poll, Function.update_apply,
      KeyedTable.lookup_insertOrReplace, h.polls key]
    split_ifs <;> rfl
  reads := h.reads

theorem Holds.confirm (h : Holds database o) (peerPoll : TGQueuedPeerPoll) :
    Holds (database.confirmPeerPoll peerPoll) (o.record (.confirmPeerPoll peerPoll)) where
  peerId {key poll} hpoll := by
    simp only [Outstanding.record, Function.update_apply] at hpoll
    split_ifs at hpoll
    exact h.peerId hpoll
  polls key := by
    simp only [confirmPeerPoll, Outstanding.record, Function.update_apply,
      KeyedTable.lookup_delete, h.polls key]
    split_ifs <;> rfl
  reads := h.reads

/-- What one call leaves, the database holds. -/
theorem Holds.step (h : Holds database o) (e : Event) :
    Holds (QueuedPolls.step database e) (o.record e) := by
  cases e with
  | enqueueChannelPoll peerId => exact h.enqueue peerId none
  | enqueueFeedMessagesPoll feedId position => exact h.enqueue _ position
  | confirmPeerPoll peerPoll => exact h.confirm peerPoll
  | readFeed messages =>
    refine ⟨h.peerId, h.polls, fun r hr => ?_⟩
    rcases KeyedTable.mem_insertOrReplace.mp hr with rfl | hr
    · exact List.mem_cons_self
    · exact List.mem_cons_of_mem _ (h.reads r hr.1)
  | confirmFeedHistoryRead messages =>
    refine ⟨h.peerId, h.polls, fun r hr => ?_⟩
    obtain ⟨hr, hkeep⟩ := KeyedTable.mem_filter.mp hr
    refine List.mem_filter.mpr ⟨h.reads r hr, ?_⟩
    simpa [Confirms] using hkeep
  | conversation peerId isThere => exact ⟨h.peerId, h.polls, h.reads⟩

/-- The database holds what any calls left. -/
theorem holds_after (events : List Event) : Holds (after events) (outstanding events) := by
  have hrun : ∀ (events : List Event) {database : TGDatabase} {o : Outstanding},
      Holds database o → Holds (Run.run QueuedPolls.step database events)
        (Run.run Outstanding.record o events) := by
    intro events
    induction events with
    | nil => exact fun h => h
    | cons e events ih => exact fun h => ih (h.step e)
  exact hrun events ⟨fun hpoll => by simp [Outstanding.empty] at hpoll, fun _ => rfl, by simp [empty]⟩

/-! ## The coder gives a poll back -/

/-- The system knows the class of feed positions. -/
def KnowsFeedPosition (F : Foundation) : Prop :=
  F.getClass feedPositionClass = some TGFeedPosition.init

theorem TGFeedPosition.object_valid (hF : KnowsFeedPosition F) (position : TGFeedPosition) :
    position.object.Valid F := by
  refine .mk (by decide) hF ?_ ?_ ?_ ?_
  · refine .decode fun result h => ?_
    rw [h (.int32 position.date) rfl]
    refine .decode fun result h => ?_
    rw [h (.int32 position.mid) rfl]
    refine .decode fun result h => ?_
    rw [h (.int64 position.peerId) rfl]
    exact .done
  · simp [Field.key, Key.bytes]
  · simp [Field.key, Key.pointer, Key.bytes]
  · simp only [List.forall_mem_cons, Field.value]
    exact ⟨.int32 _, .int32 _, .int64 _, by simp⟩

theorem TGQueuedPeerPoll.fields_valid (hF : KnowsFeedPosition F) (poll : TGQueuedPeerPoll) :
    FieldsValid F poll.fields := by
  rcases poll with ⟨peerId, _ | position⟩
  · refine ⟨by simp [fields], by simp [fields, Field.key, Key.pointer, Key.bytes], ?_⟩
    simp only [fields, Option.toList_none, List.map_nil, List.forall_mem_cons, Field.value]
    exact ⟨.int64 _, by simp⟩
  · refine ⟨?_, by simp [fields, Field.key, Key.pointer, Key.bytes], ?_⟩
    · simp [fields, Field.key, Key.bytes]
    · simp only [fields, Option.toList_some, List.map_cons, List.map_nil, List.forall_mem_cons,
        Field.value]
      exact ⟨.int64 _, .object (position.object_valid hF), by simp⟩

theorem TGFeedPosition.ofObject_object (position : TGFeedPosition) :
    ofObject position.object = some position := by
  simp [object, ofObject]

/-- What a poll is encoded as takes at most 60 bytes. -/
theorem TGQueuedPeerPoll.length_row (poll : TGQueuedPeerPoll) : (row poll.fields).length ≤ 60 := by
  have hint : ∀ n : BitVec 64, (wire (.int64 n)).length = 8 := by
    simp [wire, encodeValue]
  have hkey : ∀ key : UInt8, key ≠ 0 → (keyWire (.cKey [key])).length = 2 := by
    intro key hne
    simp [keyWire, Key.bytes, hne, writeLength, lengthBytes]
  rcases poll with ⟨peerId, _ | position⟩
  · simp only [fields, Option.toList_none, List.map_nil, length_row_cons, Field.key, Field.value,
      hkey 105 (by decide), hint, row_nil, List.length_nil]
    omega
  · have hobject : (wire (.object position.object)).length = 44 := by
      simp [wire, encodeValue, TGFeedPosition.object, encodeObjectValue_nil, length_row_cons,
        row_nil, Field.key, Field.value, hkey, feedPositionClass]
    simp only [fields, Option.toList_some, List.map_cons, List.map_nil, length_row_cons, Field.key,
      Field.value, hkey 105 (by decide), hkey 112 (by decide), hint, hobject, row_nil, List.length_nil]
    omega

theorem TGQueuedPeerPoll.decode_encode (hF : KnowsFeedPosition F) (poll : TGQueuedPeerPoll)
    (hrange : -2 ^ 63 ≤ poll.peerId ∧ poll.peerId < 2 ^ 63) :
    decode F (some poll.encode) = some poll := by
  have hlen := poll.length_row
  have hrow : Row (row poll.fields) (decoderOf (row poll.fields)) poll.fields :=
    row_decoderOf (by omega)
  have hanswers : [Call.int64 (.cKey [105]), .object (.cKey [112])].mapM (answer poll.fields) =
      some [.int64 (.ofInt 64 poll.peerId), .object (poll.feedPosition.map (·.object))] := by
    rcases poll with ⟨peerId, _ | position⟩ <;> rfl
  have hpeerId : (BitVec.ofInt 64 poll.peerId).toInt = poll.peerId := by
    rw [BitVec.toInt_ofInt]
    exact Int.bmod_eq_of_le (by omega) (by omega)
  have hposition : (poll.feedPosition.map (·.object)).bind TGFeedPosition.ofObject =
      poll.feedPosition := by
    rcases poll.feedPosition with _ | position
    · rfl
    · exact position.ofObject_object
  have hall := decodeAll_of_row (poll.fields_valid hF) _ hrow hanswers
  rw [decode, Option.getD_some, encode, ← row, hall]
  simp only [Option.bind_eq_bind, Option.bind_some, hpeerId, hposition]

/-! ## The polls -/

/-- A subscriber is given the outstanding polls of the wanted peers, each once. -/
def RestoresPolls (given : List TGQueuedPeerPoll) (o : Outstanding) (isWanted : ℤ → Bool) : Prop :=
  given.Nodup ∧
    ∀ poll, poll ∈ given ↔ o.polls poll.peerId = some poll ∧ isWanted poll.peerId = true

theorem Holds.mem_rows (h : Holds database o) {r : ℤ × Bytes} :
    r ∈ database.queuedChannelActions.rows ↔
      ∃ poll, o.polls poll.peerId = some poll ∧ r = (poll.peerId, poll.encode) := by
  rw [← Prod.mk.eta (p := r), ← KeyedTable.lookup_eq_some, h.polls, Option.map_eq_some_iff]
  constructor
  · rintro ⟨poll, hpoll, hdata⟩
    have hpeerId := h.peerId hpoll
    exact ⟨poll, hpeerId ▸ hpoll, Prod.ext hpeerId.symm hdata.symm⟩
  · rintro ⟨poll, hpoll, hr⟩
    obtain ⟨hkey, hdata⟩ := Prod.mk.inj hr
    exact ⟨poll, hkey ▸ hpoll, hdata.symm⟩

/-- Taken from the first column, what is given is just the outstanding polls of 64-bit peers. -/
theorem restores_first_column (h : Holds database o) (hF : KnowsFeedPosition F)
    (hrange : ∀ r ∈ database.queuedChannelActions.rows, -2 ^ 63 ≤ r.1 ∧ r.1 < 2 ^ 63) :
    RestoresPolls (queuedPolls F database 0 isWanted) o isWanted := by
  have hdecode : ∀ r ∈ database.queuedChannelActions.rows, ∀ poll,
      (TGQueuedPeerPoll.decode F (dataForColumnIndex [r.2] 0)).filter (isWanted ·.peerId) =
        some poll ↔ (o.polls poll.peerId = some poll ∧ r = (poll.peerId, poll.encode)) ∧
          isWanted poll.peerId = true := by
    intro r hr poll
    obtain ⟨queued, hqueued, rfl⟩ := h.mem_rows.mp hr
    rw [dataForColumnIndex, List.getElem?_cons_zero, queued.decode_encode hF (hrange _ hr),
      Option.filter_eq_some_iff, Option.some_inj]
    constructor
    · rintro ⟨rfl, hwanted⟩
      exact ⟨⟨hqueued, rfl⟩, hwanted⟩
    · rintro ⟨⟨hpoll, hrow⟩, hwanted⟩
      rw [← (Prod.mk.inj hrow).1, hqueued, Option.some_inj] at hpoll
      exact ⟨hpoll, hwanted⟩
  constructor
  · have hpairwise : (queuedPolls F database 0 isWanted).Pairwise (·.peerId < ·.peerId) := by
      refine List.pairwise_filterMap.mpr (database.queuedChannelActions.increasing.imp_of_mem ?_)
      intro r q hr hq hlt poll hpoll poll' hpoll'
      rw [((hdecode r hr poll).mp hpoll).1.2, ((hdecode q hq poll').mp hpoll').1.2] at hlt
      exact hlt
    exact hpairwise.imp fun hlt heq => hlt.ne (congrArg TGQueuedPeerPoll.peerId heq)
  · intro poll
    rw [queuedPolls, List.mem_filterMap]
    constructor
    · rintro ⟨r, hr, hpoll⟩
      obtain ⟨⟨hpoll, -⟩, hwanted⟩ := (hdecode r hr poll).mp hpoll
      exact ⟨hpoll, hwanted⟩
    · rintro ⟨hpoll, hwanted⟩
      have hr := h.mem_rows.mpr ⟨poll, hpoll, rfl⟩
      exact ⟨_, hr, (hdecode _ hr poll).mpr ⟨⟨hpoll, rfl⟩, hwanted⟩⟩

/-- The poll without data is of peer 0. -/
theorem TGQueuedPeerPoll.decode_none (F : Foundation) : decode F none = some ⟨0, none⟩ := rfl

theorem queuedPolls_second_column (F : Foundation) (database : TGDatabase)
    (hzero : isWanted 0 = false) : queuedPolls F database 1 isWanted = [] := by
  refine List.filterMap_eq_nil_iff.mpr fun r _ => ?_
  have hnone : dataForColumnIndex [r.2] 1 = none := rfl
  rw [hnone, TGQueuedPeerPoll.decode_none]
  simp [hzero]

theorem restores_second_column (h : Holds database o) (hzero : isWanted 0 = false) :
    RestoresPolls (queuedPolls F database 1 isWanted) o isWanted ↔
      ∀ peerId, isWanted peerId = true → o.polls peerId = none := by
  rw [queuedPolls_second_column F database hzero, RestoresPolls]
  constructor
  · rintro ⟨-, hall⟩ peerId hwanted
    refine Option.eq_none_iff_forall_ne_some.mpr fun poll hpoll => ?_
    have hpeerId := h.peerId hpoll
    exact List.not_mem_nil ((hall poll).mpr ⟨hpeerId ▸ hpoll, hpeerId ▸ hwanted⟩)
  · intro hnone
    refine ⟨List.nodup_nil, fun poll => ⟨fun hmem => absurd hmem List.not_mem_nil, ?_⟩⟩
    rintro ⟨hpoll, hwanted⟩
    rw [hnone poll.peerId hwanted] at hpoll
    cases hpoll

theorem not_isChannelPoll_zero (database : TGDatabase) : database.isChannelPoll 0 = false := by
  simp [isChannelPoll, TGPeerIdIsChannel, TGIOS6PeerIdIsModernRawChannelConversation,
    TGIOS6PeerIdLooksLikeModernRawChannel, INT32_MIN]

theorem not_isFeedMessagesPoll_zero (database : TGDatabase) :
    database.isFeedMessagesPoll 0 = false := by
  simp [isFeedMessagesPoll, TGPeerIdIsAdminLog, INT32_MIN]

/-! ## The reads of feeds -/

/-- A subscriber is given, for every feed with unconfirmed reads, one of those with the greatest
date. -/
def RestoresReads (given : List Given) (o : Outstanding) : Prop :=
  ∃ latest : List TGQueuedReadFeedMessages, given = latest.map .messages ∧
    (latest.map (·.feedPeerId)).Nodup ∧
    (∀ messages ∈ latest, messages ∈ o.reads ∧
      ∀ other ∈ o.reads, other.feedPeerId = messages.feedPeerId →
        other.maxDate ≤ messages.maxDate) ∧
    ∀ messages ∈ o.reads, ∃ queued ∈ latest, queued.feedPeerId = messages.feedPeerId

/-- A subscriber is given numbers, so the reads come back only where there are none. -/
theorem restoresReads_iff (h : Holds database o) :
    RestoresReads database.enqueuedReadFeedMessages o ↔ o.reads = [] := by
  constructor
  · rintro ⟨latest, hgiven, -, -, hall⟩
    refine List.eq_nil_iff_forall_not_mem.mpr fun messages hmem => ?_
    obtain ⟨queued, hqueued, -⟩ := hall messages hmem
    have hmessages : Given.messages queued ∈ database.enqueuedReadFeedMessages :=
      hgiven ▸ List.mem_map_of_mem hqueued
    obtain ⟨entry, -, hentry⟩ := List.mem_map.mp hmessages
    cases hentry
  · intro hreads
    have hrows : database.feedReadHistory.rows = [] :=
      List.eq_nil_iff_forall_not_mem.mpr fun r hr => by simpa [hreads] using h.reads r hr
    refine ⟨[], ?_, List.nodup_nil, by simp, by simp [hreads]⟩
    rw [enqueuedReadFeedMessages, TGDatabase.queuedReadFeedMessages, hrows]
    rfl

/-! ## After a restart -/

/-- What new subscribers are first given is what the calls left. -/
structure Restores (F : Foundation) (events : List Event) : Prop where
  channelPolls : RestoresPolls (enqueuedChannelPolls F (after events)) (outstanding events)
    (after events).isChannelPoll
  feedMessagesPolls : RestoresPolls (enqueuedFeedMessagesPolls F (after events))
    (outstanding events) (after events).isFeedMessagesPoll
  readFeedMessages : RestoresReads (after events).enqueuedReadFeedMessages (outstanding events)

/-- No channel and no feed waits for a poll, and every read is confirmed. -/
structure Settled (events : List Event) : Prop where
  channelPolls : ∀ peerId, (after events).isChannelPoll peerId = true →
    (outstanding events).polls peerId = none
  feedMessagesPolls : ∀ peerId, (after events).isFeedMessagesPoll peerId = true →
    (outstanding events).polls peerId = none
  reads : (outstanding events).reads = []

/-- New subscribers are given what the calls left just where they left nothing. -/
theorem restores_iff (F : Foundation) (events : List Event) :
    Restores F events ↔ Settled events := by
  have h := holds_after events
  have hchannel := restores_second_column (F := F) h (not_isChannelPoll_zero (after events))
  have hfeed := restores_second_column (F := F) h (not_isFeedMessagesPoll_zero (after events))
  constructor
  · intro hall
    exact ⟨hchannel.mp hall.channelPolls, hfeed.mp hall.feedMessagesPolls,
      (restoresReads_iff h).mp hall.readFeedMessages⟩
  · intro hall
    exact ⟨hchannel.mpr hall.channelPolls, hfeed.mpr hall.feedMessagesPolls,
      (restoresReads_iff h).mpr hall.reads⟩

/-- A system that knows the class of feed positions. -/
def feedPositionFoundation : Foundation where
  getClass name := if name = feedPositionClass then some TGFeedPosition.init else none
  intValue _ := 0
  longLongValue _ := 0
  doubleValue _ := 0
  doubleOfInt32 _ := 0
  doubleOfInt64 _ := 0

/-- The channel with the id 5 is to be polled, and a new subscriber is given nothing. -/
theorem channelPoll_lost :
    enqueuedChannelPolls feedPositionFoundation (after [.enqueueChannelPoll (-4294967301)]) = [] ∧
      ¬ Restores feedPositionFoundation [.enqueueChannelPoll (-4294967301)] := by
  have hgiven : enqueuedChannelPolls feedPositionFoundation
      (after [.enqueueChannelPoll (-4294967301)]) = [] :=
    queuedPolls_second_column _ _ (not_isChannelPoll_zero _)
  refine ⟨hgiven, fun hall => ?_⟩
  have hmem := (hall.channelPolls.2 ⟨-4294967301, none⟩).mpr ⟨by decide, by decide +kernel⟩
  rw [hgiven] at hmem
  cases hmem

end Onegram.QueuedPolls
