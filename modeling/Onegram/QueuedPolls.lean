import Onegram.KeyValueCoder
import Onegram.Lib.KeyedTable
import Onegram.Lib.Run
import Onegram.PeerId

/-!
# Polls queued in the database

A channel or a feed that has to be polled is queued in a table, so that the poll is made after a
restart as well, and is confirmed once it is done. How far a feed was read is queued in another one.
Each queue has a pipe, for the subscribers that are there already, and a signal that starts with
what the table holds.
-/

namespace Onegram.QueuedPolls

open KeyValueCoder

/-! ## Polls and their coding -/

structure TGFeedPosition where
  date : BitVec 32
  mid : BitVec 32
  peerId : BitVec 64
deriving DecidableEq

/-- The name of the class of feed positions. -/
def feedPositionClass : Bytes := [84, 71, 70, 101, 101, 100, 80, 111, 115, 105, 116, 105, 111, 110]

/-- What its `encodeWithKeyValueCoder:` writes, under the keys `d`, `m` and `p`. -/
def TGFeedPosition.object (position : TGFeedPosition) : Obj :=
  .mk feedPositionClass
    [.mk (.cKey [100]) (.int32 position.date), .mk (.cKey [109]) (.int32 position.mid),
     .mk (.cKey [112]) (.int64 position.peerId)]

/-- Its `initWithKeyValueCoder:`. -/
def TGFeedPosition.init : Init :=
  .decode (.int32 (.cKey [100])) fun
    | .int32 date => .decode (.int32 (.cKey [109])) fun
      | .int32 mid => .decode (.int64 (.cKey [112])) fun
        | .int64 peerId => .done (some (TGFeedPosition.object ⟨date, mid, peerId⟩))
        | _ => .done none
      | _ => .done none
    | _ => .done none

/-- A decoded object as a feed position. -/
def TGFeedPosition.ofObject : Obj → Option TGFeedPosition
  | .mk className [.mk _ (.int32 date), .mk _ (.int32 mid), .mk _ (.int64 peerId)] =>
    if className = feedPositionClass then some ⟨date, mid, peerId⟩ else none
  | _ => none

structure TGQueuedPeerPoll where
  peerId : ℤ
  feedPosition : Option TGFeedPosition
deriving DecidableEq

/-- What `encodeWithKeyValueCoder:` writes, under the keys `i` and `p`. A nil object is no field. -/
def TGQueuedPeerPoll.fields (poll : TGQueuedPeerPoll) : List Field :=
  .mk (.cKey [105]) (.int64 (.ofInt 64 poll.peerId)) ::
    poll.feedPosition.toList.map fun position => .mk (.cKey [112]) (.object position.object)

def TGQueuedPeerPoll.encode (poll : TGQueuedPeerPoll) : Bytes := encodeFields poll.fields []

/-- `initWithKeyValueCoder:` after `resetData:`, where nil has no bytes. -/
def TGQueuedPeerPoll.decode (F : Foundation) (data : Option Bytes) : Option TGQueuedPeerPoll := do
  let results ← decodeAll F (data.getD []) (decoderOf (data.getD []))
    [.int64 (.cKey [105]), .object (.cKey [112])]
  match results with
  | [.int64 peerId, .object position] =>
    some ⟨peerId.toInt, position.bind TGFeedPosition.ofObject⟩
  | _ => none

structure TGQueuedReadFeedMessages where
  feedPeerId : ℤ
  maxPeerId : ℤ
  maxId : ℤ
  maxDate : ℤ
deriving DecidableEq

/-! ## The database -/

/-- The columns of `feed_read_history` beside its key, `cid`. -/
structure FeedRead where
  fromUid : ℤ
  mid : ℤ
  date : ℤ
deriving DecidableEq

/-- What is used of the database: the `data` of the queued actions and the reads of feeds, both by
`cid`, and whether `loadConversationWithId:` finds a conversation. -/
structure TGDatabase where
  queuedChannelActions : KeyedTable Bytes
  feedReadHistory : KeyedTable FeedRead
  hasConversation : ℤ → Bool

/-- What is put on one of the three pipes. -/
inductive Sunk
  | channelPoll (poll : TGQueuedPeerPoll)
  | feedMessagesPoll (poll : TGQueuedPeerPoll)
  | readFeedMessages (messages : TGQueuedReadFeedMessages)
deriving DecidableEq

/-- What a subscriber is given: an object, or where a loop goes over the keys of a dictionary in
place of its values, a number. -/
inductive Given
  | messages (messages : TGQueuedReadFeedMessages)
  | number (n : ℤ)
deriving DecidableEq

namespace TGDatabase

def empty : TGDatabase := ⟨.empty, .empty, fun _ => false⟩

def TGIOS6PeerIdIsModernRawChannelConversation (database : TGDatabase) (peerId : ℤ) : Bool :=
  TGIOS6PeerIdLooksLikeModernRawChannel peerId && database.hasConversation peerId

/-- The polls `enqueuedChannelPolls` is for. -/
def isChannelPoll (database : TGDatabase) (peerId : ℤ) : Bool :=
  TGPeerIdIsChannel peerId || database.TGIOS6PeerIdIsModernRawChannelConversation peerId

/-- The polls `enqueuedFeedMessagesPolls` is for. -/
def isFeedMessagesPoll (database : TGDatabase) (peerId : ℤ) : Bool :=
  TGPeerIdIsAdminLog peerId && !database.TGIOS6PeerIdIsModernRawChannelConversation peerId

def enqueueChannelOrFeedMessagesPoll (database : TGDatabase) (peerId : ℤ)
    (position : Option TGFeedPosition) : TGDatabase × List Sunk :=
  let poll : TGQueuedPeerPoll := ⟨peerId, position⟩
  ({ database with
      queuedChannelActions := database.queuedChannelActions.insertOrReplace peerId poll.encode },
    if database.isFeedMessagesPoll peerId then [.feedMessagesPoll poll] else [.channelPoll poll])

def enqueueFeedMessagesPoll (database : TGDatabase) (feedId : BitVec 32)
    (position : Option TGFeedPosition) : TGDatabase × List Sunk :=
  database.enqueueChannelOrFeedMessagesPoll (TGPeerIdFromAdminLogId feedId) position

def enqueueChannelPoll (database : TGDatabase) (peerId : ℤ) : TGDatabase × List Sunk :=
  database.enqueueChannelOrFeedMessagesPoll peerId none

def confirmPeerPoll (database : TGDatabase) (peerPoll : TGQueuedPeerPoll) : TGDatabase :=
  { database with
    queuedChannelActions := database.queuedChannelActions.delete peerPoll.peerId }

/-- What `_readPeersHistories` does for a feed with something left to read. -/
def enqueueReadFeedMessages (database : TGDatabase) (messages : TGQueuedReadFeedMessages) :
    TGDatabase × List Sunk :=
  ({ database with
      feedReadHistory := database.feedReadHistory.insertOrReplace messages.feedPeerId
        ⟨messages.maxPeerId, messages.maxId, messages.maxDate⟩ },
    [.readFeedMessages messages])

def confirmFeedHistoryRead (database : TGDatabase) (messages : TGQueuedReadFeedMessages) :
    TGDatabase :=
  { database with
    feedReadHistory := database.feedReadHistory.filter fun r =>
      !(r.1 = messages.feedPeerId ∧ r.2.mid = messages.maxId ∧ r.2.fromUid = messages.maxPeerId) }

/-! ## What a subscriber is given first -/

/-- A row of `SELECT data`. A column past the last is NULL, and its data nil. -/
def dataForColumnIndex (row : List Bytes) (columnIdx : ℕ) : Option Bytes := row[columnIdx]?

/-- The polls both signals read, as they go over the rows and take the data of a column. -/
def queuedPolls (F : Foundation) (database : TGDatabase) (columnIdx : ℕ)
    (isWanted : ℤ → Bool) : List TGQueuedPeerPoll :=
  database.queuedChannelActions.rows.filterMap fun r =>
    (TGQueuedPeerPoll.decode F (dataForColumnIndex [r.2] columnIdx)).filter fun peerPoll =>
      isWanted peerPoll.peerId

def enqueuedChannelPolls (F : Foundation) (database : TGDatabase) : List TGQueuedPeerPoll :=
  queuedPolls F database 1 database.isChannelPoll

def enqueuedFeedMessagesPolls (F : Foundation) (database : TGDatabase) : List TGQueuedPeerPoll :=
  queuedPolls F database 1 database.isFeedMessagesPoll

/-- The dictionary of the rows of `feed_read_history`, one entry for a feed. -/
def setLatest (queued : TGQueuedReadFeedMessages) :
    List (ℤ × TGQueuedReadFeedMessages) → List (ℤ × TGQueuedReadFeedMessages)
  | [] => [(queued.feedPeerId, queued)]
  | previous :: rest =>
    if previous.1 = queued.feedPeerId then
      if previous.2.maxDate < queued.maxDate then (queued.feedPeerId, queued) :: rest
      else previous :: rest
    else previous :: setLatest queued rest

def queuedReadFeedMessages (database : TGDatabase) : List (ℤ × TGQueuedReadFeedMessages) :=
  database.feedReadHistory.rows.foldl
    (fun queued r => setLatest ⟨r.1, r.2.fromUid, r.2.mid, r.2.date⟩ queued) []

/-- The loop is `for (… in queuedReadFeedMessages)`, which goes over the keys. -/
def enqueuedReadFeedMessages (database : TGDatabase) : List Given :=
  database.queuedReadFeedMessages.map fun entry => .number entry.1

end TGDatabase

/-! ## Runs -/

inductive Event
  | enqueueChannelPoll (peerId : ℤ)
  | enqueueFeedMessagesPoll (feedId : BitVec 32) (position : Option TGFeedPosition)
  | confirmPeerPoll (peerPoll : TGQueuedPeerPoll)
  | readFeed (messages : TGQueuedReadFeedMessages)
  | confirmFeedHistoryRead (messages : TGQueuedReadFeedMessages)
  | conversation (peerId : ℤ) (isThere : Bool)

/-- One call, and what it puts on the pipes. -/
def perform (database : TGDatabase) : Event → TGDatabase × List Sunk
  | .enqueueChannelPoll peerId => database.enqueueChannelPoll peerId
  | .enqueueFeedMessagesPoll feedId position => database.enqueueFeedMessagesPoll feedId position
  | .confirmPeerPoll peerPoll => (database.confirmPeerPoll peerPoll, [])
  | .readFeed messages => database.enqueueReadFeedMessages messages
  | .confirmFeedHistoryRead messages => (database.confirmFeedHistoryRead messages, [])
  | .conversation peerId isThere =>
    ({ database with hasConversation := Function.update database.hasConversation peerId isThere },
      [])

def step (database : TGDatabase) (e : Event) : TGDatabase := (perform database e).1

/-- The database once the calls are made on an empty one. -/
def after (events : List Event) : TGDatabase := Run.run step .empty events

end Onegram.QueuedPolls
