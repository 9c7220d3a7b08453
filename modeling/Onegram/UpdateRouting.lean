import Onegram.PinnedDialogs

/-!
# Queues of updates

The updates are applied by four actors: the updates with a pts by it, those with a qts by it, and
what else a container holds by the sequence number of the container, or by its date where it has
none. The service sorts the updates of the messages that come in, and of the containers that come as
answers, into groups, and requests an actor for each kind of group.
-/

namespace Onegram.UpdateQueues

open PinnedDialogs (TLPeer)

variable {μ : Type*}

/-! ## Updates -/

structure ModernMessage (μ : Type*) where
  n_id : ℤ
  flags : ℕ
  from_id : BitVec 32
  to_id : TLPeer
  date : ℤ
  message : μ
  /-- None for the empty media. -/
  media : Option μ
  fwd_from : Option μ
  reply_to_msg_id : ℤ
  entities : List μ
  via_bot_id : BitVec 32

inductive TLMessage (μ : Type*)
  | modernMessage (message : ModernMessage μ)
  | other (content : μ)

/-- What is not looked at here is only passed on. -/
inductive TLUpdate (μ : Type*)
  | updateNewMessage (message : TLMessage μ) (pts pts_count : ℤ)
  | updateEditMessage (message : TLMessage μ) (pts pts_count : ℤ)
  | updateDeleteMessages (content : μ) (pts pts_count : ℤ)
  | updateReadHistoryInbox (content : μ) (pts pts_count : ℤ)
  | updateReadHistoryOutbox (content : μ) (pts pts_count : ℤ)
  | updateReadMessagesContents (content : μ) (pts pts_count : ℤ)
  | updateChangePts (pts pts_count : ℤ)
  | updateWebPage (content : μ) (pts pts_count : ℤ)
  | updateFolderPeers (content : μ) (pts pts_count : ℤ)
  | updateNewEncryptedMessage (content : μ) (qts : ℤ)
  | other (content : μ)

namespace TLUpdate

/-- The pts and its count, of the classes that have them. -/
def ptsAndCount : TLUpdate μ → Option (ℤ × ℤ)
  | .updateNewMessage _ pts pts_count => some (pts, pts_count)
  | .updateEditMessage _ pts pts_count => some (pts, pts_count)
  | .updateDeleteMessages _ pts pts_count => some (pts, pts_count)
  | .updateReadHistoryInbox _ pts pts_count => some (pts, pts_count)
  | .updateReadHistoryOutbox _ pts pts_count => some (pts, pts_count)
  | .updateReadMessagesContents _ pts pts_count => some (pts, pts_count)
  | .updateChangePts pts pts_count => some (pts, pts_count)
  | .updateWebPage _ pts pts_count => some (pts, pts_count)
  | .updateFolderPeers _ pts pts_count => some (pts, pts_count)
  | .updateNewEncryptedMessage _ _ => none
  | .other _ => none

def hasPts (update : TLUpdate μ) : Bool := update.ptsAndCount.isSome

def qts : TLUpdate μ → Option ℤ
  | .updateNewEncryptedMessage _ qts => some qts
  | _ => none

def respondsToQts (update : TLUpdate μ) : Bool := update.qts.isSome

end TLUpdate

/-! ## What comes in -/

inductive UpdatesContainer (μ : Type*)
  | updates (updates : List (TLUpdate μ)) (users chats : List μ) (date seq : ℤ)
  | updatesCombined (updates : List (TLUpdate μ)) (users chats : List μ) (date seq_start seq : ℤ)

structure ModernUpdateShortChatMessage (μ : Type*) where
  flags : ℕ
  n_id : ℤ
  from_id : BitVec 32
  chat_id : BitVec 32
  message : μ
  pts : ℤ
  pts_count : ℤ
  date : ℤ
  fwd_header : Option μ
  via_bot_id : BitVec 32
  reply_to_msg_id : ℤ
  entities : List μ

structure ModernUpdateShortMessage (μ : Type*) where
  flags : ℕ
  n_id : ℤ
  user_id : BitVec 32
  message : μ
  pts : ℤ
  pts_count : ℤ
  date : ℤ
  fwd_header : Option μ
  via_bot_id : BitVec 32
  reply_to_msg_id : ℤ
  entities : List μ

inductive TLUpdates (μ : Type*)
  | container (container : UpdatesContainer μ)
  | updateShort (update : Option (TLUpdate μ)) (date : ℤ)
  | modernUpdateShortChatMessage (message : ModernUpdateShortChatMessage μ)
  | modernUpdateShortMessage (message : ModernUpdateShortMessage μ)
  | updatesTooLong
  | other

/-! ## Groups -/

structure TGUpdatesWithPts (μ : Type*) where
  updates : List (TLUpdate μ)
  users : List μ
  chats : List μ

structure TGUpdatesWithQts (μ : Type*) where
  updates : List (TLUpdate μ)
  users : List μ
  chats : List μ

structure TGUpdatesWithSeq (μ : Type*) where
  updates : List (TLUpdate μ)
  date : ℤ
  seqStart : ℤ
  seqEnd : ℤ
  users : List μ
  chats : List μ

structure TGUpdatesWithDate (μ : Type*) where
  updates : List (TLUpdate μ)
  date : ℤ
  users : List μ
  chats : List μ

inductive ActorRequest (μ : Type*)
  | updatestate
  | tryupdatesWithPts (updates : List (TGUpdatesWithPts μ))
  | tryupdatesWithQts (updates : List (TGUpdatesWithQts μ))
  | tryupdatesWithSeq (updates : List (TGUpdatesWithSeq μ))
  | tryupdatesWithDate (updates : List (TGUpdatesWithDate μ))

/-! ## Sorting a container -/

/-- The updates of a container, as its loop sorts them. -/
structure ContainedUpdates (μ : Type*) where
  updatesWithPts : List (TLUpdate μ)
  updatesWithQts : List (TLUpdate μ)
  otherUpdates : List (TLUpdate μ)

/-- The body of the loop. An update with a pts has no qts, so it is taken as one of the others too.
-/
def ContainedUpdates.add (contained : ContainedUpdates μ) (update : TLUpdate μ) :
    ContainedUpdates μ :=
  let contained :=
    if update.hasPts then
      { contained with updatesWithPts := contained.updatesWithPts ++ [update] }
    else contained
  if update.respondsToQts then
    { contained with updatesWithQts := contained.updatesWithQts ++ [update] }
  else
    { contained with otherUpdates := contained.otherUpdates ++ [update] }

/-- What is read of a container of either class. -/
structure ContainerFields (μ : Type*) where
  containedUpdates : List (TLUpdate μ)
  updatesSeqStart : ℤ
  updatesSeqEnd : ℤ
  updatesDate : ℤ
  updatesUsers : List μ
  updatesChats : List μ

def UpdatesContainer.fields : UpdatesContainer μ → ContainerFields μ
  | .updates contained users chats date seq => ⟨contained, seq, seq, date, users, chats⟩
  | .updatesCombined contained users chats date seq_start seq =>
    ⟨contained, seq_start, seq, date, users, chats⟩

structure CollectedUpdates (μ : Type*) where
  requests : List (ActorRequest μ)
  collectedUpdatesWithPts : List (TGUpdatesWithPts μ)
  collectedUpdatesWithQts : List (TGUpdatesWithQts μ)
  collectedUpdatesWithSeq : List (TGUpdatesWithSeq μ)
  collectedUpdatesWithDate : List (TGUpdatesWithDate μ)

namespace CollectedUpdates

def empty : CollectedUpdates μ := ⟨[], [], [], [], []⟩

/-- What both routines do with a container, with `fields` read of it. -/
def addContained (collected : CollectedUpdates μ) (fields : ContainerFields μ) :
    CollectedUpdates μ :=
  let contained := fields.containedUpdates.foldl ContainedUpdates.add ⟨[], [], []⟩
  let users := fields.updatesUsers
  let chats := fields.updatesChats
  let collected :=
    if contained.updatesWithPts.length ≠ 0 then
      { collected with
        collectedUpdatesWithPts :=
          collected.collectedUpdatesWithPts ++ [⟨contained.updatesWithPts, users, chats⟩] }
    else collected
  let collected :=
    if contained.updatesWithQts.length ≠ 0 then
      { collected with
        collectedUpdatesWithQts :=
          collected.collectedUpdatesWithQts ++ [⟨contained.updatesWithQts, users, chats⟩] }
    else collected
  if fields.updatesSeqEnd ≠ 0 then
    { collected with
      collectedUpdatesWithSeq :=
        collected.collectedUpdatesWithSeq ++
          [⟨contained.otherUpdates, fields.updatesDate, fields.updatesSeqStart,
            fields.updatesSeqEnd, users, chats⟩] }
  else
    { collected with
      collectedUpdatesWithDate :=
        collected.collectedUpdatesWithDate ++
          [⟨contained.otherUpdates, fields.updatesDate, users, chats⟩] }

/-- A message that comes alone and is made an update with its pts. -/
def addSynthesized (collected : CollectedUpdates μ) (message : ModernMessage μ)
    (pts pts_count : ℤ) : CollectedUpdates μ :=
  { collected with
    collectedUpdatesWithPts :=
      collected.collectedUpdatesWithPts ++
        [⟨[.updateNewMessage (.modernMessage message) pts pts_count], [], []⟩] }

def addShort (collected : CollectedUpdates μ) (update : TLUpdate μ) (date : ℤ) :
    CollectedUpdates μ :=
  if update.hasPts then
    { collected with
      collectedUpdatesWithPts := collected.collectedUpdatesWithPts ++ [⟨[update], [], []⟩] }
  else if update.respondsToQts then
    { collected with
      collectedUpdatesWithQts := collected.collectedUpdatesWithQts ++ [⟨[update], [], []⟩] }
  else
    { collected with
      collectedUpdatesWithDate :=
        collected.collectedUpdatesWithDate ++ [⟨[update], date, [], []⟩] }

/-- The requests that both routines end with. -/
def finish (collected : CollectedUpdates μ) : List (ActorRequest μ) :=
  collected.requests ++
    (if collected.collectedUpdatesWithPts.length ≠ 0 then
      [.tryupdatesWithPts collected.collectedUpdatesWithPts] else []) ++
    (if collected.collectedUpdatesWithQts.length ≠ 0 then
      [.tryupdatesWithQts collected.collectedUpdatesWithQts] else []) ++
    (if collected.collectedUpdatesWithSeq.length ≠ 0 then
      [.tryupdatesWithSeq collected.collectedUpdatesWithSeq] else []) ++
    (if collected.collectedUpdatesWithDate.length ≠ 0 then
      [.tryupdatesWithDate collected.collectedUpdatesWithDate] else [])

end CollectedUpdates

/-! ## The messages of the service -/

def ModernUpdateShortChatMessage.synthesizedMessage (message : ModernUpdateShortChatMessage μ) :
    ModernMessage μ where
  n_id := message.n_id
  flags := message.flags
  from_id := message.from_id
  to_id := .peerChat message.chat_id
  date := message.date
  message := message.message
  media := none
  fwd_from := message.fwd_header
  reply_to_msg_id := message.reply_to_msg_id
  entities := message.entities
  via_bot_id := message.via_bot_id

/-- An outgoing message is from the client itself, and to it otherwise. -/
def ModernUpdateShortMessage.synthesizedMessage (clientUserId : BitVec 32)
    (message : ModernUpdateShortMessage μ) : ModernMessage μ where
  n_id := message.n_id
  flags := message.flags
  from_id := if message.flags &&& 2 ≠ 0 then clientUserId else message.user_id
  to_id := .peerUser (if message.flags &&& 2 ≠ 0 then message.user_id else clientUserId)
  date := message.date
  message := message.message
  media := none
  fwd_from := message.fwd_header
  reply_to_msg_id := message.reply_to_msg_id
  entities := message.entities
  via_bot_id := message.via_bot_id

/-- The body of the loop over the messages. An unknown class fails an assertion. -/
def CollectedUpdates.addMessage (clientUserId : BitVec 32) (collected : CollectedUpdates μ) :
    TLUpdates μ → Option (CollectedUpdates μ)
  | .container container => some (collected.addContained container.fields)
  | .updateShort (some update) date => some (collected.addShort update date)
  | .updateShort none _ => some collected
  | .modernUpdateShortChatMessage message =>
    some (collected.addSynthesized message.synthesizedMessage message.pts message.pts_count)
  | .modernUpdateShortMessage message =>
    some (collected.addSynthesized (message.synthesizedMessage clientUserId) message.pts
      message.pts_count)
  | .updatesTooLong =>
    some (if clientUserId ≠ 0 then
      { collected with requests := collected.requests ++ [.updatestate] } else collected)
  | .other => none

def processMessages (clientUserId : BitVec 32) (messages : List (TLUpdates μ)) :
    Option (List (ActorRequest μ)) :=
  (messages.foldlM (CollectedUpdates.addMessage clientUserId) CollectedUpdates.empty).map
    CollectedUpdates.finish

/-- The fields of a body that is no container stay as they are set at first. -/
def addUpdates (body : TLUpdates μ) : List (ActorRequest μ) :=
  let fields : ContainerFields μ :=
    match body with
    | .container container => container.fields
    | _ => ⟨[], 0, 0, 0, [], []⟩
  (CollectedUpdates.empty.addContained fields).finish

end Onegram.UpdateQueues
