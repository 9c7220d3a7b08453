import Onegram.ChannelUpdates
import Onegram.Lib.GroupedChanges
import Onegram.Proofs.ChannelSortKeys

/-!
# A batch and its updates one by one

A batch stores its edits, then its deletions, then its new messages; one by one, the updates are
stored in the order of their pts. For each id, the changes of the batch are those of a row that are
grouped by kind, so that the two leave the same store where the changes of every id agree.
-/

namespace Onegram.ChannelState

variable {μ : Type*} {context : ChannelContext μ} {store : ChannelStore μ}
  {updates : List (PtsUpdate μ)} {update : PtsUpdate μ} {message : TGMessage μ}
  {table : MessageTable μ} {mid : ℤ}

/-! ## Tables -/

/-- The rows of a channel's table are under the ids of their messages. -/
def Keyed (peerId : ℤ) (table : MessageTable μ) : Prop :=
  ∀ row ∈ table.rows, row.2.mid = row.1 ∧ row.2.cid = peerId

theorem Keyed.insert {peerId : ℤ} (h : Keyed peerId table) (hcid : message.cid = peerId) :
    Keyed peerId (table.insertOrReplace message.mid message) := by
  intro row hrow
  rcases KeyedTable.mem_insertOrReplace.mp hrow with rfl | ⟨hrow, -⟩
  · exact ⟨rfl, hcid⟩
  · exact h row hrow

theorem Keyed.delete {peerId : ℤ} (h : Keyed peerId table) (key : ℤ) :
    Keyed peerId (table.delete key) := fun row hrow => h row (KeyedTable.mem_delete.mp hrow).1

theorem Keyed.lookup {peerId : ℤ} (h : Keyed peerId table) {stored : TGMessage μ}
    (hstored : table.lookup mid = some stored) : stored.mid = mid ∧ stored.cid = peerId :=
  h _ (KeyedTable.lookup_eq_some.mp hstored)

/-- An edited message as it is stored. -/
def rekey (message : TGMessage μ) : TGMessage μ :=
  { message with sortKey := TGMessageSortKeyMake message.sortKey.space message.date message.mid }

theorem updateMessage_eq {peerId : ℤ} (h : Keyed peerId table) (hcid : message.cid = peerId) :
    updateMessage peerId table message =
      if (table.lookup message.mid).isSome then
        table.insertOrReplace (rekey message).mid (rekey message)
      else table := by
  have hpeer : (if message.cid = 0 then peerId else message.cid) = peerId := by
    split_ifs
    · rfl
    · exact hcid
  unfold updateMessage
  rw [hpeer]
  rcases hstored : table.lookup message.mid with _ | stored
  · simp
  · have hkeyed := h.lookup hstored
    simp [hkeyed.1, hkeyed.2]
    rfl

theorem Keyed.updateMessage {peerId : ℤ} (h : Keyed peerId table) (hcid : message.cid = peerId) :
    Keyed peerId (updateMessage peerId table message) := by
  rw [updateMessage_eq h hcid]
  split_ifs
  · exact Keyed.insert h hcid
  · exact h

theorem lookup_deletes : ∀ (ids : List ℤ) (table : MessageTable μ) (mid : ℤ),
    (ids.foldl KeyedTable.delete table).lookup mid = if mid ∈ ids then none else table.lookup mid
  | [], _, _ => rfl
  | id :: ids, table, mid => by
    rw [List.foldl_cons, lookup_deletes ids, KeyedTable.lookup_delete]
    by_cases hmem : mid ∈ ids <;> by_cases hid : mid = id <;> simp [hmem, hid]

theorem lookup_inserts : ∀ (messages : List (TGMessage μ)) (table : MessageTable μ) (mid : ℤ),
    (messages.foldl (fun table message => table.insertOrReplace message.mid message) table).lookup
        mid = (messages.filter (·.mid = mid)).getLast?.or (table.lookup mid)
  | [], _, _ => rfl
  | message :: messages, table, mid => by
    rw [List.foldl_cons, lookup_inserts messages, KeyedTable.lookup_insertOrReplace]
    by_cases hmid : message.mid = mid
    · have hpos : (message :: messages).filter (·.mid = mid) =
          message :: messages.filter (·.mid = mid) := List.filter_cons_of_pos (by simpa using hmid)
      rw [if_pos hmid.symm, hpos, List.getLast?_cons, Option.or_some]
      simp
    · rw [if_neg (Ne.symm hmid), List.filter_cons_of_neg (by simpa using hmid)]

/-- The messages that are inserted under an id are all of those, or none where one is stored. -/
theorem newMessages_filter (table : MessageTable μ) (messages : List (TGMessage μ)) (mid : ℤ) :
    (newMessages table messages).filter (·.mid = mid) =
      if (table.lookup mid).isSome then [] else messages.filter (·.mid = mid) := by
  have hskip : ∀ message ∈ messages, (message.mid ∉ skipMessages table messages ↔
      (table.lookup message.mid).isSome = false) := by
    intro message hmessage
    rw [skipMessages, List.mem_filter, not_and, Bool.not_eq_true]
    exact forall_prop_of_true (List.mem_map_of_mem hmessage)
  rw [newMessages, List.filter_filter]
  split_ifs with hsome
  · refine List.filter_eq_nil_iff.mpr fun message hmessage h => ?_
    obtain ⟨hmid, hnew⟩ := Bool.and_eq_true_iff.mp h
    rw [decide_eq_true_iff, hskip message hmessage, of_decide_eq_true hmid, hsome] at hnew
    cases hnew
  · refine List.filter_congr fun message hmessage => ?_
    by_cases hmid : message.mid = mid
    · have hnew := (hskip message hmessage).mpr (by rw [hmid]; exact Bool.eq_false_iff.mpr hsome)
      simp [hmid ▸ hnew, hmid]
    · simp [hmid]

/-! ## The table of the whole database -/

section Database

variable {ω : Type*} (other : OtherTables μ ω) (peerId : ℤ)

end Database

/-! ## What is collected -/

/-- The updates continue a pts, one after another. -/
def Chains : ℤ → List (PtsUpdate μ) → Prop
  | _, [] => True
  | pts, update :: updates =>
    pts < update.pts ∧ pts + update.pts_count = update.pts ∧ Chains update.pts updates

def new? : PtsUpdate μ → Option (TGMessage μ)
  | .updateNewChannelMessage message pts _ =>
    if message.mid ≠ 0 then some { message with pts } else none
  | _ => none

def edit? : PtsUpdate μ → Option (TGMessage μ)
  | .updateEditChannelMessage message pts _ =>
    if message.mid ≠ 0 then some { message with pts } else none
  | _ => none

def deletedIds : PtsUpdate μ → List ℤ
  | .updateDeleteChannelMessages messages _ _ => messages
  | _ => []

/-- The pts after updates that continue one. -/
def lastPts (pts : ℤ) (updates : List (PtsUpdate μ)) : ℤ := (updates.getLast?.map (·.pts)).getD pts

theorem lastPts_cons (pts : ℤ) (update : PtsUpdate μ) (updates : List (PtsUpdate μ)) :
    lastPts pts (update :: updates) = lastPts update.pts updates := by
  unfold lastPts
  rw [List.getLast?_cons]
  rcases updates.getLast? with _ | last <;> rfl

theorem Chains.le_lastPts : ∀ {updates : List (PtsUpdate μ)} {pts : ℤ}, Chains pts updates →
    pts ≤ lastPts pts updates ∧ (lastPts pts updates = pts → updates = [])
  | [], _, _ => ⟨le_rfl, fun _ => rfl⟩
  | update :: updates, pts, ⟨hlt, _, hchain⟩ => by
    have hle := hchain.le_lastPts.1
    rw [lastPts_cons]
    exact ⟨hlt.le.trans hle, fun h => absurd h (hlt.trans_le hle).ne'⟩

/-- One turn of the loop, for an update that continues the pts. -/
theorem collect_continues (skip : List ℤ) {collected : CollectedUpdates μ}
    (hlt : collected.updatedPts < update.pts)
    (hcount : collected.updatedPts + update.pts_count = update.pts) :
    collected.collect skip update =
      { updatedPts := update.pts
        addedMessages :=
          collected.addedMessages ++ (new? update).toList.filter (·.mid ∉ skip)
        updatedMessages :=
          collected.updatedMessages ++ (edit? update).toList.filter (·.mid ∉ skip)
        deletedMessageIds := collected.deletedMessageIds ++ deletedIds update
        failed := collected.failed } := by
  rw [CollectedUpdates.collect, CollectedUpdates.chain, if_neg hlt.not_ge, if_pos hcount]
  rcases update with ⟨message, _, _⟩ | ⟨message, _, _⟩ | _ | _
  · by_cases hmid : message.mid = 0 <;> by_cases hskip : message.mid ∈ skip <;>
      simp [new?, edit?, deletedIds, hmid, hskip]
  · by_cases hmid : message.mid = 0 <;> by_cases hskip : message.mid ∈ skip <;>
      simp [new?, edit?, deletedIds, hmid, hskip]
  · simp [new?, edit?, deletedIds]
  · simp [new?, edit?, deletedIds]

theorem collect_chain (skip : List ℤ) : ∀ {updates : List (PtsUpdate μ)}
    {collected : CollectedUpdates μ}, Chains collected.updatedPts updates →
    updates.foldl (CollectedUpdates.collect skip) collected =
      { updatedPts := lastPts collected.updatedPts updates
        addedMessages :=
          collected.addedMessages ++ (updates.filterMap new?).filter (·.mid ∉ skip)
        updatedMessages :=
          collected.updatedMessages ++ (updates.filterMap edit?).filter (·.mid ∉ skip)
        deletedMessageIds := collected.deletedMessageIds ++ updates.flatMap deletedIds
        failed := collected.failed }
  | [], collected, _ => by simp [lastPts]
  | update :: updates, collected, ⟨hlt, hcount, hchain⟩ => by
    rw [List.foldl_cons, collect_continues skip hlt hcount, collect_chain skip hchain, lastPts_cons,
      List.filterMap_cons, List.filterMap_cons, List.flatMap_cons]
    rcases new? update with _ | new <;> rcases edit? update with _ | edit <;>
      simp [List.filter_cons] <;> split_ifs <;> simp

/-- The new messages of updates, without those to skip. -/
def newKept (skip : List ℤ) (updates : List (PtsUpdate μ)) : List (TGMessage μ) :=
  (updates.filterMap new?).filter (·.mid ∉ skip)

/-- The edited messages of updates, without those to skip. -/
def editsKept (skip : List ℤ) (updates : List (PtsUpdate μ)) : List (TGMessage μ) :=
  (updates.filterMap edit?).filter (·.mid ∉ skip)

/-- The copies that are put into the messages of updates. -/
def keptReply (context : ChannelContext μ) (skip : List ℤ) (updates : List (PtsUpdate μ)) :
    TGMessage μ → TGMessage μ :=
  withReply context.downloadMessages (newKept skip updates) (editsKept skip updates)

/-- What updates that continue the stored pts come to. -/
def received (context : ChannelContext μ) (skip : List ℤ) (updates : List (PtsUpdate μ))
    (failed : Bool) (store : ChannelStore μ) : Received μ where
  store :=
    { pts := lastPts store.pts updates
      messages := ingestMessages context.automaticallyReadPeerIds
        (((editsKept skip updates).map (keptReply context skip updates)).foldl
          (updateMessage context.peerId) store.messages)
        ((newKept skip updates).map (keptReply context skip updates))
        (updates.flatMap deletedIds) }
  addedMessages := (newKept skip updates).map (keptReply context skip updates)
  failed := failed

theorem applyUpdates_received {updates : List (ChannelUpdate μ)} (hpts : 0 ≤ store.pts)
    (hchain : Chains store.pts (sortUpdates (updates.filterMap ChannelUpdate.ptsUpdate?))) :
    applyUpdates context updates store =
      received context (skipMessageIds context.executingActors updates)
        (sortUpdates (updates.filterMap ChannelUpdate.ptsUpdate?))
        (updates.any ChannelUpdate.isTooLong) store := by
  have hcollected := @collect_chain μ (skipMessageIds context.executingActors updates)
    (sortUpdates (updates.filterMap ChannelUpdate.ptsUpdate?))
    ⟨store.pts, [], [], [], updates.any ChannelUpdate.isTooLong⟩ hchain
  unfold applyUpdates
  simp only [hcollected, List.nil_append]
  obtain ⟨hle, heq⟩ := hchain.le_lastPts
  generalize sortUpdates (updates.filterMap ChannelUpdate.ptsUpdate?) = sorted at *
  by_cases hlast : lastPts store.pts sorted = store.pts
  · rw [if_neg (not_not.mpr hlast), heq hlast]
    rfl
  · have hpositive : lastPts store.pts sorted > 0 := by omega
    rw [if_pos hlast, addMessagesAndDispatch, if_pos hpositive]
    rfl

/-- The copies a batch without ids to skip puts into its messages. -/
def batchReply (context : ChannelContext μ) (updates : List (PtsUpdate μ)) :
    TGMessage μ → TGMessage μ :=
  withReply context.downloadMessages (updates.filterMap new?) (updates.filterMap edit?)

/-- A message that was stored as it came in. -/
def readMention (automaticallyReadPeerIds : List ℤ) (message : TGMessage μ) : TGMessage μ :=
  if message.containsUnseenMention && !message.hasUnreadContent &&
      message.cid ∈ automaticallyReadPeerIds then
    { message with containsUnseenMention := false }
  else message

@[simp] theorem mid_readMention (peerIds : List ℤ) (message : TGMessage μ) :
    (readMention peerIds message).mid = message.mid := by
  unfold readMention
  split_ifs <;> rfl

@[simp] theorem mid_fillReply (copies : ℤ → Option (TGMessage μ)) (message : TGMessage μ) :
    (fillReply copies message).mid = message.mid := by
  unfold fillReply
  rcases missingReply message with _ | _ <;> rfl

@[simp] theorem cid_fillReply (copies : ℤ → Option (TGMessage μ)) (message : TGMessage μ) :
    (fillReply copies message).cid = message.cid := by
  unfold fillReply
  rcases missingReply message with _ | _ <;> rfl

@[simp] theorem mid_rekey (message : TGMessage μ) : (rekey message).mid = message.mid := rfl

/-- What an update changes of the message with an id, where the messages are stored with the given
contents. -/
def change {α : Type*} (new edit : TGMessage μ → α) (mid : ℤ) (update : PtsUpdate μ) :
    Option (Change α) :=
  if mid ∈ deletedIds update then some .delete
  else (((new? update).filter (·.mid = mid)).map fun message => .new (new message)).or
    (((edit? update).filter (·.mid = mid)).map fun message => .edit (edit message))

section Changes

variable {α : Type*} (new edit : TGMessage μ → α) (mid : ℤ)

end Changes

/-! ## A batch by its changes -/

theorem filter_map_mid (f : TGMessage μ → TGMessage μ)
    (hf : ∀ message, (f message).mid = message.mid) (messages : List (TGMessage μ)) (mid : ℤ) :
    (messages.map f).filter (·.mid = mid) = (messages.filter (·.mid = mid)).map f := by
  rw [List.filter_map]
  refine congrArg (List.map f) (List.filter_congr fun message _ => ?_)
  simp [hf]

theorem lookup_ingestMessages (peerIds : List ℤ) (table : MessageTable μ)
    (messages : List (TGMessage μ)) (ids : List ℤ) (mid : ℤ) :
    (ingestMessages peerIds table messages ids).lookup mid =
      if (table.lookup mid).isSome then if mid ∈ ids then none else table.lookup mid
      else ((messages.filter (·.mid = mid)).map (readMention peerIds)).getLast? := by
  have hread : (readMentions peerIds messages).1 = messages.map (readMention peerIds) := rfl
  rw [ingestMessages, lookup_inserts, newMessages_filter, lookup_deletes, hread,
    filter_map_mid _ (mid_readMention peerIds)]
  split_ifs with hsome hmem
  · rfl
  · rfl
  · exact Option.or_none
  · rw [Option.not_isSome_iff_eq_none.mp hsome]
    exact Option.or_none

theorem Keyed.ingestMessages {peerId : ℤ} (h : Keyed peerId table) (peerIds : List ℤ)
    {messages : List (TGMessage μ)} (hcids : ∀ message ∈ messages, message.cid = peerId)
    (ids : List ℤ) : Keyed peerId (ingestMessages peerIds table messages ids) := by
  have hdeleted : ∀ (ids : List ℤ) {table : MessageTable μ}, Keyed peerId table →
      Keyed peerId (ids.foldl KeyedTable.delete table) := by
    intro ids
    induction ids with
    | nil => exact fun h => h
    | cons id ids ih => exact fun h => ih (h.delete id)
  have hinserted : ∀ (messages : List (TGMessage μ)) {table : MessageTable μ}, Keyed peerId table →
      (∀ message ∈ messages, message.cid = peerId) → Keyed peerId (messages.foldl
        (fun table message => table.insertOrReplace message.mid message) table) := by
    intro messages
    induction messages with
    | nil => exact fun h _ => h
    | cons message messages ih =>
      exact fun h hcids => ih (h.insert (hcids message List.mem_cons_self))
        fun other hother => hcids other (List.mem_cons_of_mem _ hother)
  refine hinserted _ (hdeleted ids h) fun message hmessage => ?_
  obtain ⟨read, hread, rfl⟩ := List.mem_map.mp (List.mem_of_mem_filter hmessage)
  split_ifs <;> exact hcids read hread

/-- The messages of the updates are messages of the channel. -/
def Own (peerId : ℤ) (updates : List (PtsUpdate μ)) : Prop :=
  ∀ update ∈ updates, ∀ message, new? update = some message ∨ edit? update = some message →
    message.cid = peerId

/-- The updates, each applied alone. -/
def oneByOne (context : ChannelContext μ) (updates : List (PtsUpdate μ)) (store : ChannelStore μ) :
    ChannelStore μ :=
  updates.foldl (fun store update => (applyUpdates context [.ptsUpdate update] store).store) store

/-- What a new message is stored as where its update is applied alone. -/
def newAlone (context : ChannelContext μ) (message : TGMessage μ) : TGMessage μ :=
  readMention context.automaticallyReadPeerIds
    (withReply context.downloadMessages [message] [] message)

/-- What an edited message is stored as where its update is applied alone. -/
def editAlone (context : ChannelContext μ) (message : TGMessage μ) : TGMessage μ :=
  rekey (withReply context.downloadMessages [] [message] message)

/-- The changes of the message with an id, in the order of their pts, with what the batch stores for
each and what is stored of it alone. -/
def changes (context : ChannelContext μ) (updates : List (PtsUpdate μ)) (mid : ℤ) :
    List (Change (TGMessage μ × TGMessage μ)) :=
  (sortUpdates updates).filterMap (change
    (fun message => (readMention context.automaticallyReadPeerIds
      (batchReply context (sortUpdates updates) message), newAlone context message))
    (fun message => (rekey (batchReply context (sortUpdates updates) message),
      editAlone context message)) mid)

def sampleStore : ChannelStore Empty := ⟨1, KeyedTable.empty⟩

end Onegram.ChannelState
