import Onegram.Proofs.ChannelUpdates

/-!
# Messages that are being sent

The ids that the server assigns to messages being sent are skipped where the messages are pushed,
and not where they come in a difference: the set of ids is not filled there. A message that is being
sent is added once more by a poll, where it is not stored yet.
-/

namespace Onegram.ChannelState

variable {μ : Type*} {context : ChannelContext μ} {store : ChannelStore μ}
  {updates : List (ChannelUpdate μ)} {message : TGMessage μ} {table : MessageTable μ} {mid : ℤ}

/-! ## The same content -/

def rawNew? : PtsUpdate μ → Option (TGMessage μ)
  | .updateNewChannelMessage message _ _ => some message
  | _ => none

def ChannelUpdate.isNew : ChannelUpdate μ → Bool
  | .ptsUpdate (.updateNewChannelMessage _ _ _) => true
  | _ => false

/-- The updates with a pts, by it. -/
def ptsUpdates (updates : List (ChannelUpdate μ)) : List (PtsUpdate μ) :=
  sortUpdates (updates.filterMap ChannelUpdate.ptsUpdate?)

/-- The difference with the content of updates. -/
def differenceOf (pts : ℤ) (updates : List (ChannelUpdate μ)) : ChannelDifference μ where
  pts := lastPts pts (ptsUpdates updates)
  n_new_messages := (ptsUpdates updates).filterMap rawNew?
  other_updates := updates.filter (!·.isNew)

theorem randomIdToMessageId_differenceOf (pts randomId : ℤ) :
    randomIdToMessageId (differenceOf pts updates).other_updates randomId =
      randomIdToMessageId updates randomId := by
  have hids : (updates.filter (!·.isNew)).filterMap ChannelUpdate.messageId? =
      updates.filterMap ChannelUpdate.messageId? := by
    rw [List.filterMap_filter]
    refine List.filterMap_congr fun update _ => ?_
    rcases update with (_ | _ | _ | _) | _ | _ <;> rfl
  rw [randomIdToMessageId, randomIdToMessageId, differenceOf, hids]

/-- A message without what depends on the way it came: its pts and the copy of what it replies to.
-/
def bare (message : TGMessage μ) : TGMessage μ :=
  { message with
    pts := 0
    reply := message.reply.map fun reply => ⟨reply.replyMessageId, none⟩ }

@[simp] theorem mid_bare (message : TGMessage μ) : (bare message).mid = message.mid := rfl

theorem bare_fillReply (copies : ℤ → Option (TGMessage μ)) (message : TGMessage μ) :
    bare (fillReply copies message) = bare message := by
  unfold fillReply missingReply
  rcases hreply : message.reply with _ | reply
  · rfl
  · simp only [Option.bind_some]
    split_ifs
    · simp [bare, hreply]
    · rfl

theorem bare_withReply (download : List ℤ → List (TGMessage μ)) (added updated : List (TGMessage μ))
    (message : TGMessage μ) : bare (withReply download added updated message) = bare message := by
  simp only [withReply]
  split_ifs <;> simp only [bare_fillReply]

/-! ## What is added -/

theorem isSome_updateMessage (peerId : ℤ) (table : MessageTable μ) (message : TGMessage μ)
    (mid : ℤ) : ((updateMessage peerId table message).lookup mid).isSome =
      (table.lookup mid).isSome := by
  unfold updateMessage
  generalize (if message.cid = 0 then peerId else message.cid) = updatePeerId
  dsimp only
  split_ifs with hstored
  · rw [KeyedTable.lookup_insertOrReplace]
    split_ifs with hmid
    · obtain ⟨stored, hfilter⟩ := Option.isSome_iff_exists.mp hstored.2
      rw [hmid, (Option.filter_eq_some_iff.mp hfilter).1]
      rfl
    · rfl
  · rfl

/-- Edits do not change which messages are stored. -/
theorem isSome_updateMessages (peerId mid : ℤ) : ∀ (messages : List (TGMessage μ))
    (table : MessageTable μ), ((messages.foldl (updateMessage peerId) table).lookup mid).isSome =
      (table.lookup mid).isSome
  | [], _ => rfl
  | message :: messages, table => by
    rw [List.foldl_cons, isSome_updateMessages peerId mid messages, isSome_updateMessage]

/-- The messages of a list that are not stored. -/
def notStored (table : MessageTable μ) (messages : List (TGMessage μ)) : List (TGMessage μ) :=
  messages.filter fun message => !(table.lookup message.mid).isSome

/-- A message that was not stored is so afterwards where it is in the list. -/
theorem isSome_ingestMessages (peerIds : List ℤ) {table : MessageTable μ}
    (messages : List (TGMessage μ)) (ids : List ℤ) (h : (table.lookup mid).isSome = false) :
    ((ingestMessages peerIds table messages ids).lookup mid).isSome = true ↔
      ∃ message ∈ messages, message.mid = mid := by
  rw [lookup_ingestMessages, h, if_neg Bool.false_ne_true]
  simp

/-- What a poll is handed and what it stores. -/
theorem isSome_pollOnce (context : ChannelContext μ) (difference : ChannelDifference μ)
    (h : (store.messages.lookup mid).isSome = false) :
    ((pollOnce context difference store).store.messages.lookup mid).isSome = true ↔
      ∃ message ∈ (pollOnce context difference store).addedMessages, message.mid = mid := by
  have hpoll : (pollOnce context difference store).store.messages =
      (difference.other_updates.filterMap ChannelUpdate.editedMessage).foldl
        (updateMessage context.peerId) (ingestMessages context.automaticallyReadPeerIds
          store.messages (pollOnce context difference store).addedMessages
          (difference.other_updates.flatMap ChannelUpdate.deletedIds)) := rfl
  rw [hpoll, isSome_updateMessages, isSome_ingestMessages _ _ _ h]

theorem isSome_received (context : ChannelContext μ) (skip : List ℤ) (updates : List (PtsUpdate μ))
    (failed : Bool) (h : (store.messages.lookup mid).isSome = false) :
    ((received context skip updates failed store).store.messages.lookup mid).isSome = true ↔
      ∃ message ∈ (received context skip updates failed store).addedMessages,
        message.mid = mid := by
  have hedited : ((((editsKept skip updates).map (keptReply context skip updates)).foldl
      (updateMessage context.peerId) store.messages).lookup mid).isSome = false := by
    rw [isSome_updateMessages, h]
  exact isSome_ingestMessages _ _ _ hedited

/-! ## The two ways -/

/-- The new messages of updates, as they come in. -/
def newMessagesOf (updates : List (ChannelUpdate μ)) : List (TGMessage μ) :=
  ((ptsUpdates updates).filterMap rawNew?).filter (·.mid ≠ 0)

theorem map_bare_new? (updates : List (PtsUpdate μ)) :
    (updates.filterMap new?).map bare =
      ((updates.filterMap rawNew?).filter (·.mid ≠ 0)).map bare := by
  induction updates with
  | nil => rfl
  | cons update updates ih =>
    rw [List.filterMap_cons, List.filterMap_cons]
    rcases update with ⟨message, pts, _⟩ | _ | _ | _
    · by_cases hmid : message.mid = 0
      · simpa [new?, rawNew?, hmid] using ih
      · simpa [new?, rawNew?, hmid, bare] using ih
    all_goals exact ih

theorem filter_mid_bare (keep : ℤ → Bool) (messages : List (TGMessage μ)) :
    (messages.filter fun message => keep message.mid).map bare =
      (messages.map bare).filter fun message => keep message.mid := by
  rw [List.filter_map]
  rfl

theorem map_bare_map {f : TGMessage μ → TGMessage μ}
    (hf : ∀ message, bare (f message) = bare message) (messages : List (TGMessage μ)) :
    (messages.map f).map bare = messages.map bare := by
  rw [List.map_map]
  exact List.map_congr_left fun message _ => hf message

/-- What is handed to the store where the messages are pushed. -/
theorem bare_pushed (context : ChannelContext μ) (hpts : 0 ≤ store.pts)
    (hchain : Chains store.pts (ptsUpdates updates)) :
    (applyUpdates context updates store).addedMessages.map bare =
      ((newMessagesOf updates).map bare).filter
        (·.mid ∉ skipMessageIds context.executingActors updates) := by
  have hreply : ∀ message, bare (keptReply context
      (skipMessageIds context.executingActors updates) (ptsUpdates updates) message) =
        bare message := bare_withReply _ _ _
  rw [applyUpdates_received hpts hchain, received]
  refine (map_bare_map hreply _).trans ?_
  rw [newKept, newMessagesOf, ← map_bare_new?]
  exact filter_mid_bare
    (fun mid => decide (mid ∉ skipMessageIds context.executingActors updates)) _

/-- What is handed to it where they come in a difference. -/
theorem bare_polled (store : ChannelStore μ)
    (hown : ∀ message ∈ newMessagesOf updates, message.cid = context.peerId) :
    (pollOnce context (differenceOf store.pts updates) store).addedMessages.map bare =
      (newMessagesOf updates).map bare := by
  let messages : List (TGMessage μ) := ((ptsUpdates updates).filterMap rawNew?).map fun message =>
    { message with pts := lastPts store.pts (ptsUpdates updates) }
  have hkept : messages.filter (fun message =>
      decide (message.mid ≠ 0 ∧ message.cid = context.peerId)) =
        messages.filter (·.mid ≠ 0) := by
    refine List.filter_congr fun message hmessage => ?_
    obtain ⟨raw, hraw, rfl⟩ := List.mem_map.mp hmessage
    by_cases hmid : raw.mid = 0
    · simp [hmid]
    · have hcid := hown raw (List.mem_filter.mpr ⟨hraw, by simpa using hmid⟩)
      simp [hmid, hcid]
  have hbare : messages.map bare = ((ptsUpdates updates).filterMap rawNew?).map bare := by
    rw [List.map_map]
    rfl
  have hpolled : (pollOnce context (differenceOf store.pts updates) store).addedMessages.map bare =
      (messages.filter (·.mid ≠ 0)).map bare := by
    unfold pollOnce differenceOf
    dsimp only
    rw [map_bare_map (bare_fillReply _), map_bare_map (bare_fillReply _), ← hkept]
    exact congrArg (List.map bare)
      (List.filter_eq_self.mpr fun _ _ => decide_eq_true List.not_mem_nil)
  rw [hpolled, newMessagesOf, filter_mid_bare (fun mid => decide (mid ≠ 0)),
    filter_mid_bare (fun mid => decide (mid ≠ 0)), hbare]

/-- A message with an id that is assigned to one being sent is not added by either way, and both hand
the same messages to the store, apart from those it has. -/
structure NotTwice (context : ChannelContext μ) (updates : List (ChannelUpdate μ))
    (store : ChannelStore μ) : Prop where
  pushed : ∀ mid ∈ skipMessageIds context.executingActors updates,
    (store.messages.lookup mid).isSome = false →
      ((applyUpdates context updates store).store.messages.lookup mid).isSome = false
  polled : ∀ mid ∈ skipMessageIds context.executingActors
      (differenceOf store.pts updates).other_updates,
    (store.messages.lookup mid).isSome = false →
      ((pollOnce context (differenceOf store.pts updates) store).store.messages.lookup mid).isSome =
        false
  same : (notStored store.messages (applyUpdates context updates store).addedMessages).map bare =
    (notStored store.messages
      (pollOnce context (differenceOf store.pts updates) store).addedMessages).map bare

theorem skipMessageIds_differenceOf (actors : List ℤ) (pts : ℤ) :
    skipMessageIds actors (differenceOf pts updates).other_updates =
      skipMessageIds actors updates :=
  List.filterMap_congr fun randomId _ => randomIdToMessageId_differenceOf pts randomId

/-- Of the two lists with the same messages, one has those of the other. -/
theorem exists_mid_of_bare {messages others : List (TGMessage μ)}
    (h : messages.map bare = others.map bare) (hmem : ∃ message ∈ messages, message.mid = mid) :
    ∃ other ∈ others, other.mid = mid := by
  obtain ⟨message, hmessage, hmid⟩ := hmem
  obtain ⟨other, hother, heq⟩ := List.mem_map.mp (h ▸ List.mem_map_of_mem hmessage)
  exact ⟨other, hother, (congrArg TGMessage.mid heq).trans hmid⟩

theorem notStored_bare (table : MessageTable μ) (messages : List (TGMessage μ)) :
    (notStored table messages).map bare =
      (messages.map bare).filter fun message => !(table.lookup message.mid).isSome :=
  filter_mid_bare (fun mid => !(table.lookup mid).isSome) messages

/-- The two ways do not add a message that is being sent, and add the same ones, exactly where every
new message with an assigned id is stored already. -/
theorem notTwice_iff (context : ChannelContext μ) (updates : List (ChannelUpdate μ))
    (store : ChannelStore μ) (hpts : 0 ≤ store.pts) (hchain : Chains store.pts (ptsUpdates updates))
    (hown : ∀ message ∈ newMessagesOf updates, message.cid = context.peerId) :
    NotTwice context updates store ↔ ∀ message ∈ newMessagesOf updates,
      message.mid ∈ skipMessageIds context.executingActors updates →
        (store.messages.lookup message.mid).isSome = true := by
  have hpolled := bare_polled store hown
  have hpushed := bare_pushed context hpts hchain
  constructor
  · intro h message hmessage hskip
    refine Bool.of_not_eq_false fun hnone => ?_
    have hgone := h.polled message.mid (by rwa [skipMessageIds_differenceOf]) hnone
    have hadded := (isSome_pollOnce context (differenceOf store.pts updates) hnone).mpr
      (exists_mid_of_bare hpolled.symm ⟨message, hmessage, rfl⟩)
    rw [hgone] at hadded
    cases hadded
  · intro h
    refine ⟨fun mid hskip hnone => ?_, fun mid hskip hnone => ?_, ?_⟩
    · refine Bool.eq_false_iff.mpr fun hsome => ?_
      rw [applyUpdates_received hpts hchain] at hsome
      obtain ⟨message, hmessage, hmid⟩ := (isSome_received _ _ _ _ hnone).mp hsome
      rw [← applyUpdates_received hpts hchain] at hmessage
      have hkept : bare message ∈ _ := hpushed ▸ List.mem_map_of_mem hmessage
      have hnot := of_decide_eq_true (List.mem_filter.mp hkept).2
      exact hnot (hmid ▸ hskip)
    · refine Bool.eq_false_iff.mpr fun hsome => ?_
      obtain ⟨message, hmessage, hmid⟩ := exists_mid_of_bare hpolled
        ((isSome_pollOnce context (differenceOf store.pts updates) hnone).mp hsome)
      rw [skipMessageIds_differenceOf, ← hmid] at hskip
      have hstored := h message hmessage hskip
      rw [hmid, hnone] at hstored
      cases hstored
    · rw [notStored_bare, notStored_bare, hpolled, hpushed, List.filter_filter]
      refine List.filter_congr fun message hmessage => ?_
      obtain ⟨original, horiginal, rfl⟩ := List.mem_map.mp hmessage
      rw [mid_bare]
      by_cases hskip : original.mid ∈ skipMessageIds context.executingActors updates
      · simp [hskip, h original horiginal hskip]
      · simp [hskip]

/-- A message with the random id 77 is being sent. -/
def sendingContext : ChannelContext Empty := ⟨-1000000005, [], [77], fun _ => []⟩

/-- The server assigns it the id 1, and gives it. -/
def sentUpdates : List (ChannelUpdate Empty) :=
  [.updateMessageID 77 1,
    .ptsUpdate (.updateNewChannelMessage (sampleMessage TGMessageSpaceImportant 1 10) 2 1)]

/-- A store that has the message. -/
def sentStore : ChannelStore Empty :=
  ⟨1, KeyedTable.empty.insertOrReplace 1 (sampleMessage TGMessageSpaceImportant 1 10)⟩

theorem notTwice_sample : NotTwice sendingContext sentUpdates sentStore := by
  have hnew : newMessagesOf sentUpdates = [sampleMessage TGMessageSpaceImportant 1 10] := rfl
  refine (notTwice_iff sendingContext sentUpdates sentStore (by decide) ⟨by decide, by decide,
    trivial⟩ fun message hmessage => ?_).mpr fun message hmessage _ => ?_
  · rw [hnew] at hmessage
    obtain rfl := List.mem_singleton.mp hmessage
    rfl
  · rw [hnew] at hmessage
    obtain rfl := List.mem_singleton.mp hmessage
    rfl

/-- A store that does not have it gets it by a poll, and not by the updates. -/
theorem pollOnce_adds_sent :
    skipMessageIds sendingContext.executingActors sentUpdates = [1] ∧
      ((applyUpdates sendingContext sentUpdates sampleStore).store.messages.lookup 1).isSome =
        false ∧
      ((pollOnce sendingContext (differenceOf 1 sentUpdates) sampleStore).store.messages.lookup
        1).isSome = true := by
  decide +kernel

end Onegram.ChannelState
