import Onegram.Proofs.Acknowledgements
import Onegram.Proofs.IncomingPackets

/-!
# Quick ack ids

Both builders pad, hash and encrypt alike, but only that of a container writes the quick ack id;
the other one leaves the zero it was called with. What is recorded for a payload is recorded for
every request in it, so a quick ack reaches those and whatever else has the same id.
-/

namespace Onegram.Mtp

open Bytes MessageCipher

section

variable (MTSha256 : Bytes → Bytes) (encrypt : Bytes → Bytes → Bytes)

/-- The id a server sends for a payload. -/
def serverQuickAckId (authKey decryptedData : Bytes) : Int :=
  quickAckId (msgKeyLarge MTSha256 authKey 0 decryptedData)

def Payload.isContainer : Payload → Bool
  | .container .. => true
  | _ => false

/-- The request has its message in the payload. -/
def SealedPayload.Carries (messageInternalIds : List (Nat × Nat)) (s : SealedPayload)
    (r : QuickAckRequest) : Prop :=
  ∃ id, messageInternalIds.lookup r.internalId = some id ∧ id ∈ s.messageInternalIds

variable (key : MTDatacenterAuthKey) (messageInternalIds : List (Nat × Nat))
  (requests : List QuickAckRequest) (rows : List SealedPayload)

/-- The requests once the transport took all payloads of a transaction. -/
def afterCompletions : List QuickAckRequest :=
  rows.foldl (quickAckCompletion messageInternalIds) requests

/-- Of every payload the id is recorded that the server sends, which then reaches the requests in
the payload and no others. -/
def QuickAcked : Prop :=
  ∀ s ∈ rows,
    s.contents.quickAckId = serverQuickAckId MTSha256 key.authKey s.contents.decryptedData
      ∧ ∀ r ∈ requests,
        r.internalId ∈ receivedQuickAck (afterCompletions messageInternalIds requests rows)
            (serverQuickAckId MTSha256 key.authKey s.contents.decryptedData)
          ↔ s.Carries messageInternalIds r

/-- A payload of one message has digest bits that are zero, and no request outside a payload has its
id: in another payload of the transaction, or from before. -/
structure Unambiguous : Prop where
  containers : ∀ s ∈ rows, s.payload.isContainer = false →
    serverQuickAckId MTSha256 key.authKey s.contents.decryptedData = 0
  distinct : ∀ s ∈ rows, ∀ s' ∈ rows, ∀ r ∈ requests, s'.Carries messageInternalIds r →
    ¬s.Carries messageInternalIds r →
      serverQuickAckId MTSha256 key.authKey s'.contents.decryptedData
        ≠ serverQuickAckId MTSha256 key.authKey s.contents.decryptedData
  others : ∀ s ∈ rows, ∀ r ∈ requests, (∀ s' ∈ rows, ¬s'.Carries messageInternalIds r) →
    r.quickAckId ≠ some (serverQuickAckId MTSha256 key.authKey s.contents.decryptedData)

/-! ## What is recorded -/

variable {MTSha256 encrypt key}

theorem seal_quickAckId {payload : Payload} {extendedPadding : Bool} {draw : Draw}
    {contents : Sealed}
    (h : payload.seal MTSha256 encrypt key extendedPadding draw = some contents) :
    contents.quickAckId = if payload.isContainer then
      serverQuickAckId MTSha256 key.authKey contents.decryptedData else 0 := by
  cases payload with
  | message sessionId m =>
    obtain ⟨decryptedData, -, h⟩ := Option.bind_eq_some_iff.mp h
    obtain rfl := Option.some.inj h
    rfl
  | container sessionId messageId seqNo salt messages =>
    obtain ⟨decryptedData, -, h⟩ := Option.bind_eq_some_iff.mp h
    obtain rfl := Option.some.inj h
    rfl
  | plain m => cases h
  | service sessionId messageId seqNo salt data => cases h

variable (MTSha256 encrypt key) in
/-- Each row is one of the payloads, in order, with what its builder left of the quick ack id. -/
theorem sealAll_rows (extendedPadding : Bool) : ∀ (payloads : List (Payload × List Nat))
    (draws : List Draw),
    (∀ s ∈ sealAll MTSha256 encrypt key extendedPadding payloads draws,
      (s.payload, s.messageInternalIds) ∈ payloads
        ∧ s.contents.quickAckId = if s.payload.isContainer then
          serverQuickAckId MTSha256 key.authKey s.contents.decryptedData else 0)
      ∧ ((sealAll MTSha256 encrypt key extendedPadding payloads draws).flatMap
          (·.messageInternalIds)).Sublist (payloads.flatMap (·.2))
  | [], _ => by simp [sealAll]
  | p :: payloads, [] => by simp [sealAll]
  | (payload, ids) :: payloads, draw :: draws => by
    obtain ⟨hrows, hids⟩ := sealAll_rows extendedPadding payloads draws
    have hmore : ∀ s ∈ sealAll MTSha256 encrypt key extendedPadding payloads draws,
        (s.payload, s.messageInternalIds) ∈ (payload, ids) :: payloads
          ∧ s.contents.quickAckId = if s.payload.isContainer then
            serverQuickAckId MTSha256 key.authKey s.contents.decryptedData else 0 :=
      fun s hs => ⟨List.mem_cons_of_mem _ (hrows s hs).1, (hrows s hs).2⟩
    unfold sealAll
    rcases hseal : (payload.seal MTSha256 encrypt key extendedPadding draw).filter
      (·.encryptedData.isSome) with _ | contents
    · rw [hseal]
      exact ⟨hmore, hids.trans (List.sublist_append_right ids _)⟩
    · rw [hseal]
      refine ⟨fun s hs => ?_, ?_⟩
      · rcases List.mem_cons.mp hs with rfl | hs
        · exact ⟨List.mem_cons_self, seal_quickAckId (Option.filter_eq_some_iff.mp hseal).1⟩
        · exact hmore s hs
      · exact (List.Sublist.refl ids).append hids

/-! ## What is reached -/

/-- What a payload that was taken makes of one request. -/
def QuickAckRequest.note (messageInternalIds : List (Nat × Nat)) (r : QuickAckRequest)
    (s : SealedPayload) : QuickAckRequest :=
  match messageInternalIds.lookup r.internalId with
  | none => r
  | some messageInternalId =>
    if messageInternalId ∈ s.messageInternalIds then
      { r with quickAckId := some s.contents.quickAckId }
    else r

theorem afterCompletions_eq : ∀ (rows : List SealedPayload) (requests : List QuickAckRequest),
    afterCompletions messageInternalIds requests rows
      = requests.map fun r => rows.foldl (QuickAckRequest.note messageInternalIds) r
  | [], requests => (List.map_id requests).symm
  | s :: rows, requests => by
    have ih := afterCompletions_eq rows (quickAckCompletion messageInternalIds requests s)
    unfold afterCompletions at ih ⊢
    rw [List.foldl_cons, ih]
    exact List.map_map

theorem note_internalId (r : QuickAckRequest) (s : SealedPayload) :
    (r.note messageInternalIds s).internalId = r.internalId := by
  unfold QuickAckRequest.note
  split
  · rfl
  · split <;> rfl

theorem note_not_carried {r : QuickAckRequest} {s : SealedPayload}
    (h : ¬s.Carries messageInternalIds r) : r.note messageInternalIds s = r := by
  unfold QuickAckRequest.note
  split
  · rfl
  · rename_i id hid
    rw [if_neg fun hmem => h ⟨id, hid, hmem⟩]

theorem note_carried {r : QuickAckRequest} {s : SealedPayload}
    (h : s.Carries messageInternalIds r) :
    r.note messageInternalIds s = { r with quickAckId := some s.contents.quickAckId } := by
  obtain ⟨id, hid, hmem⟩ := h
  unfold QuickAckRequest.note
  rw [hid]
  exact if_pos hmem

theorem carries_congr {r r' : QuickAckRequest} (h : r.internalId = r'.internalId)
    (s : SealedPayload) : s.Carries messageInternalIds r ↔ s.Carries messageInternalIds r' := by
  unfold SealedPayload.Carries
  rw [h]

/-- A request that is in none of the payloads is as it was. -/
theorem foldl_not_carried : ∀ (rows : List SealedPayload) {r : QuickAckRequest},
    (∀ s ∈ rows, ¬s.Carries messageInternalIds r) →
      rows.foldl (QuickAckRequest.note messageInternalIds) r = r
  | [], _, _ => rfl
  | s :: rows, r, h => by
    rw [List.foldl_cons, note_not_carried messageInternalIds (h s List.mem_cons_self)]
    exact foldl_not_carried rows fun s' hs' => h s' (List.mem_cons_of_mem _ hs')

/-- A request has what is recorded for its payload. -/
theorem foldl_carried {r : QuickAckRequest} {s : SealedPayload}
    (hnodup : (rows.flatMap (·.messageInternalIds)).Nodup) (hs : s ∈ rows)
    (hcarries : s.Carries messageInternalIds r) :
    (rows.foldl (QuickAckRequest.note messageInternalIds) r).quickAckId
      = some s.contents.quickAckId := by
  induction rows generalizing r with
  | nil => exact absurd hs List.not_mem_nil
  | cons s₀ rows ih =>
    rw [List.flatMap_cons, List.nodup_append'] at hnodup
    obtain ⟨-, hrest, hdisjoint⟩ := hnodup
    rw [List.foldl_cons]
    have hid := note_internalId messageInternalIds r s₀
    rcases List.mem_cons.mp hs with rfl | hs
    · -- no later payload has the request
      rw [foldl_not_carried messageInternalIds rows, note_carried messageInternalIds hcarries]
      intro s' hs' hcarries'
      obtain ⟨id, hlookup, hmem⟩ := hcarries
      obtain ⟨id', hlookup', hmem'⟩ := (carries_congr messageInternalIds hid s').mp hcarries'
      obtain rfl := Option.some.inj (hlookup.symm.trans hlookup')
      exact hdisjoint hmem (List.mem_flatMap.mpr ⟨s', hs', hmem'⟩)
    · exact ih hrest hs ((carries_congr messageInternalIds hid s).mpr hcarries)

theorem foldl_internalId : ∀ (rows : List SealedPayload) (r : QuickAckRequest),
    (rows.foldl (QuickAckRequest.note messageInternalIds) r).internalId = r.internalId
  | [], _ => rfl
  | s :: rows, r => by
    rw [List.foldl_cons, foldl_internalId rows, note_internalId]

variable {messageInternalIds requests rows}

/-- A quick ack reaches a request when its id is what the payloads left there. -/
theorem mem_receivedQuickAck (hunique : (requests.map (·.internalId)).Nodup) {r : QuickAckRequest}
    (hr : r ∈ requests) (id : Int) :
    r.internalId ∈ receivedQuickAck (afterCompletions messageInternalIds requests rows) id
      ↔ (rows.foldl (QuickAckRequest.note messageInternalIds) r).quickAckId = some id := by
  unfold receivedQuickAck
  rw [afterCompletions_eq]
  constructor
  · intro hmem
    obtain ⟨r', hr', hid⟩ := List.mem_map.mp hmem
    obtain ⟨hr', hquick⟩ := List.mem_filter.mp hr'
    obtain ⟨r₀, hr₀, rfl⟩ := List.mem_map.mp hr'
    rw [foldl_internalId] at hid
    obtain rfl := List.inj_on_of_nodup_map hunique hr₀ hr hid
    simpa using hquick
  · intro hquick
    refine List.mem_map.mpr ⟨rows.foldl (QuickAckRequest.note messageInternalIds) r,
      List.mem_filter.mpr ⟨List.mem_map.mpr ⟨r, hr, rfl⟩, by simpa using hquick⟩, ?_⟩
    exact foldl_internalId messageInternalIds rows r

/-- With rows as the builders leave them. -/
theorem quickAcked_iff (hunique : (requests.map (·.internalId)).Nodup)
    (hnodup : (rows.flatMap (·.messageInternalIds)).Nodup)
    (hrows : ∀ s ∈ rows, s.contents.quickAckId = if s.payload.isContainer then
      serverQuickAckId MTSha256 key.authKey s.contents.decryptedData else 0) :
    QuickAcked MTSha256 key messageInternalIds requests rows
      ↔ Unambiguous MTSha256 key messageInternalIds requests rows := by
  constructor
  · intro h
    refine ⟨fun s hs hsingle => ?_, fun s hs s' hs' r hr hcarries' hcarries heq => ?_,
      fun s hs r hr hnone heq => ?_⟩
    · rw [← (h s hs).1, hrows s hs, hsingle]
      rfl
    · refine hcarries (((h s hs).2 r hr).mp ?_)
      rw [mem_receivedQuickAck hunique hr, foldl_carried messageInternalIds rows hnodup hs' hcarries',
        (h s' hs').1, heq]
    · refine hnone s hs (((h s hs).2 r hr).mp ?_)
      rw [mem_receivedQuickAck hunique hr, foldl_not_carried messageInternalIds rows hnone, heq]
  · intro h
    have hrecorded : ∀ s ∈ rows, s.contents.quickAckId
        = serverQuickAckId MTSha256 key.authKey s.contents.decryptedData := by
      intro s hs
      rw [hrows s hs]
      cases hcontainer : s.payload.isContainer with
      | true => rfl
      | false => exact (h.containers s hs hcontainer).symm
    intro s hs
    refine ⟨hrecorded s hs, fun r hr => ?_⟩
    rw [mem_receivedQuickAck hunique hr]
    by_cases hcarries : s.Carries messageInternalIds r
    · rw [foldl_carried messageInternalIds rows hnodup hs hcarries, hrecorded s hs]
      simp [hcarries]
    · refine ⟨fun heq => absurd heq ?_, fun hcarries' => absurd hcarries' hcarries⟩
      by_cases hother : ∃ s' ∈ rows, s'.Carries messageInternalIds r
      · obtain ⟨s', hs', hcarries'⟩ := hother
        rw [foldl_carried messageInternalIds rows hnodup hs' hcarries', hrecorded s' hs',
          Option.some.injEq]
        exact h.distinct s hs s' hs' r hr hcarries' hcarries
      · push Not at hother
        rw [foldl_not_carried messageInternalIds rows hother]
        exact h.others s hs r hr hother

end

/-! ## The payloads of a transaction -/

section Transaction

variable (clock : Nat → Int)

theorem prepare_sublist (useUnauthorizedMode : Bool) (messageSalt : Int) (p : Preparation)
    (m : OutgoingMessage) {ids : List Nat}
    (h : (p.transactionMessageList.map (·.messageInternalId)).Sublist ids) :
    ((p.prepare clock useUnauthorizedMode messageSalt m).transactionMessageList.map
      (·.messageInternalId)).Sublist (ids ++ [m.internalId]) := by
  have hnumber : (p.number clock m).2.2.transactionMessageList = p.transactionMessageList := by
    unfold Preparation.number
    split <;> rfl
  unfold Preparation.prepare
  simp only []
  split
  · simp only [hnumber, List.map_append, List.map_singleton]
    exact h.append (List.Sublist.refl _)
  · rw [hnumber]
    exact h.trans (List.sublist_append_left ids _)

theorem foldl_prepare_sublist (useUnauthorizedMode : Bool) (messageSalt : Int) :
    ∀ (messages : List OutgoingMessage) (p : Preparation) {ids : List Nat},
      (p.transactionMessageList.map (·.messageInternalId)).Sublist ids →
        ((messages.foldl (Preparation.prepare clock useUnauthorizedMode messageSalt)
          p).transactionMessageList.map (·.messageInternalId)).Sublist
            (ids ++ messages.map (·.internalId))
  | [], _, ids, h => by simpa using h
  | m :: messages, p, ids, h => by
    have ih := foldl_prepare_sublist useUnauthorizedMode messageSalt messages _
      (prepare_sublist clock useUnauthorizedMode messageSalt p m h)
    rwa [List.append_assoc] at ih

/-- Every message is prepared at most once. -/
theorem prepareAll_sublist (p : MTProto) (r : TransactionRequest) :
    ((p.prepareAll clock r).transactionMessageList.map (·.messageInternalId)).Sublist
      (r.messageTransactions.flatten.map (·.internalId)) := by
  have hall : ∀ (transactions : List (List OutgoingMessage)) (q : Preparation) (salt : Int)
      {ids : List Nat}, (q.transactionMessageList.map (·.messageInternalId)).Sublist ids →
      ((transactions.foldl (Preparation.prepareTransaction clock p.useUnauthorizedMode salt
        r.needsParityCorrection) q).transactionMessageList.map (·.messageInternalId)).Sublist
          (ids ++ transactions.flatten.map (·.internalId)) := by
    intro transactions
    induction transactions with
    | nil => exact fun q salt ids h => by simpa using h
    | cons t transactions ih =>
      intro q salt ids h
      have hfirst := foldl_prepare_sublist clock p.useUnauthorizedMode salt t q h
      have hlist : (q.prepareTransaction clock p.useUnauthorizedMode salt r.needsParityCorrection
          t).transactionMessageList
          = (t.foldl (Preparation.prepare clock p.useUnauthorizedMode salt)
            q).transactionMessageList := by
        unfold Preparation.prepareTransaction
        simp only []
        split <;> rfl
      rw [← hlist] at hfirst
      have h' := ih _ salt hfirst
      rwa [List.append_assoc, ← List.map_append, ← List.flatten_cons] at h'
  have h := hall r.messageTransactions { session := p.sessionInfo }
    (if p.useUnauthorizedMode then 0 else r.messageSalt) (List.Sublist.refl [])
  rwa [List.nil_append] at h

/-- No message is in two payloads. -/
theorem payloads_nodup (p : MTProto) (r : TransactionRequest)
    (hids : (r.messageTransactions.flatten.map (·.internalId)).Nodup) :
    ((p.payloads clock r).1.flatMap (·.2)).Nodup := by
  have hprepared := hids.sublist (prepareAll_sublist clock p r)
  have horder := (orderMessages_perm r.forceConfirmations
    (p.prepareAll clock r).transactionMessageList).map (·.messageInternalId)
  have hmessages : (p.payloads clock r).1.flatMap (·.2)
      = ((p.payloads clock r).1.flatMap (·.1.messages)).map (·.messageInternalId) := by
    rw [List.map_flatMap]
    exact List.flatMap_congr fun q hq => (payloads_messages clock p r q hq).1
  rw [hmessages]
  unfold MTProto.payloads
  split
  · simp only [List.flatMap_map, Payload.messages, List.flatMap_singleton']
    exact horder.nodup_iff.mpr hprepared
  · rw [dataForContainers_messages]
    split
    · rw [MTProto.containers, packContainers_flatten]
      exact horder.nodup_iff.mpr hprepared
    · exact List.nodup_nil

/-- The quick ack ids of a transaction are as they should be exactly when none is ambiguous. -/
theorem quickAcks_iff (MTSha256 : Bytes → Bytes) (encrypt : Bytes → Bytes → Bytes) (p : MTProto)
    (r : TransactionRequest) (key : MTDatacenterAuthKey) (extendedPadding : Bool)
    (draws : List Draw) (messageInternalIds : List (Nat × Nat)) (requests : List QuickAckRequest)
    (hids : (r.messageTransactions.flatten.map (·.internalId)).Nodup)
    (hunique : (requests.map (·.internalId)).Nodup) :
    QuickAcked MTSha256 key messageInternalIds requests
        (p.sealedPayloads MTSha256 encrypt clock r key extendedPadding draws)
      ↔ Unambiguous MTSha256 key messageInternalIds requests
        (p.sealedPayloads MTSha256 encrypt clock r key extendedPadding draws) := by
  obtain ⟨hrows, hsublist⟩ :=
    sealAll_rows MTSha256 encrypt key extendedPadding (p.payloads clock r).1 draws
  exact quickAcked_iff hunique ((payloads_nodup clock p r hids).sublist hsublist)
    fun s hs => (hrows s hs).2

/-! ## One message and two

Under the key of 256 zero bytes, with the digests of SHA-256. -/

namespace QuickAckSample

def key : MTDatacenterAuthKey := PacketSample.key

def draw : Draw := ⟨(List.range 256).map UInt8.ofNat, 0⟩

def ping (messageInternalId : Nat) (messageId seqNo : Int) : PreparedMessage :=
  { data := [0xec, 0x77, 0xbe, 0x7a], messageId, seqNo, salt := 1, requiresConfirmation := true
    hasHighPriority := false, inResponseToMessageId := 0, messageInternalId, fresh := true }

def alone : Payload := .message 7 (ping 1 (1700000000 * 2 ^ 32) 1)

def together : Payload :=
  .container 7 (1700000000 * 2 ^ 32 + 2048) 4 1
    [ping 1 (1700000000 * 2 ^ 32) 1, ping 2 (1700000000 * 2 ^ 32 + 1024) 3]

def digests : List (Bytes × Bytes) :=
  [(List.replicate 32 0 ++ decryptedOs 1 7 (1700000000 * 2 ^ 32) 1 [0xec, 0x77, 0xbe, 0x7a]
      ++ (List.range 12).map UInt8.ofNat,
    [30, 97, 215, 31, 198, 86, 104, 189, 121, 17, 152, 235, 64, 88, 225, 146, 55, 0, 114, 119,
     138, 59, 162, 110, 40, 55, 172, 223, 62, 59, 242, 231]),
   (List.replicate 32 0 ++ decryptedOs 1 7 (1700000000 * 2 ^ 32 + 2048) 4 (containerData
      [ping 1 (1700000000 * 2 ^ 32) 1, ping 2 (1700000000 * 2 ^ 32 + 1024) 3])
      ++ (List.range 16).map UInt8.ofNat,
    [63, 16, 212, 29, 51, 234, 1, 72, 214, 86, 177, 121, 247, 74, 90, 103, 13, 3, 148, 236, 18,
     74, 74, 37, 101, 121, 88, 154, 232, 239, 90, 32])]

def sha256 (b : Bytes) : Bytes := (digests.lookup b).getD (List.replicate 32 0)

def messageInternalIds : List (Nat × Nat) := [(11, 1), (12, 2)]

/-- The third was sent before. -/
def requests : List QuickAckRequest := [⟨11, none⟩, ⟨12, none⟩, ⟨13, some 9⟩]

def rows (r : TransactionRequest) : List SealedPayload :=
  (MTProto.start 7 false).sealedPayloads sha256 PacketSample.encrypt runningClock r key false [draw]

def pingAlone : TransactionRequest :=
  { messageTransactions := [[pingMessage 1]], messageSalt := 1 }

theorem alone_payloads :
    ((MTProto.start 7 false).payloads runningClock pingAlone).1 = [(alone, [1])] := by
  simp [MTProto.payloads, MTProto.containers, MTProto.prepareAll, MTProto.start, pingAlone,
    pingMessage, Preparation.prepareTransaction, Preparation.prepare, Preparation.number,
    SessionInfo.generateClientMessageId, alignClientMessageId_eq, runningClock,
    SessionInfo.takeSeqNo, orderMessages, takeContainer, dataForContainers, dataForContainer,
    MTMaxContainerSize, OutgoingMessage.decoratedData, alone, ping]

theorem together_payloads :
    ((MTProto.start 7 false).payloads runningClock pingPair).1 = [(together, [1, 2])] := by
  simp [MTProto.payloads, MTProto.containers, MTProto.prepareAll, MTProto.start, pingPair,
    pingMessage, Preparation.prepareTransaction, Preparation.prepare, Preparation.number,
    SessionInfo.generateClientMessageId, alignClientMessageId_eq, runningClock,
    SessionInfo.takeSeqNo, orderMessages, takeContainer, dataForContainers, dataForContainer,
    dataForEncryptedContainerWithMessages, MTMaxContainerSize, OutgoingMessage.decoratedData,
    together, ping, SessionInfo.addContainerMessageIdMapping]

end QuickAckSample

open QuickAckSample in
theorem together_acked :
    QuickAcked QuickAckSample.sha256 QuickAckSample.key QuickAckSample.messageInternalIds
      QuickAckSample.requests (QuickAckSample.rows pingPair) := by
  refine (quickAcks_iff runningClock sha256 PacketSample.encrypt (MTProto.start 7 false) pingPair key
    false [draw] QuickAckSample.messageInternalIds requests (by decide) (by decide)).mpr ?_
  unfold MTProto.sealedPayloads
  rw [together_payloads]
  have hone : (sealAll sha256 PacketSample.encrypt key false [(together, [1, 2])]
      [draw]).length = 1 := by decide +kernel
  obtain ⟨row, hrow⟩ := List.length_eq_one_iff.mp hone
  have hcontainer : ∀ s ∈ sealAll sha256 PacketSample.encrypt key false [(together, [1, 2])] [draw],
      s.payload.isContainer = true := by decide +kernel
  have hid : ∀ s ∈ sealAll sha256 PacketSample.encrypt key false [(together, [1, 2])] [draw],
      serverQuickAckId sha256 key.authKey s.contents.decryptedData = 500437055 := by decide +kernel
  refine ⟨fun s hs hsingle => ?_, fun s hs s' hs' r _ hcarries' hcarries => ?_,
    fun s hs r hr _ => ?_⟩
  · rw [hcontainer s hs] at hsingle
    cases hsingle
  · rw [hrow, List.mem_singleton] at hs hs'
    rw [hs'] at hcarries'
    rw [hs] at hcarries
    exact absurd hcarries' hcarries
  · have hold : ∀ r ∈ requests, r.quickAckId ≠ some 500437055 := by decide
    rw [hid s hs]
    exact hold r hr

/-- The builder of one message leaves its quick ack id at zero. -/
theorem alone_not_acked :
    ¬QuickAcked QuickAckSample.sha256 QuickAckSample.key QuickAckSample.messageInternalIds
      QuickAckSample.requests (QuickAckSample.rows QuickAckSample.pingAlone) := by
  intro h
  have hwrong : ∃ s ∈ sealAll QuickAckSample.sha256 PacketSample.encrypt QuickAckSample.key false
      [(QuickAckSample.alone, [1])] [QuickAckSample.draw],
      s.contents.quickAckId ≠ serverQuickAckId QuickAckSample.sha256 QuickAckSample.key.authKey
        s.contents.decryptedData := by decide +kernel
  obtain ⟨s, hs, hne⟩ := hwrong
  refine hne (h s ?_).1
  unfold QuickAckSample.rows MTProto.sealedPayloads
  rw [QuickAckSample.alone_payloads]
  exact hs

end Transaction

end Onegram.Mtp
