import Onegram.Acknowledgements
import Onegram.Proofs.RequestOrder

/-!
# No acknowledgement is lost

A confirmation leaves the schedule only when a transaction succeeds that it was sent in, and it is
given that transaction only when the transport takes a payload that lists it. An id is scheduled
where it is not yet, and only a message that was not marked before is looked at any further.
-/

namespace Onegram.Mtp

/-- The payload has a `msgs_ack` that lists the id. -/
def Payload.Acks (p : Payload) (messageId : Int) : Prop :=
  ∃ m ∈ p.messages, ∃ messageIds, m.data = msgsAck messageIds ∧ messageId ∈ messageIds

/-- The id was listed in a payload that the transport took in a transaction that later succeeded. -/
def Acknowledged (log : List AckHappening) (messageId : Int) : Prop :=
  ∃ before after payload transactionId transactionIds,
    log = before ++ .succeeded transactionIds :: after ∧ transactionId ∈ transactionIds
      ∧ .accepted payload transactionId ∈ before ∧ payload.Acks messageId

theorem Acknowledged.append {log : List AckHappening} {messageId : Int}
    (h : Acknowledged log messageId) (more : List AckHappening) :
    Acknowledged (log ++ more) messageId := by
  obtain ⟨before, after, payload, transactionId, transactionIds, rfl, hid, haccepted, hacks⟩ := h
  exact ⟨before, after ++ more, payload, transactionId, transactionIds, by simp, hid, haccepted,
    hacks⟩

/-! ## The schedule -/

namespace IncomingSession

variable {s : IncomingSession} {messageId size : Int}

theorem schedule_nodup (h : s.scheduledMessageIds.Nodup) :
    (s.scheduleMessageConfirmation messageId size).scheduledMessageIds.Nodup := by
  unfold scheduleMessageConfirmation
  split_ifs with hfound
  · exact h
  · unfold scheduledMessageIds at h ⊢
    rw [List.map_append, List.map_singleton]
    exact List.nodup_append'.mpr ⟨h, List.nodup_singleton _, by simpa using hfound⟩

theorem mem_schedule (id : Int) :
    id ∈ (s.scheduleMessageConfirmation messageId size).scheduledMessageIds
      ↔ id ∈ s.scheduledMessageIds ∨ id = messageId := by
  unfold scheduleMessageConfirmation
  split_ifs with hfound
  · refine ⟨.inl, fun h => h.elim (fun hold => hold) fun heq => heq ▸ hfound⟩
  · simp [scheduledMessageIds]

theorem assign_ids (transactionId : TransactionId) (messageIds : List Int) :
    (s.assignTransactionId transactionId messageIds).scheduledMessageIds
      = s.scheduledMessageIds := by
  unfold assignTransactionId scheduledMessageIds
  rw [List.map_map]
  refine List.map_congr_left fun c _ => ?_
  simp only [Function.comp, MTScheduledMessageConfirmation.addTransactionId]
  split_ifs <;> rfl

theorem remove_sublist (transactionIds : List TransactionId) :
    (s.removeScheduledMessageConfirmationsWithTransactionIds
        transactionIds).scheduledMessageIds.Sublist s.scheduledMessageIds :=
  List.filter_sublist.map _

/-- The transactions a scheduled id was sent in. -/
def SentIn (s : IncomingSession) (messageId : Int) (transactionId : TransactionId) : Prop :=
  ∃ c ∈ s.scheduledMessageConfirmations, c.messageId = messageId
    ∧ transactionId ∈ c.transactionIds

theorem sentIn_schedule {id : Int} {transactionId : TransactionId}
    (h : (s.scheduleMessageConfirmation messageId size).SentIn id transactionId) :
    s.SentIn id transactionId := by
  unfold scheduleMessageConfirmation at h
  split_ifs at h
  · exact h
  · obtain ⟨c, hc, hid, ht⟩ := h
    rcases List.mem_append.mp hc with hc | hc
    · exact ⟨c, hc, hid, ht⟩
    · rw [List.mem_singleton] at hc
      subst hc
      exact absurd ht List.not_mem_nil

theorem sentIn_assign {id : Int} {transactionId transactionId' : TransactionId}
    {messageIds : List Int} (h : (s.assignTransactionId transactionId' messageIds).SentIn id
      transactionId) :
    s.SentIn id transactionId ∨ transactionId = transactionId' ∧ id ∈ messageIds := by
  obtain ⟨c, hc, hid, ht⟩ := h
  obtain ⟨c₀, hc₀, rfl⟩ := List.mem_map.mp hc
  unfold MTScheduledMessageConfirmation.addTransactionId at hid ht
  split_ifs at hid ht with hlisted hold
  · exact .inl ⟨c₀, hc₀, hid, ht⟩
  · rcases List.mem_append.mp ht with ht | ht
    · exact .inl ⟨c₀, hc₀, hid, ht⟩
    · exact .inr ⟨List.mem_singleton.mp ht, hid ▸ hlisted⟩
  · exact .inl ⟨c₀, hc₀, hid, ht⟩

theorem sentIn_remove {id : Int} {transactionId : TransactionId}
    {transactionIds : List TransactionId}
    (h : (s.removeScheduledMessageConfirmationsWithTransactionIds transactionIds).SentIn id
      transactionId) : s.SentIn id transactionId := by
  obtain ⟨c, hc, hid, ht⟩ := h
  exact ⟨c, List.mem_of_mem_filter hc, hid, ht⟩

/-- What leaves the schedule was sent in one of the transactions. -/
theorem mem_remove {id : Int} (transactionIds : List TransactionId)
    (h : id ∈ s.scheduledMessageIds) :
    id ∈ (s.removeScheduledMessageConfirmationsWithTransactionIds
        transactionIds).scheduledMessageIds
      ∨ ∃ transactionId ∈ transactionIds, s.SentIn id transactionId := by
  obtain ⟨c, hc, rfl⟩ := List.mem_map.mp h
  cases hgone : transactionIds.any (· ∈ c.transactionIds)
  · exact .inl (List.mem_map_of_mem (List.mem_filter.mpr ⟨hc, by simp [hgone]⟩))
  · obtain ⟨transactionId, hmem, hsent⟩ := List.any_eq_true.mp hgone
    exact .inr ⟨transactionId, hmem, c, hc, rfl, of_decide_eq_true hsent⟩

end IncomingSession

/-! ## The payload of an acknowledgement -/

section Payloads

variable (clock : Nat → Int)

theorem dataForContainers_ids (keyed : Bool) :
    ∀ (s : SessionInfo) (containers : List (List PreparedMessage)),
      ∀ q ∈ (dataForContainers clock keyed s containers).1,
        q.2 = q.1.messages.map (·.messageInternalId)
  | _, [], q, hq => absurd hq List.not_mem_nil
  | s, messages :: rest, q, hq => by
    simp only [dataForContainers, List.mem_append] at hq
    rcases hq with hq | hq
    · rcases messages with _ | ⟨m, _ | ⟨m', more⟩⟩
      · simp [dataForContainer] at hq
      · cases keyed <;> simp [dataForContainer] at hq
        subst hq
        rfl
      · cases keyed <;> simp [dataForContainer, dataForEncryptedContainerWithMessages] at hq
        subst hq
        rfl
    · exact dataForContainers_ids keyed _ rest q hq

/-- A payload is reported with the internal ids of its messages, which are those prepared. -/
theorem payloads_messages (p : MTProto) (r : TransactionRequest) :
    ∀ q ∈ (p.payloads clock r).1, q.2 = q.1.messages.map (·.messageInternalId)
      ∧ ∀ m ∈ q.1.messages, m ∈ (p.prepareAll clock r).transactionMessageList := by
  intro q hq
  have horder := orderMessages_perm r.forceConfirmations
    (p.prepareAll clock r).transactionMessageList
  unfold MTProto.payloads at hq
  split_ifs at hq
  · obtain ⟨m, hm, rfl⟩ := List.mem_map.mp hq
    refine ⟨rfl, fun m' hm' => ?_⟩
    rw [List.mem_singleton.mp hm']
    exact horder.mem_iff.mp hm
  · refine ⟨dataForContainers_ids clock r.keyed _ _ q hq, fun m hm => ?_⟩
    have hflat : m ∈ (dataForContainers clock r.keyed (p.prepareAll clock r).session
        (p.containers clock r)).1.flatMap fun q => q.1.messages :=
      List.mem_flatMap.mpr ⟨q, hq, hm⟩
    rw [dataForContainers_messages] at hflat
    split_ifs at hflat
    · rw [MTProto.containers, packContainers_flatten] at hflat
      exact horder.mem_iff.mp hflat
    · exact absurd hflat List.not_mem_nil

theorem freshInternalId_not_mem (messages : List OutgoingMessage) :
    AckSession.freshInternalId messages ∉ messages.map (·.internalId) := by
  have hle : ∀ (ids : List Nat), ∀ id ∈ ids, id ≤ ids.foldr max 0 := by
    intro ids
    induction ids with
    | nil => simp
    | cons a ids ih =>
      intro id hid
      rcases List.mem_cons.mp hid with rfl | hid
      · exact le_max_left _ _
      · exact (ih id hid).trans (le_max_right _ _)
  intro hmem
  have hbound := hle _ _ hmem
  unfold AckSession.freshInternalId at hbound
  omega

/-- The payload the acknowledgement is in lists what it was made for. -/
theorem handedOver_acks (w : AckSession) (specific services : List (List OutgoingMessage))
    (r : TransactionRequest)
    (hok : (w.mtProto.prepareAll clock (w.withAck specific services r)).monotonityViolated = false)
    (hids : w.messageIdsToAcknowledge r.forceConfirmations services ≠ []) :
    ∀ q ∈ w.handedOver clock (w.withAck specific services r),
      AckSession.freshInternalId (specific ++ services).flatten ∈ q.2 →
      ∀ messageId ∈ w.messageIdsToAcknowledge r.forceConfirmations services,
        q.1.Acks messageId := by
  intro q hq hmem messageId hlisted
  have hpayload : q ∈ (w.mtProto.payloads clock (w.withAck specific services r)).1 := by
    unfold AckSession.handedOver at hq
    split_ifs at hq
    · exact absurd hq List.not_mem_nil
    · exact hq
  obtain ⟨hinternal, hprepared⟩ := payloads_messages clock _ _ q hpayload
  rw [hinternal] at hmem
  obtain ⟨m, hm, hmid⟩ := List.mem_map.mp hmem
  have hfresh := freshInternalId_not_mem (specific ++ services).flatten
  rw [List.flatten_append, List.map_append, List.mem_append, not_or] at hfresh
  have hr : (w.withAck specific services r).messageTransactions
      = specific ++ ([] ++ AckSession.ackMessage (AckSession.freshInternalId
          (specific ++ services).flatten) (w.messageIdsToAcknowledge r.forceConfirmations services)
        :: []) :: services := by
    simp [AckSession.withAck, hids]
  obtain ⟨m', -, -, hdata, hunique⟩ := prepared_unique clock hr hok
    (by simpa [AckSession.ackMessage] using hfresh.1)
    (by simpa [AckSession.ackMessage] using hfresh.2)
  have hsame : m = m' := hunique m (hprepared m hm) (by rw [hmid]; rfl)
  refine ⟨m, hm, _, ?_, hlisted⟩
  rw [hsame, hdata]
  rfl

end Payloads

/-! ## The session -/

/-- The messages that were looked at, and those the services received. -/
def processedMessages (log : List AckHappening) : List MTIncomingMessage :=
  log.filterMap fun
    | .processed m => some m
    | _ => none

def dispatchedIds (log : List AckHappening) : List Int :=
  log.filterMap fun
    | .dispatched messageId => some messageId
    | _ => none

@[simp] theorem processedMessages_append (l l' : List AckHappening) :
    processedMessages (l ++ l') = processedMessages l ++ processedMessages l' :=
  List.filterMap_append

@[simp] theorem dispatchedIds_append (l l' : List AckHappening) :
    dispatchedIds (l ++ l') = dispatchedIds l ++ dispatchedIds l' := List.filterMap_append

namespace AckSession

structure Inv (w : AckSession) : Prop where
  scheduled : w.incoming.scheduledMessageIds.Nodup
  processed : w.incoming.processedMessageIds.Nodup
  looked : (processedMessages w.log).map (·.messageId) = w.incoming.processedMessageIds
  dispatched : (dispatchedIds w.log).Sublist w.incoming.processedMessageIds
  sent : ∀ messageId transactionId, w.incoming.SentIn messageId transactionId →
    ∃ payload, .accepted payload transactionId ∈ w.log ∧ payload.Acks messageId
  pending : ∀ ack ∈ w.pending, ∀ q ∈ ack.payloads, ack.internalId ∈ q.2 →
    ∀ messageId ∈ ack.messageIds, q.1.Acks messageId
  kept : w.mtProto.useUnauthorizedMode = false → ∀ m ∈ processedMessages w.log, m.seqNo % 2 ≠ 0 →
    m.messageId ∈ w.incoming.scheduledMessageIds ∨ Acknowledged w.log m.messageId

variable {clock : Nat → Int} {w : AckSession}

theorem Inv.schedule (h : w.Inv) (messageId size : Int) :
    { w with incoming := w.incoming.scheduleMessageConfirmation messageId size }.Inv := by
  have hprocessed : (w.incoming.scheduleMessageConfirmation messageId size).processedMessageIds
      = w.incoming.processedMessageIds := by
    unfold IncomingSession.scheduleMessageConfirmation
    split_ifs <;> rfl
  refine ⟨IncomingSession.schedule_nodup h.scheduled, ?_, ?_, ?_, ?_, h.pending, ?_⟩
  · rw [hprocessed]
    exact h.processed
  · rw [hprocessed]
    exact h.looked
  · rw [hprocessed]
    exact h.dispatched
  · intro id transactionId hsent
    exact h.sent id transactionId (IncomingSession.sentIn_schedule hsent)
  · intro hmode m hm hodd
    exact (h.kept hmode m hm hodd).imp (fun hmem => (IncomingSession.mem_schedule _).mpr (.inl hmem))
      fun hacked => hacked

theorem Inv.end_session (h : w.Inv) : { w with ended := true }.Inv :=
  ⟨h.scheduled, h.processed, h.looked, h.dispatched, h.sent, h.pending, h.kept⟩

/-- A message is marked, and the services may receive it. -/
theorem Inv.mark (h : w.Inv) {m : MTIncomingMessage}
    (hnew : m.messageId ∉ w.incoming.processedMessageIds)
    (hodd : w.mtProto.useUnauthorizedMode = false → m.seqNo % 2 ≠ 0 →
      m.messageId ∈ w.incoming.scheduledMessageIds)
    {more : List AckHappening} (hmore : more = [] ∨ more = [.dispatched m.messageId]) :
    { w with
      incoming := w.incoming.setMessageProcessed m.messageId
      log := w.log ++ AckHappening.processed m :: more }.Inv := by
  have hprocessed : (w.incoming.setMessageProcessed m.messageId).processedMessageIds
      = w.incoming.processedMessageIds ++ [m.messageId] := by
    unfold IncomingSession.setMessageProcessed
    rw [if_neg hnew]
  have hsame : (w.incoming.setMessageProcessed m.messageId).scheduledMessageConfirmations
      = w.incoming.scheduledMessageConfirmations := by
    unfold IncomingSession.setMessageProcessed
    rw [if_neg hnew]
  have hids : (w.incoming.setMessageProcessed m.messageId).scheduledMessageIds
      = w.incoming.scheduledMessageIds := congrArg (List.map _) hsame
  have hlooked : processedMessages (AckHappening.processed m :: more) = [m] := by
    rcases hmore with rfl | rfl <;> rfl
  have hgiven : (dispatchedIds (AckHappening.processed m :: more)).Sublist [m.messageId] := by
    rcases hmore with rfl | rfl
    · exact List.nil_sublist _
    · exact List.Sublist.refl _
  refine ⟨?_, ?_, ?_, ?_, ?_, h.pending, ?_⟩
  · rw [hids]
    exact h.scheduled
  · rw [hprocessed]
    exact List.nodup_append'.mpr ⟨h.processed, List.nodup_singleton _, by simpa using hnew⟩
  · rw [hprocessed, processedMessages_append, hlooked, List.map_append, h.looked]
    rfl
  · rw [hprocessed, dispatchedIds_append]
    exact h.dispatched.append hgiven
  · intro id transactionId hsent
    unfold IncomingSession.SentIn at hsent
    rw [hsame] at hsent
    obtain ⟨payload, haccepted, hacks⟩ := h.sent id transactionId hsent
    exact ⟨payload, List.mem_append_left _ haccepted, hacks⟩
  · intro hmode m' hm' hodd'
    rw [processedMessages_append, hlooked, List.mem_append, List.mem_singleton] at hm'
    rw [hids]
    rcases hm' with hm' | rfl
    · exact (h.kept hmode m' hm' hodd').imp_right fun hacked => hacked.append _
    · exact .inl (hodd hmode hodd')

theorem schedule_mark (s : IncomingSession) (messageId size : Int) :
    (s.setMessageProcessed messageId).scheduleMessageConfirmation messageId size
      = (s.scheduleMessageConfirmation messageId size).setMessageProcessed messageId := by
  unfold IncomingSession.setMessageProcessed IncomingSession.scheduleMessageConfirmation
  by_cases hprocessed : messageId ∈ s.processedMessageIds
  · by_cases hfound : messageId ∈ s.scheduledMessageConfirmations.map (·.messageId)
    · simp only [if_pos hprocessed, if_pos hfound]
    · simp only [if_pos hprocessed, if_neg hfound]
  · by_cases hfound : messageId ∈ s.scheduledMessageConfirmations.map (·.messageId)
    · simp only [if_neg hprocessed, if_pos hfound]
    · simp only [if_neg hprocessed, if_neg hfound]

theorem Inv.processIncomingMessage (h : w.Inv) (m : MTIncomingMessage) :
    (w.processIncomingMessage m).Inv := by
  unfold AckSession.processIncomingMessage
  by_cases hended : w.ended = true
  · rw [if_pos hended]
    exact h
  by_cases hold : m.messageId ∈ w.incoming.processedMessageIds
  · rw [if_neg hended, if_pos hold]
    exact h.schedule m.messageId m.size
  · -- scheduled first, then marked: the same session
    obtain ⟨w', hw', hnew, hodd, hstate⟩ : ∃ w' : AckSession, w'.Inv
        ∧ m.messageId ∉ w'.incoming.processedMessageIds
        ∧ (w'.mtProto.useUnauthorizedMode = false → m.seqNo % 2 ≠ 0 →
          m.messageId ∈ w'.incoming.scheduledMessageIds)
        ∧ { w with
            incoming := if !w.mtProto.useUnauthorizedMode && m.seqNo % 2 != 0 then
                (w.incoming.setMessageProcessed m.messageId).scheduleMessageConfirmation
                  m.messageId m.size
              else w.incoming.setMessageProcessed m.messageId
            log := w.log ++ [AckHappening.processed m] }
          = { w' with
              incoming := w'.incoming.setMessageProcessed m.messageId
              log := w'.log ++ [AckHappening.processed m] } := by
      by_cases hasks : (!w.mtProto.useUnauthorizedMode && m.seqNo % 2 != 0) = true
      · refine ⟨_, h.schedule m.messageId m.size, ?_,
          fun _ _ => (IncomingSession.mem_schedule _).mpr (.inr rfl), ?_⟩
        · unfold IncomingSession.scheduleMessageConfirmation
          split_ifs <;> exact hold
        · rw [if_pos hasks, schedule_mark]
      · refine ⟨w, h, hold, fun hmode hodd => ?_, by rw [if_neg hasks]⟩
        exact absurd (by simpa [hmode] using hodd) hasks
    rw [if_neg hended, if_neg hold]
    dsimp only
    rw [hstate]
    have hplain := hw'.mark hnew hodd (.inl rfl)
    have hreceived := hw'.mark hnew hodd (.inr rfl)
    have hreceived' : { w' with
        incoming := w'.incoming.setMessageProcessed m.messageId
        log := w'.log ++ [AckHappening.processed m]
          ++ [AckHappening.dispatched m.messageId] }.Inv := by
      rw [List.append_assoc]
      exact hreceived
    unfold dispatch
    dsimp only
    split
    · split_ifs
      · exact hreceived'
      · exact hplain.end_session
      · exact hplain
    · exact hplain
    · split_ifs
      · exact hplain
      · exact hplain.schedule _ _
    · exact hplain
    · exact hreceived'

/-- A transaction succeeds: what leaves the schedule was listed in a payload it took. -/
theorem Inv.transactionsSucceeded (h : w.Inv) (transactionIds : List TransactionId) :
    (w.transactionsSucceeded transactionIds).Inv := by
  have hlooked : processedMessages (w.log ++ [.succeeded transactionIds])
      = processedMessages w.log := by
    rw [processedMessages_append]
    exact List.append_nil _
  have hgiven : dispatchedIds (w.log ++ [.succeeded transactionIds]) = dispatchedIds w.log := by
    rw [dispatchedIds_append]
    exact List.append_nil _
  refine ⟨h.scheduled.sublist (IncomingSession.remove_sublist _), h.processed,
    hlooked ▸ h.looked, hgiven ▸ h.dispatched, ?_, h.pending, ?_⟩
  · intro id transactionId hsent
    obtain ⟨payload, haccepted, hacks⟩ :=
      h.sent id transactionId (IncomingSession.sentIn_remove hsent)
    exact ⟨payload, List.mem_append_left _ haccepted, hacks⟩
  · intro hmode m hm hodd
    change m ∈ processedMessages (w.log ++ [.succeeded transactionIds]) at hm
    rw [hlooked] at hm
    rcases h.kept hmode m hm hodd with hscheduled | hacked
    · rcases IncomingSession.mem_remove transactionIds hscheduled with hstays |
        ⟨transactionId, hid, hsent⟩
      · exact .inl hstays
      · obtain ⟨payload, haccepted, hacks⟩ := h.sent _ _ hsent
        exact .inr ⟨w.log, [], payload, transactionId, transactionIds, rfl, hid, haccepted, hacks⟩
    · exact .inr (hacked.append _)

theorem Inv.hasIncomingData (h : w.Inv) (transactionId : TransactionId)
    (parsedMessages : List MTIncomingMessage) :
    (w.hasIncomingData transactionId parsedMessages).Inv := by
  have hfold : ∀ (messages : List MTIncomingMessage) {w : AckSession}, w.Inv →
      (messages.foldl AckSession.processIncomingMessage w).Inv := by
    intro messages
    induction messages with
    | nil => exact fun h => h
    | cons m messages ih => exact fun h => ih (h.processIncomingMessage m)
  exact hfold parsedMessages (h.transactionsSucceeded [transactionId])

/-- The transport took a payload, or did not: the ids it listed get its transaction. -/
theorem Inv.completion (h : w.Inv) (transaction payload : Nat)
    (transactionId : Option TransactionId) :
    (w.completion transaction payload transactionId).Inv := by
  unfold AckSession.completion
  split
  · exact h
  · rename_i ack hack
    split
    · exact h
    · rename_i sent messageInternalIds hpayload
      have hmem : ack ∈ w.pending := List.mem_of_getElem? hack
      have hpending : ∀ ack' ∈ w.pending.set transaction
          { ack with payloads := ack.payloads.eraseIdx payload }, ∀ q ∈ ack'.payloads,
          ack'.internalId ∈ q.2 → ∀ messageId ∈ ack'.messageIds, q.1.Acks messageId := by
        intro ack' hack' q hq
        rcases List.mem_or_eq_of_mem_set hack' with hold | rfl
        · exact h.pending ack' hold q hq
        · exact h.pending ack hmem q (List.mem_of_mem_eraseIdx hq)
      cases transactionId with
      | none => exact ⟨h.scheduled, h.processed, h.looked, h.dispatched, h.sent, hpending, h.kept⟩
      | some transactionId =>
        dsimp only
        split_ifs with hcarries
        · have hlooked : processedMessages (w.log ++ [.accepted sent transactionId])
              = processedMessages w.log := by
            rw [processedMessages_append]
            exact List.append_nil _
          have hgiven : dispatchedIds (w.log ++ [.accepted sent transactionId])
              = dispatchedIds w.log := by
            rw [dispatchedIds_append]
            exact List.append_nil _
          have hids := IncomingSession.assign_ids (s := w.incoming) transactionId ack.messageIds
          refine ⟨hids ▸ h.scheduled, h.processed, hlooked ▸ h.looked, hgiven ▸ h.dispatched, ?_,
            hpending, ?_⟩
          · intro id transactionId' hsent
            rcases IncomingSession.sentIn_assign hsent with hold | ⟨rfl, hlisted⟩
            · obtain ⟨payload', haccepted, hacks⟩ := h.sent id transactionId' hold
              exact ⟨payload', List.mem_append_left _ haccepted, hacks⟩
            · exact ⟨sent, by simp, h.pending ack hmem _ (List.mem_of_getElem? hpayload) hcarries id
                hlisted⟩
          · intro hmode m hm hodd
            change m ∈ processedMessages (w.log ++ [.accepted sent transactionId]) at hm
            rw [hlooked] at hm
            exact (h.kept hmode m hm hodd).imp (fun hmem => hids.symm ▸ hmem)
              fun hacked => hacked.append _
        · exact ⟨h.scheduled, h.processed, h.looked, h.dispatched, h.sent, hpending, h.kept⟩

theorem transaction_mode (p : MTProto) (r : TransactionRequest) :
    (p.transaction clock r).useUnauthorizedMode = p.useUnauthorizedMode := by
  unfold MTProto.transaction
  dsimp only
  split_ifs <;> rfl

/-- A transaction is asked for: what its acknowledgement lists is in each payload it is in. -/
theorem Inv.transportReady (h : w.Inv) (specific services : List (List OutgoingMessage))
    (r : TransactionRequest) : (w.transportReady clock specific services r).Inv := by
  have hkept : (w.mtProto.transaction clock (w.withAck specific services r)).useUnauthorizedMode
      = false → w.mtProto.useUnauthorizedMode = false := fun hmode => by
    rwa [transaction_mode] at hmode
  unfold AckSession.transportReady
  dsimp only
  split_ifs with hviolated hids
  · exact ⟨h.scheduled, h.processed, h.looked, h.dispatched, h.sent, h.pending,
      fun hmode => h.kept (hkept hmode)⟩
  · exact ⟨h.scheduled, h.processed, h.looked, h.dispatched, h.sent, h.pending,
      fun hmode => h.kept (hkept hmode)⟩
  · refine ⟨h.scheduled, h.processed, h.looked, h.dispatched, h.sent, ?_,
      fun hmode => h.kept (hkept hmode)⟩
    intro ack hack q hq hcarries
    rcases List.mem_append.mp hack with hack | hack
    · exact h.pending ack hack q hq hcarries
    · rw [List.mem_singleton] at hack
      subst hack
      exact handedOver_acks clock w specific services r (by simpa using hviolated) hids q hq hcarries

theorem Inv.step (h : w.Inv) (e : Event) : (w.step clock e).Inv := by
  unfold AckSession.step
  split
  · exact h
  · cases e with
    | transportReady specific services r => exact h.transportReady specific services r
    | completion transaction payload transactionId =>
      exact h.completion transaction payload transactionId
    | hasIncomingData transactionId parsedMessages =>
      exact h.hasIncomingData transactionId parsedMessages
    | sessionReset => exact h.end_session

/-- The first state of a session. -/
def start (mtProto : MTProto) : AckSession := { mtProto }

theorem start_inv (mtProto : MTProto) : (start mtProto).Inv where
  scheduled := List.nodup_nil
  processed := List.nodup_nil
  looked := rfl
  dispatched := List.nil_sublist _
  sent := fun _ _ ⟨_, hc, _⟩ => absurd hc List.not_mem_nil
  pending := fun _ hack => absurd hack List.not_mem_nil
  kept := fun _ _ hm => absurd hm List.not_mem_nil

theorem run_inv (clock : Nat → Int) (mtProto : MTProto) (es : List Event) :
    (Run.run (step clock) (start mtProto) es).Inv :=
  Run.invariant (fun _ e h _ => h.step e) es (start_inv mtProto)
    (Run.allSteps_of_forall (P := fun _ => True) (step clock) es _ fun _ _ => trivial)

theorem processIncomingMessage_mtProto (w : AckSession) (m : MTIncomingMessage) :
    (w.processIncomingMessage m).mtProto = w.mtProto := by
  unfold AckSession.processIncomingMessage
  by_cases hended : w.ended = true
  · rw [if_pos hended]
  by_cases hold : m.messageId ∈ w.incoming.processedMessageIds
  · rw [if_neg hended, if_pos hold]
  rw [if_neg hended, if_neg hold]
  unfold dispatch
  dsimp only
  split
  · rw [apply_ite AckSession.mtProto, apply_ite AckSession.mtProto, ite_self, ite_self]
  · rfl
  · rw [apply_ite AckSession.mtProto, ite_self]
  · rfl
  · rfl

theorem hasIncomingData_mtProto (w : AckSession) (transactionId : TransactionId)
    (parsedMessages : List MTIncomingMessage) :
    (w.hasIncomingData transactionId parsedMessages).mtProto = w.mtProto := by
  have hfold : ∀ (messages : List MTIncomingMessage) (w : AckSession),
      (messages.foldl AckSession.processIncomingMessage w).mtProto = w.mtProto := by
    intro messages
    induction messages with
    | nil => exact fun _ => rfl
    | cons m messages ih => exact fun w => (ih _).trans (processIncomingMessage_mtProto w m)
  exact hfold parsedMessages (w.transactionsSucceeded [transactionId])

theorem completion_mtProto (w : AckSession) (transaction payload : Nat)
    (transactionId : Option TransactionId) :
    (w.completion transaction payload transactionId).mtProto = w.mtProto := by
  unfold AckSession.completion
  split
  · rfl
  · split
    · rfl
    · cases transactionId with
      | none => rfl
      | some transactionId => exact (apply_ite AckSession.mtProto _ _ _).trans (ite_self _)

theorem step_mode (clock : Nat → Int) (w : AckSession) (e : Event) :
    (w.step clock e).mtProto.useUnauthorizedMode = w.mtProto.useUnauthorizedMode := by
  by_cases hended : w.ended = true
  · unfold AckSession.step
    rw [if_pos hended]
  · unfold AckSession.step
    rw [if_neg hended]
    cases e with
    | transportReady specific services r =>
      dsimp only
      unfold AckSession.transportReady
      dsimp only
      split_ifs <;> exact transaction_mode _ _
    | completion transaction payload transactionId =>
      exact congrArg MTProto.useUnauthorizedMode (completion_mtProto w transaction payload _)
    | hasIncomingData transactionId parsedMessages =>
      exact congrArg MTProto.useUnauthorizedMode (hasIncomingData_mtProto w _ _)
    | sessionReset => rfl

theorem run_mode (clock : Nat → Int) : ∀ (es : List Event) (w : AckSession),
    (Run.run (step clock) w es).mtProto.useUnauthorizedMode = w.mtProto.useUnauthorizedMode
  | [], _ => rfl
  | e :: es, w => (run_mode clock es _).trans (step_mode clock w e)

/-- In a session with a key every odd message that was processed is scheduled or acknowledged; in
every session an id is scheduled once and dispatched once. -/
theorem acknowledged (clock : Nat → Int) (mtProto : MTProto) (es : List Event) :
    (mtProto.useUnauthorizedMode = false →
      ∀ m ∈ processedMessages (Run.run (step clock) (start mtProto) es).log, m.seqNo % 2 ≠ 0 →
        m.messageId ∈ (Run.run (step clock) (start mtProto) es).incoming.scheduledMessageIds
          ∨ Acknowledged (Run.run (step clock) (start mtProto) es).log m.messageId)
      ∧ (Run.run (step clock) (start mtProto) es).incoming.scheduledMessageIds.Nodup
      ∧ (dispatchedIds (Run.run (step clock) (start mtProto) es).log).Nodup := by
  have h := run_inv clock mtProto es
  have hmode := run_mode clock es (start mtProto)
  exact ⟨fun hkeyed => h.kept (hmode.trans hkeyed), h.scheduled, h.processed.sublist h.dispatched⟩

theorem acknowledged_one :
    (5 : Int) ∈ (Run.run (step fun _ => 0) (start { sessionInfo := { sessionId := 7 } })
          [.hasIncomingData ⟨0, 0⟩ [{ messageId := 5, seqNo := 1, size := 4, body := .other }]]
        ).incoming.scheduledMessageIds
      ∨ Acknowledged (Run.run (step fun _ => 0) (start { sessionInfo := { sessionId := 7 } })
          [.hasIncomingData ⟨0, 0⟩ [{ messageId := 5, seqNo := 1, size := 4, body := .other }]]
        ).log 5 :=
  (acknowledged (fun _ => 0) { sessionInfo := { sessionId := 7 } }
    [.hasIncomingData ⟨0, 0⟩ [{ messageId := 5, seqNo := 1, size := 4, body := .other }]]).1 rfl
    { messageId := 5, seqNo := 1, size := 4, body := .other } (List.mem_singleton.mpr rfl)
    (by decide)

/-- Without a key the message is processed and nothing is ever confirmed. -/
theorem unauthorized_not_acknowledged :
    ∃ (clock : Nat → Int) (mtProto : MTProto) (es : List Event),
      ∃ m ∈ processedMessages (Run.run (step clock) (start mtProto) es).log, m.seqNo % 2 ≠ 0
        ∧ m.messageId ∉ (Run.run (step clock) (start mtProto) es).incoming.scheduledMessageIds
        ∧ ¬Acknowledged (Run.run (step clock) (start mtProto) es).log m.messageId := by
  refine ⟨fun _ => 0, { sessionInfo := { sessionId := 7 }, useUnauthorizedMode := true },
    [.hasIncomingData ⟨0, 0⟩ [{ messageId := 5, seqNo := 1, size := 4, body := .other }]],
    { messageId := 5, seqNo := 1, size := 4, body := .other }, List.mem_singleton.mpr rfl,
    by decide, List.not_mem_nil, ?_⟩
  rintro ⟨before, after, payload, transactionId, transactionIds, hlog, -, haccepted, -⟩
  have hmem := hlog.symm ▸ List.mem_append_left
    (AckHappening.succeeded transactionIds :: after) haccepted
  revert hmem
  change AckHappening.accepted payload transactionId ∈ [AckHappening.succeeded [⟨0, 0⟩],
    AckHappening.processed { messageId := 5, seqNo := 1, size := 4, body := .other },
    AckHappening.dispatched 5] → False
  simp

end AckSession

end Onegram.Mtp
