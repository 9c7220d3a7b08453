import Onegram.UpdateGates

/-!
# An update of a container goes into one queue, unless it has a pts

The loop over a container takes an update with a pts for the queue by pts, and since it has no qts,
also as one of the others. These are handed over by the sequence number of the container or by its
date, without a look at their pts, and set the stored pts to it. A container is sorted as its
updates are when they come alone exactly when no update in it has a pts.
-/

namespace Onegram.UpdateQueues

variable {μ : Type*}

/-! ## What a queue is handed -/

/-- The queues; the rest of a container goes by its sequence number or by its date. -/
inductive Queue
  | pts
  | qts
  | seqOrDate
deriving DecidableEq

namespace ActorRequest

def queue : ActorRequest μ → Option Queue
  | .updatestate => none
  | .tryupdatesWithPts _ => some .pts
  | .tryupdatesWithQts _ => some .qts
  | .tryupdatesWithSeq _ => some .seqOrDate
  | .tryupdatesWithDate _ => some .seqOrDate

def updates : ActorRequest μ → List (TLUpdate μ)
  | .updatestate => []
  | .tryupdatesWithPts groups => groups.flatMap (·.updates)
  | .tryupdatesWithQts groups => groups.flatMap (·.updates)
  | .tryupdatesWithSeq groups => groups.flatMap (·.updates)
  | .tryupdatesWithDate groups => groups.flatMap (·.updates)

/-- What is handed over of a request alone without a look at the pts, at a stored state. -/
def unchecked (database : TGDatabaseState) : ActorRequest μ → Option (TryApplying μ)
  | .tryupdatesWithSeq groups =>
    let checked := checkSeqUpdates database groups
    if checked.inOrder.isEmpty then none else some checked.handed
  | .tryupdatesWithDate groups => executeWithDate groups
  | _ => none

/-- The state once it is applied. -/
def afterUnchecked (database : TGDatabaseState) (handed : TryApplying μ) :
    ActorRequest μ → TGDatabaseState
  | .tryupdatesWithDate _ => handed.appliedByDate database database
  | _ => handed.applied database

end ActorRequest

def queued (queue : Queue) (requests : List (ActorRequest μ)) : List (TLUpdate μ) :=
  (requests.filter (·.queue = some queue)).flatMap (·.updates)

def UpdatesContainer.containedUpdates (container : UpdatesContainer μ) : List (TLUpdate μ) :=
  container.fields.containedUpdates

/-- The requests for a container put each of its updates into one queue, the one that it is put into
when it comes alone; what is applied without a look at the pts has none, and leaves the stored pts.
-/
structure SortedAsAlone (clientUserId : BitVec 32) (container : UpdatesContainer μ)
    (requests : List (ActorRequest μ)) : Prop where
  once : (queued .pts requests ++ queued .qts requests ++ queued .seqOrDate requests).Perm
    container.containedUpdates
  oneQueue : ∀ update ∈ container.containedUpdates, ∃! queue, update ∈ queued queue requests
  asAlone : ∀ update ∈ container.containedUpdates, ∀ date, ∃ alone,
    processMessages clientUserId [.updateShort (some update) date] = some alone ∧
      ∀ queue, update ∈ queued queue requests ↔ update ∈ queued queue alone
  checked : ∀ request ∈ requests, ∀ database handed, request.unchecked database = some handed →
    (∀ wrapped ∈ handed.updates, wrapped.update.hasPts = false) ∧
      (request.afterUnchecked database handed).pts = database.pts

/-- Both routines make these requests for a container. -/
def RoutedAsAlone (clientUserId : BitVec 32) (container : UpdatesContainer μ) : Prop :=
  ∃ requests, processMessages clientUserId [.container container] = some requests ∧
    addUpdates (.container container) = requests ∧ SortedAsAlone clientUserId container requests

/-! ## The loop over a container -/

theorem respondsToQts_of_hasPts {update : TLUpdate μ} (hpts : update.hasPts = true) :
    update.respondsToQts = false := by
  cases update <;> simp_all [TLUpdate.hasPts, TLUpdate.respondsToQts, TLUpdate.ptsAndCount,
    TLUpdate.qts]

theorem foldl_add : ∀ (updates : List (TLUpdate μ)) (contained : ContainedUpdates μ),
    updates.foldl ContainedUpdates.add contained =
      ⟨contained.updatesWithPts ++ updates.filter (·.hasPts),
        contained.updatesWithQts ++ updates.filter (·.respondsToQts),
        contained.otherUpdates ++ updates.filter (!·.respondsToQts)⟩
  | [], contained => by simp
  | update :: updates, contained => by
    rw [List.foldl_cons, foldl_add updates]
    unfold ContainedUpdates.add
    cases hpts : update.hasPts <;> cases hqts : update.respondsToQts <;> simp [hpts, hqts]

/-! ## The requests -/

theorem queued_append (queue : Queue) (requests requests' : List (ActorRequest μ)) :
    queued queue (requests ++ requests') = queued queue requests ++ queued queue requests' := by
  rw [queued, List.filter_append, List.flatMap_append]
  rfl

namespace CollectedUpdates

/-- What of the collected groups a queue is handed. -/
def queued (queue : Queue) (collected : CollectedUpdates μ) : List (TLUpdate μ) :=
  match queue with
  | .pts => collected.collectedUpdatesWithPts.flatMap (·.updates)
  | .qts => collected.collectedUpdatesWithQts.flatMap (·.updates)
  | .seqOrDate => collected.collectedUpdatesWithSeq.flatMap (·.updates) ++
      collected.collectedUpdatesWithDate.flatMap (·.updates)

end CollectedUpdates

theorem queued_finish (queue : Queue) (collected : CollectedUpdates μ) :
    queued queue collected.finish = queued queue collected.requests ++ collected.queued queue := by
  obtain ⟨requests, withPts, withQts, withSeq, withDate⟩ := collected
  simp only [CollectedUpdates.finish, queued_append, List.append_assoc]
  congr 1
  cases withPts <;> cases withQts <;> cases withSeq <;> cases withDate <;> cases queue <;>
    simp [queued, CollectedUpdates.queued, ActorRequest.queue, ActorRequest.updates]

/-- The queue of an update that comes alone. -/
def TLUpdate.queueAlone (update : TLUpdate μ) : Queue :=
  if update.hasPts then .pts else if update.respondsToQts then .qts else .seqOrDate

theorem requests_addShort (collected : CollectedUpdates μ) (update : TLUpdate μ) (date : ℤ) :
    (collected.addShort update date).requests = collected.requests := by
  unfold CollectedUpdates.addShort
  split_ifs <;> rfl

theorem requests_addContained (collected : CollectedUpdates μ) (fields : ContainerFields μ) :
    (collected.addContained fields).requests = collected.requests := by
  unfold CollectedUpdates.addContained
  dsimp only
  split_ifs <;> rfl

/-- What a queue is handed of a container. -/
def Queue.takes : Queue → TLUpdate μ → Bool
  | .pts, update => update.hasPts
  | .qts, update => update.respondsToQts
  | .seqOrDate, update => !update.respondsToQts

theorem queued_addContained (queue : Queue) (collected : CollectedUpdates μ)
    (fields : ContainerFields μ) :
    ((collected.addContained fields).queued queue).Perm
      (collected.queued queue ++ fields.containedUpdates.filter queue.takes) := by
  have hsorted := foldl_add fields.containedUpdates ⟨[], [], []⟩
  simp only [List.nil_append] at hsorted
  have htaken : fields.containedUpdates.filter queue.takes =
      queue.casesOn (fields.containedUpdates.filter (·.hasPts))
        (fields.containedUpdates.filter (·.respondsToQts))
        (fields.containedUpdates.filter (!·.respondsToQts)) := by
    cases queue <;> rfl
  unfold CollectedUpdates.addContained
  rw [htaken, hsorted]
  -- only whether there are any updates of a kind decides on a group
  generalize fields.containedUpdates.filter (·.hasPts) = withPts
  generalize fields.containedUpdates.filter (·.respondsToQts) = withQts
  generalize fields.containedUpdates.filter (!·.respondsToQts) = others
  by_cases hseq : fields.updatesSeqEnd = 0 <;> cases withPts <;> cases withQts <;> cases queue <;>
    simp only [CollectedUpdates.queued, hseq, List.length_nil, List.length_cons, ne_eq,
      not_true_eq_false, not_false_eq_true, Nat.add_eq_zero_iff, one_ne_zero, and_false, if_true,
      if_false, List.flatMap_append, List.flatMap_singleton, List.append_nil, List.append_assoc,
      List.Perm.refl]
  all_goals exact List.Perm.append_left _ List.perm_append_comm

theorem queued_empty (queue : Queue) :
    (CollectedUpdates.empty : CollectedUpdates μ).queued queue = [] := by
  cases queue <;> rfl

theorem queued_addShort (queue : Queue) (collected : CollectedUpdates μ) (update : TLUpdate μ)
    (date : ℤ) :
    ((collected.addShort update date).queued queue).Perm
      (collected.queued queue ++ if queue = update.queueAlone then [update] else []) := by
  unfold CollectedUpdates.addShort TLUpdate.queueAlone
  split_ifs <;> cases queue <;> simp_all [CollectedUpdates.queued, List.append_assoc]

/-! ## Messages that come together -/

theorem queued_singleton_updatestate (queue : Queue) :
    queued queue [(.updatestate : ActorRequest μ)] = [] := by
  simp [queued, ActorRequest.queue]

theorem queued_addSynthesized (queue : Queue) (collected : CollectedUpdates μ)
    (message : ModernMessage μ) (pts pts_count : ℤ) :
    ((collected.addSynthesized message pts pts_count).queued queue).Perm
      (collected.queued queue ++
        if queue = .pts then [.updateNewMessage (.modernMessage message) pts pts_count]
        else []) := by
  cases queue <;> simp [CollectedUpdates.addSynthesized, CollectedUpdates.queued]

/-- What adds the same to all that is collected adds what it makes of nothing. -/
theorem queued_of_adds {add : CollectedUpdates μ → CollectedUpdates μ} {queue : Queue}
    {added : List (TLUpdate μ)}
    (hadds : ∀ collected, ((add collected).queued queue).Perm (collected.queued queue ++ added))
    (collected : CollectedUpdates μ) :
    ((add collected).queued queue).Perm
      (collected.queued queue ++ (add CollectedUpdates.empty).queued queue) := by
  have halone := hadds CollectedUpdates.empty
  rw [queued_empty, List.nil_append] at halone
  exact (hadds collected).trans (halone.symm.append_left _)

/-- A message adds what is collected of it alone. -/
theorem addMessage_queued {clientUserId : BitVec 32} {collected collected' : CollectedUpdates μ}
    {message : TLUpdates μ} (hadd : collected.addMessage clientUserId message = some collected') :
    ∃ alone, CollectedUpdates.empty.addMessage clientUserId message = some alone ∧
      ∀ queue, (collected'.queued queue).Perm (collected.queued queue ++ alone.queued queue) ∧
        queued queue collected'.requests = queued queue collected.requests ∧
        queued queue alone.requests = [] := by
  cases message with
  | container container =>
    obtain rfl := Option.some.inj hadd
    refine ⟨_, rfl, fun queue => ⟨?_, ?_, ?_⟩⟩
    · exact queued_of_adds (fun collected => queued_addContained queue collected _) collected
    · rw [requests_addContained]
    · rw [requests_addContained]
      rfl
  | updateShort update date =>
    cases update with
    | none =>
      obtain rfl := Option.some.inj hadd
      refine ⟨_, rfl, fun queue => ⟨?_, rfl, rfl⟩⟩
      rw [queued_empty, List.append_nil]
    | some update =>
      obtain rfl := Option.some.inj hadd
      refine ⟨_, rfl, fun queue => ⟨?_, ?_, ?_⟩⟩
      · exact queued_of_adds (fun collected => queued_addShort queue collected update date)
          collected
      · rw [requests_addShort]
      · rw [requests_addShort]
        rfl
  | modernUpdateShortChatMessage message =>
    obtain rfl := Option.some.inj hadd
    exact ⟨_, rfl, fun queue => ⟨queued_of_adds
      (fun collected => queued_addSynthesized queue collected _ _ _) collected, rfl, rfl⟩⟩
  | modernUpdateShortMessage message =>
    obtain rfl := Option.some.inj hadd
    exact ⟨_, rfl, fun queue => ⟨queued_of_adds
      (fun collected => queued_addSynthesized queue collected _ _ _) collected, rfl, rfl⟩⟩
  | updatesTooLong =>
    obtain rfl := Option.some.inj hadd
    refine ⟨_, rfl, fun queue => ?_⟩
    split_ifs
    · refine ⟨?_, ?_, queued_singleton_updatestate queue⟩
      · exact ((queued_empty queue).symm ▸ (List.append_nil _).symm ▸ List.Perm.refl _)
      · rw [queued_append, queued_singleton_updatestate, List.append_nil]
    · exact ⟨by rw [queued_empty, List.append_nil], rfl, rfl⟩
  | other => exact absurd hadd (by simp [CollectedUpdates.addMessage])

/-- What a queue is handed of one message. -/
def queuedOf (clientUserId : BitVec 32) (queue : Queue) (message : TLUpdates μ) :
    List (TLUpdate μ) :=
  ((processMessages clientUserId [message]).map (queued queue)).getD []

theorem queuedOf_eq {clientUserId : BitVec 32} {queue : Queue} {message : TLUpdates μ}
    {alone : CollectedUpdates μ}
    (halone : CollectedUpdates.empty.addMessage clientUserId message = some alone) :
    queuedOf clientUserId queue message = queued queue alone.requests ++ alone.queued queue := by
  rw [queuedOf, processMessages, List.foldlM_cons, halone]
  exact queued_finish queue alone

theorem foldlM_queued {clientUserId : BitVec 32} : ∀ (messages : List (TLUpdates μ))
    {collected collected' : CollectedUpdates μ},
    messages.foldlM (CollectedUpdates.addMessage clientUserId) collected = some collected' →
    ∀ queue, (collected'.queued queue).Perm
        (collected.queued queue ++ messages.flatMap (queuedOf clientUserId queue)) ∧
      queued queue collected'.requests = queued queue collected.requests
  | [], collected, collected', hfold, queue => by
    obtain rfl := Option.some.inj hfold
    rw [List.flatMap_nil, List.append_nil]
    exact ⟨List.Perm.refl _, rfl⟩
  | message :: messages, collected, collected', hfold, queue => by
    rw [List.foldlM_cons] at hfold
    obtain ⟨next, hnext, hrest⟩ := Option.bind_eq_some_iff.mp hfold
    obtain ⟨alone, halone, hadded⟩ := addMessage_queued hnext
    obtain ⟨hperm, hrequests, hplain⟩ := hadded queue
    obtain ⟨ihperm, ihrequests⟩ := foldlM_queued messages hrest queue
    refine ⟨?_, ihrequests.trans hrequests⟩
    rw [List.flatMap_cons, queuedOf_eq halone, hplain, List.nil_append, ← List.append_assoc]
    exact ihperm.trans (hperm.append_right _)

/-- Of messages that come together each queue is handed what it is handed of each of them. -/
theorem processMessages_queued {clientUserId : BitVec 32} {messages : List (TLUpdates μ)}
    {requests : List (ActorRequest μ)}
    (hprocess : processMessages clientUserId messages = some requests) (queue : Queue) :
    (queued queue requests).Perm (messages.flatMap (queuedOf clientUserId queue)) := by
  obtain ⟨collected, hfold, rfl⟩ := Option.map_eq_some_iff.mp hprocess
  obtain ⟨hperm, hrequests⟩ := foldlM_queued messages hfold queue
  rw [queued_empty, List.nil_append] at hperm
  rw [queued_finish, hrequests]
  exact hperm

/-! ## What is applied without a look at the pts -/

theorem scanPts_chain (databasePts : ℤ) (groups : List (TGUpdatesWithPts μ)) :
    Gate.Chain (·.update.pts) (fun currentPts found => followsPts currentPts found.update)
      databasePts (scanPts databasePts groups).inOrder :=
  Gate.scan_chain _ _

theorem scanQts_chain (databaseQts : ℤ) (groups : List (TGUpdatesWithQts μ)) :
    Gate.Chain (·.update.qtsValue) (fun currentQts found => followsQts currentQts found.update)
      databaseQts (scanQts databaseQts groups).inOrder :=
  Gate.scan_chain _ _

theorem scanSeq_sublist : ∀ (groups : List (TGUpdatesWithSeq μ × ℕ)) (currentSeq : ℤ),
    (scanSeq currentSeq groups).Sublist groups
  | [], _ => List.Sublist.slnil
  | group :: groups, currentSeq => by
    unfold scanSeq
    split_ifs
    · exact (scanSeq_sublist groups _).cons_cons group
    · exact (scanSeq_sublist groups _).cons group

theorem mem_checkSeqUpdates {database : TGDatabaseState} {groups : List (TGUpdatesWithSeq μ)}
    {group : TGUpdatesWithSeq μ} (hgroup : group ∈ (checkSeqUpdates database groups).inOrder) :
    group ∈ groups := by
  obtain ⟨found, hfound, rfl⟩ := List.mem_map.mp hgroup
  have hsorted := (scanSeq_sublist _ _).subset hfound
  exact (List.mem_zipIdx' ((List.mem_insertionSort _).mp hsorted)).2 ▸ List.getElem_mem _

theorem mem_handed_checkSeqUpdates {database : TGDatabaseState}
    {groups : List (TGUpdatesWithSeq μ)} {wrapped : TGWrappedUpdate μ}
    (hwrapped : wrapped ∈ (checkSeqUpdates database groups).handed.updates) :
    wrapped.update ∈ groups.flatMap (·.updates) := by
  obtain ⟨group, hgroup, hmem⟩ := List.mem_flatMap.mp hwrapped
  obtain ⟨update, hupdate, rfl⟩ := List.mem_map.mp hmem
  exact List.mem_flatMap.mpr ⟨group, mem_checkSeqUpdates hgroup, hupdate⟩

theorem mem_executeWithDate {groups : List (TGUpdatesWithDate μ)} {handed : TryApplying μ}
    {wrapped : TGWrappedUpdate μ} (hhanded : executeWithDate groups = some handed)
    (hwrapped : wrapped ∈ handed.updates) : wrapped.update ∈ groups.flatMap (·.updates) := by
  unfold executeWithDate at hhanded
  dsimp only at hhanded
  split_ifs at hhanded
  obtain rfl := Option.some.inj hhanded
  obtain ⟨group, hgroup, hmem⟩ := List.mem_flatMap.mp hwrapped
  obtain ⟨update, hupdate, rfl⟩ := List.mem_map.mp hmem
  exact List.mem_flatMap.mpr ⟨group, (List.mem_insertionSort _).mp hgroup, hupdate⟩

theorem mem_unchecked {database : TGDatabaseState} {request : ActorRequest μ}
    {handed : TryApplying μ} {wrapped : TGWrappedUpdate μ}
    (hhanded : request.unchecked database = some handed) (hwrapped : wrapped ∈ handed.updates) :
    request.queue = some .seqOrDate ∧ wrapped.update ∈ request.updates := by
  cases request with
  | tryupdatesWithSeq groups =>
    unfold ActorRequest.unchecked at hhanded
    dsimp only at hhanded
    split_ifs at hhanded
    obtain rfl := Option.some.inj hhanded
    exact ⟨rfl, mem_handed_checkSeqUpdates hwrapped⟩
  | tryupdatesWithDate groups => exact ⟨rfl, mem_executeWithDate hhanded hwrapped⟩
  | _ => exact absurd hhanded (by simp [ActorRequest.unchecked])

theorem statePts_eq_zero {handed : TryApplying μ}
    (hplain : ∀ wrapped ∈ handed.updates, wrapped.update.hasPts = false) :
    handed.statePts = 0 := by
  unfold TryApplying.statePts
  generalize handed.updates = updates at hplain
  induction updates with
  | nil => rfl
  | cons wrapped updates ih =>
    have hnone : wrapped.update.ptsAndCount = none := by
      simpa [TLUpdate.hasPts] using hplain wrapped List.mem_cons_self
    rw [List.foldl_cons, hnone]
    exact ih fun other hother => hplain other (List.mem_cons_of_mem _ hother)

theorem afterUnchecked_pts {database : TGDatabaseState} {request : ActorRequest μ}
    {handed : TryApplying μ}
    (hplain : ∀ wrapped ∈ handed.updates, wrapped.update.hasPts = false) :
    (request.afterUnchecked database handed).pts = database.pts := by
  have hzero := statePts_eq_zero hplain
  cases request with
  | tryupdatesWithDate groups =>
    simp only [ActorRequest.afterUnchecked, TryApplying.appliedByDate]
    split_ifs <;> rfl
  | _ => simp [ActorRequest.afterUnchecked, TryApplying.applied, applyPts, hzero]

/-! ## A container -/

def UpdatesContainer.requests (container : UpdatesContainer μ) : List (ActorRequest μ) :=
  (CollectedUpdates.empty.addContained container.fields).finish

theorem queued_requests (container : UpdatesContainer μ) (queue : Queue) :
    (queued queue container.requests).Perm (container.containedUpdates.filter queue.takes) := by
  have hadded := queued_addContained queue CollectedUpdates.empty container.fields
  rw [queued_empty, List.nil_append] at hadded
  rw [UpdatesContainer.requests, queued_finish, requests_addContained]
  exact hadded

theorem mem_queued_requests {container : UpdatesContainer μ} {queue : Queue}
    {update : TLUpdate μ} :
    update ∈ queued queue container.requests ↔
      update ∈ container.containedUpdates ∧ queue.takes update = true := by
  rw [(queued_requests container queue).mem_iff, List.mem_filter]

theorem mem_queued_alone (clientUserId : BitVec 32) (update : TLUpdate μ) (date : ℤ) :
    ∃ alone, processMessages clientUserId [.updateShort (some update) date] = some alone ∧
      ∀ queue, update ∈ queued queue alone ↔ queue = update.queueAlone := by
  refine ⟨_, rfl, fun queue => ?_⟩
  have hadded := queued_addShort queue CollectedUpdates.empty update date
  rw [queued_empty, List.nil_append] at hadded
  have hrequests : queued queue (CollectedUpdates.empty.addShort update date).finish =
      (CollectedUpdates.empty.addShort update date).queued queue := by
    rw [queued_finish, requests_addShort]
    rfl
  refine (hrequests ▸ hadded.mem_iff : _ ↔ _).trans ?_
  split_ifs with hqueue <;> simp [hqueue]

theorem takes_iff_queueAlone {update : TLUpdate μ} (hplain : update.hasPts = false)
    (queue : Queue) : queue.takes update = true ↔ queue = update.queueAlone := by
  unfold TLUpdate.queueAlone
  cases queue <;> cases hqts : update.respondsToQts <;> simp [Queue.takes, hplain, hqts]

/-- An update with a pts is put into two queues. -/
theorem hasPts_eq_false_of_oneQueue {container : UpdatesContainer μ} {update : TLUpdate μ}
    (hmem : update ∈ container.containedUpdates)
    (hone : ∃! queue, update ∈ queued queue container.requests) : update.hasPts = false := by
  by_contra hpts
  rw [Bool.not_eq_false] at hpts
  have hbyPts : update ∈ queued .pts container.requests :=
    mem_queued_requests.mpr ⟨hmem, hpts⟩
  have hother : update ∈ queued .seqOrDate container.requests :=
    mem_queued_requests.mpr ⟨hmem, by simp [Queue.takes, respondsToQts_of_hasPts hpts]⟩
  exact absurd (hone.unique hbyPts hother) (by decide)

theorem filter_takes_perm {updates : List (TLUpdate μ)}
    (hplain : ∀ update ∈ updates, update.hasPts = false) :
    (updates.filter (Queue.takes .pts) ++ updates.filter (Queue.takes .qts) ++
      updates.filter (Queue.takes .seqOrDate)).Perm updates := by
  have hnone : updates.filter (Queue.takes .pts) = [] :=
    List.filter_eq_nil_iff.mpr fun update hmem => by simp [Queue.takes, hplain update hmem]
  rw [hnone, List.nil_append]
  exact List.filter_append_perm (·.respondsToQts) updates

theorem sortedAsAlone_of_plain (clientUserId : BitVec 32) {container : UpdatesContainer μ}
    (hplain : ∀ update ∈ container.containedUpdates, update.hasPts = false) :
    SortedAsAlone clientUserId container container.requests where
  once :=
    (((queued_requests container .pts).append (queued_requests container .qts)).append
      (queued_requests container .seqOrDate)).trans (filter_takes_perm hplain)
  oneQueue update hmem := by
    have htakes := takes_iff_queueAlone (hplain update hmem)
    refine ⟨update.queueAlone, mem_queued_requests.mpr ⟨hmem, (htakes _).mpr rfl⟩, ?_⟩
    exact fun queue hqueued => (htakes queue).mp (mem_queued_requests.mp hqueued).2
  asAlone update hmem date := by
    obtain ⟨alone, hprocess, hqueued⟩ := mem_queued_alone clientUserId update date
    refine ⟨alone, hprocess, fun queue => ?_⟩
    rw [hqueued, mem_queued_requests, takes_iff_queueAlone (hplain update hmem)]
    exact and_iff_right hmem
  checked request hrequest database handed hhanded := by
    have hhandedPlain : ∀ wrapped ∈ handed.updates, wrapped.update.hasPts = false := by
      intro wrapped hwrapped
      obtain ⟨hqueue, hmem⟩ := mem_unchecked hhanded hwrapped
      have hqueued : wrapped.update ∈ queued .seqOrDate container.requests :=
        List.mem_flatMap.mpr ⟨request, List.mem_filter.mpr ⟨hrequest, by simp [hqueue]⟩, hmem⟩
      exact hplain _ (mem_queued_requests.mp hqueued).1
    exact ⟨hhandedPlain, afterUnchecked_pts hhandedPlain⟩

/-- A container is sorted as its updates are alone exactly when none of them has a pts. -/
theorem routedAsAlone_iff (clientUserId : BitVec 32) (container : UpdatesContainer μ) :
    RoutedAsAlone clientUserId container ↔
      ∀ update ∈ container.containedUpdates, update.hasPts = false := by
  constructor
  · rintro ⟨requests, hprocess, -, hsorted⟩ update hmem
    obtain rfl : container.requests = requests := Option.some.inj hprocess
    exact hasPts_eq_false_of_oneQueue hmem (hsorted.oneQueue update hmem)
  · exact fun hplain => ⟨container.requests, rfl, rfl, sortedAsAlone_of_plain _ hplain⟩

/-! ## A message past a gap -/

/-- A container with the sequence number 6 that holds one update, by whose pts six are missing. -/
def gapContainer : UpdatesContainer ℕ :=
  .updates [.updateDeleteMessages 7 10 1] [] [] 100 6

def gapDatabase : TGDatabaseState := ⟨3, 90, 5, 0, 0⟩

theorem gapContainer_routedTwice : ¬ RoutedAsAlone 1 gapContainer ∧
    (∃ requests, processMessages 1 [.container gapContainer] = some requests ∧
      .updateDeleteMessages 7 10 1 ∈ queued .pts requests ∧
      .updateDeleteMessages 7 10 1 ∈ queued .seqOrDate requests) ∧
    (scanPts gapDatabase.pts [⟨[.updateDeleteMessages 7 10 1], ([] : List ℕ), []⟩]).inOrder = [] ∧
    ∃ request ∈ addUpdates (.container gapContainer), ∃ handed,
      request.unchecked gapDatabase = some handed ∧
        (request.afterUnchecked gapDatabase handed).pts = 10 := by
  refine ⟨?_, ⟨_, rfl, ?_, ?_⟩, rfl, ?_⟩
  · rintro ⟨requests, hprocess, -, hsorted⟩
    obtain rfl := Option.some.inj hprocess
    have hone := hsorted.oneQueue (.updateDeleteMessages 7 10 1) List.mem_cons_self
    have htwice : Queue.pts = Queue.seqOrDate :=
      hone.unique List.mem_cons_self List.mem_cons_self
    exact absurd htwice (by decide)
  · exact List.mem_cons_self
  · exact List.mem_cons_self
  · exact ⟨_, List.mem_cons_of_mem _ List.mem_cons_self, _, rfl, rfl⟩

end Onegram.UpdateQueues
