import Onegram.RequestService
import Onegram.Proofs.MessageIds

/-!
# The life of a request

A request ends once for each time it was added: by its `completed` block or by its removal. Until
then it is idle or in flight. The callbacks only ever clear what a context waits for, except for
two: `prepared`, whose transaction then has a completion to come, and a completion with success,
which holds the request to a transaction. Nothing asks whether that transaction is still there.
-/

namespace Onegram.Mtp

variable {ρ : Type}

section Statement

def Happening.isAdded (id : Nat) : Happening ρ → Bool
  | .added i => i == id
  | _ => false

def Happening.isRemoved (id : Nat) : Happening ρ → Bool
  | .removed i => i == id
  | _ => false

def Happening.isCompleted (id : Nat) : Happening ρ → Bool
  | .completed i _ _ _ => i == id
  | _ => false

/-- The transaction is one of an open connection of the transport in use. -/
def World.Live (w : World ρ) (t : TransactionId) : Prop :=
  t.transport = w.transport ∧ t.connection ∈ w.connections

/-- A completion is to come for a transaction the request is in. -/
def World.Awaits (w : World ρ) (internalId : Nat) : Prop :=
  ∃ p ∈ w.pending, p.payloads ≠ []
    ∧ (p.transaction.requestInternalIdToMessageInternalId.lookup internalId).isSome

/-- Waiting for a completion still to come, held by a live transaction, or delivered in the current
session. -/
def World.InFlight (w : World ρ) (r : MTRequest ρ) : Prop :=
  ∃ c, r.requestContext = some c
    ∧ ((c.waitingForMessageId = true ∧ w.Awaits r.internalId)
      ∨ (∃ t, c.transactionId = some t ∧ w.Live t)
      ∨ (c.delivered = true ∧ c.session = w.session))

/-- Every time a request was added it was removed, its `completed` block was called, or it is still
there; and what is there can be sent, is parked by its `errorContext`, or is in flight. -/
structure World.LifeCycle (w : World ρ) : Prop where
  once : (w.service.requests.map (·.internalId)).Nodup
  counted : ∀ id, w.service.log.countP (Happening.isAdded id)
    = w.service.log.countP (Happening.isRemoved id)
      + w.service.log.countP (Happening.isCompleted id)
      + (w.service.requests.map (·.internalId)).count id
  accounted : ∀ r ∈ w.service.requests, ∀ now,
    (r.idle = true ∧ r.parked now = false) ∨ (r.idle = true ∧ r.parked now = true) ∨ w.InFlight r

/-- A completion that reports success does so for a live transaction: the connection that took the
payload is open and the transport the one in use. -/
def World.Timely (w : World ρ) : WorldEvent ρ → Prop
  | .completion transaction _ (some connection) =>
    ∀ p, w.pending[transaction]? = some p → w.Live { transport := p.transport, connection }
  | _ => True

end Statement

section Calming

/-- The request after a callback: its context is dropped or waits for no more than it did. -/
def Calmer (r r' : MTRequest ρ) : Prop :=
  r'.internalId = r.internalId ∧ ∀ c', r'.requestContext = some c' →
    ∃ c, r.requestContext = some c ∧ c'.session = c.session
      ∧ (c'.waitingForMessageId = true → c.waitingForMessageId = true)
      ∧ ∀ t, c'.transactionId = some t → c.transactionId = some t

theorem Calmer.of_context {r r' : MTRequest ρ} (hid : r'.internalId = r.internalId)
    (h : r'.requestContext = r.requestContext) : Calmer r r' :=
  ⟨hid, fun c hc => ⟨c, h ▸ hc, rfl, id, fun _ => id⟩⟩

theorem Calmer.refl (r : MTRequest ρ) : Calmer r r := .of_context rfl rfl

theorem Calmer.trans {r r' r'' : MTRequest ρ} (h : Calmer r r') (h' : Calmer r' r'') :
    Calmer r r'' := by
  refine ⟨h'.1.trans h.1, fun c'' hc'' => ?_⟩
  obtain ⟨c', hc', hs', hw', ht'⟩ := h'.2 c'' hc''
  obtain ⟨c, hc, hs, hw, ht⟩ := h.2 c' hc'
  exact ⟨c, hc, hs'.trans hs, hw ∘ hw', fun t => ht t ∘ ht' t⟩

theorem Calmer.dropContext {r r' : MTRequest ρ} (h : r'.internalId = r.internalId) :
    Calmer r r'.dropContext :=
  ⟨h, fun _ hc => by simp [MTRequest.dropContext] at hc⟩

theorem Calmer.updateContext (r : MTRequest ρ) {f : RequestContext → RequestContext}
    (h : ∀ c, (f c).session = c.session
      ∧ ((f c).waitingForMessageId = true → c.waitingForMessageId = true)
      ∧ ∀ t, (f c).transactionId = some t → c.transactionId = some t) :
    Calmer r (r.updateContext f) := by
  refine ⟨rfl, fun c' hc' => ?_⟩
  obtain ⟨c, hc, rfl⟩ := Option.map_eq_some_iff.1 hc'
  exact ⟨c, hc, h c⟩

theorem calmer_map {f : MTRequest ρ → MTRequest ρ} (h : ∀ r, Calmer r (f r)) :
    ∀ l : List (MTRequest ρ), List.Forall₂ Calmer l (l.map f)
  | [] => .nil
  | r :: l => .cons (h r) (calmer_map h l)

theorem calmer_refl (l : List (MTRequest ρ)) : List.Forall₂ Calmer l l :=
  List.forall₂_same.2 fun r _ => .refl r

theorem calmer_trans {l l' l'' : List (MTRequest ρ)} (h : List.Forall₂ Calmer l l')
    (h' : List.Forall₂ Calmer l' l'') : List.Forall₂ Calmer l l'' := by
  induction h generalizing l'' with
  | nil => exact h'
  | cons hr _ ih =>
    cases h' with
    | cons hr' h' => exact .cons (hr.trans hr') (ih h')

theorem calmer_updateFirst {test : MTRequest ρ → Bool} {f : MTRequest ρ → MTRequest ρ}
    (h : ∀ r, Calmer r (f r)) : ∀ l : List (MTRequest ρ),
    List.Forall₂ Calmer l (updateFirst test f l)
  | [] => .nil
  | r :: l => by
    unfold updateFirst
    split
    · exact .cons (h r) (calmer_refl l)
    · exact .cons (.refl r) (calmer_updateFirst h l)

/-- The callback only clears what contexts wait for, and ends no request. -/
structure Calms (s s' : MTRequestMessageService ρ) : Prop where
  requests : List.Forall₂ Calmer s.requests s'.requests
  log : s'.log = s.log

theorem Calms.refl (s : MTRequestMessageService ρ) : Calms s s := ⟨calmer_refl _, rfl⟩

theorem Calms.trans {s s' s'' : MTRequestMessageService ρ} (h : Calms s s') (h' : Calms s' s'') :
    Calms s s'' :=
  ⟨calmer_trans h.requests h'.requests, h'.log.trans h.log⟩

namespace MTRequestMessageService

variable (s : MTRequestMessageService ρ)

theorem calms_updateRequestsTimer (now : Int) : Calms s (s.updateRequestsTimer now) := by
  refine ⟨calmer_map (fun r => ?_) _, rfl⟩
  split
  · exact .of_context rfl rfl
  · exact .refl r

theorem calms_messageDeliveryConfirmed (messageIds : List Int) :
    Calms s (s.messageDeliveryConfirmed messageIds) := by
  refine ⟨?_, rfl⟩
  unfold messageDeliveryConfirmed
  simp only []
  suffices ∀ l : List (MTRequest ρ), List.Forall₂ Calmer l (messageIds.foldl _ l) from this _
  induction messageIds with
  | nil => exact calmer_refl
  | cons id ids ih =>
    intro l
    rw [List.foldl_cons]
    refine calmer_trans (calmer_updateFirst (fun r => .updateContext r fun c => ?_) l) (ih _)
    exact ⟨rfl, fun h => h, fun _ h => h⟩

theorem calms_messageDeliveryFailed (messageId : Int) :
    Calms s (s.messageDeliveryFailed messageId) :=
  ⟨calmer_updateFirst (fun _ => .dropContext rfl) _, rfl⟩

theorem calms_badMessage : ∀ (messageIds : List Int) (s : MTRequestMessageService ρ),
    Calms s (messageIds.foldl messageDeliveryFailed s)
  | [], s => .refl s
  | id :: ids, s => (calms_messageDeliveryFailed s id).trans (calms_badMessage ids _)

theorem calms_forgetTransactions (failed : TransactionId → Bool) :
    Calms s (s.forgetTransactions failed) := by
  refine ⟨calmer_map (fun r => .updateContext r fun c => ?_) _, rfl⟩
  split
  · exact ⟨rfl, id, fun _ h => by simp at h⟩
  · exact ⟨rfl, id, fun _ => id⟩

theorem calms_shouldRequestMessage (id id' : Int) (t : TransactionId) :
    Calms s (s.shouldRequestMessage id id' t).1 := by
  refine ⟨calmer_updateFirst (fun r => .updateContext r fun c => ?_) _, rfl⟩
  split <;> exact ⟨rfl, fun h => h, fun _ h => h⟩

theorem calms_messageResendRequestFailed (messageId : Int) :
    Calms s (s.messageResendRequestFailed messageId) := by
  refine ⟨calmer_map (fun r => ?_) _, rfl⟩
  split
  · exact .dropContext rfl
  · exact .refl r

theorem calms_didChangeSession : Calms s s.didChangeSession :=
  ⟨calmer_map (fun _ => .dropContext rfl) _, rfl⟩

theorem calms_serverDidChangeSession (first : Int) (others : List Int) :
    Calms s (s.serverDidChangeSession first others) := by
  refine ⟨calmer_map (fun r => ?_) _, rfl⟩
  split
  · exact .dropContext rfl
  · exact .refl r

theorem calms_authTokenUpdated : Calms s s.authTokenUpdated := by
  refine ⟨calmer_map (fun r => ?_) _, rfl⟩
  exact .of_context rfl rfl

end MTRequestMessageService

end Calming

section Bookkeeping

/-- What is there, and what has been done, agree. -/
def Bookkept (s : MTRequestMessageService ρ) : Prop :=
  (s.requests.map (·.internalId)).Nodup ∧ ∀ id, s.log.countP (Happening.isAdded id)
    = s.log.countP (Happening.isRemoved id) + s.log.countP (Happening.isCompleted id)
      + (s.requests.map (·.internalId)).count id

theorem bookkept_of_same {s s' : MTRequestMessageService ρ} (h : Bookkept s)
    (hids : s'.requests.map (·.internalId) = s.requests.map (·.internalId))
    (hlog : s'.log = s.log) : Bookkept s' := by
  unfold Bookkept
  rw [hids, hlog]
  exact h

theorem calmer_ids {l l' : List (MTRequest ρ)} (h : List.Forall₂ Calmer l l') :
    l'.map (·.internalId) = l.map (·.internalId) := by
  induction h with
  | nil => rfl
  | cons hr _ ih => rw [List.map_cons, List.map_cons, hr.1, ih]

theorem Bookkept.calm {s s' : MTRequestMessageService ρ} (h : Bookkept s) (hc : Calms s s') :
    Bookkept s' :=
  bookkept_of_same h (calmer_ids hc.requests) hc.log

theorem perm_cons_eraseP {α : Type} {test : α → Bool} {a : α} : ∀ {l : List α},
    l.find? test = some a → l.Perm (a :: l.eraseP test)
  | [], h => by simp at h
  | b :: l, h => by
    rw [List.find?_cons] at h
    rw [List.eraseP_cons]
    cases hb : test b with
    | true =>
      simp only [hb, Option.some.injEq] at h
      rw [cond_true, h]
    | false =>
      simp only [hb] at h
      exact ((perm_cons_eraseP h).cons b).trans (.swap a b _)

/-- A request leaves, and what ended it is written down. -/
theorem bookkept_leave {s s' : MTRequestMessageService ρ} (h : Bookkept s)
    {test : MTRequest ρ → Bool} {r : MTRequest ρ} (hr : s.requests.find? test = some r)
    (hreq : s'.requests = s.requests.eraseP test) {e : Happening ρ} (hlog : s'.log = s.log ++ [e])
    (hadd : ∀ id, e.isAdded id = false)
    (hend : ∀ id, (if e.isRemoved id then 1 else 0) + (if e.isCompleted id then 1 else 0)
      = if r.internalId = id then 1 else 0) : Bookkept s' := by
  have hperm := (perm_cons_eraseP hr).map (·.internalId)
  rw [← hreq, List.map_cons] at hperm
  refine ⟨(List.nodup_cons.1 (hperm.nodup_iff.1 h.1)).2, fun id => ?_⟩
  have hcount := h.2 id
  have hone := hend id
  rw [hperm.count_eq, List.count_cons] at hcount
  rw [hlog]
  simp only [List.countP_append, List.countP_singleton, hadd, Bool.false_eq_true, if_false]
  by_cases hid : r.internalId = id
  · rw [if_pos hid] at hone
    rw [if_pos (beq_iff_eq.2 hid)] at hcount
    omega
  · rw [if_neg hid] at hone
    rw [if_neg (by simpa using hid)] at hcount
    omega

namespace MTRequestMessageService

variable {s : MTRequestMessageService ρ}

theorem bookkept_addRequest (h : Bookkept s) (r : MTRequest ρ) : Bookkept (s.addRequest r) := by
  unfold addRequest
  split
  · exact h
  · rename_i hr
    refine ⟨?_, fun id => ?_⟩
    · rw [List.map_append, List.map_singleton, List.nodup_append']
      exact ⟨h.1, List.nodup_singleton _, by simpa using hr⟩
    · have := h.2 id
      simp only [List.countP_append, List.countP_singleton, List.map_append, List.map_singleton,
        List.count_append, List.count_singleton, Happening.isAdded, Happening.isRemoved,
        Happening.isCompleted, Bool.false_eq_true, if_false] at this ⊢
      by_cases hid : r.internalId = id
      · simp only [hid, beq_self_eq_true, if_true]
        omega
      · simp only [beq_eq_false_iff_ne.2 hid, Bool.false_eq_true, if_false]
        omega

theorem bookkept_removeRequest (h : Bookkept s) (id : Nat) (now : Int) :
    Bookkept (s.removeRequestByInternalId id now) := by
  unfold removeRequestByInternalId
  split
  · exact h.calm (calms_updateRequestsTimer s now)
  · rename_i r hr
    have hid : r.internalId = id := by simpa using List.find?_some hr
    refine (bookkept_leave h hr rfl rfl (fun _ => rfl) fun i => ?_).calm
      (calms_updateRequestsTimer _ now)
    simp [Happening.isRemoved, Happening.isCompleted, hid]

theorem receivedError_id (token : Bool) (now : Int) (r : MTRequest ρ) (e : MTRpcError) :
    (r.receivedError token now e).1.internalId = r.internalId := by
  unfold MTRequest.receivedError
  simp only []
  repeat' split
  all_goals rfl

theorem rpcVerdict_id (s : MTRequestMessageService ρ) (now : Int) (r : MTRequest ρ)
    (error : Option MTRpcError) : (s.rpcVerdict now r error).1.internalId = r.internalId := by
  cases error with
  | none => rfl
  | some e => exact receivedError_id _ _ _ _

theorem rpcContext_fields (s : MTRequestMessageService ρ) (r : MTRequest ρ)
    (error : Option MTRpcError) :
    (s.rpcContext r error).requests = s.requests ∧ (s.rpcContext r error).log = s.log := by
  unfold rpcContext
  repeat' split
  all_goals exact ⟨rfl, rfl⟩

theorem calms_rpcContext (s : MTRequestMessageService ρ) (r : MTRequest ρ)
    (error : Option MTRpcError) : Calms s (s.rpcContext r error) := by
  obtain ⟨hreq, hlog⟩ := rpcContext_fields s r error
  exact ⟨hreq ▸ calmer_refl _, hlog⟩

/-- A restarted request stays under its id, with nothing to wait for. -/
theorem calmer_restart {test : MTRequest ρ → Bool} {r r' : MTRequest ρ}
    (hr' : r'.internalId = r.internalId) : ∀ {l : List (MTRequest ρ)}, l.find? test = some r →
    List.Forall₂ Calmer l (updateFirst test (fun _ => r'.dropContext) l)
  | [], _ => .nil
  | a :: l, h => by
    rw [List.find?_cons] at h
    unfold updateFirst
    cases ha : test a with
    | true =>
      simp only [ha, Option.some.injEq] at h
      subst h
      exact .cons (.dropContext hr') (calmer_refl l)
    | false =>
      simp only [ha] at h
      exact .cons (.refl a) (calmer_restart hr' h)

theorem bookkept_endRpc (h : Bookkept s) {id : Int} {r r' : MTRequest ρ}
    (hr : s.requests.find? (·.hasMessageId id) = some r) (hid : r'.internalId = r.internalId)
    (timestamp : Int) (restart : Bool) (result : Option ρ) (error : Option MTRpcError) :
    Bookkept (s.endRpc id timestamp r' restart result error) := by
  unfold endRpc
  split
  · exact h.calm ⟨calmer_restart hid hr, rfl⟩
  · refine bookkept_leave h hr rfl rfl (fun _ => rfl) fun i => ?_
    simp [Happening.isRemoved, Happening.isCompleted, hid]

theorem bookkept_receivedRpcResult (h : Bookkept s) (id timestamp now : Int) (answer : RpcAnswer) :
    Bookkept (s.receivedRpcResult id timestamp now answer) := by
  unfold receivedRpcResult
  split
  · exact h
  · split
    · exact h.calm (calms_updateRequestsTimer s now)
    · rename_i r hr
      simp only []
      rw [← (rpcContext_fields s r (rpcOutcome r answer).2).1] at hr
      exact (bookkept_endRpc (h.calm (calms_rpcContext s r _)) hr (rpcVerdict_id _ _ _ _) _ _ _
        _).calm (calms_updateRequestsTimer _ now)

theorem prepared_ids (s : MTRequestMessageService ρ) (t : MessageTransaction) (session : Nat)
    (preparedMessage : Nat → Option PreparedMessage) :
    (s.prepared t session preparedMessage).requests.map (·.internalId)
      = s.requests.map (·.internalId) := by
  unfold prepared
  simp only [List.map_map]
  refine List.map_congr_left fun r _ => ?_
  simp only [Function.comp_apply]
  split <;> rfl

theorem completion_ids (s : MTRequestMessageService ρ) (t : MessageTransaction) (session : Nat)
    (preparedMessage : Nat → Option PreparedMessage) (sent : Option (List Nat × TransactionId)) :
    (s.completion t session preparedMessage sent).requests.map (·.internalId)
      = s.requests.map (·.internalId) := by
  unfold completion
  simp only [List.map_map]
  refine List.map_congr_left fun r _ => ?_
  simp only [Function.comp_apply]
  repeat' split
  all_goals rfl

end MTRequestMessageService

end Bookkeeping

section Holding

/-- What the contexts of a list of requests wait for is there. -/
def Held (awaits : Nat → Prop) (live : TransactionId → Prop) (session : Nat)
    (l : List (MTRequest ρ)) : Prop :=
  ∀ r ∈ l, ∀ c, r.requestContext = some c →
    (c.waitingForMessageId = true → awaits r.internalId)
      ∧ (∀ t, c.transactionId = some t → live t) ∧ c.session = session

variable {awaits awaits' : Nat → Prop} {live live' : TransactionId → Prop} {session : Nat}
  {l l' : List (MTRequest ρ)}

theorem Held.mono (h : Held awaits live session l) (ha : ∀ id, awaits id → awaits' id)
    (hl : ∀ t, live t → live' t) : Held awaits' live' session l := fun r hr c hc =>
  ⟨fun hw => ha _ ((h r hr c hc).1 hw), fun t ht => hl t ((h r hr c hc).2.1 t ht),
    (h r hr c hc).2.2⟩

theorem Held.sublist (h : Held awaits live session l) (hs : l'.Sublist l) :
    Held awaits live session l' := fun r hr => h r (hs.subset hr)

theorem mem_calmer (hc : List.Forall₂ Calmer l l') : ∀ r' ∈ l', ∃ r ∈ l, Calmer r r' := by
  induction hc with
  | nil => simp
  | @cons r r' l l' hr _ ih =>
    intro x hx
    rcases List.mem_cons.1 hx with rfl | hx
    · exact ⟨r, List.mem_cons_self, hr⟩
    · obtain ⟨y, hy, hyx⟩ := ih x hx
      exact ⟨y, List.mem_cons_of_mem _ hy, hyx⟩

theorem Held.calm (h : Held awaits live session l) (hc : List.Forall₂ Calmer l l') :
    Held awaits live session l' := by
  intro r' hr' c' hc'
  obtain ⟨r, hr, hid, hcontext⟩ := mem_calmer hc r' hr'
  obtain ⟨c, hc, hs, hw, ht⟩ := hcontext c' hc'
  obtain ⟨h1, h2, h3⟩ := h r hr c hc
  rw [hid]
  exact ⟨fun hw' => h1 (hw hw'), fun t ht' => h2 t (ht t ht'), hs.trans h3⟩

namespace MTRequestMessageService

variable {s : MTRequestMessageService ρ}

theorem held_addRequest (h : Held awaits live session s.requests) (r : NewRequest ρ) :
    Held awaits live session (s.addRequest r.1).requests := by
  unfold addRequest
  split
  · exact h
  · intro r' hr' c hc
    rcases List.mem_append.1 hr' with hr' | hr'
    · exact h r' hr' c hc
    · rw [List.mem_singleton.1 hr', r.2] at hc
      exact absurd hc (by simp)

theorem held_removeRequest (h : Held awaits live session s.requests) (id : Nat) (now : Int) :
    Held awaits live session (s.removeRequestByInternalId id now).requests := by
  unfold removeRequestByInternalId
  split
  · exact h.calm (calms_updateRequestsTimer s now).requests
  · refine Held.calm ?_ (calms_updateRequestsTimer _ now).requests
    exact h.sublist List.eraseP_sublist

theorem held_receivedRpcResult (h : Held awaits live session s.requests) (id timestamp now : Int)
    (answer : RpcAnswer) :
    Held awaits live session (s.receivedRpcResult id timestamp now answer).requests := by
  unfold receivedRpcResult
  split
  · exact h
  · split
    · exact h.calm (calms_updateRequestsTimer s now).requests
    · rename_i r hr
      simp only []
      refine Held.calm ?_ (calms_updateRequestsTimer _ now).requests
      have hctx := h.calm (calms_rpcContext s r (rpcOutcome r answer).2).requests
      rw [← (rpcContext_fields s r (rpcOutcome r answer).2).1] at hr
      unfold endRpc
      split
      · exact hctx.calm (calmer_restart (rpcVerdict_id _ _ _ _) hr)
      · exact hctx.sublist List.eraseP_sublist

theorem held_didChangeSession (s : MTRequestMessageService ρ) :
    Held awaits live session s.didChangeSession.requests := by
  intro r hr c hc
  obtain ⟨r', -, rfl⟩ := List.mem_map.1 hr
  exact absurd hc (by simp [MTRequest.dropContext])

/-- No request is held by a transaction that may have failed. -/
theorem held_forgetTransactions (h : Held awaits live session s.requests)
    (failed : TransactionId → Bool) :
    Held awaits (fun t => live t ∧ failed t = false) session
      (s.forgetTransactions failed).requests := by
  intro r hr c hc
  obtain ⟨r', hr', rfl⟩ := List.mem_map.1 hr
  obtain ⟨c', hc', rfl⟩ := Option.map_eq_some_iff.1 hc
  obtain ⟨h1, h2, h3⟩ := h r' hr' c' hc'
  split
  · exact ⟨h1, fun t ht => by simp at ht, h3⟩
  · rename_i hfailed
    refine ⟨h1, fun t ht => ⟨h2 t ht, ?_⟩, h3⟩
    rw [ht, Option.any_some, Bool.not_eq_true] at hfailed
    exact hfailed

/-- The messages of a transaction wait for its completion. -/
theorem held_prepared (h : Held awaits live session s.requests) (t : MessageTransaction)
    (preparedMessage : Nat → Option PreparedMessage) :
    Held (fun id => awaits id ∨ (t.requestInternalIdToMessageInternalId.lookup id).isSome) live
      session (s.prepared t session preparedMessage).requests := by
  intro r hr c hc
  obtain ⟨r', hr', rfl⟩ := List.mem_map.1 hr
  revert hc
  simp only []
  split
  · rename_i message hmessage
    intro hc
    obtain ⟨id, hid, -⟩ := Option.bind_eq_some_iff.1 hmessage
    cases hc
    exact ⟨fun _ => .inr (Option.isSome_iff_exists.2 ⟨id, hid⟩), by simp, rfl⟩
  · intro hc
    obtain ⟨h1, h2, h3⟩ := h r' hr' c hc
    exact ⟨fun hw => .inl (h1 hw), h2, h3⟩

/-- Whatever its outcome, a completion ends the waiting of all messages of the transaction. -/
theorem held_completion {t : MessageTransaction}
    (h : Held (fun id => awaits id ∨ (t.requestInternalIdToMessageInternalId.lookup id).isSome)
      live session s.requests) {session' : Nat} (preparedMessage : Nat → Option PreparedMessage)
    {sent : Option (List Nat × TransactionId)}
    (hsent : ∀ x, sent = some x → live x.2 ∧ session' = session) :
    Held awaits live session (s.completion t session' preparedMessage sent).requests := by
  intro r hr c hc
  obtain ⟨r', hr', rfl⟩ := List.mem_map.1 hr
  revert hc
  simp only []
  split
  · rename_i hlookup
    intro hc
    obtain ⟨h1, h2, h3⟩ := h r' hr' c hc
    exact ⟨fun hw => (h1 hw).resolve_right (by simp [hlookup]), h2, h3⟩
  · have hcleared : ∀ c, (r'.updateContext fun c => { c with waitingForMessageId := false
        }).requestContext = some c → (c.waitingForMessageId = true → awaits r'.internalId)
          ∧ (∀ t, c.transactionId = some t → live t) ∧ c.session = session := by
      intro c hc
      obtain ⟨c', hc', rfl⟩ := Option.map_eq_some_iff.1 hc
      obtain ⟨-, h2, h3⟩ := h r' hr' c' hc'
      exact ⟨fun hw => absurd hw (by simp), h2, h3⟩
    split
    · exact hcleared c
    · split
      · exact hcleared c
      · intro hc
        cases hc
        obtain ⟨hlive, hsession⟩ := hsent _ rfl
        exact ⟨fun hw => absurd hw (by simp), fun t ht => by cases ht; exact hlive, hsession⟩

end MTRequestMessageService

end Holding

section Runs

/-- The service's books, what its contexts wait for, and where the pending transactions belong. -/
structure World.Sound (w : World ρ) : Prop where
  bookkept : Bookkept w.service
  held : Held w.Awaits w.Live w.session w.service.requests
  pending : ∀ p ∈ w.pending, p.transport ≤ w.transport
    ∧ (p.transport = w.transport → p.session = w.session)

namespace World

variable {w : World ρ}

/-- A request that is there is idle or in flight. -/
theorem Sound.lifeCycle (h : w.Sound) : w.LifeCycle := by
  refine ⟨h.bookkept.1, h.bookkept.2, fun r hr now => ?_⟩
  cases hidle : r.idle with
  | true => cases r.parked now <;> simp
  | false =>
    refine .inr (.inr ?_)
    unfold MTRequest.idle at hidle
    rcases hc : r.requestContext with _ | c
    · simp [hc] at hidle
    · obtain ⟨h1, h2, h3⟩ := h.held r hr c hc
      refine ⟨c, hc, ?_⟩
      cases hw : c.waitingForMessageId with
      | true => exact .inl ⟨rfl, h1 hw⟩
      | false =>
        cases hd : c.delivered with
        | true => exact .inr (.inr ⟨rfl, h3⟩)
        | false =>
          rcases ht : c.transactionId with _ | t
          · simp [hc, hw, hd, ht] at hidle
          · exact .inr (.inl ⟨t, rfl, h2 t ht⟩)

/-- A callback of the service that leaves all else as it is. -/
theorem Sound.callback (h : w.Sound) {service : MTRequestMessageService ρ}
    (hbook : Bookkept service) (hheld : Held w.Awaits w.Live w.session service.requests) :
    ({ w with service } : World ρ).Sound :=
  ⟨hbook, hheld, h.pending⟩

theorem Sound.calms (h : w.Sound) {service : MTRequestMessageService ρ}
    (hc : Calms w.service service) : ({ w with service } : World ρ).Sound :=
  h.callback (h.bookkept.calm hc) (h.held.calm hc.requests)

theorem sound_replaceTransport (h : w.Sound) : w.replaceTransport.Sound where
  bookkept := h.bookkept.calm (w.service.calms_forgetTransactions _)
  held := (MTRequestMessageService.held_forgetTransactions h.held _).mono (fun _ ha => ha)
    fun _ ht => absurd ht.2 (by simp)
  pending p hp := ⟨(h.pending p hp).1.trans (Nat.le_succ _), fun heq =>
    absurd (h.pending p hp).1 (by rw [heq]; exact Nat.not_succ_le_self _)⟩

/-- No context outlives its session, and no pending transaction is of the new transport. -/
theorem sound_changeSession (h : w.Sound) : w.changeSession.Sound where
  bookkept := (h.bookkept.calm w.service.calms_didChangeSession).calm
    (MTRequestMessageService.calms_forgetTransactions _ _)
  held := (w.service.held_didChangeSession).calm
    (MTRequestMessageService.calms_forgetTransactions _ _).requests
  pending p hp := ⟨(h.pending p hp).1.trans (Nat.le_succ _), fun heq =>
    absurd (h.pending p hp).1 (by rw [heq]; exact Nat.not_succ_le_self _)⟩

theorem sound_connectionClosed (h : w.Sound) (connection : Nat) :
    ({ w with
      service := w.service.transactionsMayHaveFailed [{ transport := w.transport, connection }]
      connections := w.connections.filter (· ≠ connection) } : World ρ).Sound where
  bookkept := h.bookkept.calm (w.service.calms_forgetTransactions _)
  held := (MTRequestMessageService.held_forgetTransactions h.held _).mono (fun _ ha => ha) <| by
    rintro ⟨transport, c⟩ ⟨⟨rfl, hc⟩, hne⟩
    refine ⟨rfl, List.mem_filter.2 ⟨hc, ?_⟩⟩
    simpa using hne
  pending := h.pending

variable (clock : Nat → Int)

theorem sound_transact (h : w.Sound) (r : TransactionRequest) (t : MessageTransaction) :
    (w.transact clock r t).Sound := by
  have hheld := MTRequestMessageService.held_prepared h.held t
    (w.mtProto.prepareAll clock r).messageInternalIdToPreparedMessage
  have hbook := bookkept_of_same h.bookkept (w.service.prepared_ids t w.session
    (w.mtProto.prepareAll clock r).messageInternalIdToPreparedMessage) rfl
  unfold transact
  simp only []
  split
  · exact h.callback (bookkept_of_same hbook (MTRequestMessageService.completion_ids _ _ _ _ _) rfl)
      (MTRequestMessageService.held_completion hheld _ (by simp))
  · rename_i hgo
    refine ⟨hbook, hheld.mono ?_ fun _ ht => ht, fun p hp => ?_⟩
    · rintro id (⟨p, hp, ha⟩ | hid)
      · exact ⟨p, List.mem_append_left _ hp, ha⟩
      · refine ⟨_, List.mem_append_right _ (List.mem_singleton.2 rfl), fun hnil => hgo ?_, hid⟩
        simp only [] at hnil
        rw [hnil]
        simp
    · rcases List.mem_append.1 hp with hp | hp
      · exact h.pending p hp
      · rw [List.mem_singleton.1 hp]
        exact ⟨le_rfl, fun _ => rfl⟩

theorem sound_serve (h : w.Sound) (now : Int) (r : TransactionRequest) :
    (w.serve clock now r).Sound := by
  unfold serve
  split
  · exact h
  · refine sound_transact clock ?_ _ _
    exact ⟨h.bookkept, h.held, h.pending⟩

theorem sound_transportReady (h : w.Sound) (now : Int) (before after : List (List OutgoingMessage))
    (r : TransactionRequest) : (w.transportReady clock now before after r).Sound := by
  have hserved := sound_serve clock h now (w.askService now before after r)
  unfold transportReady
  simp only []
  split
  · exact sound_changeSession ⟨hserved.bookkept, hserved.held, hserved.pending⟩
  · exact ⟨hserved.bookkept, hserved.held, hserved.pending⟩

/-- A completion with success in time holds its requests to a live transaction. -/
theorem sound_completion (h : w.Sound) (transaction payload : Nat) (connection : Option Nat)
    (htimely : w.Timely (.completion transaction payload connection)) :
    (w.completion transaction payload connection).Sound := by
  unfold completion
  split
  · exact h
  · rename_i p hp
    split
    · exact h
    · rename_i messageInternalIds hmessages
      have hmem : p ∈ w.pending := List.mem_of_getElem? hp
      have hpending := h.pending p hmem
      refine ⟨bookkept_of_same h.bookkept (MTRequestMessageService.completion_ids _ _ _ _ _) rfl,
        MTRequestMessageService.held_completion ?_ _ ?_, fun q hq => ?_⟩
      · refine h.held.mono (fun id => ?_) fun _ ht => ht
        rintro ⟨q, hq, hne, hid⟩
        by_cases hqp : (p.transaction.requestInternalIdToMessageInternalId.lookup id).isSome
        · exact .inr hqp
        · refine .inl ⟨q, ?_, hne, hid⟩
          obtain ⟨i, hi, rfl⟩ := List.getElem_of_mem hq
          have hit : transaction ≠ i := fun heq => by
            subst heq
            rw [List.getElem?_eq_getElem hi, Option.some.injEq] at hp
            exact hqp (hp ▸ hid)
          exact List.mem_of_getElem? (i := i) (by
            rw [List.getElem?_set_ne hit, List.getElem?_eq_getElem hi])
      · intro x hx
        obtain ⟨c, rfl, rfl⟩ := Option.map_eq_some_iff.1 hx
        have hlive : w.Live { transport := p.transport, connection := c } := htimely p hp
        exact ⟨hlive, hpending.2 hlive.1⟩
      · rcases List.mem_or_eq_of_mem_set hq with hq | rfl
        · exact h.pending q hq
        · exact hpending

theorem step_sound (w : World ρ) (e : WorldEvent ρ) (h : w.Sound) (htimely : w.Timely e) :
    (w.step clock e).Sound := by
  cases e with
  | addRequest r =>
    exact h.callback (MTRequestMessageService.bookkept_addRequest h.bookkept r.1)
      (MTRequestMessageService.held_addRequest h.held r)
  | removeRequest id now =>
    exact h.callback (MTRequestMessageService.bookkept_removeRequest h.bookkept id now)
      (MTRequestMessageService.held_removeRequest h.held id now)
  | transportReady now before after r => exact sound_transportReady clock h now before after r
  | completion transaction payload connection =>
    exact sound_completion h transaction payload connection htimely
  | rpcResult id timestamp now answer =>
    exact h.callback
      (MTRequestMessageService.bookkept_receivedRpcResult h.bookkept id timestamp now answer)
      (MTRequestMessageService.held_receivedRpcResult h.held id timestamp now answer)
  | messagesAcknowledged ids => exact h.calms (w.service.calms_messageDeliveryConfirmed ids)
  | badMessage ids => exact h.calms (MTRequestMessageService.calms_badMessage ids w.service)
  | responseAnnounced id id' t => exact h.calms (w.service.calms_shouldRequestMessage id id' t)
  | resendRequestFailed id => exact h.calms (w.service.calms_messageResendRequestFailed id)
  | transactionsMayHaveFailed ids => exact h.calms (w.service.calms_forgetTransactions _)
  | connectionOpened connection =>
    refine ⟨h.bookkept, h.held.mono (fun _ ha => ha) fun t ht => ?_, h.pending⟩
    exact ⟨ht.1, List.mem_cons_of_mem _ ht.2⟩
  | connectionClosed connection => exact sound_connectionClosed h connection
  | transportReplaced => exact sound_replaceTransport h
  | sessionReset sessionId =>
    exact sound_changeSession ⟨h.bookkept, h.held, h.pending⟩
  | serverSessionChanged first others =>
    exact h.calms (w.service.calms_serverDidChangeSession first others)
  | authTokenUpdated => exact h.calms w.service.calms_authTokenUpdated
  | passwordInputRequired required => exact h.callback h.bookkept h.held

/-- The service with no request yet, in a connection that has done nothing. -/
def start (service : MTRequestMessageService ρ) (mtProto : MTProto) : World ρ :=
  { service := { service with requests := [], log := [] }, mtProto }

theorem start_sound (service : MTRequestMessageService ρ) (mtProto : MTProto) :
    (start service mtProto).Sound :=
  ⟨⟨List.nodup_nil, fun _ => rfl⟩, fun r hr => absurd hr (by simp [start]),
    fun p hp => absurd hp (by simp [start])⟩

/-- As long as no completion reports success for a transaction that is gone, every request ends once
for each time it was added and is accounted for until then. -/
theorem lifeCycle_runs (service : MTRequestMessageService ρ) (mtProto : MTProto)
    (es : List (WorldEvent ρ))
    (h : Run.AllSteps (World.step clock) World.Timely (start service mtProto) es) :
    (Run.run (World.step clock) (start service mtProto) es).LifeCycle :=
  (Run.invariant (step_sound clock) es (start_sound service mtProto) h).lifeCycle

/-- A request of one byte whose answer is only noticed. -/
def sampleRequest : NewRequest Unit :=
  ⟨{ internalId := 1, payload := [0x7a], responseParser := fun _ => some () }, rfl⟩

/-- A connection opens, a request is added, and the transport asks for it. -/
def sampleOpening : List (WorldEvent Unit) :=
  [.connectionOpened 7, .addRequest sampleRequest,
    .transportReady 0 [] [] { messageTransactions := [], messageSalt := 1 }]

def sampleWorld : World Unit :=
  Run.run (step runningClock) (start {} (MTProto.start 7 false)) sampleOpening

theorem sampleWorld_fields : ∃ p r, sampleWorld.pending = [p] ∧ p.payloads = [[0]]
    ∧ p.transport = 0 ∧ p.transaction.requestInternalIdToMessageInternalId = [(1, 0)]
    ∧ (p.preparedMessage 0).isSome ∧ sampleWorld.service.requests = [r] ∧ r.internalId = 1
    ∧ sampleWorld.transport = 0 ∧ sampleWorld.connections = [7] := by
  simp [sampleWorld, sampleOpening, sampleRequest, step, start, transportReady, askService, serve,
    transact, handedOver, MTRequestMessageService.addRequest,
    MTRequestMessageService.mtProtoMessageTransaction, MTRequestMessageService.sendable,
    MTRequestMessageService.prepared,
    MTRequest.idle, MTRequest.parked, MTRequestMessageService.outgoingMessage,
    MTRequestMessageService.decorateRequestData, MTRequestMessageService.dependency,
    MTRequestMessageService.requestsWillInitializeApi,
    MTProto.transaction, MTProto.payloads, MTProto.containers,
    MTProto.prepareAll, MTProto.start, Preparation.prepareTransaction,
    Preparation.prepare, Preparation.number, SessionInfo.generateClientMessageId,
    alignClientMessageId_eq, runningClock, SessionInfo.takeSeqNo, orderMessages, takeContainer,
    dataForContainers, dataForContainer, MTMaxContainerSize,
    OutgoingMessage.decoratedData]
/-- The transport takes the one payload. -/
theorem lifeCycle_runs_sample :
    (Run.run (step runningClock) (start {} (MTProto.start 7 false))
      (sampleOpening ++ [.completion 0 0 (some 7)])).LifeCycle := by
  obtain ⟨p, r, hp, -, ht, -, -, -, -, hw, hc⟩ := sampleWorld_fields
  refine lifeCycle_runs runningClock {} (MTProto.start 7 false) _
    ((Run.allSteps_append _ _ _ _ _).2 ⟨⟨trivial, trivial, trivial, trivial⟩, ?_, trivial⟩)
  intro q hq
  change sampleWorld.pending[0]? = some q at hq
  rw [hp] at hq
  cases hq
  exact ⟨ht.trans hw.symm, hc ▸ List.mem_singleton.2 rfl⟩

/-- The transport is replaced while its connection still takes the payload: the request is held by a
connection that nothing will report any more. -/
theorem replaced_transport_strands :
    ¬ (Run.run (step runningClock) (start {} (MTProto.start 7 false))
      (sampleOpening ++ [.transportReplaced, .completion 0 0 (some 7)])).LifeCycle := by
  intro h
  obtain ⟨p, r, hp, hpay, ht, hmap, hm, hr, hid, hw, -⟩ := sampleWorld_fields
  obtain ⟨m, hm⟩ := Option.isSome_iff_exists.1 hm
  rw [Run.run_append] at h
  change (sampleWorld.replaceTransport.completion 0 0 (some 7)).LifeCycle at h
  have hacc := h.accounted
  simp [completion, replaceTransport, hp, hpay, ht, hmap, hm, hr, hid, hw,
    MTRequestMessageService.completion, MTRequestMessageService.allTransactionsMayHaveFailed,
    MTRequestMessageService.forgetTransactions, MTRequest.updateContext, MTRequest.idle,
    InFlight, Live] at hacc

end World

end Runs

end Onegram.Mtp
