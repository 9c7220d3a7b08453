import Onegram.Proofs.MessageIds
import Onegram.Proofs.RequestRun

/-!
# Requests that wait for other requests

A request is wrapped with the id of the closest earlier request it depends on: the one in that
request's context, or the one its message gets in the same transaction. A request without a context
that is not in the transaction has no id to wrap with, and what depends on it goes out as it is.
-/

namespace Onegram.Mtp

variable {ρ : Type}

/-! ## What a transaction puts on the wire -/

def Payload.messages : Payload → List PreparedMessage
  | .message _ m => [m]
  | .container _ _ _ _ messages => messages
  | .plain m => [m]
  | .service .. => []

section Wire

variable (clock : Nat → Int)

/-- The messages that one request of the transport puts on the wire. -/
def MTProto.sent (p : MTProto) (r : TransactionRequest) : List PreparedMessage :=
  ((p.transaction clock r).wire.drop p.wire.length).flatMap fun t => t.payload.messages

/-- The transport gets what was prepared. -/
structure MTProto.HandsOver (p : MTProto) (r : TransactionRequest) : Prop where
  inOrder : (p.prepareAll clock r).monotonityViolated = false
  salted : p.useUnauthorizedMode = true ∨ r.messageSalt ≠ 0 ∧ r.keyed = true
  ready : r.transactionReady = true

theorem dataForContainer_messages (keyed : Bool) (s : SessionInfo)
    (messages : List PreparedMessage) :
    (dataForContainer clock keyed s messages).1.toList.flatMap Payload.messages
      = if keyed then messages else [] := by
  match messages with
  | [] => simp [dataForContainer]
  | [m] => cases keyed <;> simp [dataForContainer, Payload.messages]
  | m :: m' :: rest =>
    simp only [dataForContainer, dataForEncryptedContainerWithMessages]
    cases keyed <;> simp [Payload.messages]

theorem dataForContainers_messages (keyed : Bool) :
    ∀ (s : SessionInfo) (containers : List (List PreparedMessage)),
      (dataForContainers clock keyed s containers).1.flatMap (fun q => q.1.messages)
        = if keyed then containers.flatten else []
  | s, [] => by simp [dataForContainers]
  | s, messages :: rest => by
    have hfirst := dataForContainer_messages clock keyed s messages
    have hrest := dataForContainers_messages keyed (dataForContainer clock keyed s messages).2 rest
    simp only [dataForContainers, List.flatMap_append, List.flatten_cons, hrest]
    have hmap : ((dataForContainer clock keyed s messages).1.map
          (·, messages.map (·.messageInternalId))).toList.flatMap (fun q => q.1.messages)
        = (dataForContainer clock keyed s messages).1.toList.flatMap Payload.messages := by
      rcases (dataForContainer clock keyed s messages).1 <;> rfl
    rw [hmap, hfirst]
    cases keyed <;> simp

theorem sent_eq_nil {p : MTProto} {r : TransactionRequest} (h : ¬ p.HandsOver clock r) :
    p.sent clock r = [] := by
  unfold MTProto.sent MTProto.transaction
  simp only []
  split_ifs with hviolated hsalt
  · simp
  · simp
  · have hkeyed : p.useUnauthorizedMode = false ∧ r.keyed = false := by
      by_contra hk
      refine h ⟨by simpa using hviolated, ?_, ?_⟩
      · cases hmode : p.useUnauthorizedMode
        · exact .inr (by simp_all)
        · exact .inl rfl
      · simp_all
    simp only [List.drop_left, List.flatMap_map]
    unfold MTProto.payloads
    rw [if_neg (by simp [hkeyed.1])]
    have hnone := dataForContainers_messages clock r.keyed (p.prepareAll clock r).session
      (p.containers clock r)
    rw [hkeyed.2] at hnone ⊢
    exact hnone

theorem sent_perm {p : MTProto} {r : TransactionRequest} (h : p.HandsOver clock r) :
    (p.sent clock r).Perm (p.prepareAll clock r).transactionMessageList := by
  have hready := h.ready
  have hgo : ((!p.useUnauthorizedMode && r.messageSalt == 0) || !r.transactionReady) = false := by
    rcases h.salted with hmode | ⟨hsalt, -⟩
    · simp [hmode, hready]
    · simp [hsalt, hready]
  have horder := orderMessages_perm r.forceConfirmations
    (p.prepareAll clock r).transactionMessageList
  unfold MTProto.sent MTProto.transaction
  simp only []
  rw [if_neg (by simp [h.inOrder]), if_neg (by simp [hgo])]
  simp only [List.drop_left, List.flatMap_map]
  unfold MTProto.payloads
  cases hmode : p.useUnauthorizedMode
  · have hkeyed : r.keyed = true := by
      rcases h.salted with hmode' | ⟨-, hkeyed⟩
      · simp_all
      · exact hkeyed
    rw [if_neg (by simp), dataForContainers_messages, if_pos hkeyed, MTProto.containers,
      packContainers_flatten]
    exact horder
  · simp only [if_true, List.flatMap_map, Payload.messages, List.flatMap_singleton']
    exact horder

end Wire

/-! ## Preparing -/

section Preparing

variable (clock : Nat → Int) (useUnauthorizedMode : Bool) (messageSalt : Int)

/-- Between two points of the loop the messages with these internal ids are prepared, and no
others. -/
structure Grows (ids : List Nat) (p p' : Preparation) : Prop where
  before : p'.monotonityViolated = false → p.monotonityViolated = false
  appended : p'.monotonityViolated = false → ∃ new,
    p'.transactionMessageList = p.transactionMessageList ++ new
      ∧ (∀ m ∈ new, m.messageInternalId ∈ ids)
      ∧ (∀ id ∉ ids, p'.messageInternalIdToPreparedMessage id
        = p.messageInternalIdToPreparedMessage id)
      ∧ ∀ id ∈ ids, ∃ m ∈ new, p'.messageInternalIdToPreparedMessage id = some m
        ∧ m.messageInternalId = id

variable {ids ids' : List Nat} {p p' p'' : Preparation}

theorem Grows.refl (p : Preparation) : Grows [] p p where
  before := id
  appended := fun _ => ⟨[], by simp, by simp, fun _ _ => rfl, by simp⟩

theorem Grows.trans (h : Grows ids p p') (h' : Grows ids' p' p'') : Grows (ids ++ ids') p p'' where
  before := fun hok => h.before (h'.before hok)
  appended := by
    intro hok
    obtain ⟨new, hlist, hnew, hkeep, hmap⟩ := h.appended (h'.before hok)
    obtain ⟨new', hlist', hnew', hkeep', hmap'⟩ := h'.appended hok
    refine ⟨new ++ new', by rw [hlist', hlist, List.append_assoc], ?_, ?_, ?_⟩
    · intro m hm
      rcases List.mem_append.mp hm with hm | hm
      · exact List.mem_append_left _ (hnew m hm)
      · exact List.mem_append_right _ (hnew' m hm)
    · intro id hid
      rw [List.mem_append, not_or] at hid
      rw [hkeep' id hid.2, hkeep id hid.1]
    · intro id hid
      by_cases hlast : id ∈ ids'
      · obtain ⟨m, hm, heq, hmid⟩ := hmap' id hlast
        exact ⟨m, List.mem_append_right _ hm, heq, hmid⟩
      · obtain ⟨m, hm, heq, hmid⟩ := hmap id ((List.mem_append.mp hid).resolve_right hlast)
        exact ⟨m, List.mem_append_left _ hm, by rw [hkeep' id hlast, heq], hmid⟩

/-- One message. -/
theorem prepare_ok {m : OutgoingMessage}
    (h : (p.prepare clock useUnauthorizedMode messageSalt m).monotonityViolated = false) :
    p.monotonityViolated = false ∧ ∃ q : PreparedMessage,
      (p.prepare clock useUnauthorizedMode messageSalt m).transactionMessageList
          = p.transactionMessageList ++ [q]
        ∧ (p.prepare clock useUnauthorizedMode messageSalt m).messageInternalIdToPreparedMessage
          = Function.update p.messageInternalIdToPreparedMessage m.internalId (some q)
        ∧ q.messageInternalId = m.internalId
        ∧ q.data = m.decoratedData p.messageInternalIdToPreparedMessage := by
  have hfields : (p.number clock m).2.2.transactionMessageList = p.transactionMessageList
      ∧ (p.number clock m).2.2.messageInternalIdToPreparedMessage
        = p.messageInternalIdToPreparedMessage
      ∧ ((p.number clock m).2.2.monotonityViolated = false → p.monotonityViolated = false) := by
    unfold Preparation.number
    split
    · exact ⟨rfl, rfl, fun hv => (Bool.or_eq_false_iff.mp hv).1⟩
    · exact ⟨rfl, rfl, id⟩
  obtain ⟨hlist, hmap, hbefore⟩ := hfields
  unfold Preparation.prepare at h ⊢
  simp only [] at h ⊢
  have hok : (p.number clock m).2.2.monotonityViolated = false := by
    split_ifs at h <;> exact h
  rw [if_pos (by simp [hok])]
  refine ⟨hbefore hok, _, congrArg (· ++ [_]) hlist, ?_, rfl, rfl⟩
  simp only [hmap]

theorem grows_prepare (p : Preparation) (m : OutgoingMessage) :
    Grows [m.internalId] p (p.prepare clock useUnauthorizedMode messageSalt m) where
  before := fun h => (prepare_ok clock useUnauthorizedMode messageSalt h).1
  appended := by
    intro h
    obtain ⟨-, q, hlist, hmap, hid, -⟩ := prepare_ok clock useUnauthorizedMode messageSalt h
    refine ⟨[q], hlist, ?_, ?_, ?_⟩
    · intro m' hm'
      rw [List.mem_singleton.mp hm', hid]
      exact List.mem_singleton_self _
    · intro id hne
      rw [hmap, Function.update_of_ne (by simpa using hne)]
    · intro id heq
      obtain rfl := List.mem_singleton.mp heq
      exact ⟨q, List.mem_singleton_self q, by rw [hmap, Function.update_self], hid⟩

theorem grows_foldl : ∀ (messages : List OutgoingMessage) (p : Preparation),
    Grows (messages.map (·.internalId)) p
      (messages.foldl (Preparation.prepare clock useUnauthorizedMode messageSalt) p)
  | [], p => Grows.refl p
  | m :: rest, p =>
    (grows_prepare clock useUnauthorizedMode messageSalt p m).trans (grows_foldl rest _)

theorem grows_transaction (parity : Bool) (p : Preparation) (payload : List OutgoingMessage) :
    Grows (payload.map (·.internalId)) p
      (p.prepareTransaction clock useUnauthorizedMode messageSalt parity payload) := by
  have h := grows_foldl clock useUnauthorizedMode messageSalt payload p
  unfold Preparation.prepareTransaction
  simp only []
  split
  · exact ⟨h.before, h.appended⟩
  · exact h

/-- From the middle of a payload to its end. -/
theorem grows_rest (parity : Bool) (p : Preparation) (messages : List OutgoingMessage)
    (m : OutgoingMessage) (rest : List OutgoingMessage) :
    Grows (rest.map (·.internalId))
      ((messages.foldl (Preparation.prepare clock useUnauthorizedMode messageSalt) p).prepare clock
        useUnauthorizedMode messageSalt m)
      (p.prepareTransaction clock useUnauthorizedMode messageSalt parity
        (messages ++ m :: rest)) := by
  have h := grows_foldl clock useUnauthorizedMode messageSalt rest
    ((messages.foldl (Preparation.prepare clock useUnauthorizedMode messageSalt) p).prepare clock
      useUnauthorizedMode messageSalt m)
  unfold Preparation.prepareTransaction
  rw [List.foldl_append, List.foldl_cons]
  simp only []
  split
  · exact ⟨h.before, h.appended⟩
  · exact h

theorem grows_transactions (parity : Bool) : ∀ (transactions : List (List OutgoingMessage))
    (p : Preparation), Grows (transactions.flatten.map (·.internalId)) p
      (transactions.foldl
        (Preparation.prepareTransaction clock useUnauthorizedMode messageSalt parity) p)
  | [], p => Grows.refl p
  | payload :: rest, p => by
    rw [List.flatten_cons, List.map_append]
    exact (grows_transaction clock useUnauthorizedMode messageSalt parity p payload).trans
      (grows_transactions parity rest _)

end Preparing

/-! ## One message of a transaction -/

section OneMessage

variable (clock : Nat → Int)

/-- The point of the loop before a message of a transaction. -/
def MTProto.prepareUpTo (p : MTProto) (r : TransactionRequest) (before : List (List OutgoingMessage))
    (messages : List OutgoingMessage) : Preparation :=
  let salt := if p.useUnauthorizedMode then 0 else r.messageSalt
  messages.foldl (Preparation.prepare clock p.useUnauthorizedMode salt)
    (before.foldl (Preparation.prepareTransaction clock p.useUnauthorizedMode salt
      r.needsParityCorrection) { session := p.sessionInfo })

variable {p : MTProto} {r : TransactionRequest} {before after : List (List OutgoingMessage)}
  {messages rest : List OutgoingMessage} {m : OutgoingMessage}

/-- What happened up to a message, the message, and what comes after it. -/
theorem prepareAll_split
    (hr : r.messageTransactions = before ++ (messages ++ m :: rest) :: after) :
    let salt := if p.useUnauthorizedMode then 0 else r.messageSalt
    Grows (before.flatten.map (·.internalId) ++ messages.map (·.internalId))
        { session := p.sessionInfo } (p.prepareUpTo clock r before messages)
      ∧ Grows (rest.map (·.internalId) ++ after.flatten.map (·.internalId))
        ((p.prepareUpTo clock r before messages).prepare clock p.useUnauthorizedMode salt m)
        (p.prepareAll clock r) := by
  intro salt
  have hbefore := grows_transactions clock p.useUnauthorizedMode salt r.needsParityCorrection before
    { session := p.sessionInfo }
  have hmessages := grows_foldl clock p.useUnauthorizedMode salt messages
    (before.foldl (Preparation.prepareTransaction clock p.useUnauthorizedMode salt
      r.needsParityCorrection) { session := p.sessionInfo })
  refine ⟨hbefore.trans hmessages, ?_⟩
  unfold MTProto.prepareAll
  rw [hr, List.foldl_append, List.foldl_cons]
  exact (grows_rest clock p.useUnauthorizedMode salt r.needsParityCorrection _ messages m rest).trans
    (grows_transactions clock p.useUnauthorizedMode salt r.needsParityCorrection after _)

/-- The message in the list, with the data its decorator makes of the messages before it; no other
message has its internal id. -/
theorem prepared_unique (hr : r.messageTransactions = before ++ (messages ++ m :: rest) :: after)
    (hok : (p.prepareAll clock r).monotonityViolated = false)
    (hbefore : m.internalId ∉ before.flatten.map (·.internalId) ++ messages.map (·.internalId))
    (hafter : m.internalId ∉ rest.map (·.internalId) ++ after.flatten.map (·.internalId)) :
    ∃ q ∈ (p.prepareAll clock r).transactionMessageList, q.messageInternalId = m.internalId
      ∧ q.data = m.decoratedData
        (p.prepareUpTo clock r before messages).messageInternalIdToPreparedMessage
      ∧ ∀ q' ∈ (p.prepareAll clock r).transactionMessageList,
        q'.messageInternalId = m.internalId → q' = q := by
  obtain ⟨hupTo, hlater⟩ := prepareAll_split (p := p) clock hr
  obtain ⟨new', hlist', hnew', -, -⟩ := hlater.appended hok
  obtain ⟨hok', q, hlist, -, hid, hdata⟩ := prepare_ok clock _ _ (hlater.before hok)
  obtain ⟨new, hlist₀, hnew, -, -⟩ := hupTo.appended hok'
  rw [hlist, hlist₀, List.nil_append] at hlist'
  refine ⟨q, ?_, hid, hdata, ?_⟩
  · rw [hlist']
    simp
  · intro q' hq' hid'
    rw [hlist', List.mem_append, List.mem_append, List.mem_singleton] at hq'
    rcases hq' with (hq' | hq') | hq'
    · exact absurd (hid' ▸ hnew q' hq') hbefore
    · exact hq'
    · exact absurd (hid' ▸ hnew' q' hq') hafter

/-- What a decorator finds of a message that comes before it. -/
theorem prepared_earlier (hr : r.messageTransactions = before ++ (messages ++ m :: rest) :: after)
    (hok : (p.prepareAll clock r).monotonityViolated = false) {id : Nat}
    (hid : id ∈ messages.map (·.internalId)) :
    ∃ q ∈ (p.prepareAll clock r).transactionMessageList, q.messageInternalId = id
      ∧ (p.prepareUpTo clock r before messages).messageInternalIdToPreparedMessage id = some q := by
  obtain ⟨hupTo, hlater⟩ := prepareAll_split (p := p) clock hr
  obtain ⟨new', hlist', -, -, -⟩ := hlater.appended hok
  obtain ⟨hok', q, hlist, -, -, -⟩ := prepare_ok clock _ _ (hlater.before hok)
  obtain ⟨new, hlist₀, -, -, hmap⟩ := hupTo.appended hok'
  obtain ⟨q', hq', heq, hid'⟩ := hmap id (List.mem_append_right _ hid)
  refine ⟨q', ?_, hid', heq⟩
  rw [hlist', hlist, hlist₀]
  simp [hq']

end OneMessage

/-! ## The requests -/

namespace MTRequest

def dependsOn (r another : MTRequest ρ) : Bool :=
  r.shouldDependOnRequest.any (· another.internalId)

end MTRequest

namespace MTRequestMessageService

variable (s : MTRequestMessageService ρ) (now : Int)

/-- The data of a request but for what it waits for. -/
def requestData (r : MTRequest ρ) : List UInt8 :=
  let currentData := r.payload
  let currentData := match s.apiEnvironment with
    | some e => if s.requestsWillInitializeApi then e.initConnection ++ currentData else currentData
    | none => currentData
  if s.apiEnvironment.any (·.disableUpdates) || s.forceBackgroundRequests then
    [0xb7, 0x59, 0x94, 0xbf] ++ currentData
  else currentData

/-- The messages of the requests in the next transaction. -/
def messageInternalIds : List (Nat × Nat) :=
  ((s.sendable now).zipIdx s.nextMessageInternalId).map fun (r, id) => (r.internalId, id)

/-- `another` is the last request before `r` that `r` depends on. -/
def Closest (r another : MTRequest ρ) : Prop :=
  ∃ earlier between later, s.requests = earlier ++ another :: (between ++ r :: later)
    ∧ r.dependsOn another ∧ ∀ other ∈ between, ¬ r.dependsOn other

/-- The id of the request's message: the one it has, or the one it goes out under. -/
def SentUnder (wire : List PreparedMessage) (r : MTRequest ρ) (messageId : Int) : Prop :=
  match r.requestContext with
  | some c => messageId = c.messageId
  | none => ∃ m ∈ wire, (s.messageInternalIds now).lookup r.internalId = some m.messageInternalId
    ∧ messageId = m.messageId

/-- On the wire, what depends on an earlier request is wrapped with the id of the closest one. -/
def Ordered (wire : List PreparedMessage) : Prop :=
  ∀ r ∈ s.requests, ∀ m ∈ wire,
    (s.messageInternalIds now).lookup r.internalId = some m.messageInternalId →
    ∀ another, s.Closest r another → ∃ messageId,
      m.data = invokeAfterMsg messageId (s.requestData r) ∧ s.SentUnder now wire another messageId

/-- A request that is not sent for now, whatever its context. -/
def heldBack (r : MTRequest ρ) : Bool :=
  r.dependsOnPasswordEntry && s.passwordInputRequired || r.parked now

/-- What a request of the next transaction waits for has a message, or gets one with it. -/
def DependenciesReady : Prop :=
  ∀ r ∈ s.sendable now, ∀ another, s.Closest r another →
    another.requestContext ≠ none ∨ s.heldBack now another = false

variable {s now}

theorem decorateRequestData_eq (r : MTRequest ρ) :
    s.decorateRequestData r s.requestsWillInitializeApi = match s.dependency r with
      | none => (s.requestData r, none)
      | some another =>
        match another.requestContext with
        | some c => (invokeAfterMsg c.messageId (s.requestData r), none)
        | none => (s.requestData r, some another.internalId) := rfl

theorem invokeAfterMsg_ne (messageId : Int) (data : List UInt8) :
    invokeAfterMsg messageId data ≠ data := by
  intro h
  have hlength := congrArg List.length h
  simp only [invokeAfterMsg, List.length_append, List.length_cons] at hlength
  omega

/-- Requests have different internal ids, and so they are told apart. -/
theorem eq_of_id (hids : (s.requests.map (·.internalId)).Nodup) {r r' : MTRequest ρ}
    (hr : r ∈ s.requests) (hr' : r' ∈ s.requests) (h : r.internalId = r'.internalId) : r = r' :=
  List.inj_on_of_nodup_map hids hr hr' h

theorem dependency_closest (hids : (s.requests.map (·.internalId)).Nodup) {r another : MTRequest ρ}
    (h : s.Closest r another) : s.dependency r = some another := by
  obtain ⟨earlier, between, later, hsplit, hdep, hbetween⟩ := h
  have htake : s.requests.takeWhile (·.internalId != r.internalId)
      = earlier ++ another :: between := by
    have hassoc : s.requests = (earlier ++ another :: between) ++ r :: later := by
      rw [hsplit]
      simp
    have hne : ∀ x ∈ earlier ++ another :: between, (x.internalId != r.internalId) = true := by
      intro x hx
      rw [hassoc, List.map_append, List.map_cons] at hids
      have hdisjoint := (List.nodup_append'.mp hids).2.2
      rw [bne_iff_ne]
      intro heq
      exact hdisjoint (List.mem_map_of_mem hx) (heq ▸ List.mem_cons_self)
    rw [hassoc, List.takeWhile_append_of_pos hne, List.takeWhile_cons_of_neg (by simp),
      List.append_nil]
  unfold MTRequest.dependsOn at hdep hbetween
  unfold dependency
  rw [htake]
  obtain ⟨f, hf, hfa⟩ := (Option.any_eq_true _ _).mp hdep
  rw [hf] at hbetween ⊢
  simp only [Option.any_some] at hbetween
  rw [Option.bind_some, List.reverse_append, List.reverse_cons, List.append_assoc,
    List.find?_append]
  have hnone : between.reverse.find? (fun x => f x.internalId) = none := by
    rw [List.find?_eq_none]
    intro x hx
    exact hbetween x (List.mem_reverse.mp hx)
  rw [hnone, Option.none_or, List.singleton_append, List.find?_cons, hfa]

theorem sendable_of_lookup (hids : (s.requests.map (·.internalId)).Nodup) {r : MTRequest ρ}
    (hr : r ∈ s.requests) {id : Nat}
    (h : (s.messageInternalIds now).lookup r.internalId = some id) : r ∈ s.sendable now := by
  obtain ⟨l₁, l₂, heq, -⟩ := List.lookup_eq_some_iff.mp h
  have hmem : (r.internalId, id) ∈ s.messageInternalIds now := by
    rw [heq]
    simp
  obtain ⟨⟨r', id'⟩, hr', hpair⟩ := List.mem_map.mp hmem
  have hsend : r' ∈ s.sendable now := by
    have hz := List.mem_zipIdx hr'
    rw [hz.2.2]
    exact List.getElem_mem _
  have hr'' : r' ∈ s.requests := List.mem_of_mem_filter hsend
  rwa [← eq_of_id hids hr'' hr (congrArg Prod.fst hpair)]

/-- A request that is not in the transaction has no message in it. -/
theorem lookup_none (hids : (s.requests.map (·.internalId)).Nodup) {r : MTRequest ρ}
    (hr : r ∈ s.requests) (h : r ∉ s.sendable now) :
    (s.messageInternalIds now).lookup r.internalId = none := by
  rcases hlookup : (s.messageInternalIds now).lookup r.internalId with _ | id
  · rfl
  · exact absurd (sendable_of_lookup hids hr hlookup) h

/-- Without a context a request is sent unless it is held back. -/
theorem mem_sendable {r : MTRequest ρ} (hr : r ∈ s.requests) (hcontext : r.requestContext = none) :
    r ∈ s.sendable now ↔ s.heldBack now r = false := by
  have hidle : r.idle = true := by
    unfold MTRequest.idle
    rw [hcontext]
    rfl
  unfold sendable heldBack
  rw [List.mem_filter, hidle]
  cases r.dependsOnPasswordEntry <;> simp [hr]

/-- The transaction with one of its requests in the middle. -/
theorem transaction_split {r : MTRequest ρ} {front back : List (MTRequest ρ)}
    (hsplit : s.sendable now = front ++ r :: back) :
    ∃ t messages rest, s.mtProtoMessageTransaction now = some t
      ∧ t.messagePayload = messages
        ++ s.outgoingMessage (s.messageInternalIds now) r (s.nextMessageInternalId + front.length)
          :: rest
      ∧ messages.map (·.internalId) = List.range' s.nextMessageInternalId front.length
      ∧ s.nextMessageInternalId + front.length ∉ rest.map (·.internalId) := by
  have hrequests : (s.sendable now).zipIdx s.nextMessageInternalId
      = front.zipIdx s.nextMessageInternalId ++ (r, s.nextMessageInternalId + front.length)
        :: back.zipIdx (s.nextMessageInternalId + front.length + 1) := by
    rw [hsplit, List.zipIdx_append, List.zipIdx_cons]
  have hids : ∀ (l : List (MTRequest ρ)) (k : Nat), ((l.zipIdx k).map fun q =>
      s.outgoingMessage (s.messageInternalIds now) q.1 q.2).map (·.internalId)
        = List.range' k l.length := by
    intro l k
    rw [List.map_map, ← List.zipIdx_map_snd k l]
    rfl
  let drops := s.dropResponseContexts.zipIdx
    (s.nextMessageInternalId + ((s.sendable now).zipIdx s.nextMessageInternalId).length)
  unfold mtProtoMessageTransaction
  simp only []
  rw [if_neg (by simp [hrequests])]
  refine ⟨_, _, (back.zipIdx (s.nextMessageInternalId + front.length + 1)).map
    (fun q => s.outgoingMessage (s.messageInternalIds now) q.1 q.2)
      ++ drops.map fun q => dropMessage q.1 q.2, rfl, ?_, hids front _, ?_⟩
  · change ((s.sendable now).zipIdx s.nextMessageInternalId).map
      (fun q => s.outgoingMessage (s.messageInternalIds now) q.1 q.2)
        ++ drops.map (fun q => dropMessage q.1 q.2) = _
    rw [hrequests, List.map_append, List.map_cons, List.append_assoc, List.cons_append]
  · rw [List.map_append, hids, List.mem_append, not_or]
    refine ⟨fun hmem => absurd (List.mem_range'_1.mp hmem).1 (by omega), ?_⟩
    rw [List.map_map, List.mem_map]
    rintro ⟨⟨d, id⟩, hd, hid⟩
    have hle := (List.mem_zipIdx hd).1
    rw [hrequests] at hle
    simp only [List.length_append, List.length_zipIdx, List.length_cons] at hle
    have hid' : id = s.nextMessageInternalId + front.length := hid
    omega

/-- A dependency with a context has its id. -/
theorem decoratedData_context {r another : MTRequest ρ} {c : RequestContext}
    (h : s.dependency r = some another) (hcontext : another.requestContext = some c) (id : Nat)
    (prepared : Nat → Option PreparedMessage) :
    (s.outgoingMessage (s.messageInternalIds now) r id).decoratedData prepared
      = invokeAfterMsg c.messageId (s.requestData r) := by
  unfold OutgoingMessage.decoratedData outgoingMessage
  simp only [decorateRequestData_eq, h, hcontext]
  rfl

/-- A dependency without a context is looked for in the transaction. -/
theorem decoratedData_unresolved {r another : MTRequest ρ} (h : s.dependency r = some another)
    (hcontext : another.requestContext = none) (id : Nat)
    (prepared : Nat → Option PreparedMessage) :
    (s.outgoingMessage (s.messageInternalIds now) r id).decoratedData prepared =
      match ((s.messageInternalIds now).lookup another.internalId).bind prepared with
      | some m => invokeAfterMsg m.messageId (s.requestData r)
      | none => s.requestData r := by
  unfold OutgoingMessage.decoratedData outgoingMessage
  simp only [decorateRequestData_eq, h, hcontext, Option.map_some, Option.bind_some]
  rcases ((s.messageInternalIds now).lookup another.internalId).bind prepared <;> rfl

/-- The message a request of the transaction goes out under. -/
theorem lookup_split (hids : (s.requests.map (·.internalId)).Nodup) {r : MTRequest ρ}
    {front back : List (MTRequest ρ)} (hsplit : s.sendable now = front ++ r :: back) :
    (s.messageInternalIds now).lookup r.internalId
      = some (s.nextMessageInternalId + front.length) := by
  have hnodup : ((s.sendable now).map (·.internalId)).Nodup :=
    hids.sublist (List.filter_sublist.map _)
  rw [hsplit, List.map_append, List.map_cons] at hnodup
  have hnotin : r.internalId ∉ front.map (·.internalId) := fun hmem =>
    (List.nodup_append'.mp hnodup).2.2 hmem List.mem_cons_self
  rw [List.lookup_eq_some_iff]
  refine ⟨(front.zipIdx s.nextMessageInternalId).map fun q => (q.1.internalId, q.2),
    (back.zipIdx (s.nextMessageInternalId + front.length + 1)).map fun q => (q.1.internalId, q.2),
    ?_, ?_⟩
  · unfold messageInternalIds
    rw [hsplit, List.zipIdx_append, List.zipIdx_cons, List.map_append, List.map_cons]
  · intro q hq
    obtain ⟨⟨r', id⟩, hr', rfl⟩ := List.mem_map.mp hq
    have hr'' : r' ∈ front := by
      rw [(List.mem_zipIdx hr').2.2]
      exact List.getElem_mem _
    simp only [bne_iff_ne, ne_eq]
    intro heq
    exact hnotin (heq ▸ List.mem_map_of_mem hr'')

/-- A dependency that is sent is sent in front. -/
theorem closest_front {r another : MTRequest ρ} (h : s.Closest r another)
    (hr : r ∈ s.sendable now) (hanother : another ∈ s.sendable now) :
    ∃ front between back, s.sendable now = front ++ another :: (between ++ r :: back) := by
  obtain ⟨earlier, between, later, hsplit, -, -⟩ := h
  have hfilter : ∀ test : MTRequest ρ → Bool, test another = true → test r = true →
      s.requests.filter test
        = earlier.filter test ++ another :: (between.filter test ++ r :: later.filter test) := by
    intro test hanother hr
    rw [hsplit, List.filter_append, List.filter_cons_of_pos hanother, List.filter_append,
      List.filter_cons_of_pos hr]
  exact ⟨_, _, _, hfilter _ (List.mem_filter.mp hanother).2 (List.mem_filter.mp hr).2⟩

theorem Closest.mem {r another : MTRequest ρ} (h : s.Closest r another) : another ∈ s.requests := by
  obtain ⟨earlier, between, later, hsplit, -, -⟩ := h
  rw [hsplit]
  simp

end MTRequestMessageService

/-! ## A transaction -/

section Transaction

variable (clock : Nat → Int) {w : World ρ} {now : Int} {before after : List (List OutgoingMessage)}
  {r : TransactionRequest}

/-- The internal ids of messages are objects of their own: other services have none of these. -/
def World.OwnIds (w : World ρ) (now : Int) (before after : List (List OutgoingMessage)) : Prop :=
  ∀ t, w.service.mtProtoMessageTransaction now = some t →
    ∀ m ∈ t.messagePayload, m.internalId ∉ (before ++ after).flatten.map (·.internalId)

/-- The message a request of the transaction goes out in, and what its decorator sees. -/
theorem request_prepared (hown : w.OwnIds now before after)
    (hok : (w.mtProto.prepareAll clock (w.askService now before after r)).monotonityViolated
      = false)
    {x : MTRequest ρ} {front back : List (MTRequest ρ)}
    (hsplit : w.service.sendable now = front ++ x :: back) :
    let all := (w.mtProto.prepareAll clock (w.askService now before after r)).transactionMessageList
    let id := w.service.nextMessageInternalId + front.length
    ∃ (prepared : Nat → Option PreparedMessage), ∃ q ∈ all, q.messageInternalId = id
      ∧ q.data = (w.service.outgoingMessage (w.service.messageInternalIds now) x id).decoratedData
        prepared
      ∧ (∀ q' ∈ all, q'.messageInternalId = id → q' = q)
      ∧ ∀ earlier < front.length, ∃ q' ∈ all,
        q'.messageInternalId = w.service.nextMessageInternalId + earlier
        ∧ prepared (w.service.nextMessageInternalId + earlier) = some q' := by
  intro all id
  obtain ⟨t, messages, rest, ht, hpayload, hfront, hback⟩ :=
    MTRequestMessageService.transaction_split hsplit
  have hr : (w.askService now before after r).messageTransactions
      = before ++ (messages ++ w.service.outgoingMessage (w.service.messageInternalIds now) x id
        :: rest) :: after := by
    rw [← hpayload]
    simp only [World.askService, ht, Option.map_some, Option.toList_some, List.append_assoc,
      List.singleton_append]
  have hforeign : id ∉ (before ++ after).flatten.map (·.internalId) :=
    hown t ht (w.service.outgoingMessage (w.service.messageInternalIds now) x id)
      (by rw [hpayload]; simp [id])
  rw [List.flatten_append, List.map_append, List.mem_append, not_or] at hforeign
  obtain ⟨q, hq, hqid, hdata, hunique⟩ := prepared_unique clock hr hok
    (by
      rw [List.mem_append, not_or, hfront]
      refine ⟨hforeign.1, fun hmem => ?_⟩
      have hlt : id < w.service.nextMessageInternalId + front.length :=
        (List.mem_range'_1.mp hmem).2
      exact absurd hlt (by simp [id]))
    (by
      rw [List.mem_append, not_or]
      exact ⟨hback, hforeign.2⟩)
  refine ⟨_, q, hq, hqid, hdata, hunique, ?_⟩
  intro earlier hlt
  exact prepared_earlier clock hr hok
    (by rw [hfront]; exact List.mem_range'_1.mpr ⟨by omega, by omega⟩)

/-- What depends on a request that is held back without a context goes out as it is. -/
theorem heldBack_plain (hids : (w.service.requests.map (·.internalId)).Nodup)
    (hown : w.OwnIds now before after)
    (hover : w.mtProto.HandsOver clock (w.askService now before after r)) {x another : MTRequest ρ}
    (hx : x ∈ w.service.sendable now) (hclosest : w.service.Closest x another)
    (hcontext : another.requestContext = none) (hheld : w.service.heldBack now another = true) :
    ∃ q ∈ w.mtProto.sent clock (w.askService now before after r),
      (w.service.messageInternalIds now).lookup x.internalId = some q.messageInternalId
        ∧ q.data = w.service.requestData x := by
  have hunsent : another ∉ w.service.sendable now := by
    rw [MTRequestMessageService.mem_sendable hclosest.mem hcontext, hheld]
    simp
  obtain ⟨front, back, hsplit⟩ := List.append_of_mem hx
  obtain ⟨prepared, q, hq, hqid, hdata, -, -⟩ := request_prepared clock hown hover.inOrder hsplit
  rw [MTRequestMessageService.decoratedData_unresolved
    (MTRequestMessageService.dependency_closest hids hclosest) hcontext,
    MTRequestMessageService.lookup_none hids hclosest.mem hunsent, Option.bind_none] at hdata
  refine ⟨q, (sent_perm clock hover).mem_iff.mpr hq, ?_, hdata⟩
  rw [MTRequestMessageService.lookup_split hids hsplit, hqid]

/-- A transaction keeps the order of the requests unless it is handed over with a request whose
closest dependency is held back and has no message. -/
theorem ordered_iff (w : World ρ) (now : Int) (before after : List (List OutgoingMessage))
    (r : TransactionRequest) (hids : (w.service.requests.map (·.internalId)).Nodup)
    (hown : w.OwnIds now before after) :
    w.service.Ordered now (w.mtProto.sent clock (w.askService now before after r))
      ↔ (w.mtProto.HandsOver clock (w.askService now before after r) →
        w.service.DependenciesReady now) := by
  constructor
  · intro hordered hover x hx another hclosest
    by_contra hnot
    rw [not_or, not_not, Bool.not_eq_false] at hnot
    obtain ⟨hcontext, hheld⟩ := hnot
    obtain ⟨q, hq, hlookup, hdata⟩ :=
      heldBack_plain clock hids hown hover hx hclosest hcontext hheld
    obtain ⟨messageId, hwrapped, -⟩ := hordered x (List.mem_of_mem_filter hx) q hq hlookup another hclosest
    exact MTRequestMessageService.invokeAfterMsg_ne messageId _ (hwrapped.symm.trans hdata)
  · intro h x hx m hm hlookup another hclosest
    by_cases hover : w.mtProto.HandsOver clock (w.askService now before after r)
    · have hxs := MTRequestMessageService.sendable_of_lookup hids hx hlookup
      obtain ⟨front, back, hsplit⟩ := List.append_of_mem hxs
      obtain ⟨prepared, q, hq, hqid, hdata, hunique, hearlier⟩ :=
        request_prepared clock hown hover.inOrder hsplit
      have hdep := MTRequestMessageService.dependency_closest hids hclosest
      have hmq : m = q := by
        refine hunique m ((sent_perm clock hover).mem_iff.mp hm) ?_
        rw [MTRequestMessageService.lookup_split hids hsplit] at hlookup
        exact (Option.some.inj hlookup).symm
      subst hmq
      rcases hcontext : another.requestContext with _ | c
      · have hheld : w.service.heldBack now another = false :=
          (h hover x hxs another hclosest).resolve_left (by simp [hcontext])
        have hsent : another ∈ w.service.sendable now :=
          (MTRequestMessageService.mem_sendable hclosest.mem hcontext).mpr hheld
        obtain ⟨front', between, back', hsplit'⟩ :=
          MTRequestMessageService.closest_front hclosest hxs hsent
        have hanother := MTRequestMessageService.lookup_split hids hsplit'
        have hlt : front'.length < front.length := by
          have hassoc : w.service.sendable now
              = (front' ++ another :: between) ++ x :: back' := by
            rw [hsplit']
            simp
          have hfound := MTRequestMessageService.lookup_split hids hassoc
          rw [MTRequestMessageService.lookup_split hids hsplit] at hfound
          have hlength := Option.some.inj hfound
          simp only [List.length_append, List.length_cons] at hlength
          omega
        obtain ⟨q', hq', hid', hprepared⟩ := hearlier front'.length hlt
        refine ⟨q'.messageId, ?_, ?_⟩
        · rw [hdata, MTRequestMessageService.decoratedData_unresolved hdep hcontext, hanother,
            Option.bind_some, hprepared]
        · unfold MTRequestMessageService.SentUnder
          rw [hcontext]
          exact ⟨q', (sent_perm clock hover).mem_iff.mpr hq', by rw [hanother, hid'], rfl⟩
      · refine ⟨c.messageId, ?_, ?_⟩
        · rw [hdata, MTRequestMessageService.decoratedData_context hdep hcontext]
        · unfold MTRequestMessageService.SentUnder
          rw [hcontext]
    · rw [sent_eq_nil clock hover] at hm
      exact absurd hm List.not_mem_nil

end Transaction

namespace World

/-- A request that may only run after the request of `sampleRequest`. -/
def sampleDependent : NewRequest Unit :=
  ⟨{ internalId := 2, payload := [0x7b], responseParser := fun _ => some ()
     shouldDependOnRequest := some (· == 1) }, rfl⟩

/-- The first request is answered with a flood wait, then the second is added. -/
def floodWaiting : World Unit where
  service :=
    (MTRequestMessageService.receivedRpcResult
      { requests := [{ sampleRequest.1 with
          requestContext := some
            { messageId := 4, messageSeqNo := 1, transactionId := some ⟨0, 7⟩
              session := 0 } }] }
      4 0 0 (.error ⟨420, "FLOOD_WAIT_30"⟩)).addRequest sampleDependent
  mtProto := MTProto.start 7 false

theorem floodWaiting_requests : ∃ parked : MTRequest Unit,
    floodWaiting.service.requests = [parked, sampleDependent.1] ∧ parked.internalId = 1
      ∧ parked.requestContext = none ∧ floodWaiting.service.heldBack 0 parked = true :=
  ⟨_, rfl, rfl, rfl, by decide +kernel⟩

theorem floodWaiting_sendable : floodWaiting.service.sendable 0 = [sampleDependent.1] := by
  rfl

theorem floodWaiting_ownIds : floodWaiting.OwnIds 0 [] [] := by
  intro t ht m hm
  simp

theorem floodWaiting_nodup : (floodWaiting.service.requests.map (·.internalId)).Nodup := by
  decide +kernel

/-- The transport asks for a transaction. -/
def sampleAsk : TransactionRequest where
  messageTransactions := []
  messageSalt := 1

theorem floodWaiting_handsOver :
    floodWaiting.mtProto.HandsOver runningClock (floodWaiting.askService 0 [] [] sampleAsk) := by
  refine ⟨?_, .inr ⟨by decide, rfl⟩, rfl⟩
  obtain ⟨t, m, ht, hpayload, hm⟩ : ∃ t m,
      floodWaiting.service.mtProtoMessageTransaction 0 = some t ∧ t.messagePayload = [m]
        ∧ m.messageId = 0 := ⟨_, _, rfl, rfl, rfl⟩
  have hstart : floodWaiting.mtProto = MTProto.start 7 false := rfl
  simp [askService, sampleAsk, ht, hpayload, MTProto.prepareAll, Preparation.prepareTransaction,
    Preparation.prepare, Preparation.number, hm, SessionInfo.generateClientMessageId,
    SessionInfo.takeSeqNo, hstart, MTProto.start, runningClock]

theorem ordered_iff_floodWaiting :
    floodWaiting.service.Ordered 0
        (floodWaiting.mtProto.sent runningClock (floodWaiting.askService 0 [] [] sampleAsk))
      ↔ (floodWaiting.mtProto.HandsOver runningClock (floodWaiting.askService 0 [] [] sampleAsk) →
        floodWaiting.service.DependenciesReady 0) :=
  ordered_iff runningClock floodWaiting 0 [] [] sampleAsk floodWaiting_nodup floodWaiting_ownIds

/-- The second request goes out without the first and without a wrapper. -/
theorem floodWait_unordered : ¬ floodWaiting.service.Ordered 0
    (floodWaiting.mtProto.sent runningClock (floodWaiting.askService 0 [] [] sampleAsk)) := by
  intro hordered
  obtain ⟨parked, hrequests, hid, hcontext, hheld⟩ := floodWaiting_requests
  have hclosest : floodWaiting.service.Closest sampleDependent.1 parked :=
    ⟨[], [], [], hrequests, by simp [MTRequest.dependsOn, sampleDependent, hid], by simp⟩
  have hsent : sampleDependent.1 ∈ floodWaiting.service.sendable 0 := by
    rw [floodWaiting_sendable]
    exact List.mem_singleton_self _
  obtain ⟨q, hq, hlookup, hdata⟩ := heldBack_plain runningClock floodWaiting_nodup
    floodWaiting_ownIds floodWaiting_handsOver hsent hclosest hcontext hheld
  obtain ⟨messageId, hwrapped, -⟩ :=
    hordered sampleDependent.1 (by rw [hrequests]; simp) q hq hlookup parked hclosest
  exact MTRequestMessageService.invokeAfterMsg_ne messageId _ (hwrapped.symm.trans hdata)

end World

end Onegram.Mtp
