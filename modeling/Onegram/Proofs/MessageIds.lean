import Onegram.TransportTransaction
import Onegram.Lib.Issue
import Onegram.Lib.Run

/-!
# The ids a session puts on the wire

Messages are numbered under the monotonity flag, so those that are sent got rising ids. Containers,
time fix pings and key bindings are numbered without it: an id made while the clock is behind the
last one goes out all the same. The ids are those of an issuer exactly as far as that never happens.
-/

namespace Onegram.Mtp

/-- The ids the generator gave to messages of the list. -/
def freshIds (messages : List PreparedMessage) : List Int :=
  (messages.filter (·.fresh)).map (·.messageId)

/-- The freshly generated ids a payload carries. -/
def Payload.ids : Payload → List Int
  | .message _ m => freshIds [m]
  | .container _ messageId _ _ messages => freshIds messages ++ [messageId]
  | .plain m => freshIds [m]
  | .service _ messageId _ _ _ => [messageId]

def payloadIds (payloads : List Payload) : List Int := payloads.flatMap Payload.ids

def MTProto.wireIds (p : MTProto) : List Int := payloadIds (p.wire.map (·.payload))

/-- The id of a container is past the ids of the messages numbered for it. -/
def Payload.Above : Payload → Prop
  | .container _ messageId _ _ messages => ∀ m ∈ messages, m.fresh = true → m.messageId < messageId
  | _ => True

/-- What the ids of a session are to be. -/
structure MTProto.Numbered (p : MTProto) : Prop where
  distinct : p.wireIds.Nodup
  aligned : ∀ id ∈ p.wireIds, id % 4 = 0
  above : ∀ t ∈ p.wire, t.payload.Above

section Steady

variable (clock : Nat → Int)

/-- The clock is not behind the last id of the session. -/
def SessionInfo.OnTime (s : SessionInfo) : Prop := s.lastClientMessageId ≤ clock s.readings

/-- It is not when a container of several messages is numbered. -/
def SteadyContainers (keyed : Bool) : SessionInfo → List (List PreparedMessage) → Prop
  | _, [] => True
  | s, messages :: rest =>
    (1 < messages.length → s.OnTime clock)
      ∧ SteadyContainers keyed (dataForContainer clock keyed s messages).2 rest

/-- Whenever a step numbers without the flag, the clock is not behind the last id. -/
def MTProto.Steady (p : MTProto) : Event → Prop
  | .transaction r =>
    p.useUnauthorizedMode = false →
      SteadyContainers clock r.keyed (p.prepareAll clock r).session (p.containers clock r)
  | .timeFixPing .. => p.sessionInfo.OnTime clock
  | .bindTempAuthKey .. => p.sessionInfo.OnTime clock
  | .resetSessionInfo _ => True

end Steady

/-- Ids are handed out in steps of four. -/
abbrev Ids := Issue fun id : Int => id % 4 = 0

@[simp] theorem freshIds_nil : freshIds [] = [] := rfl

@[simp] theorem freshIds_append (l l' : List PreparedMessage) :
    freshIds (l ++ l') = freshIds l ++ freshIds l' := by
  simp [freshIds]

theorem freshIds_perm {l l' : List PreparedMessage} (h : l.Perm l') :
    (freshIds l).Perm (freshIds l') :=
  (h.filter _).map _

theorem mem_freshIds {l : List PreparedMessage} {m : PreparedMessage} (hm : m ∈ l)
    (hf : m.fresh = true) : m.messageId ∈ freshIds l :=
  List.mem_map_of_mem (List.mem_filter.2 ⟨hm, hf⟩)

@[simp] theorem payloadIds_nil : payloadIds [] = [] := rfl

@[simp] theorem payloadIds_append (l l' : List Payload) :
    payloadIds (l ++ l') = payloadIds l ++ payloadIds l' := by
  simp [payloadIds]

@[simp] theorem payloadIds_singleton (p : Payload) : payloadIds [p] = p.ids := by
  simp [payloadIds]

theorem payloadIds_plain : ∀ l : List PreparedMessage, payloadIds (l.map .plain) = freshIds l
  | [] => rfl
  | m :: l => by
    have ih := payloadIds_plain l
    simp only [payloadIds, List.map_cons, List.flatMap_cons] at ih ⊢
    rw [ih, Payload.ids, ← freshIds_append, List.singleton_append]

section Numbering

variable (clock : Nat → Int) (unauthorized : Bool) (salt : Int)

theorem generate_issue {s : SessionInfo} (h : s.OnTime clock) :
    Ids [] s.lastClientMessageId [(s.generateClientMessageId clock).1]
      (s.generateClientMessageId clock).1 :=
  Issue.single (generateClientMessageId_gt clock s h) (generateClientMessageId_mod clock s)

/-- What the numbering loop has made while the flag is down. -/
def Preparation.Rising (last : Int) (p : Preparation) : Prop :=
  p.monotonityViolated = false →
    Ids [] last (freshIds p.transactionMessageList) p.session.lastClientMessageId

theorem number_old {p : Preparation} {m : OutgoingMessage} (h : m.messageId ≠ 0) :
    p.number clock m = (m.messageId, m.messageSeqNo, p) := by
  unfold Preparation.number
  rw [if_neg h]

theorem number_new {p : Preparation} {m : OutgoingMessage} (h : m.messageId = 0) :
    (p.number clock m).1 = (p.session.generateClientMessageId clock).1
      ∧ (p.number clock m).2.2.session.lastClientMessageId
        = (p.session.generateClientMessageId clock).1
      ∧ (p.number clock m).2.2.transactionMessageList = p.transactionMessageList
      ∧ ((p.number clock m).2.2.monotonityViolated = false →
        p.monotonityViolated = false ∧ p.session.OnTime clock) := by
  unfold Preparation.number
  rw [if_pos h]
  refine ⟨rfl, by simp, rfl, fun hv => ?_⟩
  simp only [Bool.or_eq_false_iff] at hv
  refine ⟨hv.1, not_lt.1 fun hlt => ?_⟩
  rw [← generateClientMessageId_violated] at hlt
  exact absurd hlt (by simp [hv.2])

/-- The state after a message is prepared: its number, and the message on the list unless the flag
is up. -/
theorem prepare_fields (p : Preparation) (m : OutgoingMessage) :
    (p.prepare clock unauthorized salt m).session = (p.number clock m).2.2.session
      ∧ (p.prepare clock unauthorized salt m).monotonityViolated
        = (p.number clock m).2.2.monotonityViolated
      ∧ ((p.number clock m).2.2.monotonityViolated = false →
        ∃ pm : PreparedMessage, pm.messageId = (p.number clock m).1
          ∧ pm.fresh = decide (m.messageId = 0)
          ∧ (p.prepare clock unauthorized salt m).transactionMessageList
            = (p.number clock m).2.2.transactionMessageList ++ [pm]) := by
  unfold Preparation.prepare
  simp only []
  split
  · exact ⟨rfl, rfl, fun _ => ⟨_, rfl, rfl, rfl⟩⟩
  · refine ⟨rfl, rfl, fun hv => ?_⟩
    simp_all

theorem prepare_rising {last : Int} {p : Preparation} (h : p.Rising last) (m : OutgoingMessage) :
    (p.prepare clock unauthorized salt m).Rising last := by
  intro hv
  obtain ⟨hs, hm, hl⟩ := prepare_fields clock unauthorized salt p m
  rw [hm] at hv
  obtain ⟨pm, hid, hfresh, hlist⟩ := hl hv
  rw [hs, hlist, freshIds_append]
  by_cases h0 : m.messageId = 0
  · obtain ⟨hnid, hlast, hnl, hviol⟩ := number_new clock (p := p) h0
    obtain ⟨hv', hon⟩ := hviol hv
    rw [hlast, hnl, show freshIds [pm] = [(p.session.generateClientMessageId clock).1] by
      simp [freshIds, hfresh, h0, hid, hnid]]
    exact (h hv').append_new (generate_issue clock hon) List.nodup_nil
  · rw [number_old clock h0] at hv ⊢
    rw [show freshIds [pm] = [] by simp [freshIds, hfresh, h0], List.append_nil]
    exact h hv

theorem prepareTransaction_rising {last : Int} (parity : Bool) :
    ∀ (payload : List OutgoingMessage) {p : Preparation}, p.Rising last →
      (p.prepareTransaction clock unauthorized salt parity payload).Rising last := by
  intro payload p h
  have hfold : (payload.foldl (Preparation.prepare clock unauthorized salt) p).Rising last := by
    induction payload generalizing p with
    | nil => exact h
    | cons m payload ih => exact ih (prepare_rising clock unauthorized salt h m)
  unfold Preparation.prepareTransaction
  simp only []
  split <;> exact hfold

theorem prepareAll_rising (p : MTProto) (r : TransactionRequest) :
    (p.prepareAll clock r).Rising p.sessionInfo.lastClientMessageId := by
  unfold MTProto.prepareAll
  suffices hfold : ∀ (ts : List (List OutgoingMessage)) (q : Preparation),
      q.Rising p.sessionInfo.lastClientMessageId →
      (ts.foldl (Preparation.prepareTransaction clock p.useUnauthorizedMode
        (if p.useUnauthorizedMode then 0 else r.messageSalt) r.needsParityCorrection) q).Rising
          p.sessionInfo.lastClientMessageId from
    hfold _ _ fun _ => Issue.nil le_rfl
  intro ts
  induction ts with
  | nil => exact fun _ h => h
  | cons t ts ih => exact fun q h => ih _ (prepareTransaction_rising clock _ _ _ t h)

end Numbering

section Packing

theorem orderMessages_perm (force : Bool) (l : List PreparedMessage) :
    (orderMessages force l).Perm l := by
  unfold orderMessages
  split
  · exact .refl l
  · have hsort := l.perm_insertionSort fun m m' => m.messageId ≤ m'.messageId
    simp only []
    split
    · exact hsort
    · exact (List.filter_append_perm _ _).trans hsort

theorem packContainers_flatten (force : Bool) (l : List PreparedMessage) (high : Bool) :
    (packContainers force l high).flatten = l := by
  induction l, high using packContainers.induct force with
  | case1 high =>
    rw [packContainers, if_pos rfl]
    rfl
  | case2 l high h ih =>
    rw [packContainers, if_neg h, List.flatten_cons, ih, takeContainer_append, List.nil_append]

variable (clock : Nat → Int) (keyed : Bool)

theorem dataForContainer_issue {s : SessionInfo} {messages : List PreparedMessage}
    (hnodup : (freshIds messages).Nodup)
    (hold : ∀ id ∈ freshIds messages, id % 4 = 0 ∧ id ≤ s.lastClientMessageId)
    (hon : 1 < messages.length → s.OnTime clock) :
    Ids (freshIds messages) s.lastClientMessageId
        (payloadIds (dataForContainer clock keyed s messages).1.toList)
        (dataForContainer clock keyed s messages).2.lastClientMessageId
      ∧ ∀ payload ∈ (dataForContainer clock keyed s messages).1, payload.Above := by
  have hpass : Ids (freshIds messages) s.lastClientMessageId (freshIds messages)
      s.lastClientMessageId := Issue.pass hnodup (fun id h => (hold id h).1) fun id h => (hold id h).2
  match messages with
  | [] => exact ⟨Issue.nil le_rfl, by simp [dataForContainer]⟩
  | [m] =>
    cases keyed
    · exact ⟨Issue.nil le_rfl, by simp [dataForContainer]⟩
    · exact ⟨by simpa [dataForContainer, Payload.ids] using hpass,
        by simp [dataForContainer, Payload.Above]⟩
  | m :: m' :: rest =>
    have hgen := generate_issue clock (hon (by simp))
    have hlast : (dataForContainer clock keyed s (m :: m' :: rest)).2.lastClientMessageId
        = (s.generateClientMessageId clock).1 := by
      simp only [dataForContainer, dataForEncryptedContainerWithMessages, takeSeqNo_last]
      split <;> simp
    rw [hlast]
    cases keyed
    · exact ⟨Issue.nil hgen.le,
        by simp [dataForContainer, dataForEncryptedContainerWithMessages]⟩
    · simp only [dataForContainer, dataForEncryptedContainerWithMessages, if_true,
        Option.toList_some, payloadIds_singleton, Payload.ids, Option.mem_def, Option.some.injEq,
        forall_eq', Payload.Above]
      refine ⟨hpass.append_new hgen hnodup, fun x hx hf => ?_⟩
      exact (hold _ (mem_freshIds hx hf)).2.trans_lt
        (generateClientMessageId_gt clock s (hon (by simp)))

/-- Each container hands on the ids of its messages and adds its own, past all that came before. -/
theorem dataForContainers_issue : ∀ (containers : List (List PreparedMessage)) {s : SessionInfo},
    (freshIds containers.flatten).Nodup →
    (∀ id ∈ freshIds containers.flatten, id % 4 = 0 ∧ id ≤ s.lastClientMessageId) →
    SteadyContainers clock keyed s containers →
    Ids (freshIds containers.flatten) s.lastClientMessageId
        (payloadIds ((dataForContainers clock keyed s containers).1.map (·.1)))
        (dataForContainers clock keyed s containers).2.lastClientMessageId
      ∧ ∀ payload ∈ (dataForContainers clock keyed s containers).1, payload.1.Above
  | [], s, _, _, _ => ⟨Issue.nil le_rfl, by simp [dataForContainers]⟩
  | messages :: rest, s, hnodup, hold, hsteady => by
    simp only [List.flatten_cons, freshIds_append] at hnodup hold ⊢
    obtain ⟨hfirst, habove⟩ := dataForContainer_issue clock keyed (List.nodup_append'.1 hnodup).1
      (fun id h => hold id (List.mem_append_left _ h)) hsteady.1
    obtain ⟨hrest, habove'⟩ := dataForContainers_issue rest (List.nodup_append'.1 hnodup).2.1
      (fun id h => ⟨(hold id (List.mem_append_right _ h)).1,
        (hold id (List.mem_append_right _ h)).2.trans hfirst.le⟩) hsteady.2
    have happ := hfirst.append hrest hnodup fun id h => (hold id (List.mem_append_right _ h)).2
    simp only [dataForContainers, List.map_append, payloadIds_append, List.mem_append]
    refine ⟨?_, ?_⟩
    · convert happ using 2
      rcases (dataForContainer clock keyed s messages).1 <;> rfl
    · rintro payload (hp | hp)
      · rw [Option.mem_toList] at hp
        obtain ⟨q, hq, rfl⟩ := Option.map_eq_some_iff.1 hp
        exact habove q hq
      · exact habove' payload hp

end Packing

section Runs

variable (clock : Nat → Int)

/-- The ids on the wire are the session's, none past its last one. -/
def MTProto.Issued (p : MTProto) : Prop :=
  Ids p.wireIds p.sessionInfo.lastClientMessageId p.wireIds p.sessionInfo.lastClientMessageId
    ∧ ∀ t ∈ p.wire, t.payload.Above

theorem MTProto.Issued.numbered {p : MTProto} (h : p.Issued) : p.Numbered :=
  ⟨h.1.nodup, h.1.valid, h.2⟩

theorem issued_of_wire_nil {p : MTProto} (h : p.wire = []) : p.Issued := by
  unfold MTProto.Issued MTProto.wireIds
  rw [h]
  exact ⟨Issue.nil le_rfl, by simp⟩

/-- New ids after those of the wire. -/
theorem MTProto.Issued.extend {p q : MTProto} (h : p.Issued) {new : List TransportTransaction}
    (hwire : q.wire = p.wire ++ new)
    (hnew : Ids [] p.sessionInfo.lastClientMessageId (payloadIds (new.map (·.payload)))
      q.sessionInfo.lastClientMessageId)
    (habove : ∀ t ∈ new, t.payload.Above) : q.Issued := by
  have hids : q.wireIds = p.wireIds ++ payloadIds (new.map (·.payload)) := by
    unfold MTProto.wireIds
    rw [hwire, List.map_append, payloadIds_append]
  refine ⟨?_, fun t ht => ?_⟩
  · rw [hids]
    exact (h.1.append_new hnew h.1.nodup).settle
  · rw [hwire, List.mem_append] at ht
    exact ht.elim (h.2 t) (habove t)

theorem payloads_issue {p : MTProto} {r : TransactionRequest}
    (hv : (p.prepareAll clock r).monotonityViolated = false)
    (hsteady : p.Steady clock (.transaction r)) :
    Ids [] p.sessionInfo.lastClientMessageId (payloadIds ((p.payloads clock r).1.map (·.1)))
        (p.payloads clock r).2.lastClientMessageId
      ∧ ∀ payload ∈ (p.payloads clock r).1, payload.1.Above := by
  have hrise := prepareAll_rising clock p r hv
  have hperm := freshIds_perm (orderMessages_perm r.forceConfirmations
    (p.prepareAll clock r).transactionMessageList)
  have hlist : Ids [] p.sessionInfo.lastClientMessageId
      (freshIds (orderMessages r.forceConfirmations
        (p.prepareAll clock r).transactionMessageList))
      (p.prepareAll clock r).session.lastClientMessageId :=
    { le := hrise.le
      nodup := hperm.nodup_iff.2 hrise.nodup
      valid := fun id h => hrise.valid id (hperm.subset h)
      below := fun id h => hrise.below id (hperm.subset h)
      source := fun id h => hrise.source id (hperm.subset h) }
  unfold MTProto.payloads
  split_ifs with hu
  · refine ⟨?_, by simp [Payload.Above]⟩
    rw [List.map_map, Function.comp_def, payloadIds_plain]
    exact hlist
  · have hflat := packContainers_flatten r.forceConfirmations (orderMessages r.forceConfirmations
      (p.prepareAll clock r).transactionMessageList) false
    rw [← hflat] at hlist
    obtain ⟨hcont, habove⟩ := dataForContainers_issue clock r.keyed (p.containers clock r)
      hlist.nodup (fun id h => ⟨hlist.valid id h, hlist.below id h⟩) (hsteady (by simpa using hu))
    exact ⟨hlist.trans hcont, habove⟩

theorem transaction_issued {p : MTProto} (h : p.Issued) {r : TransactionRequest}
    (hsteady : p.Steady clock (.transaction r)) : (p.transaction clock r).Issued := by
  unfold MTProto.transaction
  simp only []
  split_ifs with hv hs
  · exact issued_of_wire_nil rfl
  · refine h.extend (List.append_nil _).symm (Issue.nil ?_) (by simp)
    exact (prepareAll_rising clock p r (by simpa using hv)).le
  · obtain ⟨hids, habove⟩ := payloads_issue clock (by simpa using hv) hsteady
    refine h.extend rfl ?_ fun t ht => ?_
    · simpa only [List.map_map, Function.comp_def] using hids
    · obtain ⟨payload, hp, rfl⟩ := List.mem_map.1 ht
      exact habove payload hp

theorem serviceMessage_issued {p : MTProto} (h : p.Issued)
    (hon : p.sessionInfo.OnTime clock) (meaningful sent : Bool) (salt : Int) (data : List UInt8) :
    (p.serviceMessage clock meaningful sent salt data).Issued := by
  have hgen := generate_issue clock hon
  have hlast : (p.serviceMessage clock meaningful sent salt data).sessionInfo.lastClientMessageId
      = (p.sessionInfo.generateClientMessageId clock).1 :=
    takeSeqNo_last (p.sessionInfo.generateClientMessageId clock).2.2 meaningful
  cases sent
  · refine h.extend (List.append_nil _).symm (Issue.nil ?_) (by simp)
    rw [hlast]
    exact hgen.le
  · refine h.extend rfl ?_ (by simp [Payload.Above])
    rw [hlast]
    exact hgen

theorem step_issued (p : MTProto) (e : Event) (h : p.Issued) (hsteady : p.Steady clock e) :
    (p.step clock e).Issued := by
  cases e with
  | transaction r => exact transaction_issued clock h hsteady
  | timeFixPing sent salt data => exact serviceMessage_issued clock h hsteady false sent salt data
  | bindTempAuthKey sent salt data => exact serviceMessage_issued clock h hsteady true sent salt data
  | resetSessionInfo sessionId => exact issued_of_wire_nil rfl

/-- `MTProto` before it has sent anything. -/
def MTProto.start (sessionId : Int) (useUnauthorizedMode : Bool) : MTProto :=
  { sessionInfo := { sessionId }, useUnauthorizedMode }

/-- As long as the clock is never behind the last id where a message is numbered without the flag,
every session's ids on the wire are distinct multiples of four, each container's past those of its
messages. -/
theorem numbered_runs (sessionId : Int) (useUnauthorizedMode : Bool) (es : List Event)
    (h : Run.AllSteps (MTProto.step clock) (MTProto.Steady clock)
      (MTProto.start sessionId useUnauthorizedMode) es) :
    (Run.run (MTProto.step clock) (MTProto.start sessionId useUnauthorizedMode) es).Numbered :=
  (Run.invariant (step_issued clock) es (issued_of_wire_nil rfl) h).numbered

/-- A message of four bytes. -/
def pingMessage (internalId : Nat) : OutgoingMessage :=
  { internalId, data := [0xec, 0x77, 0xbe, 0x7a] }

/-- Two messages at once, under a valid salt. -/
def pingPair : TransactionRequest :=
  { messageTransactions := [[pingMessage 1, pingMessage 2]], messageSalt := 1 }

/-- Each reading is `2 ^ 10` units past the one before. -/
def runningClock (n : Nat) : Int := 1700000000 * 2 ^ 32 + 2 ^ 10 * n

theorem steady_pingPair : (MTProto.start 7 false).Steady runningClock (.transaction pingPair) := by
  simp [MTProto.Steady, MTProto.containers, MTProto.prepareAll, MTProto.start, pingPair,
    pingMessage, Preparation.prepareTransaction, Preparation.prepare, Preparation.number,
    SessionInfo.generateClientMessageId, alignClientMessageId_eq, runningClock,
    SessionInfo.takeSeqNo, orderMessages, takeContainer, SteadyContainers, MTMaxContainerSize,
    SessionInfo.OnTime, OutgoingMessage.decoratedData]

theorem numbered_runs_sample :
    (Run.run (MTProto.step runningClock) (MTProto.start 7 false)
      [.transaction pingPair]).Numbered :=
  numbered_runs runningClock 7 false [.transaction pingPair] ⟨steady_pingPair, trivial⟩

/-- Each reading is the same, as it is for calls closer together than the clock's step. -/
def stoppedClock (_ : Nat) : Int := 1700000000 * 2 ^ 32

/-- The first message gets the time itself, the second the id after it, and the container, with the
clock behind that, the time once more. -/
theorem stoppedClock_wireIds :
    (Run.run (MTProto.step stoppedClock) (MTProto.start 7 false) [.transaction pingPair]).wireIds
      = [1700000000 * 2 ^ 32, 1700000000 * 2 ^ 32 + 4, 1700000000 * 2 ^ 32] := by
  simp [MTProto.step, MTProto.transaction, MTProto.payloads, MTProto.containers,
    MTProto.prepareAll, MTProto.start, pingPair, pingMessage, Preparation.prepareTransaction,
    Preparation.prepare, Preparation.number, SessionInfo.generateClientMessageId,
    alignClientMessageId_eq, stoppedClock, SessionInfo.takeSeqNo, orderMessages, takeContainer,
    dataForContainers, dataForContainer, dataForEncryptedContainerWithMessages,
    MTMaxContainerSize, MTProto.wireIds, payloadIds, Payload.ids, freshIds,
    OutgoingMessage.decoratedData]

theorem container_id_repeated :
    ¬ (Run.run (MTProto.step stoppedClock) (MTProto.start 7 false)
      [.transaction pingPair]).Numbered := fun h => by
  have := h.distinct
  rw [stoppedClock_wireIds] at this
  exact absurd this (by decide)

end Runs

end Onegram.Mtp
