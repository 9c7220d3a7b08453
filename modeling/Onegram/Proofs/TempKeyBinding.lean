import Onegram.TempKeyBinding

/-!
# What a temporary key is marked as bound for

The context of the pending request is the one thing that ties an answer to a key, and it does not
name the key. It is dropped whenever the transport or the session changes, so it is about the key in
use as long as no other key comes to be used beside it (`Aligned`). Two ways lead there: a
completion that comes late, and a key that comes while no key is known to be bound.

Any answer that is not an error marks the key: the parser gives a value for either `Bool`, and only
asks whether there is one.
-/

namespace Onegram.Mtp.TempKeyBinding

open State
open Run (run AllSteps)

/-! ## Statement -/

/-- The server has answered `boolTrue` to a request that was sent for the key. -/
def Earned (requests : List BindRequest) (m : Mark) : Prop :=
  m.signature = boolTrue ∧ ∃ r ∈ requests,
    r.messageId = m.requestMessageId ∧ r.tempAuthKeyId = m.tempAuthKeyId

instance (requests : List BindRequest) (m : Mark) : Decidable (Earned requests m) :=
  inferInstanceAs (Decidable (_ ∧ _))

/-- The message is not the answer `boolFalse` to the pending request, with a key to mark. -/
def NotRefused (s : State) (address : MTDatacenterAddress) (m : MTIncomingMessage) : Prop :=
  match m.body with
  | .rpcResult requestMessageId answer =>
    m.messageId ∉ s.processedMessageIds →
    s.bindingTempAuthKeyContext.any (·.messageId = requestMessageId) = true →
    (s.tempAuthKey address).isSome = true → answer.signature ≠ some boolFalse
  | _ => True

/-- The request is for the key in use and for the key that is being bound, if there are such. -/
def InTime (s : State) (r : BindRequest) : Prop :=
  match s.transport with
  | none => True
  | some t =>
    ((s.tempAuthKey t.address).all fun k => k.authKeyId = r.tempAuthKeyId) = true
      ∧ (s.bindingTempAuthKeyId ≠ 0 → s.bindingTempAuthKeyId = r.tempAuthKeyId)

/-- With no key known to be bound, the key that comes is not a new one to bind beside the pending
request. -/
def NoneBeside (s : State) (info : AuthInfo) : Prop :=
  match s.transport, s.bindingTempAuthKeyContext with
  | some t, some c =>
    s.bindingTempAuthKeyId = 0 →
      ((info.tempAuthKeyWithType t.address.tempAuthKeyType).all fun k =>
        !k.notBound || k.authKeyId = c.tempAuthKeyId) = true
  | _, _ => True

/-- The step is none of the three that lead to a key marked without its answer. -/
def Sound (s : State) (e : Event) : Prop :=
  match e.task, s.inHand with
  | .nextMessage, (address, m) :: _ => NotRefused s address m
  | .turn (.bindingCompletion i true (some _)), [] => ∀ r ∈ s.outstanding[i]?, InTime s r
  | .turn (.authInfoUpdated info), [] => NoneBeside s info
  | _, _ => True

instance (s : State) (address : MTDatacenterAddress) (m : MTIncomingMessage) :
    Decidable (NotRefused s address m) := by
  unfold NotRefused
  split <;> infer_instance

instance (s : State) (r : BindRequest) : Decidable (InTime s r) := by
  unfold InTime
  split <;> infer_instance

instance (s : State) (info : AuthInfo) : Decidable (NoneBeside s info) := by
  unfold NoneBeside
  split <;> infer_instance

instance (s : State) (e : Event) : Decidable (Sound s e) := by
  unfold Sound
  split <;> infer_instance

/-! ## The answer -/

theorem RpcAnswer.rpcResult_isSome {answer : RpcAnswer} {value : Bool}
    (h : answer.rpcResult = some value) :
    answer.signature = some boolFalse ∨ answer.signature = some boolTrue := by
  unfold rpcResult at h
  rcases hs : answer.signature with _ | signature
  · simp [hs] at h
  · simp only [hs] at h
    split_ifs at h with hfalse htrue
    · exact .inl (by rw [hfalse]; rfl)
    · exact .inr (by rw [htrue]; rfl)

/-! ## Steps that leave the binding alone -/

/-- All the binding depends on is as it was, but for the pending request, which may be dropped. -/
structure Keeps (s s' : State) : Prop where
  authInfo : s'.authInfo = s.authInfo
  transportScheme : s'.transportScheme = s.transportScheme
  transport : s'.transport = s.transport
  bindingTempAuthKeyId : s'.bindingTempAuthKeyId = s.bindingTempAuthKeyId
  inHand : s'.inHand = s.inHand
  requests : s'.requests = s.requests
  outstanding : s'.outstanding = s.outstanding
  marks : s'.marks = s.marks
  context : s'.bindingTempAuthKeyContext = s.bindingTempAuthKeyContext
    ∨ s'.bindingTempAuthKeyContext = none

namespace Keeps

variable {s s' s'' : State}

theorem refl (s : State) : Keeps s s := ⟨rfl, rfl, rfl, rfl, rfl, rfl, rfl, rfl, .inl rfl⟩

theorem trans (h : Keeps s s') (h' : Keeps s' s'') : Keeps s s'' where
  authInfo := h'.authInfo.trans h.authInfo
  transportScheme := h'.transportScheme.trans h.transportScheme
  transport := h'.transport.trans h.transport
  bindingTempAuthKeyId := h'.bindingTempAuthKeyId.trans h.bindingTempAuthKeyId
  inHand := h'.inHand.trans h.inHand
  requests := h'.requests.trans h.requests
  outstanding := h'.outstanding.trans h.outstanding
  marks := h'.marks.trans h.marks
  context := by
    rcases h'.context with hc | hc
    · rw [hc]
      exact h.context
    · exact .inr hc

theorem tempAuthKey (h : Keeps s s') (address : MTDatacenterAddress) :
    s'.tempAuthKey address = s.tempAuthKey address := by
  rw [State.tempAuthKey, State.tempAuthKey, h.authInfo]

theorem of_context (h : Keeps s s') {c : MTBindingTempAuthKeyContext}
    (hc : s'.bindingTempAuthKeyContext = some c) : s.bindingTempAuthKeyContext = some c := by
  rcases h.context with heq | heq
  · exact heq.symm.trans hc
  · simp [heq] at hc

end Keeps

section Frame

variable (cfg : Settings) (clock : ℕ → Int) (s : State)

theorem keeps_requestTransportTransaction : Keeps s s.requestTransportTransaction :=
  ⟨rfl, rfl, rfl, rfl, rfl, rfl, rfl, rfl, .inl rfl⟩

theorem keeps_allTransactionsMayHaveFailed : Keeps s s.allTransactionsMayHaveFailed := by
  unfold allTransactionsMayHaveFailed
  dsimp only
  split_ifs
  · exact .refl s
  · exact ⟨rfl, rfl, rfl, rfl, rfl, rfl, rfl, rfl, .inr rfl⟩
  · exact ⟨rfl, rfl, rfl, rfl, rfl, rfl, rfl, rfl, .inr rfl⟩

theorem keeps_transactionsMayHaveFailed (transactionIds : List ℕ) :
    Keeps s (s.transactionsMayHaveFailed transactionIds) := by
  have hdrop : ∀ (b : Bool) (o : Option MTBindingTempAuthKeyContext),
      (if b then none else o) = o ∨ (if b then none else o) = none := by
    intro b o
    cases b <;> simp
  unfold transactionsMayHaveFailed
  by_cases hstopped : s.mtState.stopped
  · rw [if_pos hstopped]
    exact .refl s
  · rw [if_neg hstopped]
    dsimp only
    generalize s.timeFixContext.any _ = timeFix
    generalize hb : s.bindingTempAuthKeyContext.any _ = binding
    cases (timeFix || binding) && !s.mtState.paused
    all_goals exact ⟨rfl, rfl, rfl, rfl, rfl, rfl, rfl, rfl, hdrop _ _⟩

theorem keeps_endBinding : Keeps s s.endBinding := by
  unfold endBinding
  split_ifs <;> exact ⟨rfl, rfl, rfl, rfl, rfl, rfl, rfl, rfl, .inl rfl⟩

theorem keeps_initiateTimeSync : Keeps s s.initiateTimeSync := by
  unfold initiateTimeSync
  split_ifs <;> exact ⟨rfl, rfl, rfl, rfl, rfl, rfl, rfl, rfl, .inl rfl⟩

theorem keeps_completeTimeSync : Keeps s s.completeTimeSync := by
  unfold completeTimeSync
  split_ifs <;> exact ⟨rfl, rfl, rfl, rfl, rfl, rfl, rfl, rfl, .inl rfl⟩

theorem keeps_requestTransactionIfAble : Keeps s s.requestTransactionIfAble := by
  unfold requestTransactionIfAble
  split_ifs <;> exact ⟨rfl, rfl, rfl, rfl, rfl, rfl, rfl, rfl, .inl rfl⟩

/-- The ping is answered: by a pong or, as far as the time goes, by what it was not accepted for. -/
theorem keeps_timeFixDone :
    Keeps s { s with timeFixContext := none }.completeTimeSync.requestTransactionIfAble := by
  have hdrop : Keeps s { s with timeFixContext := none } :=
    ⟨rfl, rfl, rfl, rfl, rfl, rfl, rfl, rfl, .inl rfl⟩
  exact (hdrop.trans (keeps_completeTimeSync _)).trans (keeps_requestTransactionIfAble _)

theorem keeps_receivedPong (messageId : Int) : Keeps s (s.receivedPong messageId) := by
  unfold receivedPong
  split_ifs
  · exact keeps_timeFixDone s
  · exact .refl s

theorem keeps_timeFixTransaction (address : MTDatacenterAddress) :
    Keeps s (s.timeFixTransaction cfg clock address) := by
  unfold timeFixTransaction
  split
  · exact .refl s
  · dsimp only
    split_ifs <;> exact ⟨rfl, rfl, rfl, rfl, rfl, rfl, rfl, rfl, .inl rfl⟩

theorem keeps_timeFixCompletion (i : ℕ) (success : Bool) (transactionId : Option ℕ) :
    Keeps s (s.timeFixCompletion i success transactionId) := by
  unfold timeFixCompletion
  split
  · exact .refl s
  · dsimp only
    split <;> exact ⟨rfl, rfl, rfl, rfl, rfl, rfl, rfl, rfl, .inl rfl⟩

end Frame

/-! ## The invariant -/

/-- What is pending or to be completed was sent, and what was marked was answered for. -/
structure Logged (s : State) : Prop where
  sent : ∀ c, s.bindingTempAuthKeyContext = some c →
    ∃ r ∈ s.requests, r.messageId = c.messageId ∧ r.tempAuthKeyId = c.tempAuthKeyId
  outstanding : ∀ r ∈ s.outstanding, r ∈ s.requests
  marks : ∀ m ∈ s.marks, Earned s.requests m

/-- With a transport, the pending request and the key being bound are those of the key in use; the
messages in hand are of the transport in use while a request is pending. -/
structure Aligned (s : State) : Prop where
  scheme : ∀ t, s.transport = some t → s.transportScheme = some t.address
  used : ∀ t c k, s.transport = some t → s.bindingTempAuthKeyContext = some c →
    s.tempAuthKey t.address = some k → c.tempAuthKeyId = k.authKeyId
  binding : ∀ t k, s.transport = some t → s.bindingTempAuthKeyId ≠ 0 →
    s.tempAuthKey t.address = some k → s.bindingTempAuthKeyId = k.authKeyId
  pending : ∀ t c, s.transport = some t → s.bindingTempAuthKeyId ≠ 0 →
    s.bindingTempAuthKeyContext = some c → c.tempAuthKeyId = s.bindingTempAuthKeyId
  inHand : ∀ p ∈ s.inHand, ∀ c, s.bindingTempAuthKeyContext = some c →
    ∃ t, s.transport = some t ∧ t.address = p.1

structure Inv (s : State) : Prop where
  logged : Logged s
  aligned : Aligned s

variable {s s' : State}

theorem Logged.of_same (h : Logged s) (hrequests : s'.requests = s.requests)
    (houtstanding : ∀ r ∈ s'.outstanding, r ∈ s.outstanding) (hmarks : s'.marks = s.marks)
    (hcontext : ∀ c, s'.bindingTempAuthKeyContext = some c →
      s.bindingTempAuthKeyContext = some c) : Logged s' where
  sent := fun c hc => hrequests ▸ h.sent c (hcontext c hc)
  outstanding := fun r hr => hrequests ▸ h.outstanding r (houtstanding r hr)
  marks := fun m hm => hrequests ▸ h.marks m (hmarks ▸ hm)

theorem Keeps.logged (hk : Keeps s s') (h : Logged s) : Logged s' :=
  h.of_same hk.requests (fun _ hr => hk.outstanding ▸ hr) hk.marks fun _ => hk.of_context

theorem Keeps.inv (hk : Keeps s s') (h : Inv s) : Inv s' where
  logged := hk.logged h.logged
  aligned := by
    obtain ⟨_, hscheme, hused, hbinding, hpending, hinHand⟩ := h
    refine ⟨?_, ?_, ?_, ?_, ?_⟩
    · rw [hk.transport, hk.transportScheme]
      exact hscheme
    · intro t c k ht hc hkey
      rw [hk.transport] at ht
      rw [hk.tempAuthKey] at hkey
      exact hused t c k ht (hk.of_context hc) hkey
    · intro t k ht
      rw [hk.transport] at ht
      rw [hk.bindingTempAuthKeyId, hk.tempAuthKey]
      exact hbinding t k ht
    · intro t c ht hne hc
      rw [hk.transport] at ht
      rw [hk.bindingTempAuthKeyId] at hne ⊢
      exact hpending t c ht hne (hk.of_context hc)
    · rw [hk.inHand, hk.transport]
      exact fun p hp c hc => hinHand p hp c (hk.of_context hc)

/-- Without a transport, and with nothing in hand while a request is pending, all is aligned. -/
theorem Aligned.of_noTransport (ht : s.transport = none)
    (hhand : ∀ p ∈ s.inHand, s.bindingTempAuthKeyContext = none) : Aligned s where
  scheme := by simp [ht]
  used := by simp [ht]
  binding := by simp [ht]
  pending := by simp [ht]
  inHand := fun p hp c hc => by simp [hhand p hp] at hc

/-! ## The check -/

section Check

variable (cfg : Settings) (address : MTDatacenterAddress) (s : State)

/-- All but the binding is as it was. -/
structure OnlyBinding (s s' : State) : Prop where
  authInfo : s'.authInfo = s.authInfo
  transportScheme : s'.transportScheme = s.transportScheme
  transport : s'.transport = s.transport
  inHand : s'.inHand = s.inHand
  requests : s'.requests = s.requests
  outstanding : s'.outstanding = s.outstanding
  marks : s'.marks = s.marks

theorem checkTempAuthKeyBinding_onlyBinding :
    OnlyBinding s (s.checkTempAuthKeyBinding cfg address) := by
  unfold checkTempAuthKeyBinding
  split
  · dsimp only
    split_ifs <;> exact ⟨rfl, rfl, rfl, rfl, rfl, rfl, rfl⟩
  · obtain ⟨h₁, h₂, h₃, _, h₅, h₆, h₇, h₈, _⟩ := keeps_endBinding
      { s with bindingTempAuthKeyId := 0, bindingTempAuthKeyContext := none }
    exact ⟨h₁, h₂, h₃, h₅, h₆, h₇, h₈⟩

theorem unboundTempAuthKey_some {cfg : Settings} {address : MTDatacenterAddress} {s : State}
    {k : TempAuthKey} (h : s.unboundTempAuthKey cfg address = some k) :
    s.tempAuthKey address = some k ∧ k.notBound = true := by
  unfold unboundTempAuthKey at h
  split_ifs at h
  exact Option.filter_eq_some_iff.mp h

/-- What is being bound after the check is the key in use. -/
theorem checkTempAuthKeyBinding_id
    (h : (s.checkTempAuthKeyBinding cfg address).bindingTempAuthKeyId ≠ 0) :
    ∃ k, s.tempAuthKey address = some k
      ∧ (s.checkTempAuthKeyBinding cfg address).bindingTempAuthKeyId = k.authKeyId := by
  unfold checkTempAuthKeyBinding at h ⊢
  rcases hk : s.unboundTempAuthKey cfg address with _ | k
  · simp only [hk] at h
    exact absurd (keeps_endBinding _).bindingTempAuthKeyId h
  · have hkey := (unboundTempAuthKey_some hk).1
    simp only [hk] at h ⊢
    refine ⟨k, hkey, ?_⟩
    by_cases hother : s.bindingTempAuthKeyId ≠ 0 ∧ s.bindingTempAuthKeyId ≠ k.authKeyId
    · rw [if_pos hother] at h ⊢
      split_ifs at h ⊢ with hbind
      · change ((s.tempAuthKey address).map (·.authKeyId)).getD 0 = _
        rw [hkey]
        rfl
      · exact absurd rfl h
    · rw [if_neg hother] at h ⊢
      split_ifs at h ⊢ with hbind
      · change ((s.tempAuthKey address).map (·.authKeyId)).getD 0 = _
        rw [hkey]
        rfl
      · exact not_not.mp fun hne => hother ⟨h, hne⟩

/-- A request is pending after the check only if it was before, with the key in use not bound and
either being bound already or none known to be. -/
theorem checkTempAuthKeyBinding_context {c : MTBindingTempAuthKeyContext}
    (h : (s.checkTempAuthKeyBinding cfg address).bindingTempAuthKeyContext = some c) :
    s.bindingTempAuthKeyContext = some c
      ∧ (s.checkTempAuthKeyBinding cfg address).bindingTempAuthKeyId = s.bindingTempAuthKeyId
      ∧ ∃ k, s.tempAuthKey address = some k ∧ k.notBound = true
        ∧ (s.bindingTempAuthKeyId ≠ 0 → s.bindingTempAuthKeyId = k.authKeyId) := by
  unfold checkTempAuthKeyBinding at h ⊢
  rcases hk : s.unboundTempAuthKey cfg address with _ | k
  · simp only [hk] at h
    exact absurd ((keeps_endBinding _).of_context h) (by simp)
  · obtain ⟨hkey, hunbound⟩ := unboundTempAuthKey_some hk
    simp only [hk] at h ⊢
    by_cases hother : s.bindingTempAuthKeyId ≠ 0 ∧ s.bindingTempAuthKeyId ≠ k.authKeyId
    · rw [if_pos hother] at h
      split_ifs at h
      simp [bindToPersistentKey] at h
    · rw [if_neg hother] at h ⊢
      split_ifs at h ⊢ with hbind
      · simp [bindToPersistentKey] at h
      · exact ⟨h, rfl, k, hkey, hunbound, fun hne => not_not.mp fun hk => hother ⟨hne, hk⟩⟩

theorem OnlyBinding.tempAuthKey {s s' : State} (h : OnlyBinding s s')
    (address : MTDatacenterAddress) : s'.tempAuthKey address = s.tempAuthKey address := by
  rw [State.tempAuthKey, State.tempAuthKey, h.authInfo]

/-- The check restores what the transport in use asks for, if the pending request is for the key in
use or another one is known to be bound. -/
theorem inv_checkTempAuthKeyBinding (hlog : Logged s)
    (hscheme : ∀ t, s.transport = some t → s.transportScheme = some t.address ∧ t.address = address)
    (hpending : ∀ t c, s.transport = some t → s.bindingTempAuthKeyId ≠ 0 →
      s.bindingTempAuthKeyContext = some c → c.tempAuthKeyId = s.bindingTempAuthKeyId)
    (hbeside : ∀ t c k, s.transport = some t → s.bindingTempAuthKeyContext = some c →
      s.bindingTempAuthKeyId = 0 → s.tempAuthKey address = some k → k.notBound = true →
      c.tempAuthKeyId = k.authKeyId)
    (hhand : ∀ p ∈ s.inHand, ∀ c, s.bindingTempAuthKeyContext = some c →
      ∃ t, s.transport = some t ∧ t.address = p.1) :
    Inv (s.checkTempAuthKeyBinding cfg address) := by
  have honly := checkTempAuthKeyBinding_onlyBinding cfg address s
  refine ⟨hlog.of_same honly.requests (fun _ hr => honly.outstanding ▸ hr) honly.marks
    fun c hc => (checkTempAuthKeyBinding_context cfg address s hc).1, ?_, ?_, ?_, ?_, ?_⟩
  · rw [honly.transport, honly.transportScheme]
    exact fun t ht => (hscheme t ht).1
  · intro t c k ht hc hk
    rw [honly.transport] at ht
    rw [honly.tempAuthKey, (hscheme t ht).2] at hk
    obtain ⟨hc₀, _, k', hk', hunbound, hid⟩ := checkTempAuthKeyBinding_context cfg address s hc
    obtain rfl : k' = k := Option.some.inj (hk'.symm.trans hk)
    by_cases hzero : s.bindingTempAuthKeyId = 0
    · exact hbeside t c k' ht hc₀ hzero hk hunbound
    · exact (hpending t c ht hzero hc₀).trans (hid hzero)
  · intro t k ht hne hk
    rw [honly.transport] at ht
    rw [honly.tempAuthKey, (hscheme t ht).2] at hk
    obtain ⟨k', hk', hid⟩ := checkTempAuthKeyBinding_id cfg address s hne
    obtain rfl : k' = k := Option.some.inj (hk'.symm.trans hk)
    exact hid
  · intro t c ht hne hc
    rw [honly.transport] at ht
    obtain ⟨hc₀, hid, _⟩ := checkTempAuthKeyBinding_context cfg address s hc
    rw [hid] at hne ⊢
    exact hpending t c ht hne hc₀
  · rw [honly.inHand, honly.transport]
    exact fun p hp c hc =>
      hhand p hp c (checkTempAuthKeyBinding_context cfg address s hc).1

end Check

/-! ## Transport and session -/

section Transport

variable (cfg : Settings) (context : MTContext)

theorem inv_setTransport_none (h : Inv s) : Inv (s.setTransport none) := by
  have hk := keeps_allTransactionsMayHaveFailed s
  refine ⟨h.logged.of_same hk.requests (fun _ hr => hk.outstanding ▸ hr) hk.marks fun c hc => ?_,
    .of_noTransport rfl fun _ _ => rfl⟩
  simp [setTransport] at hc

theorem inv_dropTransport (h : Inv s) :
    Inv (if s.transport.isSome then s.setTransport none else s) := by
  split_ifs
  · exact inv_setTransport_none h
  · exact h

theorem dropTransport_transport :
    (if s.transport.isSome then s.setTransport none else s).transport = none := by
  split_ifs with ht
  · rfl
  · simpa using ht

theorem inv_resetTransport (h : Inv s) : Inv (s.resetTransport cfg context) := by
  unfold resetTransport
  by_cases hstopped : s.mtState.stopped
  · rw [if_pos hstopped]
    exact h
  rw [if_neg hstopped]
  dsimp only
  have hinv := inv_dropTransport h
  have htransport := dropTransport_transport (s := s)
  revert hinv htransport
  generalize (if s.transport.isSome then s.setTransport none else s) = d
  intro hinv htransport
  -- without a transport, only the pending request and what is in hand are left to look at
  have hidle : ∀ d' : State, d'.transport = none → d'.inHand = d.inHand →
      d'.requests = d.requests → d'.outstanding = d.outstanding → d'.marks = d.marks →
      d'.bindingTempAuthKeyContext = d.bindingTempAuthKeyContext → Inv d' := by
    intro d' ht hhand hrequests houtstanding hmarks hcontext
    refine ⟨hinv.logged.of_same hrequests (fun _ hr => houtstanding ▸ hr) hmarks
      fun c hc => hcontext ▸ hc, .of_noTransport ht fun p hp => ?_⟩
    rcases hc : d'.bindingTempAuthKeyContext with _ | c
    · rfl
    · obtain ⟨t, ht', _⟩ := hinv.aligned.inHand p (hhand ▸ hp) c (hcontext ▸ hc)
      simp [htransport] at ht'
  generalize context.transportScheme.filter _ = transportScheme
  rcases transportScheme with _ | address
  · exact hidle _ htransport rfl rfl rfl rfl rfl
  · dsimp only
    split_ifs
    · exact hidle _ htransport rfl rfl rfl rfl rfl
    · exact hidle _ htransport rfl rfl rfl rfl rfl
    · exact hidle _ htransport rfl rfl rfl rfl rfl
    · have hk := keeps_allTransactionsMayHaveFailed
        { d with transportScheme := some address }
      refine inv_checkTempAuthKeyBinding cfg address _ ?_ ?_ ?_ ?_ ?_
      · refine hinv.logged.of_same hk.requests (fun _ hr => hk.outstanding ▸ hr) hk.marks
          fun c hc => ?_
        simp [setTransport] at hc
      · intro t ht
        obtain rfl := Option.some.inj ht
        exact ⟨hk.transportScheme, rfl⟩
      · intro t c _ _ hc
        simp [setTransport] at hc
      · intro t c k _ hc
        simp [setTransport] at hc
      · intro p _ c hc
        simp [setTransport] at hc

theorem inv_resetSessionInfo (sessionId : Int) (h : Inv s) :
    Inv (s.resetSessionInfo cfg context sessionId) := by
  refine (keeps_requestTransportTransaction _).inv (inv_resetTransport cfg context ?_)
  have hk : Keeps s { s with
      sessionInfo := s.sessionInfo.reset sessionId
      processedMessageIds := []
      timeFixContext := none
      bindingTempAuthKeyContext := none } :=
    ⟨rfl, rfl, rfl, rfl, rfl, rfl, rfl, rfl, .inr rfl⟩
  exact hk.inv h

end Transport

/-! ## Transactions -/

section Transactions

variable (cfg : Settings) (clock : ℕ → Int) (context : MTContext) (sessionId : Int)

theorem inv_messageTransaction (ask : Ask) (h : Inv s) :
    Inv (s.messageTransaction cfg clock context sessionId ask) := by
  have hk : ∀ sessionInfo, Keeps s { s with sessionInfo } :=
    fun _ => ⟨rfl, rfl, rfl, rfl, rfl, rfl, rfl, rfl, .inl rfl⟩
  unfold messageTransaction
  dsimp only
  split_ifs
  · exact inv_resetSessionInfo cfg context sessionId ((hk _).inv h)
  · exact ((hk _).trans (keeps_initiateTimeSync _)).inv h
  · exact (hk _).inv h

theorem Earned.mono {requests requests' : List BindRequest} {m : Mark} (h : Earned requests m)
    (hsub : ∀ r ∈ requests, r ∈ requests') : Earned requests' m := by
  obtain ⟨htrue, r, hr, heq⟩ := h
  exact ⟨htrue, r, hsub r hr, heq⟩

theorem inv_bindingTransaction (address : MTDatacenterAddress) (ask : Ask) (h : Inv s) :
    Inv (s.bindingTransaction clock address ask) := by
  unfold bindingTransaction
  split
  · exact h
  dsimp only
  split_ifs
  · have hk : ∀ sessionInfo, Keeps s { s with sessionInfo } :=
      fun _ => ⟨rfl, rfl, rfl, rfl, rfl, rfl, rfl, rfl, .inl rfl⟩
    exact (hk _).inv h
  · obtain ⟨⟨hsent, houtstanding, hmarks⟩, hscheme, hused, hbinding, hpending, hinHand⟩ := h
    refine ⟨⟨fun c hc => ?_, fun r hr => ?_, fun m hm => ?_⟩, hscheme, hused, hbinding, hpending,
      hinHand⟩
    · obtain ⟨r, hr, heq⟩ := hsent c hc
      exact ⟨r, List.mem_append_left _ hr, heq⟩
    · rcases List.mem_append.mp hr with hold | hnew
      · exact List.mem_append_left _ (houtstanding r hold)
      · exact List.mem_append_right _ hnew
    · exact (hmarks m hm).mono fun r hr => List.mem_append_left _ hr

theorem inv_readyForTransaction (transport : ℕ) (ask : Ask) (h : Inv s) :
    Inv (s.readyForTransaction cfg clock transport context sessionId ask) := by
  unfold readyForTransaction
  split
  · exact h
  rename_i current _
  split_ifs
  · exact h
  · exact inv_messageTransaction cfg clock context sessionId ask h
  · exact (keeps_timeFixTransaction cfg clock s current.address).inv h
  · exact inv_bindingTransaction clock current.address ask h
  · exact h

theorem inv_bindingCompletion {i : ℕ} {success : Bool} {transactionId : Option ℕ} (h : Inv s)
    (hhand : s.inHand = [])
    (hok : success = true → transactionId.isSome = true → ∀ r ∈ s.outstanding[i]?, InTime s r) :
    Inv (s.bindingCompletion i success transactionId) := by
  unfold bindingCompletion
  rcases hr : s.outstanding[i]? with _ | r
  · exact h
  have hmem : r ∈ s.requests := h.logged.outstanding r (List.mem_of_getElem? hr)
  have herased : Inv { s with outstanding := s.outstanding.eraseIdx i } :=
    ⟨h.logged.of_same rfl (fun _ hr => List.mem_of_mem_eraseIdx hr) rfl fun _ hc => hc,
      ⟨h.aligned.scheme, h.aligned.used, h.aligned.binding, h.aligned.pending, h.aligned.inHand⟩⟩
  dsimp only
  split
  · rename_i transactionId
    have htime := hok rfl rfl r hr
    refine ⟨⟨fun c hc => ?_, herased.logged.outstanding, herased.logged.marks⟩,
      herased.aligned.scheme, ?_, herased.aligned.binding, ?_, ?_⟩
    · obtain rfl := Option.some.inj hc
      exact ⟨r, hmem, rfl, rfl⟩
    · intro t c k (ht : s.transport = some t) hc (hk : s.tempAuthKey t.address = some k)
      obtain rfl := Option.some.inj hc
      simp only [InTime, ht, hk, Option.all_some, decide_eq_true_eq] at htime
      exact htime.1.symm
    · intro t c (ht : s.transport = some t) (hne : s.bindingTempAuthKeyId ≠ 0) hc
      obtain rfl := Option.some.inj hc
      simp only [InTime, ht] at htime
      exact (htime.2 hne).symm
    · intro p (hp : p ∈ s.inHand)
      simp [hhand] at hp
  · exact herased
  · exact (keeps_requestTransportTransaction _).inv herased

end Transactions

/-! ## Incoming data -/

section Incoming

variable (cfg : Settings) (context : MTContext) (sessionId : Int)

/-- The key in use is gone; nothing else is. -/
theorem inv_handleMissingKey {current : MTTransport} (h : Inv s)
    (hcurrent : s.transport = some current) : Inv (s.handleMissingKey cfg current.address) := by
  have hgone : ∀ s' : State, s'.tempAuthKey current.address = none → s'.transport = s.transport →
      s'.transportScheme = s.transportScheme →
      s'.bindingTempAuthKeyId = s.bindingTempAuthKeyId →
      s'.bindingTempAuthKeyContext = s.bindingTempAuthKeyContext → s'.inHand = s.inHand →
      s'.requests = s.requests → s'.outstanding = s.outstanding → s'.marks = s.marks →
      Inv s' := by
    intro s' hkey htransport hscheme hid hcontext hhand hrequests houtstanding hmarks
    refine ⟨h.logged.of_same hrequests (fun _ hr => houtstanding ▸ hr) hmarks
      fun c hc => hcontext ▸ hc, ?_, ?_, ?_, ?_, ?_⟩
    · rw [htransport, hscheme]
      exact h.aligned.scheme
    · intro t c k ht _ hk
      obtain rfl : current = t := Option.some.inj (hcurrent.symm.trans (htransport ▸ ht))
      simp [hkey] at hk
    · intro t k ht _ hk
      obtain rfl : current = t := Option.some.inj (hcurrent.symm.trans (htransport ▸ ht))
      simp [hkey] at hk
    · rw [htransport, hid, hcontext]
      exact h.aligned.pending
    · rw [htransport, hhand, hcontext]
      exact h.aligned.inHand
  unfold handleMissingKey
  split_ifs
  · exact hgone _ rfl rfl rfl rfl rfl rfl rfl rfl rfl
  · refine hgone _ ?_ rfl rfl rfl rfl rfl rfl rfl rfl
    rcases s.authInfo with _ | info <;> simp [tempAuthKey]
  · exact h

theorem inv_hasIncomingData (transport : ℕ) (data : IncomingData) (h : Inv s) :
    Inv (s.hasIncomingData cfg transport context sessionId data) := by
  have hfailed : ∀ ids, Inv (s.transactionsMayHaveFailed ids) := fun ids =>
    (keeps_transactionsMayHaveFailed s ids).inv h
  unfold hasIncomingData
  rcases hcurrent : s.transport with _ | current
  · exact h
  dsimp only
  by_cases hother : current.number ≠ transport ∨ s.mtState.stopped
  · rw [if_pos hother]
    exact h
  rw [if_neg hother]
  rcases data with ⟨code, transactionId⟩ | packet
  · dsimp only
    split_ifs
    · exact inv_handleMissingKey cfg (hfailed _)
        ((keeps_transactionsMayHaveFailed s _).transport.trans hcurrent)
    · exact hfailed _
  · dsimp only
    by_cases hdecrypts : s.decrypts cfg current.address packet = true
    · rw [if_pos hdecrypts]
      rcases s.parseIncomingMessages cfg packet with _ | messages
      · exact inv_resetSessionInfo cfg context sessionId (hfailed _)
      · dsimp only
        have hinv : Inv { s with inHand := messages.map (current.address, ·) } := by
          refine ⟨⟨h.logged.sent, h.logged.outstanding, h.logged.marks⟩, h.aligned.scheme,
            h.aligned.used, h.aligned.binding, h.aligned.pending, fun p hp c _ => ?_⟩
          obtain ⟨m, _, rfl⟩ := List.mem_map.mp hp
          exact ⟨current, hcurrent, rfl⟩
        rw [hcurrent] at hinv
        split_ifs
        · exact inv_handleMissingKey cfg h hcurrent
        · exact (keeps_requestTransportTransaction _).inv hinv
        · exact hinv
    · rw [if_neg hdecrypts]
      exact hfailed _

theorem inv_receivedBadMsgNotification (badMessageId : Int) (errorCode : Option Int) (h : Inv s) :
    Inv (s.receivedBadMsgNotification cfg context sessionId badMessageId errorCode) := by
  have hdrop : ∀ d : State, Inv d → Inv (requestTransactionIfAble
      (if d.bindingTempAuthKeyContext.any (·.messageId = badMessageId) then
        { d with bindingTempAuthKeyContext := none }
      else d)) := by
    intro d hd
    refine (keeps_requestTransactionIfAble _).inv ?_
    split_ifs
    · have hk : Keeps d { d with bindingTempAuthKeyContext := none } :=
        ⟨rfl, rfl, rfl, rfl, rfl, rfl, rfl, rfl, .inr rfl⟩
      exact hk.inv hd
    · exact hd
  unfold receivedBadMsgNotification
  dsimp only
  refine hdrop _ ?_
  split_ifs
  · exact (keeps_timeFixDone s).inv h
  · exact (keeps_initiateTimeSync s).inv h
  · exact (keeps_initiateTimeSync _).inv (inv_resetSessionInfo cfg context sessionId h)
  · exact (keeps_initiateTimeSync s).inv h
  · exact h

/-- With a request pending, the address of a message is the address of the transport in use. -/
def InUse (s : State) (address : MTDatacenterAddress) : Prop :=
  ∀ c, s.bindingTempAuthKeyContext = some c → ∃ t, s.transport = some t ∧ t.address = address

/-- The answer is looked for under the id of the request, and the request was for the key in use. -/
theorem earned_answer (h : Inv s) {address : MTDatacenterAddress} (huse : InUse s address)
    {requestMessageId : Int} {k : TempAuthKey}
    (hpending : s.bindingTempAuthKeyContext.any (·.messageId = requestMessageId) = true)
    (hkey : s.tempAuthKey address = some k) :
    Earned s.requests ⟨k.authKeyId, requestMessageId, boolTrue⟩ := by
  obtain ⟨c, hc, hid⟩ := (Option.any_eq_true _ _).mp hpending
  obtain ⟨t, ht, rfl⟩ := huse c hc
  obtain ⟨r, hr, hmessage, hrequest⟩ := h.logged.sent c hc
  refine ⟨rfl, r, hr, hmessage.trans (of_decide_eq_true hid), hrequest.trans ?_⟩
  exact h.aligned.used t c k ht hc hkey

theorem inv_receivedBindingResult {address : MTDatacenterAddress} {requestMessageId : Int}
    {answer : RpcAnswer} (h : Inv s) (huse : InUse s address)
    (hok : s.bindingTempAuthKeyContext.any (·.messageId = requestMessageId) = true →
      (s.tempAuthKey address).isSome = true → answer.signature ≠ some boolFalse) :
    Inv (s.receivedBindingResult address requestMessageId answer) := by
  unfold receivedBindingResult
  by_cases hpending : s.bindingTempAuthKeyContext.any (·.messageId = requestMessageId) = true
  · rw [if_pos hpending]
    -- nothing is pending or being bound any more, so only what is marked is left to look at
    have hsettled : ∀ d : State, d.transport = s.transport →
        d.transportScheme = s.transportScheme → d.bindingTempAuthKeyContext = none →
        d.bindingTempAuthKeyId = 0 → d.requests = s.requests → d.outstanding = s.outstanding →
        (∀ m ∈ d.marks, Earned s.requests m) → Inv d := by
      intro d ht hscheme hc hid hrequests houtstanding hmarks
      refine ⟨⟨fun c hc' => ?_, fun r hr => ?_, fun m hm => hrequests ▸ hmarks m hm⟩, ?_,
        fun t c k _ hc' => ?_, fun t k _ hne => absurd hid hne, fun t c _ hne => absurd hid hne,
        fun p _ c hc' => ?_⟩
      · simp [hc] at hc'
      · rw [hrequests]
        exact h.logged.outstanding r (houtstanding ▸ hr)
      · rw [ht, hscheme]
        exact h.aligned.scheme
      · simp [hc] at hc'
      · simp [hc] at hc'
    dsimp only
    split
    · rename_i value hvalue
      refine (keeps_endBinding _).inv ?_
      unfold markAsBound
      rcases hkey : s.tempAuthKey address with _ | k
      · have hkey' : State.tempAuthKey { s with bindingTempAuthKeyContext := none } address =
            none := hkey
        rw [hkey']
        exact hsettled _ rfl rfl rfl rfl rfl rfl h.logged.marks
      · have hkey' : State.tempAuthKey { s with bindingTempAuthKeyContext := none } address =
            some k := hkey
        rw [hkey']
        refine hsettled _ rfl rfl rfl rfl rfl rfl fun m hm => ?_
        rcases List.mem_append.mp hm with hm | hm
        · exact h.logged.marks m hm
        have htrue : answer.signature = some boolTrue := by
          rcases RpcAnswer.rpcResult_isSome hvalue with hfalse | htrue
          · exact absurd hfalse (hok hpending (by rw [hkey]; rfl))
          · exact htrue
        rw [List.mem_singleton.mp hm, htrue]
        exact earned_answer h huse hpending hkey
    · have hk : Keeps s { s with bindingTempAuthKeyContext := none } :=
        ⟨rfl, rfl, rfl, rfl, rfl, rfl, rfl, rfl, .inr rfl⟩
      exact (hk.trans (keeps_requestTransportTransaction _)).inv h
  · rw [if_neg hpending]
    exact h

theorem inv_processIncomingMessage {address : MTDatacenterAddress} {m : MTIncomingMessage}
    (h : Inv s) (huse : InUse s address) (hok : NotRefused s address m) :
    Inv (s.processIncomingMessage cfg address context sessionId m) := by
  unfold processIncomingMessage
  by_cases hprocessed : m.messageId ∈ s.processedMessageIds
  · rw [if_pos hprocessed]
    exact h
  rw [if_neg hprocessed]
  have hk : Keeps s { s with processedMessageIds := m.messageId :: s.processedMessageIds } :=
    ⟨rfl, rfl, rfl, rfl, rfl, rfl, rfl, rfl, .inl rfl⟩
  have hinv := hk.inv h
  unfold NotRefused at hok
  rcases m with ⟨messageId, _ | _ | _ | ⟨requestMessageId, answer⟩ | _⟩ <;> dsimp only
  · split_ifs
    · exact hinv
    · exact inv_receivedBadMsgNotification cfg context sessionId _ _ hinv
  · split_ifs
    · exact hinv
    · exact inv_receivedBadMsgNotification cfg context sessionId _ _ hinv
  · exact (keeps_receivedPong _ _).inv hinv
  · exact inv_receivedBindingResult hinv huse (hok hprocessed)
  · exact hinv

end Incoming

/-! ## The context's notifications -/

section Notifications

variable (cfg : Settings) (context : MTContext)

/-- A change of the state bits alone, and then another transport. -/
theorem inv_reconnect (h : Inv s) (hk : Keeps s s') :
    Inv (s'.resetTransport cfg context).requestTransportTransaction :=
  (keeps_requestTransportTransaction _).inv (inv_resetTransport cfg context (hk.inv h))

theorem keeps_mtState (s : State) (mtState : MTProtoState) : Keeps s { s with mtState } :=
  ⟨rfl, rfl, rfl, rfl, rfl, rfl, rfl, rfl, .inl rfl⟩

theorem inv_transportSchemeUpdated (transportScheme : Option MTDatacenterAddress) (h : Inv s) :
    Inv (s.transportSchemeUpdated cfg transportScheme context) := by
  unfold transportSchemeUpdated
  split_ifs
  · exact inv_reconnect cfg context h (keeps_mtState s _)
  · exact h

/-- Another info comes: the check makes the binding one of its key. -/
theorem inv_authInfoUpdated {info : AuthInfo} (h : Inv s) (hhand : s.inHand = [])
    (hok : NoneBeside s info) : Inv (s.authInfoUpdated cfg info context) := by
  unfold authInfoUpdated
  by_cases hunauthorized : cfg.useUnauthorizedMode
  · rw [if_pos hunauthorized]
    exact h
  rw [if_neg hunauthorized]
  dsimp only
  have hchecked : ∀ d : State, Inv d → Inv
      (if d.mtState.awaitingDatacenterAuthorization = false
          ∧ d.mtState.awaitingDatacenterTempAuthKey = false
          ∧ (s.mtState.awaitingDatacenterAuthorization
            || s.mtState.awaitingDatacenterTempAuthKey) then
        (d.resetTransport cfg context).requestTransportTransaction
      else d) := by
    intro d hd
    split_ifs
    · exact inv_reconnect cfg context hd (.refl d)
    · exact hd
  refine hchecked _ ?_
  rcases hscheme : s.transportScheme with _ | address
  · refine ⟨h.logged.of_same rfl (fun _ hr => hr) rfl fun _ hc => hc,
      .of_noTransport ?_ fun p (hp : p ∈ s.inHand) => ?_⟩
    · rcases ht : s.transport with _ | t
      · rfl
      · have := h.aligned.scheme t ht
        simp [hscheme] at this
    · simp [hhand] at hp
  · refine inv_checkTempAuthKeyBinding cfg address _ ?_ ?_ ?_ ?_ ?_
    · exact h.logged.of_same rfl (fun _ hr => hr) rfl fun _ hc => hc
    · intro t (ht : s.transport = some t)
      have hsame := hscheme.symm.trans (h.aligned.scheme t ht)
      exact ⟨hsame, (Option.some.inj hsame).symm⟩
    · intro t c (ht : s.transport = some t)
      exact h.aligned.pending t c ht
    · intro t c k (ht : s.transport = some t) (hc : s.bindingTempAuthKeyContext = some c) hzero
        (hk : info.tempAuthKeyWithType address.tempAuthKeyType = some k) hunbound
      have haddress : t.address = address :=
        (Option.some.inj (hscheme.symm.trans (h.aligned.scheme t ht))).symm
      simp only [NoneBeside, ht, hc, haddress, hk, Option.all_some, hunbound, Bool.not_true,
        Bool.false_or, decide_eq_true_eq] at hok
      exact (hok hzero).symm
    · intro p (hp : p ∈ s.inHand)
      simp [hhand] at hp

theorem inv_authTokenUpdated (authToken : Option String) (h : Inv s) :
    Inv (s.authTokenUpdated cfg authToken context) := by
  unfold authTokenUpdated
  split_ifs
  · exact inv_reconnect cfg context h (keeps_mtState s _)
  · exact h

theorem inv_pause (h : Inv s) : Inv s.pause := by
  unfold pause
  split_ifs
  · exact h
  · exact inv_setTransport_none ((keeps_mtState s _).inv h)

theorem inv_resume (h : Inv s) : Inv (s.resume cfg context) := by
  unfold resume
  split_ifs
  · exact inv_reconnect cfg context h (keeps_mtState s _)
  · exact h

theorem inv_stop (h : Inv s) : Inv s.stop := by
  unfold stop
  dsimp only
  split_ifs
  · exact h
  · exact inv_setTransport_none ((keeps_mtState s _).inv h)
  · exact (keeps_mtState s _).inv h

theorem inv_queuePass (h : Inv s) : Inv (s.queuePass cfg context) := by
  have hk : Keeps s { s with willRequestTransaction := false } :=
    ⟨rfl, rfl, rfl, rfl, rfl, rfl, rfl, rfl, .inl rfl⟩
  unfold queuePass
  dsimp only
  split_ifs
  · exact hk.inv h
  · exact inv_resetTransport cfg context (hk.inv h)
  · exact hk.inv h
  · exact h

end Notifications

/-! ## Runs -/

section Runs

variable (cfg : Settings) (clock : ℕ → Int)

theorem inv_takeTurn (context : MTContext) (sessionId : Int) (turn : Turn) (h : Inv s)
    (hhand : s.inHand = []) (hok : Sound s ⟨.turn turn, context, sessionId⟩) :
    Inv (takeTurn cfg clock context sessionId s turn) := by
  cases turn with
  | pause => exact inv_pause h
  | resume => exact inv_resume cfg context h
  | stop => exact inv_stop h
  | resetSessionInfo => exact inv_resetSessionInfo cfg context sessionId h
  | requestTimeResync =>
    have hk : Keeps s { s with timeSyncService := true } :=
      ⟨rfl, rfl, rfl, rfl, rfl, rfl, rfl, rfl, .inl rfl⟩
    exact hk.inv h
  | requestTransportTransaction => exact (keeps_requestTransportTransaction s).inv h
  | queuePass => exact inv_queuePass cfg context h
  | readyForTransaction transport ask =>
    exact inv_readyForTransaction cfg clock context sessionId transport ask h
  | timeFixCompletion i success transactionId =>
    exact (keeps_timeFixCompletion s i success transactionId).inv h
  | bindingCompletion i success transactionId =>
    refine inv_bindingCompletion h hhand fun hsuccess hsome r hr => ?_
    obtain ⟨transactionId, rfl⟩ := Option.isSome_iff_exists.mp hsome
    subst hsuccess
    simp only [Sound, hhand] at hok
    exact hok r hr
  | transactionsMayHaveFailed transactionIds =>
    exact (keeps_transactionsMayHaveFailed s transactionIds).inv h
  | hasIncomingData transport data =>
    exact inv_hasIncomingData cfg context sessionId transport data h
  | transportSchemeUpdated transportScheme =>
    exact inv_transportSchemeUpdated cfg context transportScheme h
  | authInfoUpdated info =>
    simp only [Sound, hhand] at hok
    exact inv_authInfoUpdated cfg context h hhand hok
  | authTokenUpdated authToken => exact inv_authTokenUpdated cfg context authToken h
  | apiEnvironmentUpdated resetConnection =>
    simp only [takeTurn]
    split_ifs
    · exact inv_reconnect cfg context h (.refl s)
    · exact h

theorem inv_step (s : State) (e : Event) (h : Inv s) (hok : Sound s e) :
    Inv (step cfg clock s e) := by
  obtain ⟨task, context, sessionId⟩ := e
  unfold step
  cases task with
  | turn turn =>
    dsimp only
    split_ifs with hhand
    · exact inv_takeTurn cfg clock context sessionId turn h hhand hok
    · exact h
  | nextMessage =>
    rcases hhand : s.inHand with _ | ⟨⟨address, m⟩, inHand⟩
    · exact h
    have hrest : Inv { s with inHand } :=
      ⟨h.logged.of_same rfl (fun _ hr => hr) rfl fun _ hc => hc, h.aligned.scheme,
        h.aligned.used, h.aligned.binding, h.aligned.pending,
        fun p hp => h.aligned.inHand p (hhand ▸ List.mem_cons_of_mem _ hp)⟩
    refine inv_processIncomingMessage cfg context sessionId hrest ?_ ?_
    · exact h.aligned.inHand (address, m) (hhand ▸ List.mem_cons_self)
    · simp only [Sound, hhand] at hok
      exact hok
  | timeSyncServiceCompleted =>
    dsimp only
    split_ifs
    · have hk : Keeps s.completeTimeSync { s.completeTimeSync with timeSyncService := false } :=
        ⟨rfl, rfl, rfl, rfl, rfl, rfl, rfl, rfl, .inl rfl⟩
      exact (((keeps_completeTimeSync s).trans hk).trans (keeps_requestTransactionIfAble _)).inv h
    · exact h

theorem inv_init (authInfo : Option AuthInfo) (sessionId : Int) : Inv (init authInfo sessionId) :=
  ⟨⟨fun _ hc => (by simp [init] at hc), fun _ hr => (by simp [init] at hr),
    fun _ hm => (by simp [init] at hm)⟩, .of_noTransport rfl fun _ _ => rfl⟩

/-- In every run of turns, answers and completions that are all sound, a key is marked as bound only
when the server has answered `boolTrue` to a request that was sent for it. -/
theorem marks_earned (authInfo : Option AuthInfo) (sessionId : Int) (es : List Event)
    (hok : AllSteps (step cfg clock) Sound (init authInfo sessionId) es) :
    ∀ m ∈ (run (step cfg clock) (init authInfo sessionId) es).marks,
      Earned (run (step cfg clock) (init authInfo sessionId) es).requests m :=
  (Run.invariant (inv_step cfg clock) es (inv_init authInfo sessionId) hok).logged.marks

end Runs

def sampleInfo : AuthInfo :=
  { authKey := [1], authKeyId := 1
    mainTempAuthKey := some { authKey := [2], authKeyId := 7, notBound := true } }

def sampleClock (n : ℕ) : Int := 1000 * (n + 1)

def samplePacket (answer : Bytes) : Packet where
  authKeyId := 7
  sessionId := 3
  messages := some [⟨1, .rpcResult 1000 (.data answer)⟩]
  transactionId := 9

/-- A transport is made and asks for a transaction, the bind request goes out in it, and an answer
to it comes. -/
def sampleRun (answer : Bytes) : List Event :=
  [Task.turn .requestTransportTransaction, .turn .queuePass, .turn (.readyForTransaction 0 {}),
    .turn (.bindingCompletion 0 true (some 5)),
    .turn (.hasIncomingData 0 (.packet (samplePacket answer))), .nextMessage].map fun task =>
      ⟨task, { transportScheme := some ⟨0, false⟩, authInfo := some sampleInfo }, 0⟩

theorem marks_earned_sample :
    (run (step {} sampleClock) (init (some sampleInfo) 3)
        (sampleRun [0xb5, 0x75, 0x72, 0x99])).marks = [⟨7, 1000, boolTrue⟩] ∧
      ∀ m ∈ (run (step {} sampleClock) (init (some sampleInfo) 3)
          (sampleRun [0xb5, 0x75, 0x72, 0x99])).marks,
        Earned (run (step {} sampleClock) (init (some sampleInfo) 3)
          (sampleRun [0xb5, 0x75, 0x72, 0x99])).requests m :=
  ⟨by decide +kernel, marks_earned {} sampleClock (some sampleInfo) 3
    (sampleRun [0xb5, 0x75, 0x72, 0x99]) (by decide +kernel)⟩

/-- The answer `boolFalse` marks the key as well. -/
theorem refused_marked :
    ¬ ∀ m ∈ (run (step {} sampleClock) (init (some sampleInfo) 3)
        (sampleRun [0x37, 0x97, 0x79, 0xbc])).marks,
      Earned (run (step {} sampleClock) (init (some sampleInfo) 3)
        (sampleRun [0x37, 0x97, 0x79, 0xbc])).requests m := by
  decide +kernel

end Onegram.Mtp.TempKeyBinding
