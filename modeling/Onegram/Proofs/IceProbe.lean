import Onegram.IceProbe
import Onegram.Proofs.Stun

/-!
# What ends the probe

Every transaction holds a request of this side, and has been sent by the time a pass waits for the
socket, since it was due at the latest when it was made and time does not go back. So a response
that is accepted answers a request that was sent, to the peer the transaction was made for.
-/

namespace Onegram.Stun

open Bytes Run

variable (hmacSha1 : Bytes → Bytes → Vector UInt8 20) (cfg : ProbeConfig)

/-! ## What is asked -/

/-- The peer a datagram of the relay names. -/
def namedPeer (m : Bytes) : Option (Bytes × UInt16) :=
  (attributeValue m attrXorPeerAddress).bind parseXorAddressValue

/-- All that was sent when a pass waits for the socket. -/
def sentBefore (s : ProbeState) (p : ProbePass) : List Bytes :=
  s.sent ++ (sendDue (s.clock + p.elapsed) p.sends 0 s.transactions).2.1

/-- A message of a peer that answers a request sent to it. -/
def Answers (sent : List Bytes) (peer : Bytes × UInt16) (data : Bytes) : Prop :=
  read16 data 0 = bindingSuccess ∧
  verifyShortTermIntegrity hmacSha1 data cfg.credentials.remotePassword = true ∧
  ∃ outerTxid indication, makeTurnSendIndication outerTxid peer.1 peer.2
    (cfg.bindingRequest hmacSha1 (slice data 8 12)) = some indication ∧ indication ∈ sent

/-- A request that nominates. -/
def Nominates (data : Bytes) : Prop :=
  read16 data 0 = bindingRequest ∧
  verifyShortTermIntegrity hmacSha1 data cfg.credentials.localPassword = true ∧
  hasAttribute data attrUseCandidate = true

/-- A pass that receives, from the peer, what the role of this side needs. -/
def Settles (peerOf : Bytes → Option (Bytes × UInt16)) (peer : Bytes × UInt16) (s : ProbeState)
    (p : ProbePass) : Prop :=
  ∃ bytes data, p.wait = .datagram bytes ∧ peerOf (received bytes) = some peer ∧
    indicationData (received bytes) = some data ∧
    if cfg.controlling then Answers hmacSha1 cfg (sentBefore s p) peer data
    else Nominates hmacSha1 cfg data

/-- The probe of a run of passes returns true only where a pass settled the peer it reports. -/
def ProbeSound (peerOf : Bytes → Option (Bytes × UInt16)) (start : ProbeState)
    (passes : List ProbePass) : Prop :=
  (run (probeStep hmacSha1 cfg) start passes).outcome = some true →
    ∃ before p after, passes = before ++ p :: after ∧
      (run (probeStep hmacSha1 cfg) start before).outcome = none ∧
      Settles hmacSha1 cfg peerOf
        ((run (probeStep hmacSha1 cfg) start passes).selectedHost,
          (run (probeStep hmacSha1 cfg) start passes).selectedPort)
        (run (probeStep hmacSha1 cfg) start before) p

/-! ## Transactions -/

variable {hmacSha1 cfg} {s : ProbeState} {p : ProbePass} {sent sent' : List Bytes} {now : ℕ}
  {t : Transaction}

/-- A transaction holds a request of this side to its peer; it has been sent, or it is due. -/
structure TransactionOk (hmacSha1 : Bytes → Bytes → Vector UInt8 20) (cfg : ProbeConfig)
    (sent : List Bytes) (now : ℕ) (t : Transaction) : Prop where
  request : ∃ outerTxid, makeTurnSendIndication outerTxid t.host t.port
    (cfg.bindingRequest hmacSha1 t.txid) = some t.indication
  sent : 0 < t.sendAttempt → t.indication ∈ sent
  due : t.sendAttempt = 0 → t.succeeded = false ∧ t.nextSend ≤ now

/-- A transaction that has been sent. -/
structure TransactionSent (hmacSha1 : Bytes → Bytes → Vector UInt8 20) (cfg : ProbeConfig)
    (sent : List Bytes) (t : Transaction) : Prop where
  request : ∃ outerTxid, makeTurnSendIndication outerTxid t.host t.port
    (cfg.bindingRequest hmacSha1 t.txid) = some t.indication
  attempted : 0 < t.sendAttempt
  sent : t.indication ∈ sent

theorem TransactionOk.mono {now' : ℕ} (h : TransactionOk hmacSha1 cfg sent now t)
    (hsent : sent ⊆ sent') (hnow : now ≤ now') : TransactionOk hmacSha1 cfg sent' now' t :=
  ⟨h.request, fun ha => hsent (h.sent ha), fun ha => ⟨(h.due ha).1, (h.due ha).2.trans hnow⟩⟩

theorem TransactionSent.ok (h : TransactionSent hmacSha1 cfg sent t) (hsent : sent ⊆ sent')
    (now : ℕ) : TransactionOk hmacSha1 cfg sent' now t :=
  ⟨h.request, fun _ => hsent h.sent, fun h0 => absurd h.attempted (by omega)⟩

theorem newTransaction_ok {host : Bytes} {port : UInt16} {txid outerTxid : Vector UInt8 12}
    (h : newTransaction hmacSha1 cfg host port txid outerTxid now = some t) :
    TransactionOk hmacSha1 cfg sent now t := by
  obtain ⟨indication, hindication, rfl⟩ := Option.map_eq_some_iff.1 h
  exact ⟨⟨outerTxid, hindication⟩, fun h => absurd h (by simp), fun _ => ⟨rfl, le_rfl⟩⟩

/-- Once all that is due has been sent, every transaction has been. -/
theorem sendDue_sent {sends : ℕ → SendResult} : ∀ {i : ℕ} {ts : List Transaction},
    (∀ t ∈ ts, TransactionOk hmacSha1 cfg sent now t) →
    (sendDue now sends i ts).2.2 = none → ∀ t ∈ (sendDue now sends i ts).1,
      TransactionSent hmacSha1 cfg (sent ++ (sendDue now sends i ts).2.1) t
  | _, [], _, _ => by simp [sendDue]
  | i, t :: rest, hok, hnone => by
    have hrest := fun t ht => hok t (List.mem_cons_of_mem _ ht)
    unfold sendDue at hnone ⊢
    split_ifs at hnone ⊢ with hskip
    · simp only [] at hnone ⊢
      intro u hu
      rcases List.mem_cons.1 hu with rfl | hu
      · -- what is skipped has been sent before
        have hu := hok u List.mem_cons_self
        have hattempt : 0 < u.sendAttempt := by
          by_contra h0
          obtain ⟨hsucceeded, hdue⟩ := hu.due (by omega)
          rw [hsucceeded] at hskip
          simp only [Bool.false_eq_true, false_or] at hskip
          omega
        exact ⟨hu.request, hattempt, List.mem_append_left _ (hu.sent hattempt)⟩
      · exact sendDue_sent hrest hnone u hu
    · rcases hsend : sends i with _ | _ | error <;> simp only [hsend] at hnone ⊢
      · intro u hu
        rcases List.mem_cons.1 hu with rfl | hu
        · exact ⟨(hok t List.mem_cons_self).request, by simp, by simp⟩
        · obtain ⟨hrequest, hattempted, hsent⟩ := sendDue_sent hrest hnone u hu
          refine ⟨hrequest, hattempted, ?_⟩
          rcases List.mem_append.1 hsent with h | h
          · exact List.mem_append_left _ h
          · exact List.mem_append_right _ (List.mem_cons_of_mem _ h)
      · simp at hnone
      · simp at hnone

/-! ## One pass -/

/-- While the probe runs, its transactions are in order. -/
def ProbeInv (hmacSha1 : Bytes → Bytes → Vector UInt8 20) (cfg : ProbeConfig) (s : ProbeState) :
    Prop :=
  ∀ t ∈ s.transactions, TransactionOk hmacSha1 cfg s.sent s.clock t

theorem mem_modify {α : Type*} {l : List α} {i : ℕ} {f : α → α} {a : α} (h : a ∈ l.modify i f) :
    a ∈ l ∨ ∃ b ∈ l, a = f b := by
  obtain ⟨j, hj⟩ := List.mem_iff_getElem?.1 h
  rw [List.getElem?_modify] at hj
  obtain ⟨b, hb, hba⟩ := Option.map_eq_some_iff.1 hj
  have hmem := List.mem_of_getElem? hb
  split_ifs at hba
  · exact .inr ⟨b, hmem, hba.symm⟩
  · exact .inl (hba ▸ hmem)

/-- All that this side may still wait for has been sent. -/
def AllSent (hmacSha1 : Bytes → Bytes → Vector UInt8 20) (cfg : ProbeConfig) (s : ProbeState) :
    Prop :=
  ∀ t ∈ s.transactions, TransactionSent hmacSha1 cfg s.sent t

theorem AllSent.inv (h : AllSent hmacSha1 cfg s) : ProbeInv hmacSha1 cfg s :=
  fun t ht => (h t ht).ok (List.Subset.refl _) _

theorem trigger_spec (host : Bytes) (port : UInt16) (hs : AllSent hmacSha1 cfg s) :
    ProbeInv hmacSha1 cfg (trigger hmacSha1 cfg p s host port) ∧
      (trigger hmacSha1 cfg p s host port).outcome = s.outcome := by
  unfold trigger
  simp only []
  split
  · refine ⟨fun t ht => ?_, rfl⟩
    rcases mem_modify ht with ht | ⟨u, hu, rfl⟩
    · exact (hs t ht).ok (List.Subset.refl _) _
    · split_ifs
      · exact (hs u hu).ok (List.Subset.refl _) _
      · exact ⟨(hs u hu).request, fun _ => (hs u hu).sent, fun h0 =>
          absurd (hs u hu).attempted (Nat.not_lt.2 (Nat.le_of_eq h0))⟩
  · split_ifs
    · exact ⟨hs.inv, rfl⟩
    · rcases hnew : newTransaction hmacSha1 cfg host port p.triggeredTxid p.triggeredOuterTxid
        (s.clock + p.waited) with _ | triggered
      · exact ⟨fun t ht => (hs t ht).ok (List.Subset.refl _) _, rfl⟩
      · refine ⟨fun t ht => ?_, rfl⟩
        rcases List.mem_append.1 ht with ht | ht
        · exact (hs t ht).ok (List.Subset.refl _) _
        · obtain rfl := List.mem_singleton.1 ht
          exact newTransaction_ok hnew

theorem judgeRequest_integrity {c : IceCredentials} {data : Bytes}
    (h : (judgeRequest hmacSha1 c data).accepted = true) :
    verifyShortTermIntegrity hmacSha1 data c.localPassword = true := by
  simp only [judgeRequest, RequestVerdict.accepted, Bool.and_eq_true] at h
  exact h.2.2

/-- A request ends the probe only where it nominates, and reports the peer it came from. -/
theorem takeRequest_spec (host : Bytes) (port : UInt16) {data : Bytes}
    (hs : AllSent hmacSha1 cfg s) (hout : s.outcome = none)
    (htype : read16 data 0 = bindingRequest) :
    ProbeInv hmacSha1 cfg (takeRequest hmacSha1 cfg p s host port data) ∧
      ((takeRequest hmacSha1 cfg p s host port data).outcome = some true →
        ((takeRequest hmacSha1 cfg p s host port data).selectedHost,
          (takeRequest hmacSha1 cfg p s host port data).selectedPort) = (host, port) ∧
        cfg.controlling = false ∧ Nominates hmacSha1 cfg data) := by
  unfold takeRequest
  simp only []
  have hsame : ProbeInv hmacSha1 cfg s ∧ (s.outcome = some true →
      (s.selectedHost, s.selectedPort) = (host, port) ∧ cfg.controlling = false ∧
        Nominates hmacSha1 cfg data) := ⟨hs.inv, by simp [hout]⟩
  by_cases haccepted : (judgeRequest hmacSha1 cfg.credentials data).accepted = true
  swap
  · rw [if_pos (by simpa using haccepted)]
    exact hsame
  rw [if_neg (by simpa using haccepted)]
  split
  · exact hsame
  split
  · exact hsame
  rename_i indication _
  split_ifs with hsent hnominates
  · exact hsame
  · refine ⟨fun t ht => (hs t ht).ok (List.subset_append_left _ _) _, fun _ => ⟨rfl, ?_⟩⟩
    simp only [nominates, Bool.and_eq_true, Bool.not_eq_true'] at hnominates
    exact ⟨hnominates.1.1.2, htype, judgeRequest_integrity haccepted, hnominates.2⟩
  · obtain ⟨hinv, hout'⟩ := trigger_spec (p := p) (s := { s with sent := s.sent ++ [indication] })
      host port fun t ht => ⟨(hs t ht).request, (hs t ht).attempted, List.mem_append_left _ (hs t ht).sent⟩
    refine ⟨hinv, fun h => ?_⟩
    rw [hout'] at h
    simp [hout] at h

/-- A response ends the probe only where it answers the transaction with its peer. -/
theorem takeResponse_spec (host : Bytes) (port : UInt16) {data : Bytes} {i : ℕ}
    (hs : AllSent hmacSha1 cfg s) (hout : s.outcome = none) (ht : t ∈ s.transactions)
    (htxid : t.txid = slice data 8 12) :
    ProbeInv hmacSha1 cfg (takeResponse hmacSha1 cfg s i t host port data) ∧
      ((takeResponse hmacSha1 cfg s i t host port data).outcome = some true →
        ((takeResponse hmacSha1 cfg s i t host port data).selectedHost,
          (takeResponse hmacSha1 cfg s i t host port data).selectedPort) = (host, port) ∧
        cfg.controlling = true ∧ Answers hmacSha1 cfg s.sent (host, port) data) := by
  unfold takeResponse
  simp only []
  have hsame : ProbeInv hmacSha1 cfg s ∧ (s.outcome = some true →
      (s.selectedHost, s.selectedPort) = (host, port) ∧ cfg.controlling = true ∧
        Answers hmacSha1 cfg s.sent (host, port) data) := ⟨hs.inv, by simp [hout]⟩
  split_ifs with hpeer hsuccess haccepts hcontrolling herror
  · exact hsame
  · exact hsame
  all_goals
    have hmodified : ∀ u ∈ s.transactions.modify i fun t => { t with succeeded := true },
        TransactionSent hmacSha1 cfg s.sent u := by
      intro u hu
      rcases mem_modify hu with hu | ⟨w, hw, rfl⟩
      · exact hs u hu
      · exact ⟨(hs w hw).request, (hs w hw).attempted, (hs w hw).sent⟩
  · simp only [not_or, not_not] at hpeer
    obtain ⟨rfl, rfl⟩ := hpeer
    refine ⟨fun u hu => (hmodified u hu).ok (List.Subset.refl _) _, fun _ => ⟨rfl, hcontrolling,
      hsuccess, ?_, ?_⟩⟩
    · simp only [acceptsResponse, Bool.not_eq_true', Bool.and_eq_false_iff, not_or,
        Bool.not_eq_false] at haccepts
      exact haccepts.2
    · obtain ⟨outerTxid, hrequest⟩ := (hs t ht).request
      rw [htxid] at hrequest
      exact ⟨outerTxid, t.indication, hrequest, (hs t ht).sent⟩
  · exact ⟨fun u hu => (hmodified u hu).ok (List.Subset.refl _) _, by simp [hout]⟩
  · exact ⟨hs.inv, by simp [ProbeState.fail]⟩
  · exact hsame

/-- The peer a datagram is taken to come from: the one it names, or else the one the probe is for. -/
def takenPeer (cfg : ProbeConfig) (m : Bytes) : Option (Bytes × UInt16) :=
  some (indicationPeer cfg.peerHost cfg.peerPort m)

theorem takeDatagram_spec (buffer : Bytes) (hs : AllSent hmacSha1 cfg s) (hout : s.outcome = none) :
    ProbeInv hmacSha1 cfg (takeDatagram hmacSha1 cfg p s buffer) ∧
      ((takeDatagram hmacSha1 cfg p s buffer).outcome = some true →
        takenPeer cfg buffer = some ((takeDatagram hmacSha1 cfg p s buffer).selectedHost,
          (takeDatagram hmacSha1 cfg p s buffer).selectedPort) ∧
        ∃ data, indicationData buffer = some data ∧
          if cfg.controlling then Answers hmacSha1 cfg s.sent
            ((takeDatagram hmacSha1 cfg p s buffer).selectedHost,
              (takeDatagram hmacSha1 cfg p s buffer).selectedPort) data
          else Nominates hmacSha1 cfg data) := by
  have hsame : ∀ {P : Prop}, ProbeInv hmacSha1 cfg s ∧ (s.outcome = some true → P) := fun {P} =>
    ⟨hs.inv, by simp [hout]⟩
  unfold takeDatagram
  rcases hdata : indicationData buffer with _ | data
  · exact hsame
  simp only []
  by_cases hshort : data.length < 20
  · rw [if_pos hshort]
    exact hsame
  rw [if_neg hshort]
  by_cases hcookie : read32 data 4 ≠ stunCookie
  · rw [if_pos hcookie]
    exact hsame
  rw [if_neg hcookie]
  obtain ⟨⟨host, port⟩, hpeer⟩ : ∃ peer, indicationPeer cfg.peerHost cfg.peerPort buffer = peer :=
    ⟨_, rfl⟩
  simp only [takenPeer, hpeer]
  by_cases htype : read16 data 0 = bindingRequest
  · rw [if_pos htype]
    obtain ⟨hinv, hsettled⟩ := takeRequest_spec (p := p) host port hs hout htype
    refine ⟨hinv, fun h => ?_⟩
    obtain ⟨hselected, hcontrolling, hnominates⟩ := hsettled h
    exact ⟨congrArg some hselected.symm, data, rfl, by rw [hcontrolling]; exact hnominates⟩
  · rw [if_neg htype]
    split
    · exact hsame
    rename_i i hfind
    rcases hget : s.transactions[i]? with _ | t
    · exact hsame
    simp only []
    have htxid : t.txid = slice data 8 12 := by
      obtain ⟨hi, hmatch, -⟩ := List.findIdx?_eq_some_iff_getElem.1 hfind
      rw [List.getElem?_eq_getElem hi, Option.some.injEq] at hget
      rw [hget] at hmatch
      simpa using hmatch
    obtain ⟨hinv, hsettled⟩ := takeResponse_spec (i := i) host port hs hout
      (List.mem_of_getElem? hget) htxid
    refine ⟨hinv, fun h => ?_⟩
    obtain ⟨hselected, hcontrolling, hanswers⟩ := hsettled h
    refine ⟨congrArg some hselected.symm, data, rfl, ?_⟩
    rw [hcontrolling, if_pos rfl, hselected]
    exact hanswers

/-- A pass keeps the transactions in order, and returns true only where it settled a peer. -/
theorem probeStep_spec (hinv : ProbeInv hmacSha1 cfg s) (hout : s.outcome = none) :
    ((probeStep hmacSha1 cfg s p).outcome = none → ProbeInv hmacSha1 cfg (probeStep hmacSha1 cfg s p))
      ∧ ((probeStep hmacSha1 cfg s p).outcome = some true →
        Settles hmacSha1 cfg (takenPeer cfg) ((probeStep hmacSha1 cfg s p).selectedHost,
          (probeStep hmacSha1 cfg s p).selectedPort) s p) := by
  have hdue : ∀ t ∈ s.transactions, TransactionOk hmacSha1 cfg s.sent (s.clock + p.elapsed) t :=
    fun t ht => (hinv t ht).mono (List.Subset.refl _) (Nat.le_add_right _ _)
  unfold probeStep
  rw [hout]
  simp only []
  by_cases hdeadline : s.clock + p.elapsed ≥ s.deadline
  · rw [if_pos hdeadline]
    exact ⟨fun h => by simp [ProbeState.fail] at h, fun h => by simp [ProbeState.fail] at h⟩
  rw [if_neg hdeadline]
  rcases herror : (sendDue (s.clock + p.elapsed) p.sends 0 s.transactions).2.2 with _ | error
  swap
  · exact ⟨fun h => by simp [ProbeState.fail] at h, fun h => by simp [ProbeState.fail] at h⟩
  simp only []
  obtain ⟨u, hu⟩ : ∃ u : ProbeState, { s with
      clock := s.clock + p.elapsed
      transactions := (sendDue (s.clock + p.elapsed) p.sends 0 s.transactions).1
      sent := s.sent ++ (sendDue (s.clock + p.elapsed) p.sends 0 s.transactions).2.1 } = u :=
    ⟨_, rfl⟩
  have hall : AllSent hmacSha1 cfg u := by
    rw [← hu]
    exact sendDue_sent hdue herror
  have hsent : u.sent = sentBefore s p := by rw [← hu, sentBefore]
  have huout : u.outcome = none := by rw [← hu, hout]
  rw [hout] at hu
  rw [hu]
  unfold receive
  rcases hwait : p.wait with _ | _ | _ | _ | bytes
  · exact ⟨fun h => by simp [ProbeState.fail] at h, fun h => by simp [ProbeState.fail] at h⟩
  · exact ⟨fun _ => hall.inv, by simp [huout]⟩
  · exact ⟨fun _ => hall.inv, by simp [huout]⟩
  · exact ⟨fun h => by simp [ProbeState.fail] at h, fun h => by simp [ProbeState.fail] at h⟩
  · obtain ⟨hinv', hsettled⟩ := takeDatagram_spec (p := p) (received bytes) hall huout
    refine ⟨fun _ => hinv', fun h => ?_⟩
    obtain ⟨hpeer, data, hdata, hrole⟩ := hsettled h
    rw [hsent] at hrole
    exact ⟨bytes, data, hwait, hpeer, hdata, hrole⟩

/-! ## Runs -/

theorem run_returned {b : Bool} : ∀ {passes : List ProbePass} {s : ProbeState},
    s.outcome = some b → run (probeStep hmacSha1 cfg) s passes = s
  | [], _, _ => rfl
  | p :: passes, s, h => by
    have hstep : probeStep hmacSha1 cfg s p = s := by
      unfold probeStep
      rw [h]
    rw [run_cons, hstep, run_returned h]

theorem probeSound_of_inv : ∀ {passes : List ProbePass} {s : ProbeState}, s.outcome = none →
    ProbeInv hmacSha1 cfg s → ProbeSound hmacSha1 cfg (takenPeer cfg) s passes
  | [], s, hout, _ => fun h => by simp [hout] at h
  | p :: passes, s, hout, hinv => by
    obtain ⟨hinv', hsettled⟩ := probeStep_spec (p := p) hinv hout
    intro h
    rw [run_cons] at h ⊢
    rcases hstep : (probeStep hmacSha1 cfg s p).outcome with _ | b
    · obtain ⟨before, p', after, rfl, hbefore, hsettles⟩ :=
        probeSound_of_inv hstep (hinv' hstep) h
      exact ⟨p :: before, p', after, rfl, hbefore, hsettles⟩
    · rw [run_returned hstep] at h ⊢
      exact ⟨[], p, passes, rfl, hout, hsettled h⟩

/-- Before its loop the probe has failed, or holds the one request to its peer. -/
theorem probeStart_cases (clock : ℕ) (txid outerTxid : Vector UInt8 12) :
    (probeStart hmacSha1 cfg clock txid outerTxid).outcome = some false ∨
      ((probeStart hmacSha1 cfg clock txid outerTxid).outcome = none ∧
        ProbeInv hmacSha1 cfg (probeStart hmacSha1 cfg clock txid outerTxid)) := by
  unfold probeStart
  simp only []
  split_ifs
  · exact .inl rfl
  · exact .inl rfl
  · exact .inl rfl
  · exact .inl rfl
  · split
    · exact .inl rfl
    · rename_i initial hnew
      refine .inr ⟨rfl, fun t ht => ?_⟩
      obtain rfl := List.mem_singleton.1 ht
      exact newTransaction_ok hnew

/-- The probe returns true only for a peer that answered a request sent to it, as the controlling
side, or that nominated, as the controlled side; a datagram that names no IPv4 peer counts for the
peer the probe was called for. -/
theorem probe_sound (hmacSha1 : Bytes → Bytes → Vector UInt8 20) (cfg : ProbeConfig) (clock : ℕ)
    (txid outerTxid : Vector UInt8 12) (passes : List ProbePass) :
    ProbeSound hmacSha1 cfg (takenPeer cfg) (probeStart hmacSha1 cfg clock txid outerTxid)
      passes := by
  rcases @probeStart_cases hmacSha1 cfg clock txid outerTxid with hfailed | ⟨hout, hinv⟩
  · intro h
    rw [run_returned hfailed, hfailed] at h
    simp at h
  · exact probeSound_of_inv hout hinv

/-! ## A datagram that names another peer -/

def sampleProbe : ProbeConfig where
  fd := 3
  peerHost := [49, 46, 50, 46, 51, 46, 52]
  peerPort := 5
  credentials := ⟨[108], [112], [114], [113]⟩
  tieBreaker := 1
  controlling := false
  useCandidate := false

def nominationAttributes : List (ℕ × Bytes) :=
  [(attrUsername, [108, 58, 114]), (attrIceControlling, [0, 0, 0, 0, 0, 0, 0, 1]),
    (attrUseCandidate, [])]

/-- A nomination, with a valid integrity over all of it. -/
def nomination (hmacSha1 : Bytes → Bytes → Vector UInt8 20) : Bytes :=
  stunMessage bindingRequest (zeros 12)
    (signedAttributes hmacSha1 bindingRequest (zeros 12) [112] nominationAttributes)

/-- The same from the relay, which names an IPv6 address as the peer. -/
def ipv6Indication (hmacSha1 : Bytes → Bytes → Vector UInt8 20) : Bytes :=
  stunMessage turnDataIndication (zeros 12)
    [(attrXorPeerAddress, [0, 2, 0, 0, 1, 2, 3, 4, 5, 6, 7, 8, 9, 10, 11, 12, 13, 14, 15, 16]),
      (attrData, nomination hmacSha1)]

def ipv6Pass (hmacSha1 : Bytes → Bytes → Vector UInt8 20) : ProbePass where
  elapsed := 0
  sends := fun _ => .sent
  wait := .datagram (ipv6Indication hmacSha1)
  responseTxid := zeros 12
  responseSent := true
  waited := 0
  triggeredTxid := zeros 12
  triggeredOuterTxid := zeros 12

theorem inetPton_sample : inetPton sampleProbe.peerHost = some #v[1, 2, 3, 4] := by decide

theorem makeTurnSendIndication_sample (txid : Vector UInt8 12) (payload : Bytes) :
    ∃ indication, makeTurnSendIndication txid sampleProbe.peerHost 5 payload = some indication := by
  rw [makeTurnSendIndication, makeXorPeerAddressValue, inetPton_sample]
  exact ⟨_, rfl⟩

theorem nomination_spec (hmacSha1 : Bytes → Bytes → Vector UInt8 20) :
    (judgeRequest hmacSha1 sampleProbe.credentials (nomination hmacSha1)).accepted = true ∧
      nominates false (judgeRequest hmacSha1 sampleProbe.credentials (nomination hmacSha1)) = true ∧
      read16 (nomination hmacSha1) 0 = bindingRequest ∧
      read32 (nomination hmacSha1) 4 = stunCookie ∧ (nomination hmacSha1).length = 68 := by
  have hl : Encodable nominationAttributes := by
    intro a ha
    simp only [nominationAttributes, List.mem_cons, List.not_mem_nil, or_false] at ha
    rcases ha with rfl | rfl | rfl <;> exact ⟨by decide, by simp⟩
  have hsigned : Encodable (signedAttributes hmacSha1 bindingRequest (zeros 12) [112]
      nominationAttributes) := by
    intro a ha
    rcases List.mem_append.1 ha with ha | ha
    · exact hl a ha
    · obtain rfl := List.mem_singleton.1 ha
      exact ⟨(by decide : attrMessageIntegrity < 65536), by simp⟩
  have hlen : (encodeAttributes (signedAttributes hmacSha1 bindingRequest (zeros 12) [112]
      nominationAttributes)).length = 48 := by
    simp [signedAttributes, encodeAttributes, length_encodeAttribute, nominationAttributes, align4]
  have hverify := (@verify_signed hmacSha1 bindingRequest (zeros 12) [112] _ [] hl (by decide)
    (by decide)).2
  rw [List.append_nil] at hverify
  have hvalue : ∀ w, w ≠ attrMessageIntegrity → attributeValue (nomination hmacSha1) w =
      (nominationAttributes.find? (·.1 = w)).map (·.2) := by
    intro w hw
    rw [nomination, attributeValue_stunMessage hsigned (by omega), signedAttributes,
      List.find?_append]
    simp [hw.symm]
  have haccepted : (judgeRequest hmacSha1 sampleProbe.credentials (nomination hmacSha1)).accepted
      = true := by
    simp only [judgeRequest, RequestVerdict.accepted, hvalue attrUsername (by decide)]
    rw [show verifyShortTermIntegrity hmacSha1 (nomination hmacSha1)
      sampleProbe.credentials.localPassword = true from hverify]
    decide
  refine ⟨haccepted, ?_, ?_, ?_, ?_⟩
  · have hhas : ∀ w, hasAttribute (nomination hmacSha1) w =
        (attributeValue (nomination hmacSha1) w).isSome := by
      simp [hasAttribute, attributeValue]
    simp only [nominates, haccepted]
    simp only [judgeRequest, hhas, hvalue attrUseCandidate (by decide),
      hvalue attrIceControlling (by decide)]
    decide
  · simp [nomination, stunMessage, read16, setStunLength, makeStunHeader, bytesBE, bindingRequest]
  · simp [nomination, stunMessage, read32, read16, setStunLength, makeStunHeader, bytesBE, stunCookie]
  · simp [nomination, stunMessage, hlen]

theorem ipv6Indication_spec (hmacSha1 : Bytes → Bytes → Vector UInt8 20) :
    received (ipv6Indication hmacSha1) = ipv6Indication hmacSha1 ∧
      namedPeer (ipv6Indication hmacSha1) = none ∧
      indicationData (ipv6Indication hmacSha1) = some (nomination hmacSha1) := by
  obtain ⟨-, -, -, -, hlen⟩ := nomination_spec hmacSha1
  obtain ⟨data, hdata⟩ : ∃ data, nomination hmacSha1 = data := ⟨_, rfl⟩
  rw [hdata] at hlen
  rw [ipv6Indication, hdata]
  obtain ⟨l, hl⟩ : ∃ l : List (ℕ × Bytes), [(attrXorPeerAddress,
    [0, 2, 0, 0, 1, 2, 3, 4, 5, 6, 7, 8, 9, 10, 11, 12, 13, 14, 15, 16]), (attrData, data)] = l :=
      ⟨_, rfl⟩
  have hencodable : Encodable l := by
    intro a ha
    simp only [← hl, List.mem_cons, List.not_mem_nil, or_false] at ha
    rcases ha with rfl | rfl
    · exact ⟨by decide, by simp⟩
    · exact ⟨(by decide : attrData < 65536), by simp [hlen]⟩
  have hsize : (encodeAttributes l).length = 96 := by
    simp [← hl, encodeAttributes, length_encodeAttribute, align4, hlen]
  have hvalue := fun w => @attributeValue_stunMessage turnDataIndication (zeros 12) _ hencodable
    (by omega) w
  rw [hl]
  refine ⟨List.take_of_length_le (by simp [stunMessage, hsize]), ?_, ?_⟩
  · rw [namedPeer, hvalue, ← hl]
    simp [parseXorAddressValue]
  · have hheader : read32 (stunMessage turnDataIndication (zeros 12) l) 4 = stunCookie ∧
        read16 (stunMessage turnDataIndication (zeros 12) l) 0 = turnDataIndication := by
      constructor <;> simp [stunMessage, read32, read16, setStunLength, makeStunHeader, bytesBE,
        stunCookie, turnDataIndication]
    rw [indicationData, if_neg (by simp [stunMessage]), if_neg (by simp [hheader.1]),
      if_neg (by simp [hheader.2]), hvalue, ← hl]
    simp [attrXorPeerAddress, attrData]

/-- Under no hash does the probe end with a peer the datagram names. -/
theorem probe_unnamed : ¬ ∃ hmacSha1 : Bytes → Bytes → Vector UInt8 20,
    ProbeSound hmacSha1 sampleProbe namedPeer
      (probeStart hmacSha1 sampleProbe 0 (zeros 12) (zeros 12)) [ipv6Pass hmacSha1] := by
  rintro ⟨hmacSha1, hsound⟩
  obtain ⟨hreceived, hnamed, hindication⟩ := ipv6Indication_spec hmacSha1
  obtain ⟨haccepted, hnominates, htype, hcookie, hlen⟩ := nomination_spec hmacSha1
  have hpeer : indicationPeer sampleProbe.peerHost sampleProbe.peerPort (ipv6Indication hmacSha1)
      = (sampleProbe.peerHost, 5) := by
    rw [indicationPeer, show (attributeValue (ipv6Indication hmacSha1) attrXorPeerAddress).bind
      parseXorAddressValue = none from hnamed]
    rfl
  have hdatagram : ∀ s : ProbeState, (takeDatagram hmacSha1 sampleProbe (ipv6Pass hmacSha1) s
      (ipv6Indication hmacSha1)).outcome = some true := by
    intro s
    rw [takeDatagram, hindication]
    simp only []
    rw [if_neg (by omega), if_neg (by simp [hcookie]), if_pos htype, hpeer, takeRequest]
    simp only [haccepted]
    rw [if_neg (by decide), makeIceBindingSuccessResponse, makeXorPeerAddressValue,
      inetPton_sample]
    simp only [Option.map_some]
    obtain ⟨indication, h⟩ := makeTurnSendIndication_sample (ipv6Pass hmacSha1).responseTxid
      (sealMessage hmacSha1 (appendAttribute (makeStunHeader bindingSuccess
        (slice (nomination hmacSha1) 8 12)) attrXorMappedAddress
        ([0, 1] ++ bytesBE 2 ((5 : UInt16) ^^^ 0x2112).toNat ++
          (xorCookie #v[1, 2, 3, 4]).toList)) sampleProbe.credentials.localPassword)
    rw [h]
    simp only []
    rw [if_neg (by simp [ipv6Pass]), if_pos (by exact hnominates)]
    rfl
  have houtcome : (probeStep hmacSha1 sampleProbe
      (probeStart hmacSha1 sampleProbe 0 (zeros 12) (zeros 12)) (ipv6Pass hmacSha1)).outcome
        = some true := by
    obtain ⟨indication, h⟩ := makeTurnSendIndication_sample (zeros 12)
      (sampleProbe.bindingRequest hmacSha1 (zeros 12))
    have hstart : newTransaction hmacSha1 sampleProbe sampleProbe.peerHost sampleProbe.peerPort
        (zeros 12) (zeros 12) 0 = some
          { host := sampleProbe.peerHost, port := 5, txid := zeros 12
            binding := sampleProbe.bindingRequest hmacSha1 (zeros 12), indication, nextSend := 0
            retransmit := 500000, sendAttempt := 0, succeeded := false } := by
      rw [newTransaction, show sampleProbe.peerPort = 5 from rfl, h]
      rfl
    rw [probeStart, if_neg (by decide), if_neg (by decide), if_neg (by decide), inetPton_sample,
      if_neg (by decide), hstart]
    simp only [probeStep, receive, ipv6Pass, sendDue]
    norm_num [hreceived]
    exact hdatagram _
  unfold ProbeSound at hsound
  rw [run_cons, run_nil] at hsound
  obtain ⟨before, p, after, hsplit, -, bytes, data, hwait, hpeerOf, -⟩ := hsound houtcome
  rcases before with _ | ⟨q, before⟩
  · simp only [List.nil_append, List.cons.injEq] at hsplit
    rw [← hsplit.1] at hwait
    simp only [ipv6Pass, WaitResult.datagram.injEq] at hwait
    rw [← hwait, hreceived, hnamed] at hpeerOf
    simp at hpeerOf
  · simp at hsplit

end Onegram.Stun
