import Onegram.Dtls
import Onegram.Proofs.Dtls

/-!
# A ready endpoint is silent

The server is ready when it has sent the last flight. If that flight is lost the client repeats its
own, and a ready transport reads nothing: the client waits for ever. As long as the flight is not
lost the client still becomes ready.
-/

namespace Onegram.Dtls

open Run

/-! ## Flights -/

theorem flight_inj {a b : ℕ} (ha : a ≤ 4) (hb : b ≤ 4) (h : flight a = flight b) : a = b := by
  simp only [flight, List.cons.injEq, and_true] at h
  have := congrArg UInt8.toNat h
  simp only [UInt8.toNat_ofNat'] at this
  omega

namespace FlightState

/-- An endpoint that has begun answers every flight it has received. -/
def Begun (s : FlightState) : Prop :=
  s.received ≤ 2 ∧ s.sent = if s.isClient then min 2 (s.received + 1) else s.received

/-- An endpoint whose handshake may not have begun. -/
def Shaped (s : FlightState) : Prop := Begun s ∨ s.sent = 0 ∧ s.received = 0

variable {s : FlightState}

theorem Begun.sent_le (h : s.Begun) : s.sent ≤ 2 := by
  obtain ⟨hreceived, hsent⟩ := h
  rw [hsent]
  split_ifs <;> omega

theorem Shaped.sent_le (h : s.Shaped) : s.sent ≤ 2 := by
  rcases h with h | ⟨h, -⟩
  · exact h.sent_le
  · omega

theorem sendNext_begun_client {received sent : ℕ} (hreceived : received ≤ 2)
    (hsent : sent = min 2 received) : (sendNext ⟨true, sent, received⟩).1.Begun := by
  unfold sendNext
  split_ifs with hlt
  · have hsent' : sent < 2 := hlt
    refine ⟨hreceived, ?_⟩
    change sent + 1 = min 2 (received + 1)
    omega
  · have hsent' : ¬ sent < 2 := hlt
    refine ⟨hreceived, ?_⟩
    change sent = min 2 (received + 1)
    omega

theorem sendNext_begun_server {received sent : ℕ} (hreceived : received ≤ 2)
    (hsent : sent + 1 = received) : (sendNext ⟨false, sent, received⟩).1.Begun := by
  unfold sendNext
  rw [if_pos (by simp only []; omega)]
  exact ⟨hreceived, by simpa using hsent⟩

theorem begin_begun (h : s.Shaped) : s.begin.1.Begun := by
  obtain ⟨isClient, sent, received⟩ := s
  unfold begin
  rcases h with h | ⟨hsent, hreceived⟩
  · rw [if_neg]
    · exact h
    rintro ⟨rfl, hsent⟩
    have := h.2
    simp only [if_true] at this hsent
    omega
  · simp only at hsent hreceived
    subst hsent hreceived
    split_ifs with hclient
    · obtain ⟨rfl, -⟩ : isClient = true ∧ 0 = 0 := hclient
      exact sendNext_begun_client (by omega) (by omega)
    · cases isClient
      · exact ⟨by simp, by simp⟩
      · simp at hclient

theorem begin_of_begun (h : s.Begun) : s.begin = (s, []) := by
  unfold begin
  rw [if_neg]
  rintro ⟨hclient, hsent⟩
  have := h.2
  rw [if_pos hclient] at this
  omega

/-- What one step of the machine leaves: what it sends it counts. -/
structure Moves (s : FlightState) (r : FlightState × List Bytes) : Prop where
  isClient : r.1.isClient = s.isClient
  sent : s.sent ≤ r.1.sent
  own : ∀ d ∈ r.2, ∃ j, 1 ≤ j ∧ j ≤ r.1.sent ∧ d = r.1.own j

theorem moves_self (s : FlightState) : Moves s (s, []) := ⟨rfl, le_rfl, by simp⟩

theorem moves_sendNext (s : FlightState) : Moves s s.sendNext := by
  unfold sendNext
  split_ifs
  · refine ⟨rfl, by simp, fun d hd => ⟨s.sent + 1, by omega, le_rfl, ?_⟩⟩
    simpa [own] using hd
  · exact moves_self s

theorem moves_resend (s : FlightState) : Moves s (s, s.resend) := by
  refine ⟨rfl, le_rfl, fun d hd => ?_⟩
  unfold resend at hd
  split_ifs at hd with hsent
  · simp at hd
  · exact ⟨s.sent, by omega, le_rfl, by simpa using hd⟩

theorem moves_begin (s : FlightState) : Moves s s.begin := by
  unfold begin
  split_ifs
  · exact moves_sendNext s
  · exact moves_self s

theorem moves_read (s : FlightState) (d : Bytes) : Moves s (s.read d) := by
  unfold read
  split_ifs
  · have h := moves_sendNext { s with received := s.received + 1 }
    exact ⟨h.isClient, h.sent, h.own⟩
  · exact moves_resend s
  · exact moves_self s

theorem read_begun (h : s.Begun) (d : Bytes) : (s.read d).1.Begun := by
  obtain ⟨isClient, sent, received⟩ := s
  unfold read
  split_ifs with hnext
  · have hreceived : received < 2 := hnext.1
    have hsent := h.2
    cases isClient
    · exact sendNext_begun_server (by omega) (by simpa using hsent)
    · simp only [if_true] at hsent
      exact sendNext_begun_client (by omega) (by omega)
  · exact h
  · exact h

/-- The flight that completes a handshake is the one it waits for after the first. -/
theorem read_done {d : Bytes} (hdone : s.done = false) (h : (s.read d).1.done = true) :
    s.received = 1 ∧ d = s.awaited := by
  unfold read at h
  split_ifs at h with hnext
  · refine ⟨?_, hnext.2⟩
    have : (sendNext { s with received := s.received + 1 }).1.received = s.received + 1 := by
      unfold sendNext
      split_ifs <;> rfl
    simp only [done, this, decide_eq_true_eq] at h
    omega
  · simp [hdone] at h
  · simp [hdone] at h

theorem readAll_one {d : Bytes} (hdone : s.done = false) :
    s.readAll [d] = ⟨if (s.read d).1.done then .complete else .want, (s.read d).1, [],
      (s.read d).2⟩ := by
  simp [readAll, hdone]

theorem readAll_nil : s.readAll [] = ⟨if s.done then .complete else .want, s, [], []⟩ := rfl

end FlightState

/-! ## One transport -/

variable {peer : Presented} {t t' : DtlsTransport FlightState} {o : Outside} {d : Bytes}

def Live (t : DtlsTransport FlightState) : Prop := t.ready = false ∧ t.failed = false

/-- The transports that calls leave. -/
structure SideInv (peer : Presented) (t : DtlsTransport FlightState) : Prop where
  dtls : DtlsInv (flightMachine peer) t
  idle : t.started = false → ∀ s, t.ssl = some s → s.sent = 0 ∧ s.received = 0
  incoming : t.failed = false → t.incoming = []
  shaped : ∀ s, t.ssl = some s → s.Shaped
  begun : t.started = true → t.failed = false → ∀ s, t.ssl = some s → s.Begun
  live : Live t → ∀ s, t.ssl = some s → s.done = false

/-- What a call during the handshake leaves, where the machine of state `s` makes the move `m` or,
failing, none. -/
structure Handshaken (m : FlightState × List Bytes) (s : FlightState)
    (r : DtlsTransport FlightState × List Bytes) : Prop where
  started : r.1.started = true
  moved : ∃ s', r.1.ssl = some s' ∧
    ((s', r.2) = (s, []) ∧ r.1.failed = true ∧ r.1.ready = false ∨
      (s', r.2) = m ∧ (r.1.failed = true ∧ r.1.ready = false ∨
        r.1.failed = false ∧ r.1.incoming = [] ∧ r.1.ready = s'.done))

/-- The end of the handshake changes the flags and the keys only. -/
theorem finishHandshake_outcome (peer : Presented) (o : Outside) (s : FlightState)
    (hfailed : t.failed = false) :
    (finishHandshake (flightMachine peer) o s t).ssl = t.ssl ∧
    (finishHandshake (flightMachine peer) o s t).started = t.started ∧
    (finishHandshake (flightMachine peer) o s t).incoming = t.incoming ∧
    ((finishHandshake (flightMachine peer) o s t).failed = true ∧
        (finishHandshake (flightMachine peer) o s t).ready = false ∨
      (finishHandshake (flightMachine peer) o s t).failed = false ∧
        (finishHandshake (flightMachine peer) o s t).ready = true) := by
  unfold finishHandshake
  split
  · exact ⟨rfl, rfl, rfl, .inl ⟨rfl, rfl⟩⟩
  simp only []
  split
  · exact ⟨rfl, rfl, rfl, .inl ⟨rfl, rfl⟩⟩
  split
  · exact ⟨rfl, rfl, rfl, .inl ⟨rfl, rfl⟩⟩
  split
  · exact ⟨rfl, rfl, rfl, .inl ⟨rfl, rfl⟩⟩
  split
  · exact ⟨rfl, rfl, rfl, .inl ⟨rfl, rfl⟩⟩
  · exact ⟨rfl, rfl, rfl, .inr ⟨hfailed, rfl⟩⟩

/-- A handshake whose machine, unless it fails, reads its whole queue and makes the move `m`. -/
theorem driveHandshake_handshaken {m : FlightState × List Bytes} {s : FlightState}
    (hssl : t.ssl = some s) (hlive : Live t) (hstarted : t.started = true)
    (hm : o.handshakeError = false → (flightMachine peer).doHandshake o s t.incoming =
      ⟨if m.1.done then .complete else .want, m.1, [], m.2⟩) :
    Handshaken m s (driveHandshake (flightMachine peer) o t) := by
  obtain ⟨hready, hfailed⟩ := hlive
  unfold driveHandshake
  rw [hssl]
  simp only []
  rw [if_neg (by simp [hready, hfailed])]
  rcases herror : o.handshakeError with _ | _
  · rw [hm herror]
    rcases hdone : m.1.done with _ | _
    · exact ⟨hstarted, m.1, rfl, .inr ⟨rfl, .inr ⟨hfailed, rfl, by simp [hready, hdone]⟩⟩⟩
    · simp only [if_true]
      obtain ⟨h1, h2, h3, h4⟩ := finishHandshake_outcome peer o m.1
        (t := { t with ssl := some m.1, incoming := [] }) hfailed
      refine ⟨h2.trans hstarted, m.1, h1, .inr ⟨rfl, ?_⟩⟩
      rcases h4 with h4 | h4
      · exact .inl h4
      · exact .inr ⟨h4.1, h3, h4.2.trans hdone.symm⟩
  · have : (flightMachine peer).doHandshake o s t.incoming = ⟨.error, s, t.incoming, []⟩ := by
      simp [flightMachine, herror]
    rw [this]
    exact ⟨hstarted, s, rfl, .inl ⟨rfl, rfl, rfl⟩⟩

theorem doHandshake_read {s : FlightState} (hbegun : s.Begun) (hdone : s.done = false)
    (herror : o.handshakeError = false) : (flightMachine peer).doHandshake o s [d] =
      ⟨if (s.read d).1.done then .complete else .want, (s.read d).1, [], (s.read d).2⟩ := by
  simp [flightMachine, herror, FlightState.begin_of_begun hbegun, FlightState.readAll_one hdone]

/-- A call leaves the transport alone or makes a step of the handshake. -/
theorem start_cases (h : SideInv peer t) :
    start (flightMachine peer) o t = (t, []) ∨
    ∃ s, t.ssl = some s ∧ Live t ∧ t.started = false ∧
      Handshaken s.begin s (start (flightMachine peer) o t) := by
  unfold start
  split_ifs with hskip hstarted
  · exact .inl rfl
  · exact .inl rfl
  · right
    simp only [Bool.or_eq_true, Bool.not_eq_true', not_or, Bool.not_eq_false,
      Bool.not_eq_true] at hskip hstarted
    obtain ⟨s, hs⟩ := Option.isSome_iff_exists.mp (by simpa using hskip.1.2)
    have hready : t.ready = false := by
      by_contra hready
      have := h.dtls.consistent.started (by simpa using hready)
      simp [hstarted] at this
    refine ⟨s, hs, ⟨hready, hskip.2⟩, hstarted, ?_⟩
    refine driveHandshake_handshaken hs ⟨hready, hskip.2⟩ rfl fun herror => ?_
    simp only [h.incoming hskip.2]
    simp [flightMachine, herror, FlightState.readAll_nil]

theorem receiveDatagram_handshaken {s : FlightState} (h : SideInv peer t)
    (hstarted : t.started = true) (hlive : Live t) (hs : t.ssl = some s) (hd : d ≠ []) :
    Handshaken (s.read d) s (receiveDatagram (flightMachine peer) o d t) := by
  have hbegun := h.begun hstarted hlive.2 s hs
  unfold receiveDatagram
  rw [if_neg (by simp [hstarted, hs, hd, hlive.1, hlive.2])]
  refine driveHandshake_handshaken hs hlive hstarted fun herror => ?_
  simp only [h.incoming hlive.2, List.nil_append]
  exact doHandshake_read hbegun (h.live hlive s hs) herror

theorem receiveDatagram_cases (h : SideInv peer t) (d : Bytes) :
    receiveDatagram (flightMachine peer) o d t = (t, []) ∨
    ∃ s, t.ssl = some s ∧ Live t ∧ s.Begun ∧ s.done = false ∧
      Handshaken (s.read d) s (receiveDatagram (flightMachine peer) o d t) := by
  by_cases hskip : (!t.started || t.ssl.isNone || d.isEmpty || t.failed || t.ready) = true
  · unfold receiveDatagram
    rw [if_pos hskip]
    exact .inl rfl
  · simp only [Bool.or_eq_true, Bool.not_eq_true', not_or, Bool.not_eq_false,
      Bool.not_eq_true] at hskip
    obtain ⟨⟨⟨⟨hstarted, hssl⟩, hd⟩, hfailed⟩, hready⟩ := hskip
    obtain ⟨s, hs⟩ := Option.isSome_iff_exists.mp (by simpa using hssl)
    exact .inr ⟨s, hs, ⟨hready, hfailed⟩, h.begun hstarted hfailed s hs,
      h.live ⟨hready, hfailed⟩ s hs,
      receiveDatagram_handshaken h hstarted ⟨hready, hfailed⟩ hs (by simpa using hd)⟩

theorem handleTimeout_cases (h : SideInv peer t) :
    handleTimeout (flightMachine peer) o t = (t, []) ∨
    ∃ s m, t.ssl = some s ∧ Live t ∧ s.Begun ∧ (m = (s, []) ∨ m = (s, s.resend)) ∧
      Handshaken m s (handleTimeout (flightMachine peer) o t) := by
  unfold handleTimeout
  split
  · exact .inl rfl
  rename_i s hs
  by_cases hskip : (!t.started || t.failed || t.ready) = true
  · rw [if_pos hskip]
    exact .inl rfl
  rw [if_neg hskip]
  simp only [Bool.or_eq_true, not_or, Bool.not_eq_true, Bool.not_eq_true',
    Bool.not_eq_false] at hskip
  obtain ⟨⟨hstarted, hfailed⟩, hready⟩ := hskip
  have hdone := h.live ⟨hready, hfailed⟩ s hs
  refine .inr ⟨s, (s, if 0 < o.timeout then s.resend else []), hs, ⟨hready, hfailed⟩,
    h.begun hstarted hfailed s hs, ?_, ?_⟩
  · split_ifs
    · exact .inr rfl
    · exact .inl rfl
  simp only [flightMachine]
  by_cases hresult : o.timeout < 0
  · rw [if_pos hresult]
    exact ⟨hstarted, s, rfl, .inr ⟨rfl, .inl ⟨rfl, rfl⟩⟩⟩
  · rw [if_neg hresult]
    exact ⟨hstarted, s, rfl, .inr ⟨rfl, .inr ⟨hfailed, h.incoming hfailed, hready.trans hdone.symm⟩⟩⟩

theorem configure_outcome (peer : Presented) (o : Outside) (a : ConfigureArguments)
    (h : t.started = false) :
    (configure (flightMachine peer) o a t).started = false ∧
    (configure (flightMachine peer) o a t).incoming = t.incoming ∧
    (t.failed = true → (configure (flightMachine peer) o a t).failed = true) ∧
    ((configure (flightMachine peer) o a t).ssl = t.ssl ∨
      (configure (flightMachine peer) o a t).ssl = none ∨
      ∃ b, (configure (flightMachine peer) o a t).ssl = some ⟨b, 0, 0⟩) := by
  unfold configure
  rw [if_neg (by simp [h])]
  split
  · exact ⟨h, rfl, fun _ => rfl, .inl rfl⟩
  split
  · exact ⟨h, rfl, fun _ => rfl, .inl rfl⟩
  simp only []
  split
  · exact ⟨h, rfl, fun _ => rfl, .inr (.inl rfl)⟩
  · exact ⟨h, rfl, fun _ => rfl, .inr (.inr ⟨_, rfl⟩)⟩
  · exact ⟨h, rfl, fun _ => rfl, .inl rfl⟩
  · exact ⟨h, rfl, fun hfailed => hfailed, .inr (.inr ⟨_, rfl⟩)⟩

/-! ## What a call does for the other endpoint -/

/-- The datagram is a flight that the endpoint has sent. -/
def SentBy (t : DtlsTransport FlightState) (d : Bytes) : Prop :=
  ∃ s, t.ssl = some s ∧ ∃ j, 1 ≤ j ∧ j ≤ s.sent ∧ d = s.own j

structure CallOutcome (peer : Presented) (t : DtlsTransport FlightState)
    (r : DtlsTransport FlightState × List Bytes) : Prop where
  inv : SideInv peer r.1
  grows : ∀ d, SentBy t d → SentBy r.1 d
  own : ∀ d ∈ r.2, SentBy r.1 d
  ready : t.ready = true → r = (t, [])
  failed : t.failed = true → r.1.failed = true

theorem callOutcome_self (h : SideInv peer t) : CallOutcome peer t (t, []) :=
  ⟨h, fun _ hd => hd, by simp, fun _ => rfl, fun hfailed => hfailed⟩

theorem Handshaken.callOutcome {m : FlightState × List Bytes} {s : FlightState}
    {r : DtlsTransport FlightState × List Bytes} (h : Handshaken m s r) (hssl : t.ssl = some s)
    (hlive : Live t) (hm : FlightState.Moves s m) (hs : s.Shaped) (hbegun : m.1.Begun)
    (hdtls : DtlsInv (flightMachine peer) r.1) : CallOutcome peer t r := by
  obtain ⟨hstarted, s', hs', hmoved⟩ := h
  have hmoves : FlightState.Moves s (s', r.2) := by
    rcases hmoved with ⟨heq, -⟩ | ⟨heq, -⟩
    · rw [heq]
      exact FlightState.moves_self s
    · rw [heq]
      exact hm
  have hbegun' : r.1.failed = false → s'.Begun := by
    intro hfailed
    rcases hmoved with ⟨-, hfailed', -⟩ | ⟨heq, -⟩
    · simp [hfailed] at hfailed'
    · rw [show s' = m.1 from congrArg Prod.fst heq]
      exact hbegun
  refine ⟨⟨hdtls, fun hidle => ?_, fun hfailed => ?_, fun s₁ h₁ => ?_, fun _ hfailed s₁ h₁ => ?_,
    fun hlive' s₁ h₁ => ?_⟩, fun d hd => ?_, fun d hd => ⟨s', hs', hmoves.own d hd⟩,
    fun hready => ?_, fun hfailed => ?_⟩
  · simp [hstarted] at hidle
  · rcases hmoved with ⟨-, hfailed', -⟩ | ⟨-, ⟨hfailed', -⟩ | ⟨-, hincoming, -⟩⟩
    · simp [hfailed] at hfailed'
    · simp [hfailed] at hfailed'
    · exact hincoming
  · obtain rfl : s' = s₁ := Option.some.inj (hs'.symm.trans h₁)
    rcases hmoved with ⟨heq, -⟩ | ⟨heq, -⟩
    · rw [show s' = s from congrArg Prod.fst heq]
      exact hs
    · rw [show s' = m.1 from congrArg Prod.fst heq]
      exact .inl hbegun
  · obtain rfl : s' = s₁ := Option.some.inj (hs'.symm.trans h₁)
    exact hbegun' hfailed
  · obtain rfl : s' = s₁ := Option.some.inj (hs'.symm.trans h₁)
    rcases hmoved with ⟨-, hfailed', -⟩ | ⟨-, ⟨hfailed', -⟩ | ⟨-, -, hready⟩⟩
    · simp [hlive'.2] at hfailed'
    · simp [hlive'.2] at hfailed'
    · exact hready.symm.trans hlive'.1
  · obtain ⟨s₁, h₁, j, h1j, hj, rfl⟩ := hd
    obtain rfl : s = s₁ := Option.some.inj (hssl.symm.trans h₁)
    refine ⟨s', hs', j, h1j, hj.trans hmoves.sent, ?_⟩
    unfold FlightState.own
    rw [show s'.isClient = s.isClient from hmoves.isClient]
  · simp [hlive.1] at hready
  · simp [hlive.2] at hfailed

theorem configure_callOutcome (a : ConfigureArguments) (h : SideInv peer t) :
    CallOutcome peer t (configure (flightMachine peer) o a t, []) := by
  rcases hstarted : t.started with _ | _
  · obtain ⟨hstarted', hincoming, hfailed, hssl⟩ := configure_outcome peer o a hstarted
    have hidle : ∀ s, (configure (flightMachine peer) o a t).ssl = some s →
        s.sent = 0 ∧ s.received = 0 := by
      intro s hs
      rcases hssl with hssl | hssl | ⟨b, hssl⟩
      · exact h.idle hstarted s (hssl.symm.trans hs)
      · simp [hssl] at hs
      · rw [hssl] at hs
        obtain rfl := Option.some.inj hs
        exact ⟨rfl, rfl⟩
    refine ⟨⟨configure_inv a h.dtls, fun _ => hidle, fun hlive => ?_, fun s hs => .inr (hidle s hs),
      fun hstarted'' => ?_, fun _ s hs => ?_⟩, fun d hd => ?_, by simp, fun hready => ?_, hfailed⟩
    · refine hincoming.trans (h.incoming ?_)
      by_contra hcon
      simp [hfailed (by simpa using hcon)] at hlive
    · simp [hstarted'] at hstarted''
    · simp [FlightState.done, (hidle s hs).2]
    · obtain ⟨s, hs, j, h1j, hj, -⟩ := hd
      have := (h.idle hstarted s hs).1
      omega
    · have := h.dtls.consistent.started hready
      simp [hstarted] at this
  · have : configure (flightMachine peer) o a t = t := by
      unfold configure
      rw [if_pos hstarted]
    rw [this]
    exact callOutcome_self h

theorem start_callOutcome (h : SideInv peer t) :
    CallOutcome peer t (start (flightMachine peer) o t) := by
  rcases start_cases (o := o) h with heq | ⟨s, hs, hlive, -, hhand⟩
  · rw [heq]
    exact callOutcome_self h
  · exact hhand.callOutcome hs hlive (FlightState.moves_begin s) (h.shaped s hs)
      (FlightState.begin_begun (h.shaped s hs)) (start_inv h.dtls)

theorem receiveDatagram_callOutcome (h : SideInv peer t) (d : Bytes) :
    CallOutcome peer t (receiveDatagram (flightMachine peer) o d t) := by
  rcases receiveDatagram_cases (o := o) h d with heq | ⟨s, hs, hlive, hbegun, -, hhand⟩
  · rw [heq]
    exact callOutcome_self h
  · exact hhand.callOutcome hs hlive (FlightState.moves_read s d) (.inl hbegun)
      (FlightState.read_begun hbegun d) (receiveDatagram_inv d h.dtls)

theorem handleTimeout_callOutcome (h : SideInv peer t) :
    CallOutcome peer t (handleTimeout (flightMachine peer) o t) := by
  rcases handleTimeout_cases (o := o) h with heq | ⟨s, m, hs, hlive, hbegun, rfl | rfl, hhand⟩
  · rw [heq]
    exact callOutcome_self h
  · exact hhand.callOutcome hs hlive (FlightState.moves_self s) (.inl hbegun) hbegun
      (handleTimeout_inv h.dtls)
  · exact hhand.callOutcome hs hlive (FlightState.moves_resend s) (.inl hbegun) hbegun
      (handleTimeout_inv h.dtls)

/-- Only a datagram makes a transport ready, and only the last flight it waits for. -/
theorem start_not_ready (h : SideInv peer t) (hready : t.ready = false) :
    (start (flightMachine peer) o t).1.ready = false := by
  rcases start_cases (o := o) h with heq | ⟨s, hs, -, hstarted, -, s', -, hmoved⟩
  · rw [heq]
    exact hready
  rcases hmoved with ⟨-, -, hready'⟩ | ⟨heq, ⟨-, hready'⟩ | ⟨-, -, hready'⟩⟩
  · exact hready'
  · exact hready'
  rw [hready', show s' = s.begin.1 from congrArg Prod.fst heq]
  obtain ⟨-, hreceived⟩ := h.idle hstarted s hs
  unfold FlightState.begin FlightState.sendNext
  split_ifs <;> simp [FlightState.done, hreceived]

theorem handleTimeout_not_ready (h : SideInv peer t) (hready : t.ready = false) :
    (handleTimeout (flightMachine peer) o t).1.ready = false := by
  rcases handleTimeout_cases (o := o) h with heq | ⟨s, m, hs, hlive, -, hm, -, s', -, hmoved⟩
  · rw [heq]
    exact hready
  rcases hmoved with ⟨-, -, hready'⟩ | ⟨heq, ⟨-, hready'⟩ | ⟨-, -, hready'⟩⟩
  · exact hready'
  · exact hready'
  have hs' : s' = s := by
    rcases hm with rfl | rfl <;> exact congrArg Prod.fst heq
  rw [hready', hs']
  exact h.live hlive s hs

theorem configure_not_ready (a : ConfigureArguments) (h : SideInv peer t)
    (hready : t.ready = false) : (configure (flightMachine peer) o a t).ready = false := by
  rcases hstarted : t.started with _ | _
  · by_contra hcon
    have := (configure_inv (w := o) a h.dtls).consistent.started (by simpa using hcon)
    rw [(configure_outcome peer o a hstarted).1] at this
    simp at this
  · unfold configure
    rw [if_pos hstarted]
    exact hready

/-- A datagram that makes a transport ready is the second it waits for; it sends the answer. -/
theorem receiveDatagram_ready (h : SideInv peer t) (hready : t.ready = false)
    (hready' : (receiveDatagram (flightMachine peer) o d t).1.ready = true) :
    ∃ s, t.ssl = some s ∧ Live t ∧ s.Begun ∧ s.received = 1 ∧ d = s.awaited ∧
      (receiveDatagram (flightMachine peer) o d t).2 = (s.read d).2 := by
  rcases receiveDatagram_cases (o := o) h d with heq | ⟨s, hs, hlive, hbegun, hdone, -, s', -, hmoved⟩
  · rw [heq] at hready'
    simp [hready] at hready'
  rcases hmoved with ⟨-, -, hready''⟩ | ⟨heq, ⟨-, hready''⟩ | ⟨-, -, hready''⟩⟩
  · simp [hready'] at hready''
  · simp [hready'] at hready''
  rw [hready', show s' = (s.read d).1 from congrArg Prod.fst heq] at hready''
  obtain ⟨hreceived, hd⟩ := FlightState.read_done hdone hready''.symm
  exact ⟨s, hs, hlive, hbegun, hreceived, hd, congrArg Prod.snd heq⟩

end Onegram.Dtls
