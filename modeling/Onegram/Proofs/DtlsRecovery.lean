import Onegram.Proofs.DtlsFlights

/-!
# The last flight and the link

`Unrecoverable` is a state where one endpoint is ready, the other still waits and no repetition of
its last flight is answered. It begins with the datagram that completes one of the handshakes;
until the last flight is lost it can still end.
-/

namespace Onegram.Dtls

open Run

variable (presented : Bool → Presented)

/-- The endpoint `side` is ready, the other is neither ready nor failed, and whatever its timer
sends, the ready endpoint does not answer. -/
def Unanswered (w : Endpoints) (side : Bool) : Prop :=
  (w.transport side).ready = true ∧ Live (w.transport (!side)) ∧
  ∀ o d o', d ∈ (handleTimeout (sslOf presented (!side)) o (w.transport (!side))).2 →
    (receiveDatagram (sslOf presented side) o' d (w.transport side)).2 = []

def Unrecoverable (w : Endpoints) : Prop := ∃ side, Unanswered presented w side

/-- As `Unrecoverable`, and the flight the other waits for is not on its way either. -/
def Stranded (w : Endpoints) : Prop :=
  ∃ side, Unanswered presented w side ∧
    ∀ s, (w.transport (!side)).ssl = some s → s.awaited ∉ w.link (!side)

/-- The event hands an endpoint, which is neither ready nor failed, the last flight it waits for
while the other endpoint is neither ready nor failed. -/
def CompletesFirst (w : Endpoints) : LinkEvent → Prop
  | .deliver side i _ => ∃ s, (w.link side)[i]? = some s.awaited ∧
      (w.transport side).ssl = some s ∧ s.received = 1 ∧ Live (w.transport side) ∧
      Live (w.transport (!side))
  | _ => False

/-- The event drops the only copy of the flight that an endpoint waits for while the other endpoint
is ready. -/
def LosesLast (w : Endpoints) : LinkEvent → Prop
  | .drop side i => ∃ s, (w.link side)[i]? = some s.awaited ∧
      s.awaited ∉ (w.link side).eraseIdx i ∧ (w.transport side).ssl = some s ∧
      Live (w.transport side) ∧ (w.transport (!side)).ready = true
  | _ => False

/-! ## The endpoints -/

variable {presented} {w : Endpoints} {side : Bool} {r : DtlsTransport FlightState × List Bytes}

theorem eq_or_eq_not (b side : Bool) : b = side ∨ b = !side := by
  cases b <;> cases side <;> simp

@[simp] theorem apply_transport_self : (w.apply side r).transport side = r.1 := by
  simp [Endpoints.apply]

@[simp] theorem apply_transport_not :
    (w.apply side r).transport (!side) = w.transport (!side) := by
  simp [Endpoints.apply]

@[simp] theorem apply_link_self : (w.apply side r).link side = w.link side := by
  simp [Endpoints.apply]

@[simp] theorem apply_link_not : (w.apply side r).link (!side) = w.link (!side) ++ r.2 := by
  simp [Endpoints.apply]

@[simp] theorem setLink_transport (l : List Bytes) (b : Bool) :
    (w.setLink side l).transport b = w.transport b := rfl

@[simp] theorem setLink_link_self (l : List Bytes) : (w.setLink side l).link side = l := by
  simp [Endpoints.setLink]

@[simp] theorem setLink_link_not (l : List Bytes) :
    (w.setLink side l).link (!side) = w.link (!side) := by
  simp [Endpoints.setLink]

theorem setLink_self : w.setLink side (w.link side) = w := by
  simp [Endpoints.setLink]

/-- Every transport is one that calls leave, and what is on the way has been sent. -/
structure LinkInv (presented : Bool → Presented) (w : Endpoints) : Prop where
  side : ∀ b, SideInv (presented b) (w.transport b)
  link : ∀ b, ∀ d ∈ w.link b, SentBy (w.transport (!b)) d

theorem LinkInv.setLink (h : LinkInv presented w) {l : List Bytes}
    (hl : ∀ d ∈ l, d ∈ w.link side) : LinkInv presented (w.setLink side l) := by
  refine ⟨h.side, fun b d hd => ?_⟩
  rcases eq_or_eq_not b side with rfl | rfl
  · exact h.link b d (hl d (by simpa using hd))
  · exact h.link (!side) d (by simpa using hd)

theorem LinkInv.apply (h : LinkInv presented w)
    (hc : CallOutcome (presented side) (w.transport side) r) :
    LinkInv presented (w.apply side r) := by
  refine ⟨fun b => ?_, fun b d hd => ?_⟩
  · rcases eq_or_eq_not b side with rfl | rfl
    · simpa using hc.inv
    · simpa using h.side (!side)
  · rcases eq_or_eq_not b side with rfl | rfl
    · simpa using h.link b d (by simpa using hd)
    · simp only [apply_link_not, List.mem_append] at hd
      simp only [Bool.not_not, apply_transport_self]
      rcases hd with hd | hd
      · exact hc.grows d (by simpa using h.link (!side) d hd)
      · exact hc.own d hd

theorem linkStep_inv (e : LinkEvent) (h : LinkInv presented w) :
    LinkInv presented (linkStep presented w e) := by
  cases e with
  | configure side o a => exact h.apply (configure_callOutcome a (h.side side))
  | start side o => exact h.apply (start_callOutcome (h.side side))
  | deliver side i o =>
    simp only [linkStep]
    split
    · exact h
    · exact (h.setLink fun d hd => List.mem_of_mem_eraseIdx hd).apply
        (receiveDatagram_callOutcome (h.side side) _)
  | drop side i => exact h.setLink fun d hd => List.mem_of_mem_eraseIdx hd
  | duplicate side i =>
    simp only [linkStep]
    split
    · exact h
    · rename_i d₀ hd₀
      refine h.setLink fun d hd => ?_
      rcases List.mem_append.mp hd with hd | hd
      · exact hd
      · rw [List.mem_singleton.mp hd]
        exact List.mem_of_getElem? hd₀
  | timeout side o => exact h.apply (handleTimeout_callOutcome (h.side side))

theorem fresh_linkInv : LinkInv presented Endpoints.fresh := by
  refine ⟨fun b => ⟨fresh_inv, ?_, fun _ => rfl, ?_, ?_, ?_⟩, fun b d hd => ?_⟩
  · simp [Endpoints.fresh, DtlsTransport.fresh]
  · simp [Endpoints.fresh, DtlsTransport.fresh]
  · simp [Endpoints.fresh, DtlsTransport.fresh]
  · simp [Endpoints.fresh, DtlsTransport.fresh]
  · simp [Endpoints.fresh] at hd

/-! ## No endpoint is ready before the other -/

/-- No endpoint is ready while the other waits. -/
def Together (w : Endpoints) : Prop :=
  ∀ b, (w.transport b).ready = true → ¬ Live (w.transport (!b))

theorem CallOutcome.live {peer : Presented} {t : DtlsTransport FlightState}
    (hc : CallOutcome peer t r) (h : Live r.1) : Live t := by
  refine ⟨?_, ?_⟩
  · by_contra hready
    have := hc.ready (by simpa using hready)
    rw [this] at h
    exact hready h.1
  · by_contra hfailed
    simp [hc.failed (by simpa using hfailed), Live] at h

theorem Together.apply (h : Together w) (hc : CallOutcome (presented side) (w.transport side) r)
    (hnew : (w.transport side).ready = false → r.1.ready = true →
      ¬ Live (w.transport (!side))) : Together (w.apply side r) := by
  intro b hready hlive
  rcases eq_or_eq_not b side with rfl | rfl
  · simp only [apply_transport_self, apply_transport_not] at hready hlive
    rcases hbefore : (w.transport b).ready with _ | _
    · exact hnew hbefore hready hlive
    · exact h b hbefore hlive
  · simp only [Bool.not_not, apply_transport_self, apply_transport_not] at hready hlive
    exact h (!side) hready (by simpa using hc.live hlive)

theorem linkStep_together (e : LinkEvent) (hinv : LinkInv presented w) (h : Together w)
    (hok : ¬ CompletesFirst w e) : Together (linkStep presented w e) := by
  have hnot : ∀ {side : Bool} {r : DtlsTransport FlightState × List Bytes},
      r.1.ready = false → (w.transport side).ready = false → r.1.ready = true →
      ¬ Live (w.transport (!side)) := by
    intro side r hready _ hready'
    simp [hready] at hready'
  cases e with
  | configure side o a =>
    refine h.apply (configure_callOutcome a (hinv.side side)) fun hbefore => ?_
    exact hnot (configure_not_ready a (hinv.side side) hbefore) hbefore
  | start side o =>
    refine h.apply (start_callOutcome (hinv.side side)) fun hbefore => ?_
    exact hnot (start_not_ready (hinv.side side) hbefore) hbefore
  | deliver side i o =>
    simp only [linkStep]
    split
    · exact h
    · rename_i d hd
      have hc : CallOutcome (presented side) (w.transport side)
          (receiveDatagram (sslOf presented side) o d (w.transport side)) :=
        receiveDatagram_callOutcome (hinv.side side) d
      refine Together.apply (w := w.setLink side _) h hc fun hbefore hready hlive => hok ?_
      obtain ⟨s, hs, hlive', -, hreceived, rfl, -⟩ :=
        receiveDatagram_ready (hinv.side side) hbefore hready
      exact ⟨s, hd, hs, hreceived, hlive', hlive⟩
  | drop side i => exact h
  | duplicate side i =>
    simp only [linkStep]
    split
    · exact h
    · exact h
  | timeout side o =>
    refine h.apply (handleTimeout_callOutcome (hinv.side side)) fun hbefore => ?_
    exact hnot (handleTimeout_not_ready (hinv.side side) hbefore) hbefore

/-! ## The last flight is on the way -/

/-- The state of an endpoint that waits for the last flight, which is among the datagrams `l`. -/
def AwaitsLast (t : DtlsTransport FlightState) (l : List Bytes) : Prop :=
  ∃ s, t.ssl = some s ∧ s.received = 1 ∧ 0 < s.sent ∧ s.awaited ∈ l

/-- Where one endpoint is ready and the other waits, the flight it waits for is on its way. -/
def Kept (w : Endpoints) : Prop :=
  ∀ b, (w.transport b).ready = true → Live (w.transport (!b)) →
    AwaitsLast (w.transport (!b)) (w.link (!b))

theorem Kept.apply {l : List Bytes} (h : Kept w)
    (hc : CallOutcome (presented side) (w.transport side) r)
    (hnew : (w.transport side).ready = false → r.1.ready = true → Live (w.transport (!side)) →
      AwaitsLast (w.transport (!side)) (w.link (!side) ++ r.2))
    (hold : AwaitsLast (w.transport side) (w.link side) → Live r.1 → AwaitsLast r.1 l) :
    Kept ((w.setLink side l).apply side r) := by
  intro b hready hlive
  rcases eq_or_eq_not b side with rfl | rfl
  · simp only [apply_transport_self, apply_transport_not, apply_link_not, setLink_transport,
      setLink_link_not] at hready hlive ⊢
    rcases hbefore : (w.transport b).ready with _ | _
    · exact hnew hbefore hready hlive
    · obtain ⟨s, hs, hreceived, hsent, hmem⟩ := h b hbefore hlive
      exact ⟨s, hs, hreceived, hsent, List.mem_append_left _ hmem⟩
  · simp only [Bool.not_not, apply_transport_self, apply_transport_not, apply_link_self,
      setLink_transport, setLink_link_self] at hready hlive ⊢
    have hlive' : Live (w.transport (!!side)) := by simpa using hc.live hlive
    exact hold (by simpa using h (!side) hready hlive') hlive

theorem read_of_ne {s : FlightState} {d : Bytes} (h : d ≠ s.awaited) : (s.read d).1 = s := by
  unfold FlightState.read
  rw [if_neg (by tauto)]
  split_ifs <;> rfl

theorem read_awaited_done {s : FlightState} (h : s.received = 1) :
    (s.read s.awaited).1.done = true := by
  unfold FlightState.read FlightState.sendNext
  rw [if_pos ⟨by omega, rfl⟩]
  split_ifs <;> simp [FlightState.done, h]

/-- The second flight an endpoint waits for is the last or the one before it. -/
theorem awaited_of_received {s : FlightState} (h : s.received = 1) :
    s.awaited = flight (if s.isClient then 4 else 3) := by
  unfold FlightState.awaited FlightState.peer
  rw [h]

/-- Only the server completes its handshake before the other endpoint, and it answers with the
flight that this waits for. -/
theorem receiveDatagram_awaitsLast {o : Outside} {d : Bytes} (hinv : LinkInv presented w)
    (hd : d ∈ w.link side) (hbefore : (w.transport side).ready = false)
    (hready : (receiveDatagram (sslOf presented side) o d (w.transport side)).1.ready = true)
    (hlive : Live (w.transport (!side))) :
    AwaitsLast (w.transport (!side))
      (receiveDatagram (sslOf presented side) o d (w.transport side)).2 := by
  obtain ⟨s, -, -, hbegun, hreceived, rfl, hout⟩ :=
    receiveDatagram_ready (hinv.side side) hbefore hready
  obtain ⟨s', hs', j, h1j, hj, heq⟩ := hinv.link side _ hd
  have hinv' := hinv.side (!side)
  have hstarted : (w.transport (!side)).started = true := by
    by_contra hidle
    have := (hinv'.idle (by simpa using hidle) s' hs').1
    omega
  obtain ⟨hreceived', hsent'⟩ := hinv'.begun hstarted hlive.2 s' hs'
  have hdone' : s'.received ≠ 2 := by
    simpa [FlightState.done] using hinv'.live hlive s' hs'
  have hj2 : j ≤ 2 := hj.trans (FlightState.Begun.sent_le ⟨hreceived', hsent'⟩)
  rw [awaited_of_received hreceived, FlightState.own] at heq
  have heq := flight_inj (by split_ifs <;> omega) (by split_ifs <;> omega) heq
  rcases hs : s.isClient with _ | _
  · rcases hc' : s'.isClient with _ | _
    · simp only [hs, hc', Bool.false_eq_true, if_false] at heq
      omega
    · simp only [hs, hc', Bool.false_eq_true, if_false, if_true] at heq hsent'
      have hone : s'.received = 1 := by omega
      refine ⟨s', hs', hone, by omega, ?_⟩
      have hsent : s.sent = 1 := by
        rw [hbegun.2, hs, hreceived]
        rfl
      rw [hout, awaited_of_received hone]
      simp [FlightState.read, FlightState.sendNext, FlightState.own, hreceived, hsent, hs, hc']
  · rcases hc' : s'.isClient with _ | _
    · simp only [hs, hc', Bool.false_eq_true, if_false, if_true] at heq hsent'
      omega
    · simp only [hs, hc', if_true] at heq
      omega

theorem mem_eraseIdx_of_ne {l : List Bytes} {i : ℕ} {d d' : Bytes} (hd : l[i]? = some d)
    (hmem : d' ∈ l) (hne : d ≠ d') : d' ∈ l.eraseIdx i := by
  obtain ⟨j, hj⟩ := List.mem_iff_getElem?.mp hmem
  refine List.mem_eraseIdx_iff_getElem?.mpr ⟨j, ?_, hj⟩
  rintro rfl
  exact hne (Option.some.inj (hd.symm.trans hj))

/-- A call that changes no state keeps what the endpoint waits for. -/
theorem awaitsLast_configure {peer : Presented} {t : DtlsTransport FlightState} {o : Outside}
    {l : List Bytes} (a : ConfigureArguments) (h : SideInv peer t) (hwait : AwaitsLast t l) :
    AwaitsLast (configure (flightMachine peer) o a t) l := by
  have hstarted : t.started = true := by
    by_contra hidle
    obtain ⟨s, hs, -, hsent, -⟩ := hwait
    have := (h.idle (by simpa using hidle) s hs).1
    omega
  unfold configure
  rw [if_pos hstarted]
  exact hwait

theorem awaitsLast_start {peer : Presented} {t : DtlsTransport FlightState} {o : Outside}
    {l : List Bytes} (h : SideInv peer t) (hwait : AwaitsLast t l) :
    AwaitsLast (start (flightMachine peer) o t).1 l := by
  rcases start_cases (o := o) h with heq | ⟨-, -, -, hidle, -⟩
  · rw [heq]
    exact hwait
  · obtain ⟨s, hs, -, hsent, -⟩ := hwait
    have := (h.idle hidle s hs).1
    omega

theorem awaitsLast_timeout {peer : Presented} {t : DtlsTransport FlightState} {o : Outside}
    {l : List Bytes} (h : SideInv peer t) (hwait : AwaitsLast t l) :
    AwaitsLast (handleTimeout (flightMachine peer) o t).1 l := by
  rcases handleTimeout_cases (o := o) h with heq | ⟨s, m, hs, -, -, hm, -, s', hs', hmoved⟩
  · rw [heq]
    exact hwait
  · have heq : s' = s := by
      rcases hmoved with ⟨heq, -⟩ | ⟨heq, -⟩
      · exact congrArg Prod.fst heq
      · rcases hm with rfl | rfl <;> exact congrArg Prod.fst heq
    obtain ⟨s₀, hs₀, hwait⟩ := hwait
    obtain rfl : s = s₀ := Option.some.inj (hs.symm.trans hs₀)
    exact ⟨s, hs'.trans (congrArg some heq), hwait⟩

/-- A waiting endpoint that a datagram leaves waiting was not given the flight it waits for. -/
theorem awaitsLast_receive {peer : Presented} {t : DtlsTransport FlightState} {o : Outside}
    {l : List Bytes} {d : Bytes} {i : ℕ} (h : SideInv peer t) (hd : l[i]? = some d)
    (hwait : AwaitsLast t l) (hlive : Live t)
    (hlive' : Live (receiveDatagram (flightMachine peer) o d t).1) :
    AwaitsLast (receiveDatagram (flightMachine peer) o d t).1 (l.eraseIdx i) := by
  obtain ⟨s, hs, hreceived, hsent, hmem⟩ := hwait
  have hstarted : t.started = true := by
    by_contra hidle
    have := (h.idle (by simpa using hidle) s hs).1
    omega
  by_cases hne : d = s.awaited
  · have hnonempty : d ≠ [] := by
      rw [hne]
      simp [FlightState.awaited, FlightState.peer, flight]
    obtain ⟨-, s', -, ⟨-, hfailed, -⟩ | ⟨heq, ⟨hfailed, -⟩ | ⟨-, -, hready⟩⟩⟩ :=
      receiveDatagram_handshaken (o := o) h hstarted hlive hs hnonempty
    · simp [hlive'.2] at hfailed
    · simp [hlive'.2] at hfailed
    · rw [show s' = (s.read d).1 from congrArg Prod.fst heq, hne, read_awaited_done hreceived,
        ← hne] at hready
      simp [hlive'.1] at hready
  · have hmem' := mem_eraseIdx_of_ne hd hmem hne
    rcases receiveDatagram_cases (o := o) h d with heq | ⟨s₁, hs₁, -, -, -, -, s', hs', hmoved⟩
    · rw [heq]
      exact ⟨s, hs, hreceived, hsent, hmem'⟩
    · obtain rfl : s = s₁ := Option.some.inj (hs.symm.trans hs₁)
      have heq : s' = s := by
        rcases hmoved with ⟨heq, -⟩ | ⟨heq, -⟩
        · exact congrArg Prod.fst heq
        · exact (congrArg Prod.fst heq).trans (read_of_ne hne)
      exact ⟨s, hs'.trans (congrArg some heq), hreceived, hsent, hmem'⟩

theorem kept_of_setLink {l : List Bytes} (h : Kept w)
    (hl : ∀ s, (w.transport side).ssl = some s → Live (w.transport side) →
      (w.transport (!side)).ready = true → s.awaited ∈ w.link side → s.awaited ∈ l) :
    Kept (w.setLink side l) := by
  intro b hready hlive
  rcases eq_or_eq_not b side with rfl | rfl
  · simpa using h b hready hlive
  · simp only [Bool.not_not, setLink_transport, setLink_link_self] at hready hlive ⊢
    obtain ⟨s, hs, hreceived, hsent, hmem⟩ := h (!side) hready (by simpa using hlive)
    simp only [Bool.not_not] at hs hmem
    exact ⟨s, hs, hreceived, hsent, hl s hs hlive hready hmem⟩

theorem kept_apply_same (h : Kept w) (hc : CallOutcome (presented side) (w.transport side) r)
    (hnew : (w.transport side).ready = false → r.1.ready = false)
    (hold : AwaitsLast (w.transport side) (w.link side) → AwaitsLast r.1 (w.link side)) :
    Kept (w.apply side r) := by
  have := h.apply (l := w.link side) hc (fun hbefore hready => by simp [hnew hbefore] at hready)
    fun hwait _ => hold hwait
  rwa [setLink_self] at this

theorem linkStep_kept (e : LinkEvent) (hinv : LinkInv presented w) (h : Kept w)
    (hok : ¬ LosesLast w e) : Kept (linkStep presented w e) := by
  cases e with
  | configure side o a =>
    exact kept_apply_same h (configure_callOutcome a (hinv.side side))
      (configure_not_ready a (hinv.side side)) (awaitsLast_configure a (hinv.side side))
  | start side o =>
    exact kept_apply_same h (start_callOutcome (hinv.side side))
      (start_not_ready (hinv.side side)) (awaitsLast_start (hinv.side side))
  | deliver side i o =>
    simp only [linkStep]
    split
    · exact h
    · rename_i d hd
      have hc := receiveDatagram_callOutcome (o := o) (hinv.side side) d
      refine h.apply hc (fun hbefore hready hlive => ?_) fun hwait hlive' => ?_
      · obtain ⟨s, hs, hreceived, hsent, hmem⟩ := receiveDatagram_awaitsLast hinv
          (List.mem_of_getElem? hd) hbefore hready hlive
        exact ⟨s, hs, hreceived, hsent, List.mem_append_right _ hmem⟩
      · exact awaitsLast_receive (hinv.side side) hd hwait (hc.live hlive') hlive'
  | drop side i =>
    refine kept_of_setLink h fun s hs hlive hready hmem => ?_
    by_contra hlost
    rcases hd : (w.link side)[i]? with _ | d
    · rw [List.eraseIdx_of_length_le (List.getElem?_eq_none_iff.mp hd)] at hlost
      exact hlost hmem
    · by_cases hne : d = s.awaited
      · exact hok ⟨s, by rw [hd, hne], hlost, hs, hlive, hready⟩
      · exact hlost (mem_eraseIdx_of_ne hd hmem hne)
  | duplicate side i =>
    simp only [linkStep]
    split
    · exact h
    · exact kept_of_setLink h fun s _ _ _ hmem => List.mem_append_left _ hmem
  | timeout side o =>
    exact kept_apply_same h (handleTimeout_callOutcome (hinv.side side))
      (handleTimeout_not_ready (hinv.side side)) (awaitsLast_timeout (hinv.side side))

theorem not_unrecoverable_of_together (h : Together w) : ¬ Unrecoverable presented w := by
  rintro ⟨side, hready, hlive, -⟩
  exact h side hready hlive

theorem not_stranded_of_kept (h : Kept w) : ¬ Stranded presented w := by
  rintro ⟨side, ⟨hready, hlive, -⟩, hnone⟩
  obtain ⟨s, hs, -, -, hmem⟩ := h side hready hlive
  exact hnone s hs hmem

/-- A run in which no endpoint is given its last flight while the other waits reaches no
unrecoverable state; one that never loses the flight that a waiting endpoint needs strands none. -/
theorem recoverable_runs (presented : Bool → Presented) (es : List LinkEvent) :
    (AllSteps (linkStep presented) (fun w e => ¬ CompletesFirst w e) Endpoints.fresh es →
      ¬ Unrecoverable presented (run (linkStep presented) Endpoints.fresh es)) ∧
    (AllSteps (linkStep presented) (fun w e => ¬ LosesLast w e) Endpoints.fresh es →
      ¬ Stranded presented (run (linkStep presented) Endpoints.fresh es)) := by
  have hfresh : ∀ b, (Endpoints.fresh.transport b).ready = false := fun _ => rfl
  constructor
  · intro hok
    have := invariant
      (fun w e (h : LinkInv presented w ∧ Together w) hok =>
        ⟨linkStep_inv e h.1, linkStep_together e h.1 h.2 hok⟩) es
      ⟨fresh_linkInv, fun b hready => by simp [hfresh] at hready⟩ hok
    exact not_unrecoverable_of_together this.2
  · intro hok
    have := invariant
      (fun w e (h : LinkInv presented w ∧ Kept w) hok =>
        ⟨linkStep_inv e h.1, linkStep_kept e h.1 h.2 hok⟩) es
      ⟨fresh_linkInv, fun b hready => by simp [hfresh] at hready⟩ hok
    exact not_stranded_of_kept this.2

/-! ## A lost last flight -/

def sampleOutside : Outside :=
  { setupFailure := none, handshakeError := false, timeout := 1
    material := some (Vector.replicate 60 0) }

def samplePresented (_ : Bool) : Presented :=
  { certificate := some (some [0xAB]), profile := some "SRTP_AES128_CM_SHA1_80".toList }

def sampleArguments (remoteSetup : String) : ConfigureArguments :=
  { hasCertificate := true, hasPrivateKey := true, remoteHash := "sha-256".toList
    remoteFingerprint := "ab".toList, remoteSetup := remoteSetup.toList, isOutgoing := false }

/-- Three flights between the client `true` and the server `false`. -/
def sampleFlights : List LinkEvent :=
  [.configure false sampleOutside (sampleArguments "active"),
    .configure true sampleOutside (sampleArguments "passive"),
    .start false sampleOutside, .start true sampleOutside, .deliver false 0 sampleOutside,
    .deliver true 0 sampleOutside]

theorem receiveDatagram_of_ready {σ ω : Type*} {openSsl : OpenSsl σ ω} {t : DtlsTransport σ}
    {o : ω} {d : Bytes} (h : t.ready = true) : receiveDatagram openSsl o d t = (t, []) := by
  unfold receiveDatagram
  rw [if_pos (by simp [h])]

theorem recoverable_runs_sample :
    ¬ Unrecoverable samplePresented
      (run (linkStep samplePresented) Endpoints.fresh sampleFlights) ∧
    ¬ Stranded samplePresented (run (linkStep samplePresented) Endpoints.fresh
      (sampleFlights ++ [.deliver false 0 sampleOutside, .deliver true 0 sampleOutside])) := by
  refine ⟨(recoverable_runs samplePresented sampleFlights).1 ?_,
    (recoverable_runs samplePresented _).2 ?_⟩
  · refine ⟨not_false, not_false, not_false, not_false, ?_, ?_, trivial⟩
    · rintro ⟨s, -, hs, hreceived, -⟩
      have hserver : some (FlightState.mk false 0 0) = some s := hs
      rw [← Option.some.inj hserver] at hreceived
      exact absurd hreceived (by decide)
    · rintro ⟨s, -, hs, hreceived, -⟩
      have hclient : some (FlightState.mk true 1 0) = some s := hs
      rw [← Option.some.inj hclient] at hreceived
      exact absurd hreceived (by decide)
  · exact ⟨not_false, not_false, not_false, not_false, not_false, not_false, not_false, not_false,
      trivial⟩

/-- The last flight is dropped when the server is ready. -/
theorem last_flight_stranded : Stranded samplePresented
    (run (linkStep samplePresented) Endpoints.fresh
      (sampleFlights ++ [.deliver false 0 sampleOutside, .drop true 0])) := by
  refine ⟨false, ⟨by decide, ⟨by decide, by decide⟩, fun o d o' _ => ?_⟩, fun s _ => ?_⟩
  · rw [receiveDatagram_of_ready (by decide)]
  · have hlink : (run (linkStep samplePresented) Endpoints.fresh
        (sampleFlights ++ [.deliver false 0 sampleOutside, .drop true 0])).link (!false) = [] := by
      decide
    rw [hlink]
    simp

end Onegram.Dtls
