import Onegram.TcpConnection
import Onegram.Proofs.SocketPackets

/-!
# Frames read from a socket

The reads of header, length and payload take the frames of the peer one by one: the connection
after a frame is the session after it.
-/

namespace Onegram.Tcp

open ExactReader TcpConnection

variable {E : Environment} {c : TcpConnection} {s : Session} {reads : List ReadRequest}

/-- The connection is in the state of the session, and asks its socket for `reads`. -/
structure FrameState (reads : List ReadRequest) (s : Session) (c : TcpConnection) : Prop where
  closed : c.closed = s.closed
  calls : c.calls = s.calls
  format : c.useIntermediateFormat = false
  ready : c.onegramWebSocketReady = true
  fragment : c.fragment = s.fragment
  fragmentOpcode : s.fragment ≠ none → c.fragmentOpcode = 1 ∨ c.fragmentOpcode = 2
  buffer : c.transportBuffer = s.buffer
  position : c.incomingAesCtr = some s.position
  socket : c.socket = if s.closed then none else some reads

theorem FrameState.close (h : FrameState [] s c) (hopen : s.closed = false) :
    FrameState reads s.close c.closeAndNotify := by
  have hclosed : c.closed = false := h.closed.trans hopen
  unfold closeAndNotify
  rw [if_neg (by simp [hclosed])]
  exact ⟨rfl, by simp [Session.close, h.calls], h.format, h.ready, h.fragment,
    h.fragmentOpcode, h.buffer, h.position, rfl⟩

/-- A closed connection is in no particular place between two reads. -/
theorem FrameState.of_closed {reads' : List ReadRequest} (h : FrameState reads s c)
    (hclosed : s.closed = true) : FrameState reads' s c :=
  ⟨h.closed, h.calls, h.format, h.ready, h.fragment, h.fragmentOpcode, h.buffer, h.position,
    by rw [h.socket, if_pos hclosed, if_pos hclosed]⟩

theorem FrameState.readDataToLength (h : FrameState [] s c) (hopen : s.closed = false) {k : ℕ}
    (hk : 0 < k) (tag : ReadTag) :
    FrameState [.toLength k tag] s (c.readDataToLength k tag) := by
  unfold TcpConnection.readDataToLength
  rw [if_neg (by omega)]
  refine ⟨h.closed, h.calls, h.format, h.ready, h.fragment, h.fragmentOpcode, h.buffer,
    h.position, ?_⟩
  have := h.socket
  rw [hopen] at this ⊢
  simp [this]

theorem FrameState.readNext (h : FrameState [] s c) :
    FrameState [.toLength 2 .webSocketFrameHeader] s c.onegramReadNextWebSocketFrame := by
  unfold onegramReadNextWebSocketFrame
  rcases hopen : s.closed with _ | _
  · rw [if_neg (by simp [h.closed, h.ready, hopen])]
    exact h.readDataToLength hopen (by omega) _
  · rw [if_pos (by simp [h.closed, hopen])]
    exact h.of_closed hopen

theorem FrameState.message (h : FrameState [] s c) (hopen : s.closed = false) (m : Bytes) :
    FrameState [] (s.message E m) (c.onegramProcessTransportFrame E m) := by
  unfold onegramProcessTransportFrame Session.message
  by_cases hm : m = []
  · rw [if_pos hm, if_pos (.inr hm)]
    exact h
  have hread : ¬ (c.incomingAesCtr = none ∨ m = []) := by simp [h.position, hm]
  rw [if_neg hm, if_neg hread]
  have hdecrypt : c.decrypt E m = (applyKeystream E s.position m,
      { c with incomingAesCtr := some (s.position + m.length) }) := by
    simp [decrypt, h.position]
  have hframing : transportFraming c.useIntermediateFormat = abridged webSocketMaxMessageLength := by
    simp [transportFraming, h.format]
  simp only [hdecrypt, hframing, h.buffer]
  obtain ⟨buffer, hbuffer⟩ : ∃ buffer, s.buffer ++ applyKeystream E s.position m = buffer :=
    ⟨_, rfl⟩
  rw [hbuffer]
  have hsocket : c.socket = some [] := by rw [h.socket, hopen]; rfl
  have hstate : FrameState [] { s with buffer := buffer, position := s.position + m.length }
      { c with incomingAesCtr := some (s.position + m.length), transportBuffer := buffer } :=
    ⟨h.closed, h.calls, h.format, h.ready, h.fragment, h.fragmentOpcode, rfl, rfl, h.socket⟩
  split
  · exact hstate.close hopen
  obtain ⟨p, hp⟩ : ∃ p, Elements.parse (abridged webSocketMaxMessageLength) buffer = p := ⟨_, rfl⟩
  rw [hp]
  have htold : FrameState []
      { s with calls := s.calls ++ p.out, buffer := buffer, position := s.position + m.length }
      (tell p.out
        { c with incomingAesCtr := some (s.position + m.length), transportBuffer := buffer }) :=
    ⟨h.closed, by simp [TcpConnection.tell, h.calls], h.format, h.ready, h.fragment,
      h.fragmentOpcode, rfl, rfl, h.socket⟩
  split
  · exact htold.close hopen
  · exact ⟨h.closed, by simp [TcpConnection.tell, h.calls], h.format, h.ready, h.fragment,
      h.fragmentOpcode, rfl, rfl, h.socket⟩

/-! ## Payloads -/

variable {f : Frame}

/-- A connection that has read the header of a legal frame. -/
structure HeaderRead (f : Frame) (s : Session) (c : TcpConnection) : Prop where
  state : FrameState [] s c
  opcode : c.frameOpcode = f.opcode
  fin : c.frameFin = f.fin
  legal : f.Legal s.fragment.isSome
  small : f.payload.length ≤ webSocketMaxMessageLength

theorem HeaderRead.data (h : HeaderRead f s c) (hopen : s.closed = false)
    (hdata : f.opcode < 8) : FrameState [] (s.data E f) (c.dataFrame E f.payload) := by
  obtain ⟨hstate, hopcode, hfin, ⟨-, -, hmem, hbegun, hfree, -⟩, hsmall⟩ := h
  unfold dataFrame Session.data
  rw [hopcode, hfin]
  by_cases hnew : f.opcode = 1 ∨ f.opcode = 2
  · have hnone : s.fragment = none := by simpa using hfree hnew
    have hcnone : c.fragment = none := hstate.fragment.trans hnone
    rw [if_pos hnew, hnone]
    simp only [Option.getD_none, List.nil_append]
    rw [if_neg (by omega)]
    rcases f.fin with _ | _
    · exact ⟨hstate.closed, hstate.calls, hstate.format, hstate.ready, rfl, fun _ => hnew,
        hstate.buffer, hstate.position, hstate.socket⟩
    · have hsame : FrameState [] { s with fragment := none } c :=
        ⟨hstate.closed, hstate.calls, hstate.format, hstate.ready, hcnone, by simp,
          hstate.buffer, hstate.position, hstate.socket⟩
      exact hsame.message hopen f.payload
  · have hzero : f.opcode = 0 := by
      simp only [List.mem_cons, List.not_mem_nil, or_false] at hmem
      omega
    obtain ⟨m, hm⟩ := Option.isSome_iff_exists.mp (hbegun hzero)
    have hcm : c.fragment = some m := hstate.fragment.trans hm
    have hcode := hstate.fragmentOpcode (by simp [hm])
    rw [if_neg hnew, hcm, hm]
    simp only [Option.getD_some]
    rw [if_pos hzero, appendFragment, hfin]
    simp only []
    split
    · exact FrameState.close (s := { s with fragment := some (m ++ f.payload) })
        ⟨hstate.closed, hstate.calls, hstate.format, hstate.ready, rfl, fun _ => hcode,
          hstate.buffer, hstate.position, hstate.socket⟩ hopen
    split
    · refine FrameState.message (s := { s with fragment := none }) ?_ hopen _
      exact ⟨hstate.closed, hstate.calls, hstate.format, hstate.ready, rfl, by simp,
        hstate.buffer, hstate.position, hstate.socket⟩
    · exact ⟨hstate.closed, hstate.calls, hstate.format, hstate.ready, rfl, fun _ => hcode,
        hstate.buffer, hstate.position, hstate.socket⟩

theorem HeaderRead.payload (h : HeaderRead f s c) (hopen : s.closed = false) :
    FrameState [.toLength 2 .webSocketFrameHeader] (s.payload E f)
      (c.onegramHandleWebSocketFramePayload E f.payload) := by
  have hsend : ∀ (payload : Bytes) (opcode : ℕ), FrameState []
      { s with calls := s.calls ++ [.wroteFrame opcode payload] }
      (c.onegramSendWebSocketPayload payload opcode) := by
    intro payload opcode
    have hstate := h.state
    unfold onegramSendWebSocketPayload
    have hwrites : ¬ (c.socket = none ∨ (!c.onegramWebSocketReady) = true) := by
      simp [hstate.socket, hstate.ready, hopen]
    rw [if_neg hwrites]
    exact ⟨hstate.closed, by simp [TcpConnection.tell, hstate.calls], hstate.format, hstate.ready,
      hstate.fragment, hstate.fragmentOpcode, hstate.buffer, hstate.position, hstate.socket⟩
  unfold onegramHandleWebSocketFramePayload Session.payload
  rw [h.opcode]
  split
  · exact (hsend _ _).close hopen
  split
  · exact (hsend _ _).readNext
  split
  · exact h.state.readNext
  · refine (h.data hopen ?_).readNext
    have := h.legal.2.2.1
    simp only [List.mem_cons, List.not_mem_nil, or_false] at this
    omega

/-! ## Reads of a frame -/

def frameCallback (E : Environment) : ReadTag → Bytes → TcpConnection → TcpConnection
  | .webSocketFrameHeader => frameHeader E
  | .webSocketFrameLength16 => frameLength16 E
  | .webSocketFrameLength64 => frameLength64 E
  | .webSocketFramePayload => onegramHandleWebSocketFramePayload E
  | _ => fun _ c => c

theorem FrameState.popRead (h : FrameState reads s c) (hopen : s.closed = false) {r : ReadRequest}
    (hreads : reads = [r]) : FrameState [] s c.popRead := by
  refine ⟨h.closed, h.calls, h.format, h.ready, h.fragment, h.fragmentOpcode, h.buffer,
    h.position, ?_⟩
  simp [TcpConnection.popRead, h.socket, hopen, hreads]

theorem FrameState.read {k : ℕ} {tag : ReadTag} (h : FrameState [.toLength k tag] s c)
    (hopen : s.closed = false) {a : Bytes} (u : Bytes) (hk : 0 < k) (ha : a.length = k)
    (htag : tag ∈ [.webSocketFrameHeader, .webSocketFrameLength16, .webSocketFrameLength64,
      .webSocketFramePayload]) :
    drain (reader E) c (a ++ u) = drain (reader E) (frameCallback E tag a c.popRead) u := by
  have hwanted : c.wantedLength = some (k, tag) := by
    simp [wantedLength, h.socket, hopen, hk]
  rw [drain_append_read (by simp [reader, hwanted, ha])]
  congr 1
  simp only [reader, hwanted, didReadData]
  rw [if_neg (by simp [TcpConnection.popRead, h.closed, hopen])]
  fin_cases htag <;> rfl

/-- A closed connection reads nothing. -/
theorem FrameState.drain_closed (h : FrameState reads s c) (hclosed : s.closed = true) (u : Bytes) :
    drain (reader E) c u = (c, u) :=
  drain_none (by simp [reader, wantedLength, h.socket, hclosed])

/-- The connection after a frame, with what it has been given after it. -/
def FrameRead (E : Environment) (s : Session) (d : TcpConnection × Bytes) (u : Bytes) : Prop :=
  ∃ c', FrameState [.toLength 2 .webSocketFrameHeader] s c' ∧ d.1 = (drain (reader E) c' u).1

theorem frameRead_closed {c' : TcpConnection} {v : Bytes} (u : Bytes)
    (h : FrameState [.toLength 2 .webSocketFrameHeader] s c') (hclosed : s.closed = true) :
    FrameRead E s (drain (reader E) c' v) u :=
  ⟨c', h, by rw [h.drain_closed hclosed, h.drain_closed hclosed]⟩

/-- The payload of a frame whose length is known. -/
theorem frameRead_payload (hstate : FrameState [] s c) (hopen : s.closed = false)
    (hopcode : c.frameOpcode = f.opcode) (hfin : c.frameFin = f.fin)
    (hlegal : f.Legal s.fragment.isSome) (hlength : c.frameLength = f.payload.length) (u : Bytes) :
    FrameRead E (s.frame E f)
      (drain (reader E) (c.onegramReadWebSocketPayload E) (f.payload ++ u)) u := by
  unfold onegramReadWebSocketPayload Session.frame
  rw [if_neg (by simp [hopen]), if_neg (not_not.mpr hlegal), hlength]
  split
  · exact frameRead_closed u (hstate.close hopen) rfl
  rename_i hsmall
  split
  · rename_i hempty
    have hnil : f.payload = [] := List.eq_nil_of_length_eq_zero hempty
    have h := HeaderRead.payload (E := E) ⟨hstate, hopcode, hfin, hlegal, not_lt.mp hsmall⟩
      hopen
    rw [hnil] at h ⊢
    exact ⟨_, h, rfl⟩
  · rename_i hpos
    have hread := hstate.readDataToLength hopen (by omega) .webSocketFramePayload
      (k := f.payload.length)
    rw [hread.read hopen u (by omega) rfl (by simp)]
    have hsame : (c.readDataToLength f.payload.length .webSocketFramePayload).frameOpcode =
        c.frameOpcode ∧
        (c.readDataToLength f.payload.length .webSocketFramePayload).frameFin = c.frameFin := by
      unfold TcpConnection.readDataToLength
      split <;> exact ⟨rfl, rfl⟩
    have h := HeaderRead.payload (E := E) ⟨hread.popRead hopen rfl, hsame.1.trans hopcode,
      hsame.2.trans hfin, hlegal, not_lt.mp hsmall⟩ hopen
    exact ⟨_, h, rfl⟩

/-! ## Lengths -/

theorem bigEndian_append (l : Bytes) (x : UInt8) :
    bigEndian (l ++ [x]) = bigEndian l * 256 + x.toNat := by
  simp [bigEndian]

theorem bigEndian_bytesBE : ∀ (k n : ℕ), bigEndian (Bytes.bytesBE k n) = n % 256 ^ k
  | 0, n => by simp [Bytes.bytesBE, bigEndian, Nat.mod_one]
  | k + 1, n => by
    have hmod : n % 256 ^ (k + 1) = n % 256 + 256 * (n / 256 % 256 ^ k) := by
      rw [Nat.pow_succ, Nat.mul_comm (256 ^ k) 256, Nat.mod_mul]
    rw [Bytes.bytesBE, bigEndian_append, bigEndian_bytesBE k (n / 256), UInt8.toNat_ofNat', hmod,
      show (2 : ℕ) ^ 8 = 256 by norm_num]
    omega

/-- The first byte of a long length, where this is not too long. -/
theorem bytesBE_eight_head {n : ℕ} (hn : n ≤ webSocketMaxMessageLength) :
    ((Bytes.bytesBE 8 n).getD 0 0).toNat < 128 := by
  have hn' : n ≤ 16777216 := hn
  simp only [Bytes.bytesBE, List.nil_append, List.cons_append, List.getD_cons_zero,
    UInt8.toNat_ofNat']
  omega

/-- A header of two bytes is read as it was written. -/
theorem header_bits (f : Frame) :
    ∃ first second : UInt8, f.header = [first, second] ∧
      first.toNat = (if f.fin then 128 else 0) + 16 * f.reserved + f.opcode ∧
      second.toNat = (if f.mask.isSome then 128 else 0) + f.lengthCode ∧ f.lengthCode < 128 := by
  have hreserved := f.reserved_lt
  have hopcode := f.opcode_lt
  have hcode : f.lengthCode < 128 := by
    have := f.fits
    unfold Frame.lengthCode
    rcases hform : f.form with _ | _ | _
    · rw [hform] at this
      exact this.trans (by norm_num)
    · norm_num
    · norm_num
  refine ⟨_, _, rfl, ?_, ?_, hcode⟩
  · rw [UInt8.toNat_ofNat', Nat.mod_eq_of_lt]
    split_ifs <;> omega
  · rw [UInt8.toNat_ofNat', Nat.mod_eq_of_lt]
    split_ifs <;> omega

/-- The length and the payload of a legal frame, after its header. -/
theorem frameRead_body (hstate : FrameState [] s c) (hopen : s.closed = false)
    (hopcode : c.frameOpcode = f.opcode) (hfin : c.frameFin = f.fin)
    (hlegal : f.Legal s.fragment.isSome) (u : Bytes) :
    FrameRead E (s.frame E f) (drain (reader E)
      (if f.lengthCode < 126 then
        onegramReadWebSocketPayload E { c with frameLength := f.lengthCode }
      else if f.lengthCode = 126 then c.readDataToLength 2 .webSocketFrameLength16
      else c.readDataToLength 8 .webSocketFrameLength64) (f.body ++ u)) u := by
  have hbody : f.body ++ u = f.extendedLength ++ (f.payload ++ u) := by
    simp [Frame.body, hlegal.2.1]
  have hwith : ∀ n, FrameState [] s { c with frameLength := n } := fun n =>
    ⟨hstate.closed, hstate.calls, hstate.format, hstate.ready, hstate.fragment,
      hstate.fragmentOpcode, hstate.buffer, hstate.position, hstate.socket⟩
  rw [hbody]
  have hfits := f.fits
  rcases hform : f.form with _ | _ | _
  · rw [hform] at hfits
    have hcode : f.lengthCode = f.payload.length := by simp [Frame.lengthCode, hform]
    have hext : f.extendedLength = [] := by simp [Frame.extendedLength, hform]
    rw [hcode, if_pos hfits, hext, List.nil_append]
    exact frameRead_payload (hwith f.payload.length) hopen hopcode hfin hlegal rfl u
  · rw [hform] at hfits
    have hcode : f.lengthCode = 126 := by simp [Frame.lengthCode, hform]
    have hext : f.extendedLength = Bytes.bytesBE 2 f.payload.length := by
      simp [Frame.extendedLength, hform]
    have hread := hstate.readDataToLength hopen (k := 2) (by omega) .webSocketFrameLength16
    obtain ⟨c', hc', hopcode', hfin'⟩ : ∃ c', c.readDataToLength 2 .webSocketFrameLength16 = c' ∧
        c'.frameOpcode = c.frameOpcode ∧ c'.frameFin = c.frameFin := ⟨_, rfl, rfl, rfl⟩
    rw [hc'] at hread
    rw [hcode, if_neg (by omega), if_pos rfl, hext, hc',
      hread.read hopen _ (by omega) (Bytes.length_bytesBE 2 _) (by simp)]
    have hpop := hread.popRead hopen rfl
    have hnumber : bigEndian (Bytes.bytesBE 2 f.payload.length) = f.payload.length := by
      rw [bigEndian_bytesBE, Nat.mod_eq_of_lt (hfits.trans_le (by norm_num))]
    simp only [frameCallback, frameLength16]
    rw [if_neg (by simp), hnumber]
    exact frameRead_payload (c := { c'.popRead with frameLength := f.payload.length })
      ⟨hpop.closed, hpop.calls, hpop.format, hpop.ready, hpop.fragment, hpop.fragmentOpcode,
        hpop.buffer, hpop.position, hpop.socket⟩ hopen (hopcode'.trans hopcode)
      (hfin'.trans hfin) hlegal rfl u
  · rw [hform] at hfits
    have hcode : f.lengthCode = 127 := by simp [Frame.lengthCode, hform]
    have hext : f.extendedLength = Bytes.bytesBE 8 f.payload.length := by
      simp [Frame.extendedLength, hform]
    have hread := hstate.readDataToLength hopen (k := 8) (by omega) .webSocketFrameLength64
    obtain ⟨c', hc', hopcode', hfin'⟩ : ∃ c', c.readDataToLength 8 .webSocketFrameLength64 = c' ∧
        c'.frameOpcode = c.frameOpcode ∧ c'.frameFin = c.frameFin := ⟨_, rfl, rfl, rfl⟩
    rw [hc'] at hread
    rw [hcode, if_neg (by omega), if_neg (by omega), hext, hc',
      hread.read hopen _ (by omega) (Bytes.length_bytesBE 8 _) (by simp)]
    have hpop := hread.popRead hopen rfl
    have hnumber : bigEndian (Bytes.bytesBE 8 f.payload.length) = f.payload.length := by
      rw [bigEndian_bytesBE, Nat.mod_eq_of_lt (hfits.trans_le (by norm_num))]
    simp only [frameCallback, frameLength64]
    rw [if_neg (by simp), hnumber]
    by_cases hlong : webSocketMaxMessageLength < f.payload.length
    · have hclose : s.frame E f = s.close := by
        unfold Session.frame
        rw [if_neg (by simp [hopen]), if_neg (not_not.mpr hlegal), if_pos hlong]
      rw [hclose]
      split
      · exact frameRead_closed u (hpop.close hopen) rfl
      · exact frameRead_closed u (hpop.close hopen) rfl
    · rw [if_neg (by have := bytesBE_eight_head (not_lt.mp hlong); omega), if_neg hlong]
      exact frameRead_payload (c := { c'.popRead with frameLength := f.payload.length })
        ⟨hpop.closed, hpop.calls, hpop.format, hpop.ready, hpop.fragment, hpop.fragmentOpcode,
          hpop.buffer, hpop.position, hpop.socket⟩ hopen (hopcode'.trans hopcode)
        (hfin'.trans hfin) hlegal rfl u

/-- The connection after the bytes of a frame is the session after the frame. -/
theorem FrameState.frame (h : FrameState [.toLength 2 .webSocketFrameHeader] s c) (f : Frame)
    (u : Bytes) : FrameRead E (s.frame E f) (drain (reader E) c (f.encode ++ u)) u := by
  rcases hopen : s.closed with _ | _
  · obtain ⟨first, second, hheader, hfirst, hsecond, hcode⟩ := header_bits f
    have hreserved := f.reserved_lt
    have hopcode := f.opcode_lt
    rw [Frame.encode, List.append_assoc, h.read hopen _ (by omega) (by simp [hheader]) (by simp)]
    have hpop := h.popRead hopen rfl
    have hcloses : ∀ {c'}, FrameState [] s c' → ¬ f.Legal s.fragment.isSome →
        FrameRead E (s.frame E f) (drain (reader E) c'.closeAndNotify (f.body ++ u)) u := by
      intro c' hc' hillegal
      have hclose : s.frame E f = s.close := by
        unfold Session.frame
        rw [if_neg (by simp [hopen]), if_pos hillegal]
      rw [hclose]
      exact frameRead_closed u (hc'.close hopen) rfl
    have hbits : first.toNat % 16 = f.opcode ∧ first.toNat / 16 % 8 = f.reserved ∧
        (128 ≤ first.toNat ↔ f.fin = true) := by
      rcases hfin : f.fin with _ | _
      · simp only [hfin, Bool.false_eq_true, if_false] at hfirst
        exact ⟨by omega, by omega, by simp; omega⟩
      · simp only [hfin, if_true] at hfirst
        exact ⟨by omega, by omega, by simp; omega⟩
    have hlow : second.toNat % 128 = f.lengthCode ∧ (128 ≤ second.toNat ↔ f.mask.isSome = true) := by
      rcases hmask : f.mask.isSome with _ | _
      · simp only [hmask, Bool.false_eq_true, if_false] at hsecond
        exact ⟨by omega, by simp; omega⟩
      · simp only [hmask, if_true] at hsecond
        exact ⟨by omega, by simp; omega⟩
    simp only [frameCallback, frameHeader, hheader, List.getD_cons_zero, List.getD_cons_succ]
    rw [if_neg (by simp), hbits.1, hbits.2.1, hlow.1, decide_eq_decide.mpr hbits.2.2]
    by_cases hfirstBad : f.reserved ≠ 0 ∨ 128 ≤ second.toNat
    · rw [if_pos hfirstBad]
      refine hcloses hpop fun hlegal => ?_
      rcases hfirstBad with hbad | hbad
      · exact hbad hlegal.1
      · have := hlow.2.mp hbad
        rw [hlegal.2.1] at this
        simp at this
    rw [if_neg hfirstBad]
    have hstate : FrameState [] s
        { c.popRead with frameFin := decide (f.fin = true), frameOpcode := f.opcode } :=
      ⟨hpop.closed, hpop.calls, hpop.format, hpop.ready, hpop.fragment, hpop.fragmentOpcode,
        hpop.buffer, hpop.position, hpop.socket⟩
    by_cases hunknown : f.opcode ∉ [0x0, 0x1, 0x2, 0x8, 0x9, 0xA]
    · rw [if_pos hunknown]
      exact hcloses hstate fun hlegal => hunknown hlegal.2.2.1
    rw [if_neg hunknown]
    by_cases horder : f.opcode = 0 ∧ c.fragment = none ∨
        (f.opcode = 1 ∨ f.opcode = 2) ∧ c.fragment ≠ none
    · rw [if_pos (by exact horder)]
      refine hcloses hstate fun hlegal => ?_
      rw [h.fragment] at horder
      rcases horder with ⟨hzero, hnone⟩ | ⟨hnew, hsome⟩
      · have := hlegal.2.2.2.1 hzero
        simp [hnone] at this
      · have := hlegal.2.2.2.2.1 hnew
        simp [hsome] at this
    rw [if_neg (by exact horder)]
    by_cases hcontrol : 8 ≤ f.opcode ∧ (decide (f.fin = true) = false ∨ 126 ≤ f.lengthCode)
    · rw [if_pos hcontrol]
      refine hcloses hstate fun hlegal => ?_
      obtain ⟨hfin, hform⟩ := hlegal.2.2.2.2.2 hcontrol.1
      have hfits : f.payload.length < 126 := by
        have := f.fits
        rwa [hform] at this
      have hcode' : f.lengthCode = f.payload.length := by simp [Frame.lengthCode, hform]
      rcases hcontrol.2 with hbad | hbad
      · simp [hfin] at hbad
      · simp only [hcode'] at hbad
        omega
    rw [if_neg hcontrol]
    refine frameRead_body hstate hopen rfl (by simp) ?_ u
    refine ⟨by_contra fun h => hfirstBad (.inl h), ?_, not_not.mp hunknown, fun hzero => ?_,
      fun hnew => ?_, fun hge => ?_⟩
    · by_contra hmask
      exact hfirstBad (.inr (hlow.2.mpr (Option.isSome_iff_ne_none.mpr hmask)))
    · rw [← h.fragment]
      by_contra hnone
      exact horder (.inl ⟨hzero, by simpa using hnone⟩)
    · rw [← h.fragment]
      by_contra hsome
      exact horder (.inr ⟨hnew, by simpa [Option.isSome_iff_ne_none] using hsome⟩)
    · rw [not_and_or, not_or] at hcontrol
      obtain ⟨hfin, hshort⟩ := hcontrol.resolve_left (by omega)
      refine ⟨by simpa using hfin, ?_⟩
      rcases hform : f.form with _ | _ | _
      · rfl
      · simp [Frame.lengthCode, hform] at hshort
      · simp [Frame.lengthCode, hform] at hshort
  · have hframe : s.frame E f = s := by
      unfold Session.frame
      rw [if_pos hopen]
    rw [hframe]
    exact frameRead_closed u h hopen

end Onegram.Tcp
