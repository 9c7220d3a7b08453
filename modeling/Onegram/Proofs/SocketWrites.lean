import Onegram.Proofs.WebSocketFrames
import Onegram.SocketWrites

/-!
# What is sent is what is received

The bytes of every run of a connection, taken apart as a server takes them: the frames of a
WebSocket, the header, the cipher and the packets in the abridged format. What a run has sent is
carried along as the invariant: the stream so far is a header and the packets encrypted after it.
-/

namespace Onegram.Tcp

open Elements

variable {P : Platform}

/-! ## The cipher -/

section Cipher

variable (aes : Bytes → Bytes → Bytes)

namespace MTAesCtr

theorem encryptByte_state (a b : UInt8) (c : MTAesCtr) :
    (c.encryptByte aes a).2 = (c.encryptByte aes b).2 := rfl

theorem encryptByte_encryptByte (b : UInt8) (c : MTAesCtr) :
    (c.encryptByte aes (c.encryptByte aes b).1).1 = b := by
  simp only [encryptByte]
  exact Bytes.xor_cancel ..

@[simp] theorem length_encryptIn : ∀ (u : Bytes) (c : MTAesCtr),
    (c.encryptIn aes u).1.length = u.length
  | [], _ => rfl
  | b :: u, c => congrArg Nat.succ (length_encryptIn u (c.encryptByte aes b).2)

/-- Where the cipher stands depends on how many bytes it has encrypted only. -/
theorem encryptIn_state : ∀ (u v : Bytes) (c : MTAesCtr), u.length = v.length →
    (c.encryptIn aes u).2 = (c.encryptIn aes v).2
  | [], [], _, _ => rfl
  | a :: u, b :: v, c, h => by
    show ((c.encryptByte aes a).2.encryptIn aes u).2 = ((c.encryptByte aes b).2.encryptIn aes v).2
    rw [encryptByte_state aes a b]
    exact encryptIn_state u v _ (Nat.succ.inj h)

theorem encryptIn_append : ∀ (u v : Bytes) (c : MTAesCtr), c.encryptIn aes (u ++ v) =
    ((c.encryptIn aes u).1 ++ ((c.encryptIn aes u).2.encryptIn aes v).1,
      ((c.encryptIn aes u).2.encryptIn aes v).2)
  | [], _, _ => rfl
  | b :: u, v, c => by
    have h := encryptIn_append u v (c.encryptByte aes b).2
    simp only [List.cons_append, encryptIn, h]

theorem encryptIn_encryptIn : ∀ (u : Bytes) (c : MTAesCtr),
    (c.encryptIn aes (c.encryptIn aes u).1).1 = u
  | [], _ => rfl
  | b :: u, c => by
    have h := encryptIn_encryptIn u (c.encryptByte aes b).2
    simp only [encryptIn, encryptByte_encryptByte]
    rw [encryptByte_state aes (c.encryptByte aes b).1 b, h]

end MTAesCtr

end Cipher

/-! ## Frames -/

@[simp] theorem length_maskBytes (mask : Vector UInt8 4) (b : Bytes) :
    (maskBytes mask b).length = b.length := by
  simp [maskBytes]

theorem maskBytes_maskBytes (mask : Vector UInt8 4) (b : Bytes) :
    maskBytes mask (maskBytes mask b) = b := by
  refine List.ext_getElem (by simp) fun i _ _ => ?_
  simp only [maskBytes, List.getElem_mapIdx]
  exact Bytes.xor_cancel ..

theorem or_bit : ∀ n < 128, ∀ flag : Bool,
    (UInt8.ofNat n ||| quickAckFlag flag).toNat = n + if flag then 128 else 0 := by
  decide +kernel

theorem bit_or : ∀ n < 128, (0x80 ||| UInt8.ofNat n : UInt8).toNat = 128 + n := by
  decide +kernel

/-- The opcodes of the frames a client sends. -/
def SentOpcode (opcode : UInt8) (payload : Bytes) : Prop :=
  opcode = 0x2 ∧ payload.length < 2 ^ 63 ∨ (opcode = 0x8 ∨ opcode = 0xA) ∧ payload.length ≤ 125

/-- The length of a frame in its bytes: its code, and what extends it. -/
theorem webSocketLengthBytes_spec {length : ℕ} (h : length < 2 ^ 63) :
    ∃ (second : UInt8) (extended : Bytes) (code : ℕ),
      webSocketLengthBytes length = second :: extended ∧ second.toNat = 128 + code ∧ code < 128 ∧
      extended.length = extendedLength code ∧ payloadLength code extended = length ∧
      MinimalLength code length ∧ (length < 126 → code = length) := by
  unfold webSocketLengthBytes
  split_ifs with hshort hmedium
  · refine ⟨_, _, length, rfl, bit_or length (by omega), by omega, ?_, ?_, ?_, fun _ => rfl⟩
    · rw [extendedLength, if_neg (by omega), if_neg (by omega)]
      rfl
    · rw [payloadLength, if_pos hshort]
    · exact ⟨fun h => absurd h (by omega), fun h => absurd h (by omega)⟩
  · refine ⟨_, _, 126, rfl, rfl, by omega, Bytes.length_bytesBE 2 length, ?_, ?_, fun h => ?_⟩
    · rw [payloadLength, if_neg (by omega), bigEndian_bytesBE, Nat.mod_eq_of_lt (by omega)]
    · exact ⟨fun _ => by omega, fun h => absurd h (by omega)⟩
    · exact absurd h hshort
  · refine ⟨_, _, 127, rfl, rfl, by omega, Bytes.length_bytesBE 8 length, ?_, ?_, fun h => ?_⟩
    · rw [payloadLength, if_neg (by omega), bigEndian_bytesBE, Nat.mod_eq_of_lt (by omega)]
    · exact ⟨fun h => absurd h (by omega), fun _ => ⟨by omega, h⟩⟩
    · exact absurd h hshort

/-- A frame is taken for what it was made of. -/
theorem clientFrameNext_frame (mask : Vector UInt8 4) {payload : Bytes} {opcode : UInt8}
    (h : SentOpcode opcode payload) :
    clientFrameNext (MTOnegramWebSocketFrame mask payload opcode) =
      .element [⟨true, opcode.toNat, payload⟩]
        (MTOnegramWebSocketFrame mask payload opcode).length := by
  have hlength : payload.length < 2 ^ 63 := by
    rcases h with h | h <;> omega
  obtain ⟨second, extended, code, hbytes, hsecond, hcode, hextended, hpayload, hminimal, hshort⟩ :=
    webSocketLengthBytes_spec hlength
  have hfirst : (0x80 ||| opcode &&& 0x0f : UInt8).toNat = 128 + opcode.toNat ∧
      opcode.toNat ∈ [2, 8, 10] := by
    rcases h with ⟨rfl, -⟩ | ⟨rfl | rfl, -⟩ <;> decide
  have hmod : second.toNat % 128 = code := by omega
  have hrefused : refused (0x80 ||| opcode &&& 0x0f : UInt8).toNat second.toNat = false := by
    rw [hfirst.1, refused, hmod]
    rcases h with ⟨rfl, -⟩ | ⟨rfl | rfl, hfew⟩
    · simp
      omega
    · have := hshort (by omega)
      simp
      omega
    · have := hshort (by omega)
      simp
      omega
  have hslice : Bytes.slice (extended ++ (mask.toList ++ maskBytes mask payload))
      (extendedLength code) 4 = mask := by
    rw [Bytes.slice_after _ hextended, Bytes.slice_append_left _ (by simp), Bytes.slice_toList]
  have hbody : (extended ++ (mask.toList ++ maskBytes mask payload)).drop
      (extendedLength code + 4) = maskBytes mask payload := by
    rw [← List.append_assoc, List.drop_left' (by simp [hextended])]
  have htake : (extended ++ (mask.toList ++ maskBytes mask payload)).take (extendedLength code) =
      extended := List.take_left' hextended
  rw [MTOnegramWebSocketFrame, hbytes, List.cons_append, clientFrameNext, hrefused,
    if_neg Bool.false_ne_true, frameBody]
  simp only [hmod, htake, hpayload, hslice, hbody]
  rw [if_neg (by simp; omega), if_neg (not_not.mpr hminimal), if_neg (by simp; omega), hfirst.1,
    List.take_of_length_le (by simp), maskBytes_maskBytes]
  have hopcode : (128 + opcode.toNat) % 16 = opcode.toNat := by
    have := hfirst.2
    simp only [List.mem_cons, List.not_mem_nil, or_false] at this
    omega
  rw [hopcode]
  simp only [List.length_cons, List.length_append, Vector.length_toList, length_maskBytes,
    Next.element.injEq, decide_eq_true (Nat.le_add_right 128 opcode.toNat), true_and]
  omega

/-! ## Packets -/

/-- A payload that the abridged format can hold. -/
def PayloadLength (data : Bytes) : Prop :=
  0 < data.length ∧ data.length % 4 = 0 ∧ data.length < 4 * 2 ^ 24

instance (data : Bytes) : Decidable (PayloadLength data) := inferInstanceAs (Decidable (_ ∧ _))

def encodePacket (x : Bool × Bytes) : Bytes := abridgedLength x.2.length x.1 ++ x.2

/-- The length before a packet: one byte, or one and three more. -/
theorem abridgedLength_spec {data : Bytes} (h : PayloadLength data) (requestQuickAck : Bool) :
    (data.length / 4 < 0x7f ∧ ∃ marker : UInt8,
      abridgedLength data.length requestQuickAck = [marker] ∧
      marker.toNat = data.length / 4 + if requestQuickAck then 128 else 0) ∨
    0x7f ≤ data.length / 4 ∧ ∃ marker : UInt8,
      abridgedLength data.length requestQuickAck =
        marker :: Bytes.bytesLE 3 (data.length / 4) ∧
      marker.toNat = 0x7f + if requestQuickAck then 128 else 0 := by
  obtain ⟨hpos, hquarter, hmax⟩ := h
  have hint : int32 (data.length / 4) = ((data.length / 4 : ℕ) : ℤ) :=
    Int.bmod_eq_of_le (by omega) (by omega)
  rcases lt_or_ge (data.length / 4) 0x7f with hshort | hlong
  · have hle : int32 (data.length / 4) ≤ 0x7e := by
      rw [hint]
      omega
    refine .inl ⟨hshort, _, ?_, or_bit (data.length / 4) (by omega) requestQuickAck⟩
    simp only [abridgedLength, if_pos hle]
  · have hgt : ¬ int32 (data.length / 4) ≤ 0x7e := by
      rw [hint]
      omega
    refine .inr ⟨hlong, _, ?_, or_bit 0x7f (by omega) requestQuickAck⟩
    simp only [abridgedLength, if_neg hgt]
    rfl

/-- A packet is taken for what it was made of. -/
theorem clientPacketNext_packet {x : Bool × Bytes} (h : PayloadLength x.2) :
    clientPacketNext (encodePacket x) = .element [x] (encodePacket x).length := by
  obtain ⟨requestQuickAck, data⟩ := x
  have hspec := abridgedLength_spec h requestQuickAck
  obtain ⟨hpos, hquarter, hmax⟩ := h
  simp only at hpos hquarter hmax hspec
  have hflag : ∀ {n : ℕ}, n < 128 → (n + if requestQuickAck then 128 else 0) % 128 = n ∧
      decide (128 ≤ n + if requestQuickAck then 128 else 0) = requestQuickAck := by
    intro n hn
    rcases requestQuickAck with _ | _
    · simp
      omega
    · simp
      omega
  rcases hspec with ⟨hshort, marker, hbytes, hmarker⟩ | ⟨hlong, marker, hbytes, hmarker⟩
  · obtain ⟨hmod, hbit⟩ := hflag (n := data.length / 4) (by omega)
    rw [encodePacket, hbytes, List.singleton_append, clientPacketNext]
    simp only [hmarker, hmod, hbit]
    have hlength : data.length / 4 * 4 = data.length := by omega
    rw [if_neg (by omega), if_neg (by omega), hlength, if_neg (by omega), List.take_length,
      List.length_cons, Nat.add_comm]
  · obtain ⟨hmod, hbit⟩ := hflag (n := 0x7f) (by omega)
    have hlittle : Bytes.littleEndian (Bytes.bytesLE 3 (data.length / 4)) * 4 = data.length := by
      rw [Bytes.littleEndian_bytesLE, Nat.mod_eq_of_lt (by omega)]
      omega
    rw [encodePacket, hbytes, List.cons_append, clientPacketNext]
    simp only [hmarker, hmod, hbit, List.take_left' (Bytes.length_bytesLE 3 (data.length / 4)),
      List.drop_left' (Bytes.length_bytesLE 3 (data.length / 4)), hlittle]
    rw [if_neg (by omega), if_pos trivial, if_neg (by simp), if_neg (by omega),
      if_neg (by simp), List.take_length]
    simp
    omega

theorem word_bytesLE_three (q : ℕ) (h : q < 2 ^ 24) :
    TcpConnection.word (Bytes.bytesLE 3 q) = q := by
  simp only [TcpConnection.word, Bytes.bytesLE, List.getD_cons_zero, List.getD_cons_succ,
    List.getD_nil, UInt8.toNat_ofNat', UInt8.toNat_zero]
  omega

/-- Without a request for a quick acknowledgement a client takes the packet as a server does. -/
theorem abridgedNext_packet {data : Bytes} (h : PayloadLength data)
    (hmax : data.length ≤ webSocketMaxMessageLength) :
    TcpConnection.abridgedNext webSocketMaxMessageLength (encodePacket (false, data)) =
      .element (TcpConnection.packetCalls data) (encodePacket (false, data)).length := by
  have hspec := abridgedLength_spec h false
  obtain ⟨hpos, hquarter, hlimit⟩ := h
  simp only [Bool.false_eq_true, if_false, Nat.add_zero] at hspec
  have hencode : encodePacket (false, data) = abridgedLength data.length false ++ data := rfl
  rcases hspec with ⟨hshort, marker, hbytes, hmarker⟩ | ⟨hlong, marker, hbytes, hmarker⟩
  · have hlength : data.length / 4 * 4 = data.length := by omega
    rw [hencode, hbytes, List.singleton_append, TcpConnection.abridgedNext, hmarker, hlength,
      if_neg (by omega), if_neg (by omega), if_neg (by omega), if_neg (by omega),
      List.take_length, List.length_cons, Nat.add_comm]
  · have hword : TcpConnection.word (Bytes.bytesLE 3 (data.length / 4)) * 4 = data.length := by
      rw [word_bytesLE_three _ (by omega)]
      omega
    rw [hencode, hbytes, List.cons_append, TcpConnection.abridgedNext]
    simp only [hmarker, List.take_left' (Bytes.length_bytesLE 3 (data.length / 4)),
      List.drop_left' (Bytes.length_bytesLE 3 (data.length / 4)), hword]
    rw [if_neg (by omega), if_pos trivial, if_neg (by simp), if_neg (by omega),
      if_neg (by simp), List.take_length]
    simp
    omega

/-! ## Writes -/

/-- The connection has written bytes by which its stream is longer, and drawn masks for them. -/
structure Wrote (d : Bytes) (c c' : Output) : Prop where
  fields : c' = { c with written := c'.written, masksDrawn := c'.masksDrawn }
  stream : ∀ s, transported c.onegramWebSocket c.written.flatten = some s →
    transported c.onegramWebSocket c'.written.flatten = some (s ++ d)

section Writes

variable {c c' c'' : Output} {d d' : Bytes}

theorem Wrote.refl (c : Output) : Wrote [] c c := ⟨rfl, fun s h => by rw [h, List.append_nil]⟩

theorem Wrote.trans (h : Wrote d c c') (h' : Wrote d' c' c'') : Wrote (d ++ d') c c'' := by
  have hsame : c'.onegramWebSocket = c.onegramWebSocket := by rw [h.fields]
  refine ⟨?_, fun s hs => ?_⟩
  · rw [h'.fields, h.fields]
  · have := h'.stream (s ++ d) (by rw [hsame]; exact h.stream s hs)
    rwa [hsame, List.append_assoc] at this

theorem binaryPayload_append (fs gs : List ClientFrame) :
    binaryPayload (fs ++ gs) = binaryPayload fs ++ binaryPayload gs := by
  simp [binaryPayload]

/-- A frame is one more frame of the stream, and a binary one continues what the others carry. -/
theorem wrote_frame {payload : Bytes} {opcode : UInt8} (hsocket : c.socket = true)
    (hready : c.onegramWebSocketReady = true) (hwebSocket : c.onegramWebSocket = true)
    (h : SentOpcode opcode payload) :
    Wrote (binaryPayload [⟨true, opcode.toNat, payload⟩]) c
      (c.onegramSendWebSocketPayload P payload opcode) := by
  have hsent : c.onegramSendWebSocketPayload P payload opcode =
      { c with
        masksDrawn := c.masksDrawn + 1
        written := c.written ++ [MTOnegramWebSocketFrame (P.mask c.masksDrawn) payload opcode] } := by
    simp [Output.onegramSendWebSocketPayload, hsocket, hready, Output.writeData]
  refine ⟨by rw [hsent], fun s hs => ?_⟩
  rw [hwebSocket, transported, if_pos rfl] at hs ⊢
  obtain ⟨fs, hfs, rfl⟩ := Option.map_eq_some_iff.mp hs
  have hframe := whole_element (F := clientFrames) rfl
    (clientFrameNext_frame (P.mask c.masksDrawn) h)
  rw [hsent, List.flatten_append, List.flatten_singleton, whole_append hfs, hframe]
  simp only [Option.map_some, binaryPayload_append]

theorem wrote_nothing {payload : Bytes} {opcode : UInt8}
    (h : c.socket = false ∨ c.onegramWebSocketReady = false) :
    Wrote [] c (c.onegramSendWebSocketPayload P payload opcode) := by
  have hsame : c.onegramSendWebSocketPayload P payload opcode = c := by
    rcases h with h | h <;> simp [Output.onegramSendWebSocketPayload, h]
  rw [hsame]
  exact .refl c

theorem wrote_binary (hsend : c.canSend = true) (hwebSocket : c.onegramWebSocket = true)
    (h : d.length < 2 ^ 63) : Wrote d c (c.onegramSendWebSocketPayload P d 0x2) := by
  simp only [Output.canSend, hwebSocket, Bool.and_eq_true, Bool.not_true, Bool.false_or] at hsend
  have := wrote_frame (P := P) hsend.1.2 hsend.2 hwebSocket (.inl ⟨rfl, h⟩)
  rwa [show binaryPayload [⟨true, (0x2 : UInt8).toNat, d⟩] = d by simp [binaryPayload]] at this

theorem wrote_data (hwebSocket : c.onegramWebSocket = false) : Wrote d c (c.writeData d) := by
  refine ⟨rfl, fun s hs => ?_⟩
  rw [hwebSocket, transported, if_neg Bool.false_ne_true] at hs ⊢
  rw [Option.some.injEq] at hs ⊢
  simp [Output.writeData, hs]

theorem Wrote.canSend (h : Wrote d c c') : c'.canSend = c.canSend := by
  rw [h.fields]
  rfl

end Writes

/-! ## The header -/

/-- A header of the abridged format, before it is encrypted. -/
def Header (control : Bytes) : Prop :=
  control.length = 64 ∧ (control.drop 56).take 4 = [0xef, 0xef, 0xef, 0xef]

/-- The stream that a header begins: its ends in clear up to the version, then encrypted. -/
def hidden (P : Platform) (secret : Option Bytes) (control body : Bytes) : Bytes :=
  control.take 56 ++
    (((headerCtr P.sha256 secret control).encryptIn P.aes (control ++ body)).1).drop 56

theorem length_drawControlBytes (c : Output) : (c.drawControlBytes P).length = 64 := by
  obtain ⟨b, hb, hallowed⟩ := P.allowed
  have hsome : (P.controlBytes.find? fun b => !(c.onegramWebSocket &&
      !MTOnegramControlBytesAllowed b.toList)).isSome = true :=
    List.find?_isSome.mpr ⟨b, hb, by simp [hallowed]⟩
  obtain ⟨draw, hdraw⟩ := Option.isSome_iff_exists.mp hsome
  rw [Output.drawControlBytes, hdraw]
  simp

theorem header_controlHeader {c : Output} (h : c.useIntermediateFormat = false) :
    Header (c.controlHeader P) := by
  have hdraw := length_drawControlBytes (P := P) c
  have htake : ((c.drawControlBytes P).take 56).length = 56 := by simp [hdraw]
  refine ⟨by simp [Output.controlHeader, hdraw], ?_⟩
  simp only [Output.controlHeader, h]
  rw [List.drop_left' htake]
  rfl

/-- The cipher depends on the bytes before the version only. -/
theorem headerCtr_congr (sha256 : Bytes → Bytes) (secret : Option Bytes) {u v : Bytes}
    (h : u.take 56 = v.take 56) : headerCtr sha256 secret u = headerCtr sha256 secret v := by
  have hpart : ∀ k n : ℕ, k + n ≤ 56 → (u.drop k).take n = (v.drop k).take n := by
    intro k n hkn
    have := congrArg (fun w => (w.drop k).take n) h
    simpa [List.drop_take, List.take_take, Nat.min_eq_left (by omega : n ≤ 56 - k)] using this
  rw [headerCtr, headerCtr, hpart 8 32 (by omega), hpart 40 16 (by omega)]

/-- What comes out after some bytes depends on how many these are only. -/
theorem drop_encryptIn (aes : Bytes → Bytes → Bytes) (c : MTAesCtr) {u v : Bytes} {k : ℕ}
    (hu : k ≤ u.length) (hlength : u.length = v.length) (h : u.drop k = v.drop k) :
    (c.encryptIn aes u).1.drop k = (c.encryptIn aes v).1.drop k := by
  have hsplit : ∀ w : Bytes, k ≤ w.length → (c.encryptIn aes w).1.drop k =
      ((c.encryptIn aes (w.take k)).2.encryptIn aes (w.drop k)).1 := by
    intro w hw
    conv_lhs => rw [← List.take_append_drop k w, MTAesCtr.encryptIn_append]
    rw [List.drop_left' (by simp [hw])]
  rw [hsplit u hu, hsplit v (by omega), h,
    MTAesCtr.encryptIn_state aes (u.take k) (v.take k) c (by simp [hlength])]

/-- A server finds the cipher in the header, and what follows the header. -/
theorem unobfuscated_hidden (P : Platform) (secret : Option Bytes) {control : Bytes}
    (h : Header control) (body : Bytes) :
    unobfuscated P secret (hidden P secret control body) = some body := by
  obtain ⟨hlength, hversion⟩ := h
  have htake : (control.take 56).length = 56 := by simp [hlength]
  set ctr := headerCtr P.sha256 secret control with hctr
  have hcipher : headerCtr P.sha256 secret (hidden P secret control body) = ctr :=
    headerCtr_congr _ _ (by rw [hidden, List.take_left' htake])
  have hlong : (hidden P secret control body).length = 64 + body.length := by
    simp only [hidden, List.length_append, htake, List.length_drop, MTAesCtr.length_encryptIn,
      hlength]
    omega
  have hplain : (ctr.encryptIn P.aes (hidden P secret control body)).1.drop 56 =
      control.drop 56 ++ body := by
    have hdrop : (hidden P secret control body).drop 56 =
        (ctr.encryptIn P.aes (control ++ body)).1.drop 56 := List.drop_left' htake
    rw [drop_encryptIn P.aes ctr (by omega) (by simp [hlong, hlength]) hdrop,
      MTAesCtr.encryptIn_encryptIn, List.drop_append_of_le_length (by omega)]
  have hbody : (ctr.encryptIn P.aes (hidden P secret control body)).1.drop 64 = body := by
    rw [show 64 = 56 + 8 by rfl, ← List.drop_drop, hplain, List.drop_left' (by simp [hlength])]
  unfold unobfuscated
  rw [hcipher]
  simp only [hplain, hbody]
  rw [if_pos]
  exact ⟨by omega, by rw [List.take_append_of_le_length (by simp [hlength]), hversion]⟩

/-! ## What a connection has sent -/

/-- The stream of a connection that has sent packets. -/
inductive Streams (P : Platform) (c : Output) : List (Bool × Bytes) → Bytes → Prop
  | unopened : c.addedControlHeader = false → Streams P c [] []
  | opened {control : Bytes} {sent : List (Bool × Bytes)} : c.addedControlHeader = true →
      Header control → sent ≠ [] →
      c.outgoingAesCtr = some ((headerCtr P.sha256 c.effectiveSecret control).encryptIn P.aes
        (control ++ sent.flatMap encodePacket)).2 →
      Streams P c sent (hidden P c.effectiveSecret control (sent.flatMap encodePacket))

/-- A connection in the abridged format that has sent packets and written what says so. -/
structure Sent (P : Platform) (start : Output) (sent : List (Bool × Bytes)) (c : Output) :
    Prop where
  abridged : c.useIntermediateFormat = false
  ready : c.onegramWebSocketReady = true → c.onegramWebSocket = true
  secret : c.effectiveSecret = start.effectiveSecret
  webSocket : c.onegramWebSocket = start.onegramWebSocket
  payload : ∀ x ∈ sent, PayloadLength x.2
  stream : ∃ stream, transported c.onegramWebSocket c.written.flatten = some stream ∧
    Streams P c sent stream

section Sending

variable {start c c' : Output} {sent : List (Bool × Bytes)} {d : Bytes}

theorem Streams.congr {stream : Bytes} (h : Streams P c sent stream)
    (hadded : c'.addedControlHeader = c.addedControlHeader)
    (hctr : c'.outgoingAesCtr = c.outgoingAesCtr)
    (hsecret : c'.effectiveSecret = c.effectiveSecret) : Streams P c' sent stream := by
  rcases h with h | ⟨h, hheader, hsent, hcipher⟩
  · exact .unopened (hadded.trans h)
  · rw [← hsecret] at hcipher ⊢
    exact .opened (hadded.trans h) hheader hsent (hctr.trans hcipher)

/-- A frame that carries nothing of the stream. -/
theorem Sent.wrote (h : Sent P start sent c) (hw : Wrote [] c c') : Sent P start sent c' := by
  obtain ⟨stream, hstream, hs⟩ := h.stream
  have hstream' := hw.stream stream hstream
  rw [List.append_nil] at hstream'
  have hsame : c'.onegramWebSocket = c.onegramWebSocket := by rw [hw.fields]
  have hsecret : c'.effectiveSecret = c.effectiveSecret := by
    rw [hw.fields]
    rfl
  refine ⟨?_, ?_, hsecret.trans h.secret, hsame.trans h.webSocket, h.payload, stream, ?_, ?_⟩
  · rw [hw.fields]
    exact h.abridged
  · rw [hw.fields]
    exact h.ready
  · rw [hsame]
    exact hstream'
  · exact hs.congr (by rw [hw.fields]) (by rw [hw.fields]) hsecret

theorem packetData_abridged (h : c.useIntermediateFormat = false) (data : Bytes)
    (requestQuickAck : Bool) :
    c.packetData P data requestQuickAck = encodePacket (requestQuickAck, data) := by
  simp [Output.packetData, h, encodePacket]

theorem length_encodePacket {x : Bool × Bytes} (h : PayloadLength x.2) :
    0 < (encodePacket x).length ∧ (encodePacket x).length < 2 ^ 63 := by
  obtain ⟨hpos, hquarter, hmax⟩ := h
  have hlength : (encodePacket x).length = (abridgedLength x.2.length x.1).length + x.2.length := by
    simp [encodePacket]
  rcases abridgedLength_spec ⟨hpos, hquarter, hmax⟩ x.1 with ⟨-, m, hm, -⟩ | ⟨-, m, hm, -⟩
  · rw [hlength, hm, List.length_singleton]
    omega
  · rw [hlength, hm, List.length_cons, Bytes.length_bytesLE]
    omega

/-- What is written of a packet, in a frame or not. -/
theorem wrote_out (hsend : c.canSend = true) (h : d.length < 2 ^ 63) :
    Wrote d c (if c.onegramWebSocket then c.onegramSendWebSocketPayload P d 0x2
      else c.writeData d) := by
  split_ifs with hwebSocket
  · exact wrote_binary hsend hwebSocket h
  · exact wrote_data (by simpa using hwebSocket)

theorem hidden_append (secret : Option Bytes) {control : Bytes} (h : Header control)
    (body packet : Bytes) : hidden P secret control (body ++ packet) =
      hidden P secret control body ++ (((headerCtr P.sha256 secret control).encryptIn P.aes
        (control ++ body)).2.encryptIn P.aes packet).1 := by
  have hlong : 56 ≤ ((headerCtr P.sha256 secret control).encryptIn P.aes
      (control ++ body)).1.length := by
    have := h.1
    simp only [MTAesCtr.length_encryptIn, List.length_append]
    omega
  rw [hidden, hidden, ← List.append_assoc, MTAesCtr.encryptIn_append,
    List.drop_append_of_le_length hlong, List.append_assoc]

/-- The ciphers are set or moved, then bytes that continue the stream are written. -/
theorem Sent.continued {c₁ : Output} {x : Bool × Bytes} (h : Sent P start sent c)
    (hx : PayloadLength x.2)
    (hc₁ : c₁ = { c with
      addedControlHeader := true
      outgoingAesCtr := c₁.outgoingAesCtr
      incomingAesCtr := c₁.incomingAesCtr })
    (hw : Wrote d c₁ c') (hs : ∀ stream, Streams P c sent stream →
      Streams P c₁ (sent ++ [x]) (stream ++ d)) : Sent P start (sent ++ [x]) c' := by
  obtain ⟨stream, hstream, hstreams⟩ := h.stream
  have hsame : c'.onegramWebSocket = c.onegramWebSocket := by rw [hw.fields, hc₁]
  have hsecret : c'.effectiveSecret = c.effectiveSecret := by
    rw [hw.fields, hc₁]
    rfl
  have hsecret₁ : c'.effectiveSecret = c₁.effectiveSecret := by
    rw [hw.fields]
    rfl
  refine ⟨?_, ?_, hsecret.trans h.secret, hsame.trans h.webSocket, ?_, stream ++ d, ?_, ?_⟩
  · rw [hw.fields, hc₁]
    exact h.abridged
  · rw [hw.fields, hc₁]
    exact h.ready
  · intro y hy
    rcases List.mem_append.mp hy with hy | hy
    · exact h.payload y hy
    · rw [List.mem_singleton.mp hy]
      exact hx
  · have := hw.stream stream (by rw [hc₁]; exact hstream)
    rw [hc₁] at this
    rw [hsame]
    exact this
  · exact (hs stream hstreams).congr (by rw [hw.fields]) (by rw [hw.fields]) hsecret₁

/-- Another packet, after the header. -/
theorem Sent.sendData_later (h : Sent P start sent c) (hsend : c.canSend = true)
    (hadded : c.addedControlHeader = true) (requestQuickAck : Bool) {data : Bytes}
    (hdata : PayloadLength data) :
    Sent P start (sent ++ [(requestQuickAck, data)]) (c.sendData P requestQuickAck data) ∧
      (c.sendData P requestQuickAck data).canSend = true := by
  obtain ⟨ctr, hctr⟩ : ∃ ctr, c.outgoingAesCtr = some ctr := by
    obtain ⟨stream, -, hs⟩ := h.stream
    rcases hs with hs | ⟨-, -, -, hcipher⟩
    · exact absurd (hadded.symm.trans hs) Bool.noConfusion
    · exact ⟨_, hcipher⟩
  obtain ⟨packet, hpacket⟩ : ∃ packet, packet = encodePacket (requestQuickAck, data) := ⟨_, rfl⟩
  obtain ⟨c₁, hc₁⟩ : ∃ c₁, c₁ = { c with outgoingAesCtr := some (ctr.encryptIn P.aes packet).2 } :=
    ⟨_, rfl⟩
  have hencrypt : c.encrypt P packet = ((ctr.encryptIn P.aes packet).1, c₁) := by
    rw [Output.encrypt, hctr, hc₁]
  have hsendData : c.sendData P requestQuickAck data =
      if c₁.onegramWebSocket then
        c₁.onegramSendWebSocketPayload P (ctr.encryptIn P.aes packet).1 0x2
      else c₁.writeData (ctr.encryptIn P.aes packet).1 := by
    unfold Output.sendData
    rw [packetData_abridged h.abridged, ← hpacket]
    simp only [h.abridged, hadded, Bool.not_true, Bool.false_eq_true, if_false, hencrypt]
  have hlength : (ctr.encryptIn P.aes packet).1.length < 2 ^ 63 := by
    rw [MTAesCtr.length_encryptIn, hpacket]
    exact (length_encodePacket hdata).2
  have hsend₁ : c₁.canSend = true := by rw [hc₁]; exact hsend
  have hw := wrote_out (P := P) hsend₁ hlength
  rw [hsendData]
  refine ⟨h.continued hdata (by rw [hc₁, hadded]) hw fun stream hs => ?_,
    hw.canSend.trans hsend₁⟩
  rcases hs with hs | ⟨hadded, hheader, hsent, hcipher⟩
  · exact absurd (hadded.symm.trans hs) Bool.noConfusion
  rename_i control
  have hflat : sent.flatMap encodePacket ++ packet =
      (sent ++ [(requestQuickAck, data)]).flatMap encodePacket := by simp [hpacket]
  have hcipher' : ctr = _ := Option.some.inj (hctr.symm.trans hcipher)
  have hsecret : c₁.effectiveSecret = c.effectiveSecret := by rw [hc₁]; rfl
  rw [hcipher', ← hidden_append _ hheader, hflat, ← hsecret]
  refine .opened (by rw [hc₁]; exact hadded) hheader (by simp) ?_
  rw [hsecret, ← hflat, ← List.append_assoc, MTAesCtr.encryptIn_append, ← hcipher', hc₁]

/-- The header and the packet after it, in one piece or in two frames. -/
theorem wrote_header (hsend : c.canSend = true) {control packet : Bytes}
    (hcontrol : control.length < 2 ^ 63) (hpacket : packet.length < 2 ^ 63) (hne : packet ≠ []) :
    Wrote (control ++ packet) c
      (if c.onegramWebSocket then
        if packet ≠ [] then (c.onegramSendWebSocketPayload P control 0x2).onegramSendWebSocketPayload
          P packet 0x2
        else c.onegramSendWebSocketPayload P control 0x2
      else c.writeData (control ++ packet)) := by
  split_ifs with hwebSocket
  · have hw := wrote_binary (P := P) hsend hwebSocket hcontrol
    have hsame : (c.onegramSendWebSocketPayload P control 0x2).onegramWebSocket = true := by
      rw [hw.fields]
      exact hwebSocket
    exact hw.trans (wrote_binary (hw.canSend.trans hsend) hsame hpacket)
  · exact wrote_data (by simpa using hwebSocket)

/-- The first packet, with the header before it. -/
theorem Sent.sendData_first (h : Sent P start sent c) (hsend : c.canSend = true)
    (hadded : c.addedControlHeader = false) (requestQuickAck : Bool) {data : Bytes}
    (hdata : PayloadLength data) :
    Sent P start (sent ++ [(requestQuickAck, data)]) (c.sendData P requestQuickAck data) ∧
      (c.sendData P requestQuickAck data).canSend = true := by
  obtain ⟨packet, hpacket⟩ : ∃ packet, packet = encodePacket (requestQuickAck, data) := ⟨_, rfl⟩
  obtain ⟨control, hcontrol⟩ : ∃ control, control = c.controlHeader P := ⟨_, rfl⟩
  have hheader : Header control := hcontrol ▸ header_controlHeader h.abridged
  obtain ⟨ctr, hctr⟩ : ∃ ctr, ctr = headerCtr P.sha256 c.effectiveSecret control := ⟨_, rfl⟩
  obtain ⟨e, he⟩ : ∃ e, e = ctr.encryptIn P.aes control := ⟨_, rfl⟩
  obtain ⟨e', he'⟩ : ∃ e', e' = e.2.encryptIn P.aes packet := ⟨_, rfl⟩
  obtain ⟨c₁, hc₁⟩ : ∃ c₁, c₁ = { c with
      addedControlHeader := true
      outgoingAesCtr := some e'.2
      incomingAesCtr := some (headerCtr P.sha256 c.effectiveSecret control.reverse) } := ⟨_, rfl⟩
  have hlength : 0 < packet.length ∧ packet.length < 2 ^ 63 := by
    rw [hpacket]
    exact length_encodePacket hdata
  have hlength' : e'.1.length = packet.length := by rw [he', MTAesCtr.length_encryptIn]
  have hne : e'.1 ≠ [] := by
    intro hnil
    rw [hnil] at hlength'
    exact absurd hlength' hlength.1.ne
  have hout : (control.take 56 ++ e.1.drop 56).length = 64 := by
    simp [he, hheader.1]
  have hsendData : c.sendData P requestQuickAck data =
      if c₁.onegramWebSocket then
        if e'.1 ≠ [] then (c₁.onegramSendWebSocketPayload P (control.take 56 ++ e.1.drop 56)
          0x2).onegramSendWebSocketPayload P e'.1 0x2
        else c₁.onegramSendWebSocketPayload P (control.take 56 ++ e.1.drop 56) 0x2
      else c₁.writeData (control.take 56 ++ e.1.drop 56 ++ e'.1) := by
    unfold Output.sendData
    rw [packetData_abridged h.abridged, ← hpacket]
    simp only [h.abridged, hadded, Bool.not_false, Bool.false_eq_true, if_false, if_true]
    simp only [Output.addControlHeader, Output.encrypt, ← hcontrol, ← hctr, ← he, ← he', ← hc₁]
  have hsend₁ : c₁.canSend = true := by rw [hc₁]; exact hsend
  have hshort : (control.take 56 ++ e.1.drop 56).length < 2 ^ 63 := by
    rw [hout]
    norm_num
  have hw := wrote_header (P := P) hsend₁ hshort (hlength' ▸ hlength.2) hne
  rw [hsendData]
  refine ⟨h.continued hdata (by rw [hc₁]) hw fun stream hs => ?_, hw.canSend.trans hsend₁⟩
  rcases hs with hs | ⟨hopened, -, -, -⟩
  · have hsecret : c₁.effectiveSecret = c.effectiveSecret := by rw [hc₁]; rfl
    have hflat : packet = ([] ++ [(requestQuickAck, data)]).flatMap encodePacket := by
      simp [hpacket]
    have hall : ctr.encryptIn P.aes (control ++ packet) = (e.1 ++ e'.1, e'.2) := by
      rw [MTAesCtr.encryptIn_append, ← he, ← he']
    have hhidden : [] ++ (control.take 56 ++ e.1.drop 56 ++ e'.1) =
        hidden P c₁.effectiveSecret control packet := by
      have hlong : 56 ≤ e.1.length := by rw [he, MTAesCtr.length_encryptIn, hheader.1]; norm_num
      rw [hidden, hsecret, ← hctr, hall, List.drop_append_of_le_length hlong, List.nil_append,
        List.append_assoc]
    rw [hhidden, hflat]
    refine .opened (by rw [hc₁]) hheader (by simp) ?_
    rw [← hflat, hsecret, ← hctr, hall, hc₁]
  · exact absurd (hadded.symm.trans hopened) Bool.noConfusion

theorem Sent.sendData (h : Sent P start sent c) (hsend : c.canSend = true)
    (requestQuickAck : Bool) {data : Bytes} (hdata : PayloadLength data) :
    Sent P start (sent ++ [(requestQuickAck, data)]) (c.sendData P requestQuickAck data) ∧
      (c.sendData P requestQuickAck data).canSend = true := by
  rcases hadded : c.addedControlHeader with _ | _
  · exact h.sendData_first hsend hadded requestQuickAck hdata
  · exact h.sendData_later hsend hadded requestQuickAck hdata

theorem Sent.foldl_sendData (requestQuickAck : Bool) : ∀ {datas : List Bytes} {c : Output}
    {sent : List (Bool × Bytes)}, Sent P start sent c → c.canSend = true →
    (∀ data ∈ datas, PayloadLength data) →
    Sent P start (sent ++ datas.map (requestQuickAck, ·))
      (datas.foldl (Output.sendData P requestQuickAck) c)
  | [], _, _, h, _, _ => by simpa using h
  | data :: datas, c, sent, h, hsend, hdatas => by
    obtain ⟨h', hsend'⟩ := h.sendData hsend requestQuickAck (hdatas data List.mem_cons_self)
    have := foldl_sendData requestQuickAck h' hsend'
      fun d hd => hdatas d (List.mem_cons_of_mem _ hd)
    simpa using this

end Sending

/-! ## Runs -/

namespace OutputEvent

def datas : OutputEvent → List Bytes
  | .sendDatas datas _ => datas
  | _ => []

/-- The packets a connection takes to send. -/
def packets (c : Output) : OutputEvent → List (Bool × Bytes)
  | .sendDatas datas requestQuickAck => if c.canSend then datas.map (requestQuickAck, ·) else []
  | _ => []

end OutputEvent

/-- The packets taken in a run, in order. -/
def packetsOf (P : Platform) : Output → List OutputEvent → List (Bool × Bytes)
  | _, [] => []
  | c, e :: es => e.packets c ++ packetsOf P (outputStep P c e) es

section Steps

variable {start c c' : Output} {sent : List (Bool × Bytes)}

/-- What does not concern the stream may change. -/
theorem Sent.keep (h : Sent P start sent c)
    (hfields : c' = { c with
      closed := c'.closed
      socket := c'.socket
      onegramWebSocketReady := c'.onegramWebSocketReady
      completions := c'.completions })
    (hready : c'.onegramWebSocketReady = true → c.onegramWebSocket = true) :
    Sent P start sent c' := by
  obtain ⟨stream, hstream, hs⟩ := h.stream
  have hsecret : c'.effectiveSecret = c.effectiveSecret := by
    rw [hfields]
    rfl
  have hsame : c'.onegramWebSocket = c.onegramWebSocket := by rw [hfields]
  refine ⟨?_, fun hr => hsame.trans (hready hr), hsecret.trans h.secret,
    hsame.trans h.webSocket, h.payload, stream, ?_, ?_⟩
  · rw [hfields]
    exact h.abridged
  · rw [hfields]
    exact hstream
  · exact hs.congr (by rw [hfields]) (by rw [hfields]) hsecret

/-- A control frame is no part of the stream. -/
theorem Sent.control (h : Sent P start sent c) {opcode : UInt8} (hopcode : opcode = 0x8 ∨
    opcode = 0xA) {payload : Bytes} (hshort : payload.length ≤ 125) :
    Sent P start sent (c.onegramSendWebSocketPayload P payload opcode) := by
  rcases hready : c.onegramWebSocketReady with _ | _
  · exact h.wrote (wrote_nothing (.inr hready))
  rcases hsocket : c.socket with _ | _
  · exact h.wrote (wrote_nothing (.inl hsocket))
  have hw := wrote_frame (P := P) hsocket hready (h.ready hready) (.inr ⟨hopcode, hshort⟩)
  have hnone : binaryPayload [⟨true, opcode.toNat, payload⟩] = [] := by
    rcases hopcode with rfl | rfl <;> simp [binaryPayload]
  rw [hnone] at hw
  exact h.wrote hw

theorem Sent.close (h : Sent P start sent c) : Sent P start sent c.closeAndNotify := by
  unfold Output.closeAndNotify
  split_ifs
  · exact h
  · exact h.keep rfl h.ready

theorem Sent.sendDatas (h : Sent P start sent c) (datas : List Bytes) (requestQuickAck : Bool)
    (hdatas : ∀ data ∈ datas, PayloadLength data) :
    Sent P start (sent ++ if c.canSend then datas.map (requestQuickAck, ·) else [])
      (c.sendDatas P datas requestQuickAck) := by
  unfold Output.sendDatas
  by_cases hempty : datas = []
  · rw [if_pos hempty, hempty, List.map_nil, ite_self, List.append_nil]
    exact h.keep rfl h.ready
  rw [if_neg hempty]
  split_ifs with hsend
  · have hsent := h.foldl_sendData requestQuickAck hsend hdatas
    exact hsent.keep rfl hsent.ready
  · rw [List.append_nil]
    exact h.keep rfl h.ready

theorem Sent.step (h : Sent P start sent c) (e : OutputEvent)
    (hdatas : ∀ data ∈ e.datas, PayloadLength data) :
    Sent P start (sent ++ e.packets c) (outputStep P c e) := by
  rcases e with _ | _ | ⟨datas, requestQuickAck⟩ | ⟨payload, hshort⟩ | payload | _ <;>
    simp only [OutputEvent.packets, outputStep, List.append_nil]
  · split_ifs
    · exact h
    · exact h.keep rfl h.ready
  · split_ifs with hopen
    · exact h.keep rfl fun _ => (Bool.and_eq_true_iff.mp hopen).2
    · exact h
  · exact h.sendDatas datas requestQuickAck hdatas
  · exact h.control (.inr rfl) hshort
  · refine (h.control (.inl rfl) ?_).close
    split_ifs with hshort
    · exact hshort
    · simp
  · exact h.close

theorem Sent.run : ∀ (es : List OutputEvent) {c : Output} {sent : List (Bool × Bytes)},
    Sent P start sent c → (∀ e ∈ es, ∀ data ∈ e.datas, PayloadLength data) →
    Sent P start (sent ++ packetsOf P c es) (Run.run (outputStep P) c es)
  | [], _, _, h, _ => by simpa [packetsOf] using h
  | e :: es, c, sent, h, hdatas => by
    have := run es (h.step e (hdatas e List.mem_cons_self))
      fun e' he' => hdatas e' (List.mem_cons_of_mem _ he')
    rwa [List.append_assoc] at this

theorem sent_fresh {onegramWebSocket : Bool} {datacenterTag : ℤ}
    {proxySecret addressSecret : Option Bytes}
    (h : (Output.fresh onegramWebSocket datacenterTag proxySecret
      addressSecret).useIntermediateFormat = false) :
    Sent P (.fresh onegramWebSocket datacenterTag proxySecret addressSecret) []
      (.fresh onegramWebSocket datacenterTag proxySecret addressSecret) := by
  refine ⟨h, fun hr => absurd hr Bool.false_ne_true, rfl, rfl, by simp, [], ?_, .unopened rfl⟩
  rcases onegramWebSocket with _ | _
  · rfl
  · have hwhole : whole clientFrames [] = some [] := whole_nil rfl
    show (whole clientFrames []).map binaryPayload = some []
    rw [hwhole]
    rfl

/-- What is read of what has been sent, where each packet is an element of the framing. -/
theorem Sent.received {ο : Type*} {F : Framing UInt8 ο} {out : Bool × Bytes → List ο}
    (h : Sent P start sent c) (hnil : F.next [] = .incomplete)
    (hF : ∀ x ∈ sent, F.next (encodePacket x) = .element (out x) (encodePacket x).length) :
    received F P start.effectiveSecret start.onegramWebSocket c.written.flatten =
      some (sent.flatMap out) := by
  obtain ⟨stream, hstream, hs⟩ := h.stream
  rw [Tcp.received, ← h.webSocket, hstream, Option.bind_some]
  rcases hs with - | ⟨-, hheader, hsent, -⟩
  · rw [if_pos rfl]
    rfl
  · rename_i control
    have hne : hidden P c.effectiveSecret control (sent.flatMap encodePacket) ≠ [] := by
      intro hempty
      have hlength := congrArg List.length hempty
      simp [hidden, hheader.1] at hlength
    rw [if_neg hne, ← h.secret, unobfuscated_hidden P _ hheader, Option.bind_some,
      whole_flatMap hnil sent hF]

theorem clientPackets_next (b : Bytes) : clientPackets.next b = clientPacketNext b := rfl

theorem packets_next (b : Bytes) :
    packets.next b = TcpConnection.abridgedNext webSocketMaxMessageLength b := rfl

theorem Sent.received_server (h : Sent P start sent c) :
    Tcp.received clientPackets P start.effectiveSecret start.onegramWebSocket c.written.flatten =
      some sent := by
  have hpackets : ∀ x ∈ sent,
      clientPackets.next (encodePacket x) = .element [x] (encodePacket x).length := by
    intro x hx
    rw [clientPackets_next, clientPacketNext_packet (h.payload x hx)]
  rw [h.received rfl hpackets, List.flatMap_singleton']

theorem Sent.received_client (h : Sent P start sent c)
    (hplain : ∀ x ∈ sent, x.1 = false ∧ x.2.length ≤ webSocketMaxMessageLength) :
    Tcp.received packets P start.effectiveSecret start.onegramWebSocket c.written.flatten =
      some (sent.flatMap fun x => TcpConnection.packetCalls x.2) := by
  have hnil : packets.next [] = .incomplete := rfl
  have hpackets : ∀ x ∈ sent, packets.next (encodePacket x) =
      .element (TcpConnection.packetCalls x.2) (encodePacket x).length := by
    rintro ⟨requestQuickAck, data⟩ hx
    obtain ⟨hflag, hmax⟩ := hplain _ hx
    simp only at hflag hmax
    rw [hflag, packets_next, abridgedNext_packet (h.payload _ hx) hmax]
  exact h.received hnil hpackets

end Steps

/-- In every run the bytes on the socket, taken apart as a server does, are the packets that were
sent and their flags; where no quick acknowledgement was asked for, the reader of the client takes
them for the same packets. -/
theorem sendDatas_received (P : Platform) (onegramWebSocket : Bool) (datacenterTag : ℤ)
    (proxySecret addressSecret : Option Bytes) (es : List OutputEvent)
    (habridged : (Output.fresh onegramWebSocket datacenterTag proxySecret
      addressSecret).useIntermediateFormat = false)
    (hdatas : ∀ e ∈ es, ∀ data ∈ e.datas, PayloadLength data) :
    ∃ start sent b, start = Output.fresh onegramWebSocket datacenterTag proxySecret addressSecret ∧
      sent = packetsOf P start es ∧ b = (Run.run (outputStep P) start es).written.flatten ∧
      received clientPackets P start.effectiveSecret onegramWebSocket b = some sent ∧
      ((∀ x ∈ sent, x.1 = false ∧ x.2.length ≤ webSocketMaxMessageLength) →
        received packets P start.effectiveSecret onegramWebSocket b =
          some (sent.flatMap fun x => TcpConnection.packetCalls x.2)) := by
  have h := (sent_fresh (P := P) habridged).run es hdatas
  rw [List.nil_append] at h
  exact ⟨_, _, _, rfl, rfl, rfl, h.received_server, h.received_client⟩

def samplePlatform : Platform where
  aes key block := List.zipWith (· + ·) key block
  sha256 data := data
  controlBytes := [Vector.replicate 64 0xef, Vector.replicate 64 3]
  mask n := #v[UInt8.ofNat n, 7, 9, 11]
  padding _ := []
  allowed := ⟨Vector.replicate 64 3, by simp, by decide⟩
  padding_lt _ := by simp

/-- Payloads on both sides of the boundary of a length. -/
def sampleRun : List OutputEvent :=
  [.connected, .upgraded, .sendDatas [List.replicate 504 1, List.replicate 508 2] true,
    .receivedPing [5] (by decide), .sendDatas [[0, 0, 0, 9]] false, .stop,
    .sendDatas [[8, 8, 8, 8]] true]

theorem sendDatas_received_sample :
    ∃ start sent b, start = Output.fresh true 2 none none ∧
      sent = packetsOf samplePlatform start sampleRun ∧
      b = (Run.run (outputStep samplePlatform) start sampleRun).written.flatten ∧
      received clientPackets samplePlatform start.effectiveSecret true b = some sent ∧
      ((∀ x ∈ sent, x.1 = false ∧ x.2.length ≤ webSocketMaxMessageLength) →
        received packets samplePlatform start.effectiveSecret true b =
          some (sent.flatMap fun x => TcpConnection.packetCalls x.2)) :=
  sendDatas_received samplePlatform true 2 none none sampleRun rfl (by decide +kernel)

end Onegram.Tcp
