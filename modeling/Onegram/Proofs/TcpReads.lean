import Onegram.TcpConnection

/-!
# A read after every read

Whatever arrives, the connection is closed or asks for one read more, of at least one byte. Two
lengths that the peer gives are used without a check, and a zero there ends the reading; a refused
upgrade begins the next attempt, whose first read waits for its socket.
-/

namespace Onegram.Tcp

open Run

def ReadRequest.Positive : ReadRequest → Prop
  | .toLength length _ => 0 < length
  | .toData maxLength _ => 0 < maxLength

/-- A new attempt of a WebSocket connection: nothing is asked of its socket before it is secure. -/
def Connecting (c : TcpConnection) : Prop :=
  c.onegramWebSocket = true ∧ c.onegramWebSocketReady = false ∧ c.socket = some []

def frameTags : List ReadTag :=
  [.webSocketFrameHeader, .webSocketFrameLength16, .webSocketFrameLength64,
    .webSocketFramePayload]

/-- What the code relies on when a read is satisfied. -/
structure Outstanding (c : TcpConnection) (r : ReadRequest) : Prop where
  positive : r.Positive
  head : r.tag = .packetHead → 0 < c.packetRestLength
  header : r.tag = .webSocketHttpHeader → c.onegramWebSocket = true
  frame : r.tag ∈ frameTags → c.onegramWebSocketReady = true

/-- Closed, or one read is outstanding. -/
def Issued (c : TcpConnection) : Prop :=
  c.closed = true ∨ ∃ r, c.socket = some [r] ∧ Outstanding c r

def ReadInv (c : TcpConnection) : Prop := Issued c ∨ c.socket = none ∨ Connecting c

/-- The event gives a read a length of zero: of a domain name, or of a packet in the intermediate
format. -/
def ZeroLength (E : Environment) (c : TcpConnection) : TcpEvent → Prop
  | .didRead data =>
    ∃ r reads, c.socket = some (r :: reads) ∧
      (r.tag = .socksReceiveBindAddrDomainNameLength ∧ data = [0] ∨
        r.tag = .packetFullLength ∧ TcpConnection.word (c.decrypt E data).1 = 0)
  | _ => False

namespace TcpConnection

variable {E : Environment} {c : TcpConnection}

theorem closeAndNotify_issued : Issued c.closeAndNotify := by
  left
  unfold closeAndNotify
  split_ifs with h
  · exact h
  · rfl

theorem readDataToLength_issued {length : ℕ} {tag : ReadTag} (hsocket : c.socket = some [])
    (hlength : 0 < length) (hhead : tag = .packetHead → 0 < c.packetRestLength)
    (hheader : tag ≠ .webSocketHttpHeader) (hframe : tag ∈ frameTags →
      c.onegramWebSocketReady = true) : Issued (c.readDataToLength length tag) := by
  unfold readDataToLength
  rw [if_neg (by omega)]
  exact .inr ⟨.toLength length tag, by simp [hsocket], hlength, hhead,
    fun h => absurd h hheader, hframe⟩

theorem readPacketLength_issued (hsocket : c.socket = some []) : Issued c.readPacketLength := by
  unfold readPacketLength
  split_ifs
  · exact readDataToLength_issued hsocket (by omega) (by simp) (by simp) (by simp [frameTags])
  · exact readDataToLength_issued hsocket (by omega) (by simp) (by simp) (by simp [frameTags])

theorem readPacketBody_issued {length : ℕ} (hsocket : c.socket = some []) (hlength : 0 < length) :
    Issued (c.readPacketBody length) := by
  unfold readPacketBody
  split_ifs with hlong
  · refine readDataToLength_issued hsocket (by omega) (fun _ => ?_) (by simp) (by simp [frameTags])
    simp only [progressCalculationThreshold] at hlong ⊢
    omega
  · exact readDataToLength_issued hsocket hlength (by simp) (by simp) (by simp [frameTags])

/-! ## Packets -/

theorem packetShortLength_issued {data : Bytes} (hsocket : c.socket = some []) :
    Issued (c.packetShortLength data) := by
  unfold packetShortLength
  simp only []
  split_ifs with hack hshort hlong
  · exact readDataToLength_issued hsocket (by omega) (by simp) (by simp) (by simp [frameTags])
  · exact readPacketBody_issued hsocket (by omega)
  · exact readDataToLength_issued hsocket (by omega) (by simp) (by simp) (by simp [frameTags])
  · exact closeAndNotify_issued

theorem packetLongLength_issued {data : Bytes} (hsocket : c.socket = some []) :
    Issued (c.packetLongLength data) := by
  unfold packetLongLength
  simp only []
  split_ifs with hbad
  · exact closeAndNotify_issued
  · exact readPacketBody_issued hsocket (by omega)

theorem packetFullLength_issued {data : Bytes} (hsocket : c.socket = some [])
    (hzero : word data ≠ 0) : Issued (c.packetFullLength data) := by
  unfold packetFullLength
  simp only []
  split_ifs with hack hbad
  · exact readPacketLength_issued hsocket
  · exact closeAndNotify_issued
  · exact readPacketBody_issued hsocket (by omega)

theorem packetHeadRead_issued {data : Bytes} (hsocket : c.socket = some [])
    (hrest : 0 < c.packetRestLength) : Issued (c.packetHeadRead data) :=
  readDataToLength_issued hsocket hrest (by simp) (by simp) (by simp [frameTags])

/-! ## SOCKS5 -/

theorem socksLogin_issued {data : Bytes} (hsocket : c.socket = some []) :
    Issued (c.socksLogin data) := by
  unfold socksLogin
  split_ifs
  · exact closeAndNotify_issued
  · exact closeAndNotify_issued
  · exact closeAndNotify_issued
  · exact readDataToLength_issued hsocket (by omega) (by simp) (by simp) (by simp [frameTags])
  · exact readDataToLength_issued hsocket (by omega) (by simp) (by simp) (by simp [frameTags])

theorem socksRequest_issued {data : Bytes} (hsocket : c.socket = some []) :
    Issued (c.socksRequest data) := by
  unfold socksRequest
  split_ifs
  · exact closeAndNotify_issued
  · exact closeAndNotify_issued
  · exact readDataToLength_issued hsocket (by omega) (by simp) (by simp) (by simp [frameTags])
  · exact readDataToLength_issued hsocket (by omega) (by simp) (by simp) (by simp [frameTags])
  · exact readDataToLength_issued hsocket (by omega) (by simp) (by simp) (by simp [frameTags])
  · exact closeAndNotify_issued

theorem socksDomainNameLength_issued {data : Bytes} (hsocket : c.socket = some [])
    (hzero : data ≠ [0]) : Issued (c.socksDomainNameLength data) := by
  unfold socksDomainNameLength
  split_ifs with hlength
  · exact closeAndNotify_issued
  · obtain ⟨x, rfl⟩ := List.length_eq_one_iff.mp (not_not.mp hlength)
    refine readDataToLength_issued hsocket ?_ (by simp) (by simp) (by simp [frameTags])
    rw [List.getD_cons_zero, Nat.pos_iff_ne_zero]
    rintro hx
    exact hzero (by rw [UInt8.toNat_inj.mp (hx.trans UInt8.toNat_zero.symm)])

theorem socksAuthResponse_issued {data : Bytes} (hsocket : c.socket = some []) :
    Issued (c.socksAuthResponse data) := by
  unfold socksAuthResponse
  split_ifs
  · exact closeAndNotify_issued
  · exact readDataToLength_issued hsocket (by omega) (by simp) (by simp) (by simp [frameTags])

/-! ## Frames -/

theorem onegramReadNextWebSocketFrame_issued (hsocket : c.closed = true ∨ c.socket = some [])
    (hready : c.onegramWebSocketReady = true) : Issued c.onegramReadNextWebSocketFrame := by
  unfold onegramReadNextWebSocketFrame
  split_ifs with hclosed
  · left
    simpa [hready] using hclosed
  · refine readDataToLength_issued (hsocket.resolve_left ?_) (by omega) (by simp) (by simp)
      fun _ => hready
    simp only [Bool.or_eq_true, not_or] at hclosed
    exact hclosed.1

/-- What a message may do to the connection: it is closed, or nothing is asked of the socket. -/
structure Handled (c c' : TcpConnection) : Prop where
  socket : c'.closed = true ∨ c'.socket = some []
  ready : c'.onegramWebSocketReady = c.onegramWebSocketReady

theorem closeAndNotify_ready : c.closeAndNotify.onegramWebSocketReady = c.onegramWebSocketReady := by
  unfold closeAndNotify
  split_ifs <;> rfl

theorem closeAndNotify_closed : c.closeAndNotify.closed = true := by
  unfold closeAndNotify
  split_ifs with h
  · exact h
  · rfl

theorem decrypt_socket (raw : Bytes) : (c.decrypt E raw).2.socket = c.socket := by
  unfold decrypt
  split <;> rfl

theorem decrypt_ready (raw : Bytes) :
    (c.decrypt E raw).2.onegramWebSocketReady = c.onegramWebSocketReady := by
  unfold decrypt
  split <;> rfl

theorem decrypt_packetRestLength (raw : Bytes) :
    (c.decrypt E raw).2.packetRestLength = c.packetRestLength := by
  unfold decrypt
  split <;> rfl

theorem decrypt_popRead (raw : Bytes) : (c.popRead.decrypt E raw).1 = (c.decrypt E raw).1 := by
  rcases h : c.incomingAesCtr with _ | pos
  · simp [decrypt, popRead, h]
  · simp [decrypt, popRead, h]

theorem onegramProcessTransportFrame_handled (raw : Bytes) (hsocket : c.socket = some []) :
    Handled c (c.onegramProcessTransportFrame E raw) := by
  unfold onegramProcessTransportFrame
  split_ifs
  · exact ⟨.inr hsocket, rfl⟩
  simp only []
  split_ifs
  · exact ⟨.inl closeAndNotify_closed, closeAndNotify_ready.trans (decrypt_ready raw)⟩
  · exact ⟨.inl closeAndNotify_closed, closeAndNotify_ready.trans (decrypt_ready raw)⟩
  · exact ⟨.inr ((decrypt_socket raw).trans hsocket), decrypt_ready raw⟩

theorem appendFragment_handled (fragment payload : Bytes) (hsocket : c.socket = some []) :
    Handled c (c.appendFragment E fragment payload) := by
  unfold appendFragment
  simp only []
  split_ifs
  · exact ⟨.inl closeAndNotify_closed, closeAndNotify_ready⟩
  · have h := onegramProcessTransportFrame_handled (E := E) (fragment ++ payload)
      (c := { c with fragment := none, fragmentOpcode := 0 }) hsocket
    exact ⟨h.socket, h.ready⟩
  · exact ⟨.inr hsocket, rfl⟩
  · exact ⟨.inr hsocket, rfl⟩

theorem dataFrame_handled (payload : Bytes) (hsocket : c.socket = some []) :
    Handled c (c.dataFrame E payload) := by
  unfold dataFrame
  split
  · split
    · exact onegramProcessTransportFrame_handled payload hsocket
    · exact ⟨.inr hsocket, rfl⟩
  · split
    · split
      · exact appendFragment_handled _ payload hsocket
      · exact ⟨.inr hsocket, rfl⟩
    · exact ⟨.inr hsocket, rfl⟩

theorem onegramSendWebSocketPayload_handled (payload : Bytes) (opcode : ℕ)
    (hsocket : c.socket = some []) : Handled c (c.onegramSendWebSocketPayload payload opcode) := by
  unfold onegramSendWebSocketPayload
  split
  · exact ⟨.inr hsocket, rfl⟩
  · exact ⟨.inr hsocket, rfl⟩

theorem onegramHandleWebSocketFramePayload_issued (payload : Bytes) (hsocket : c.socket = some [])
    (hready : c.onegramWebSocketReady = true) :
    Issued (c.onegramHandleWebSocketFramePayload E payload) := by
  have hnext : ∀ {c'}, Handled c c' → Issued c'.onegramReadNextWebSocketFrame := fun h =>
    onegramReadNextWebSocketFrame_issued h.socket (h.ready.trans hready)
  unfold onegramHandleWebSocketFramePayload
  split
  · exact closeAndNotify_issued
  split
  · exact hnext (onegramSendWebSocketPayload_handled payload 0xA hsocket)
  split
  · exact hnext ⟨.inr hsocket, rfl⟩
  · exact hnext (dataFrame_handled payload hsocket)

theorem onegramReadWebSocketPayload_issued (hsocket : c.socket = some [])
    (hready : c.onegramWebSocketReady = true) : Issued (c.onegramReadWebSocketPayload E) := by
  unfold onegramReadWebSocketPayload
  split_ifs with hlong hzero
  · exact closeAndNotify_issued
  · exact onegramHandleWebSocketFramePayload_issued [] hsocket hready
  · exact readDataToLength_issued hsocket (by omega) (by simp) (by simp) fun _ => hready

theorem frameHeader_issued (raw : Bytes) (hsocket : c.socket = some [])
    (hready : c.onegramWebSocketReady = true) : Issued (c.frameHeader E raw) := by
  unfold frameHeader
  simp only []
  split
  · exact closeAndNotify_issued
  split
  · exact closeAndNotify_issued
  split
  · exact closeAndNotify_issued
  split
  · exact closeAndNotify_issued
  split
  · exact closeAndNotify_issued
  split
  · exact onegramReadWebSocketPayload_issued hsocket hready
  split
  · exact readDataToLength_issued hsocket (by omega) (by simp) (by simp) fun _ => hready
  · exact readDataToLength_issued hsocket (by omega) (by simp) (by simp) fun _ => hready

theorem frameLength16_issued (raw : Bytes) (hsocket : c.socket = some [])
    (hready : c.onegramWebSocketReady = true) : Issued (c.frameLength16 E raw) := by
  unfold frameLength16
  split_ifs
  · exact closeAndNotify_issued
  · exact onegramReadWebSocketPayload_issued hsocket hready

theorem frameLength64_issued (raw : Bytes) (hsocket : c.socket = some [])
    (hready : c.onegramWebSocketReady = true) : Issued (c.frameLength64 E raw) := by
  unfold frameLength64
  split_ifs
  · exact closeAndNotify_issued
  · exact closeAndNotify_issued
  · exact closeAndNotify_issued
  · exact onegramReadWebSocketPayload_issued hsocket hready

/-! ## Attempts -/

/-- The next attempt begins, or there is none and the connection is closed. -/
theorem onegramStartWebSocketAttempt_outcome (c : TcpConnection)
    (hwebSocket : c.onegramWebSocket = true) :
    (c.onegramStartWebSocketAttempt E).closed = true ∨
    Connecting (c.onegramStartWebSocketAttempt E) ∧
      c.onegramWebSocketAttempt ≤ (c.onegramStartWebSocketAttempt E).onegramWebSocketAttempt := by
  induction c using onegramStartWebSocketAttempt.induct E with
  | case1 c hclosed =>
    rw [onegramStartWebSocketAttempt, if_pos hclosed]
    exact .inl hclosed
  | case2 c hclosed hattempt hconnects =>
    rw [onegramStartWebSocketAttempt, if_neg hclosed, dif_pos hattempt]
    simp only []
    rw [if_pos hconnects]
    exact .inr ⟨⟨hwebSocket, rfl, rfl⟩, le_rfl⟩
  | case3 c hclosed hattempt c' hconnects ih =>
    rw [onegramStartWebSocketAttempt, if_neg hclosed, dif_pos hattempt]
    simp only []
    rw [if_neg hconnects]
    rcases ih hwebSocket with h | ⟨h, hle⟩
    · exact .inl h
    · exact .inr ⟨h, le_trans (Nat.le_succ _) hle⟩
  | case4 c hclosed hattempt =>
    rw [onegramStartWebSocketAttempt, if_neg hclosed, dif_neg hattempt]
    exact .inl closeAndNotify_closed

/-- An attempt that can be made has a new socket. -/
theorem onegramStartWebSocketAttempt_connects (hclosed : c.closed = false)
    (hattempt : hasAttempt c.datacenterTag c.onegramWebSocketAttempt = true)
    (hconnects : E.connects c.onegramWebSocketAttempt = true) :
    c.onegramStartWebSocketAttempt E =
      { c with onegramWebSocketReady := false, fragment := none, transportBuffer := []
               socket := some [] } := by
  rw [onegramStartWebSocketAttempt, if_neg (by simp [hclosed]), dif_pos hattempt]
  simp only []
  rw [if_pos hconnects]

theorem onegramWebSocketAttemptFailed_outcome (hwebSocket : c.onegramWebSocket = true) :
    (c.onegramWebSocketAttemptFailed E).closed = true ∨
    Connecting (c.onegramWebSocketAttemptFailed E) ∧
      c.onegramWebSocketAttempt < (c.onegramWebSocketAttemptFailed E).onegramWebSocketAttempt := by
  unfold onegramWebSocketAttemptFailed
  split_ifs with hskip
  · left
    simpa [hwebSocket] using hskip
  · exact onegramStartWebSocketAttempt_outcome
      { c with onegramWebSocketAttempt := c.onegramWebSocketAttempt + 1 } hwebSocket

theorem httpHeader_outcome (raw : Bytes) (hsocket : c.socket = some [])
    (hwebSocket : c.onegramWebSocket = true) :
    Issued (c.httpHeader E raw) ∨ Connecting (c.httpHeader E raw) ∧
      c.onegramWebSocketAttempt < (c.httpHeader E raw).onegramWebSocketAttempt := by
  unfold httpHeader
  split_ifs
  · exact .inl (onegramReadNextWebSocketFrame_issued (.inr hsocket) rfl)
  · rcases onegramWebSocketAttemptFailed_outcome (E := E) hwebSocket with h | h
    · exact .inl (.inl h)
    · exact .inr h

end TcpConnection

/-! ## One event -/

open TcpConnection

variable {E : Environment} {c : TcpConnection}

/-- A satisfied read is followed by another, or the connection is closed or begins the next attempt
after a refused upgrade. -/
theorem didReadData_outcome {r : ReadRequest} {data : Bytes} (hsocket : c.socket = some [r])
    (hout : Outstanding c r)
    (hzero : ¬ ZeroLength E c (.didRead data)) :
    Issued (c.popRead.didReadData E data r.tag) ∨
    r.tag = .webSocketHttpHeader ∧ Connecting (c.popRead.didReadData E data r.tag) ∧
      c.onegramWebSocketAttempt <
        (c.popRead.didReadData E data r.tag).onegramWebSocketAttempt := by
  have hpop : c.popRead.socket = some [] := by simp [popRead, hsocket]
  have hpopReady : c.popRead.onegramWebSocketReady = c.onegramWebSocketReady := rfl
  have hdecrypted : (c.popRead.decrypt E data).2.socket = some [] :=
    (decrypt_socket data).trans hpop
  unfold didReadData
  split
  · rename_i hclosed
    exact .inl (.inl hclosed)
  simp only []
  have hframe : r.tag ∈ frameTags → c.popRead.onegramWebSocketReady = true := hout.frame
  rcases htag : r.tag with _ | _ | _ | _ | _ | _ | _ | _ | _ | _ | _ | _ | _ | _ | _ | _ | _ | _ | _
  case webSocketHttpHeader =>
    rcases httpHeader_outcome (E := E) data hpop (hout.header htag) with h | h
    · exact .inl h
    · exact .inr ⟨rfl, h⟩
  all_goals left
  case packetShortLength => exact packetShortLength_issued hdecrypted
  case packetLongLength => exact packetLongLength_issued hdecrypted
  case packetFullLength =>
    refine packetFullLength_issued hdecrypted fun h => hzero ⟨r, [], hsocket, .inr ⟨htag, ?_⟩⟩
    rwa [decrypt_popRead] at h
  case packetBody => exact readPacketLength_issued hdecrypted
  case packetHead =>
    refine packetHeadRead_issued hdecrypted ?_
    rw [decrypt_packetRestLength]
    exact hout.head htag
  case quickAck => exact readPacketLength_issued hdecrypted
  case socksLogin => exact socksLogin_issued hpop
  case socksRequest => exact socksRequest_issued hpop
  case socksReceiveBindAddrDomainNameLength =>
    exact socksDomainNameLength_issued hpop fun h => hzero ⟨r, [], hsocket, .inl ⟨htag, h⟩⟩
  case socksReceiveBindAddrPort => exact readPacketLength_issued hpop
  case socksReceiveAuthResponse => exact socksAuthResponse_issued hpop
  case webSocketFrameHeader =>
    exact frameHeader_issued data hpop (hframe (by simp [htag, frameTags]))
  case webSocketFrameLength16 =>
    exact frameLength16_issued data hpop (hframe (by simp [htag, frameTags]))
  case webSocketFrameLength64 =>
    exact frameLength64_issued data hpop (hframe (by simp [htag, frameTags]))
  case webSocketFramePayload =>
    exact onegramHandleWebSocketFramePayload_issued data hpop
      (hframe (by simp [htag, frameTags]))
  -- The three forms of an address are followed by the port.
  all_goals
    exact readDataToLength_issued hpop (by omega) (by simp) (by simp) (by simp [frameTags])

/-- A read that is satisfied has its outcome; nothing else is done to a read. -/
theorem didRead_outcome {r : ReadRequest} {reads : List ReadRequest} {data : Bytes}
    (hinv : ReadInv c) (hsocket : c.socket = some (r :: reads)) (hsatisfies : Satisfies data r)
    (hzero : ¬ ZeroLength E c (.didRead data)) :
    Issued (tcpStep E c (.didRead data)) ∨
    r.tag = .webSocketHttpHeader ∧ Connecting (tcpStep E c (.didRead data)) ∧
      c.onegramWebSocketAttempt < (tcpStep E c (.didRead data)).onegramWebSocketAttempt := by
  have hstep : tcpStep E c (.didRead data) = c.popRead.didReadData E data r.tag := by
    simp only [tcpStep, hsocket]
    rw [if_pos hsatisfies]
  rw [hstep]
  rcases hinv with (hclosed | ⟨r', hr', hout⟩) | hnone | ⟨-, -, hempty⟩
  · left
    left
    unfold didReadData
    rw [if_pos (by exact hclosed)]
    exact hclosed
  · rw [hsocket] at hr'
    obtain ⟨rfl, rfl⟩ : r = r' ∧ reads = [] := by simpa using hr'
    exact didReadData_outcome hsocket hout hzero
  · simp [hsocket] at hnone
  · simp [hsocket] at hempty

theorem outstanding_congr {c c' : TcpConnection} {r : ReadRequest} (h : Outstanding c r)
    (hrest : c'.packetRestLength = c.packetRestLength)
    (hwebSocket : c'.onegramWebSocket = c.onegramWebSocket)
    (hready : c'.onegramWebSocketReady = c.onegramWebSocketReady) : Outstanding c' r :=
  ⟨h.positive, fun ht => by rw [hrest]; exact h.head ht, fun ht => by rw [hwebSocket]; exact h.header ht,
    fun ht => by rw [hready]; exact h.frame ht⟩

theorem start_inv (connects : Bool) (h : ReadInv c) : ReadInv (c.start E connects) := by
  unfold TcpConnection.start
  split
  · exact h
  split
  · rename_i hwebSocket
    rcases onegramStartWebSocketAttempt_outcome (E := E)
      { c with onegramWebSocketAttempt := 0 } hwebSocket with h | h
    · exact .inl (.inl h)
    · exact .inr (.inr h.1)
  simp only []
  split
  · exact .inl closeAndNotify_issued
  split
  · exact .inl (readDataToLength_issued rfl (by omega) (by simp) (by simp) (by simp [frameTags]))
  · exact .inl (readPacketLength_issued rfl)

/-- A change that leaves the socket and what the reads rely on keeps the invariant. -/
theorem readInv_congr {c c' : TcpConnection} (h : ReadInv c) (hclosed : c'.closed = c.closed)
    (hsocket : c'.socket = c.socket) (hrest : c'.packetRestLength = c.packetRestLength)
    (hwebSocket : c'.onegramWebSocket = c.onegramWebSocket)
    (hready : c'.onegramWebSocketReady = c.onegramWebSocketReady) : ReadInv c' := by
  rcases h with (h | ⟨r, hr, hout⟩) | h | ⟨h1, h2, h3⟩
  · exact .inl (.inl (hclosed.trans h))
  · exact .inl (.inr ⟨r, hsocket.trans hr, outstanding_congr hout hrest hwebSocket hready⟩)
  · exact .inr (.inl (hsocket.trans h))
  · exact .inr (.inr ⟨hwebSocket.trans h1, hready.trans h2, hsocket.trans h3⟩)

theorem tcpStep_inv (c : TcpConnection) (e : TcpEvent) (h : ReadInv c)
    (hok : ¬ ZeroLength E c e) : ReadInv (tcpStep E c e) := by
  cases e with
  | start connects => exact start_inv connects h
  | didConnect =>
    simp only [tcpStep]
    split
    · exact h
    · exact readInv_congr h rfl rfl rfl rfl rfl
  | didSecure =>
    simp only [tcpStep]
    split
    · exact h
    · rename_i hskip
      simp only [Bool.or_eq_true, Bool.not_eq_true', decide_eq_true_eq, not_or, not_not,
        Bool.not_eq_true, Bool.not_eq_false] at hskip
      obtain ⟨⟨⟨hwebSocket, -⟩, -⟩, hsocket⟩ := hskip
      exact .inl (.inr ⟨.toData 32768 .webSocketHttpHeader, by simp [readDataToData, hsocket],
        ⟨by simp [ReadRequest.Positive], by simp [ReadRequest.tag], fun _ => hwebSocket,
          by simp [ReadRequest.tag, frameTags]⟩⟩)
  | didRead data =>
    rcases hsocket : c.socket with _ | _ | ⟨r, reads⟩
    · rwa [show tcpStep E c (.didRead data) = c by simp [tcpStep, hsocket]]
    · rwa [show tcpStep E c (.didRead data) = c by simp [tcpStep, hsocket]]
    · by_cases hsatisfies : Satisfies data r = true
      · rcases didRead_outcome h hsocket hsatisfies hok with h | ⟨-, h, -⟩
        · exact .inl h
        · exact .inr (.inr h)
      · rwa [show tcpStep E c (.didRead data) = c by simp [tcpStep, hsocket, hsatisfies]]
  | didDisconnect =>
    simp only [tcpStep]
    split
    · exact h
    split
    · rename_i hfailed
      simp only [Bool.and_eq_true] at hfailed
      rcases onegramWebSocketAttemptFailed_outcome (E := E) hfailed.1.1 with h | h
      · exact .inl (.inl h)
      · exact .inr (.inr h.1)
    · exact .inl closeAndNotify_issued
  | sendDatas =>
    simp only [tcpStep]
    split
    · exact h
    · exact readInv_congr h rfl rfl rfl rfl rfl
  | stop => exact .inl closeAndNotify_issued

/-- Over any run in which no domain name and no packet in the intermediate format has the length
zero: a read that is satisfied leaves the connection closed or with one read, of at least one byte,
or it was the refusal of an upgrade and the next attempt has begun. -/
theorem read_outstanding (E : Environment) (intermediate webSocket socks : Bool)
    (datacenterTag : ℤ) (events : List TcpEvent) (c : TcpConnection)
    (hrun : run (tcpStep E) (.fresh intermediate webSocket socks datacenterTag) events = c)
    (hok : AllSteps (tcpStep E) (fun c e => ¬ ZeroLength E c e)
      (.fresh intermediate webSocket socks datacenterTag) events)
    (data : Bytes) (r : ReadRequest) (reads : List ReadRequest)
    (hsocket : c.socket = some (r :: reads)) (hsatisfies : Satisfies data r = true)
    (hzero : ¬ ZeroLength E c (.didRead data)) :
    (tcpStep E c (.didRead data)).closed = true ∨
    (∃ r', (tcpStep E c (.didRead data)).socket = some [r'] ∧ r'.Positive) ∨
    r.tag = .webSocketHttpHeader ∧ Connecting (tcpStep E c (.didRead data)) ∧
      c.onegramWebSocketAttempt < (tcpStep E c (.didRead data)).onegramWebSocketAttempt := by
  have hinv : ReadInv c := hrun ▸
    invariant (fun c e h hok => tcpStep_inv c e h hok) events (.inr (.inl rfl)) hok
  rcases didRead_outcome hinv hsocket hsatisfies hzero with (h | ⟨r', hr', hout⟩) | h
  · exact .inl h
  · exact .inr (.inl ⟨r', hr', hout.positive⟩)
  · exact .inr (.inr h)

def sampleEnvironment : Environment :=
  { keystream := fun _ => 0, connects := fun _ => true, acceptsUpgrade := fun _ _ => false }

theorem read_outstanding_sample :
    ∃ c, run (tcpStep sampleEnvironment) (.fresh false false true 2) [.start true] = c ∧
      ((tcpStep sampleEnvironment c (.didRead [5, 0])).closed = true ∨
      (∃ r', (tcpStep sampleEnvironment c (.didRead [5, 0])).socket = some [r'] ∧ r'.Positive) ∨
      ReadTag.socksLogin = .webSocketHttpHeader ∧
        Connecting (tcpStep sampleEnvironment c (.didRead [5, 0])) ∧
        c.onegramWebSocketAttempt <
          (tcpStep sampleEnvironment c (.didRead [5, 0])).onegramWebSocketAttempt) :=
  ⟨_, rfl, read_outstanding sampleEnvironment false false true 2 [.start true] _ rfl
    ⟨not_false, trivial⟩ [5, 0] (.toLength 2 .socksLogin) [] (by decide) (by decide)
    (by
      rintro ⟨r, reads, hsocket, ⟨htag, -⟩ | ⟨htag, -⟩⟩
      all_goals
        have hlogin : some [ReadRequest.toLength 2 .socksLogin] = some (r :: reads) := hsocket
        obtain ⟨rfl, -⟩ : .toLength 2 .socksLogin = r ∧ [] = reads := by simpa using hlogin
        simp [ReadRequest.tag] at htag)⟩

/-- A refused upgrade leaves the connection open with nothing to read; so does a domain name of
length zero. -/
theorem read_missing :
    (∃ c, run (tcpStep sampleEnvironment) (.fresh false true false 2)
        [.start true, .didSecure, .didRead [0x0d, 0x0a, 0x0d, 0x0a]] = c ∧
      c.closed = false ∧ c.socket = some []) ∧
    ∃ c, run (tcpStep sampleEnvironment) (.fresh false false true 2)
        [.start true, .didRead [5, 0], .didRead [5, 0, 0, 3], .didRead [0]] = c ∧
      c.closed = false ∧ c.socket = some [] := by
  refine ⟨⟨_, rfl, ?_⟩, ⟨_, rfl, by decide⟩⟩
  have hstart : tcpStep sampleEnvironment (.fresh false true false 2) (.start true) =
      { TcpConnection.fresh false true false 2 with socket := some [] } :=
    onegramStartWebSocketAttempt_connects rfl (by decide) rfl
  have hrefused : tcpStep sampleEnvironment (tcpStep sampleEnvironment
      { TcpConnection.fresh false true false 2 with socket := some [] } .didSecure)
      (.didRead [0x0d, 0x0a, 0x0d, 0x0a]) =
      { TcpConnection.fresh false true false 2 with
        socket := some [], onegramWebSocketAttempt := 1 } :=
    onegramStartWebSocketAttempt_connects rfl (by decide) rfl
  rw [run_cons, run_cons, run_cons, run_nil, hstart, hrefused]
  exact ⟨rfl, rfl⟩

end Onegram.Tcp
