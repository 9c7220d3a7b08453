import Onegram.Lib.Bytes
import Onegram.Lib.Elements
import Onegram.Lib.ExactReader
import Onegram.Lib.Run

/-!
# The reading side of a TCP connection

`MTTcpConnection` from the first read to the delegate: the SOCKS5 handshake, the WebSocket upgrade
and its frames, and the transport packets in the abridged and in the intermediate format. The
socket holds the reads that have been asked for; a read of no bytes is not taken.
-/

namespace Onegram.Tcp

open Elements

inductive ReadTag
  | packetShortLength
  | packetLongLength
  | packetFullLength
  | packetBody
  | packetHead
  | quickAck
  | socksLogin
  | socksRequest
  | socksReceiveBindAddr4
  | socksReceiveBindAddr6
  | socksReceiveBindAddrDomainNameLength
  | socksReceiveBindAddrDomainName
  | socksReceiveBindAddrPort
  | socksReceiveAuthResponse
  | webSocketHttpHeader
  | webSocketFrameHeader
  | webSocketFrameLength16
  | webSocketFrameLength64
  | webSocketFramePayload
  deriving DecidableEq

inductive ReadRequest
  | toLength (length : ℕ) (tag : ReadTag)
  | toData (maxLength : ℕ) (tag : ReadTag)
  deriving DecidableEq

/-- What the delegate is told, and the WebSocket frames the connection answers with. -/
inductive Call
  | opened
  | receivedData (data : Bytes)
  | receivedQuickAck (quickAck : UInt32)
  | closed
  | wroteFrame (opcode : ℕ) (payload : Bytes)
  deriving DecidableEq

def progressCalculationThreshold : ℕ := 4096

def webSocketMaxMessageLength : ℕ := 16 * 1024 * 1024

structure TcpConnection where
  closed : Bool
  useIntermediateFormat : Bool
  onegramWebSocket : Bool
  onegramWebSocketReady : Bool
  onegramWebSocketAttempt : ℕ
  datacenterTag : ℤ
  /-- Whether there is a SOCKS proxy. -/
  socksIp : Bool
  quickAckByte : UInt8
  packetHead : Option Bytes
  packetRestLength : ℕ
  /-- The position in the key stream; none before the first packet is sent. -/
  incomingAesCtr : Option ℕ
  frameOpcode : ℕ
  fragmentOpcode : ℕ
  frameFin : Bool
  frameLength : ℕ
  fragment : Option Bytes
  transportBuffer : Bytes
  /-- The reads the socket has been asked for; none without a socket. -/
  socket : Option (List ReadRequest)
  calls : List Call
  deriving DecidableEq

/-- What the connection meets outside: the key stream of the incoming data, whether an attempt to
connect can be made, and whether the response accepts the upgrade of an attempt. -/
structure Environment where
  keystream : ℕ → UInt8
  connects : ℕ → Bool
  acceptsUpgrade : ℕ → Bytes → Bool

def TcpConnection.fresh (intermediate webSocket socks : Bool) (datacenterTag : ℤ) :
    TcpConnection :=
  { closed := false, useIntermediateFormat := intermediate && !webSocket
    onegramWebSocket := webSocket, onegramWebSocketReady := false, onegramWebSocketAttempt := 0
    datacenterTag, socksIp := socks && !webSocket, quickAckByte := 0, packetHead := none
    packetRestLength := 0, incomingAesCtr := none, frameOpcode := 0, fragmentOpcode := 0
    frameFin := false, frameLength := 0, fragment := none, transportBuffer := [], socket := none
    calls := [] }

namespace TcpConnection

def tell (l : List Call) (c : TcpConnection) : TcpConnection := { c with calls := c.calls ++ l }

/-- A read of length 0 is refused by the socket. -/
def readDataToLength (length : ℕ) (tag : ReadTag) (c : TcpConnection) : TcpConnection :=
  if length = 0 then c else { c with socket := c.socket.map (· ++ [.toLength length tag]) }

def readDataToData (maxLength : ℕ) (tag : ReadTag) (c : TcpConnection) : TcpConnection :=
  { c with socket := c.socket.map (· ++ [.toData maxLength tag]) }

def closeAndNotify (c : TcpConnection) : TcpConnection :=
  if c.closed then c else { c with closed := true, socket := none, calls := c.calls ++ [.closed] }

/-! ## The attempts of a WebSocket connection -/

def onegramWebSocketDatacenterId (tag : ℤ) : ℕ :=
  if 10000 ≤ tag.natAbs then tag.natAbs - 10000 else tag.natAbs

def onegramWebSocketTesting (tag : ℤ) : Bool := 10000 ≤ tag.natAbs

def onegramWebSocketDirectAttemptCount (tag : ℤ) : ℕ :=
  if onegramWebSocketDatacenterId tag = 2 ∨ onegramWebSocketDatacenterId tag = 4 then 2 else 0

def onegramCfProxyAttemptCount : ℕ := 20

/-- Whether there are a domain and a target for the attempt. -/
def hasAttempt (tag : ℤ) (attempt : ℕ) : Bool :=
  attempt < onegramWebSocketDirectAttemptCount tag ||
    (!onegramWebSocketTesting tag &&
      attempt - onegramWebSocketDirectAttemptCount tag < onegramCfProxyAttemptCount)

theorem lt_of_hasAttempt {tag : ℤ} {attempt : ℕ} (h : hasAttempt tag attempt = true) :
    attempt < 22 := by
  have hcount : onegramWebSocketDirectAttemptCount tag ≤ 2 := by
    unfold onegramWebSocketDirectAttemptCount
    split_ifs <;> omega
  rcases Bool.or_eq_true_iff.mp h with h | h
  · have := of_decide_eq_true h
    omega
  · have hlt := of_decide_eq_true (Bool.and_eq_true_iff.mp h).2
    rw [onegramCfProxyAttemptCount] at hlt
    omega

variable (env : Environment)

/-- Where the connection cannot be begun, `onegramWebSocketAttemptFailed` goes on with the next
attempt. -/
def onegramStartWebSocketAttempt (c : TcpConnection) : TcpConnection :=
  if c.closed then c
  else if _h : hasAttempt c.datacenterTag c.onegramWebSocketAttempt then
    let c' := { c with
      onegramWebSocketReady := false
      fragment := none
      transportBuffer := []
      socket := some [] }
    if env.connects c.onegramWebSocketAttempt then c'
    else onegramStartWebSocketAttempt
      { c' with onegramWebSocketAttempt := c.onegramWebSocketAttempt + 1 }
  else c.closeAndNotify
termination_by 22 - c.onegramWebSocketAttempt
decreasing_by
  have := lt_of_hasAttempt _h
  omega

def onegramWebSocketAttemptFailed (c : TcpConnection) : TcpConnection :=
  if c.closed || !c.onegramWebSocket then c
  else onegramStartWebSocketAttempt env
    { c with onegramWebSocketAttempt := c.onegramWebSocketAttempt + 1 }

/-! ## Packets -/

/-- The little-endian word of four bytes, and the same bytes as a big-endian one. -/
def word (b : Bytes) : ℕ :=
  (b.getD 0 0).toNat + 256 * (b.getD 1 0).toNat + 65536 * (b.getD 2 0).toNat +
    16777216 * (b.getD 3 0).toNat

def swapped (b : Bytes) : ℕ := word [b.getD 3 0, b.getD 2 0, b.getD 1 0, b.getD 0 0]

/-- The id of a quick acknowledgement that stands in place of a length: swapped, then the upper bit
cleared. -/
def lengthQuickAck (b : Bytes) : UInt32 := UInt32.ofNat (swapped b % 2 ^ 31)

/-- The id of one inside a packet, and of one in the intermediate format: the upper bit cleared,
then swapped. -/
def packetQuickAck (b : Bytes) : UInt32 :=
  UInt32.ofNat (swapped [b.getD 0 0, b.getD 1 0, b.getD 2 0, b.getD 3 0 &&& 0x7f])

/-- A whole packet, as both readers give it to the delegate. -/
def packetCalls (data : Bytes) : List Call :=
  let packetData := data.take (data.length - data.length % 4)
  if 4 ≤ packetData.length ∧ word packetData = 0xffffffff ∧ 8 ≤ packetData.length then
    [.receivedQuickAck (packetQuickAck (packetData.drop 4))]
  else if 4 ≤ packetData.length ∧ word packetData = 0 ∧ packetData.length < 16 then []
  else [.receivedData packetData]

/-- The first `raw.length` bytes of the key stream from `pos` on, applied. -/
def applyKeystream (pos : ℕ) : Bytes → Bytes
  | [] => []
  | b :: raw => (b ^^^ env.keystream pos) :: applyKeystream (pos + 1) raw

/-- Without a cipher the decrypted buffer stays as it was made, all zeros. -/
def decrypt (raw : Bytes) (c : TcpConnection) : Bytes × TcpConnection :=
  match c.incomingAesCtr with
  | none => (List.replicate raw.length 0, c)
  | some pos => (applyKeystream env pos raw, { c with incomingAesCtr := some (pos + raw.length) })

/-! ### Packets of a WebSocket -/

/-- What the transport buffer begins with, in the abridged format. -/
def abridgedNext (maxLength : ℕ) : Bytes → Next Call
  | [] => .incomplete
  | marker :: bytes =>
    if 0x80 ≤ marker.toNat then
      if bytes.length < 3 then .incomplete
      else .element [.receivedQuickAck (lengthQuickAck (marker :: bytes))] 4
    else if marker.toNat = 0x7f then
      if bytes.length < 3 then .incomplete
      else
        let packetLength := word (bytes.take 3) * 4
        if packetLength = 0 ∨ maxLength < packetLength then .malformed
        else if bytes.length - 3 < packetLength then .incomplete
        else .element (packetCalls ((bytes.drop 3).take packetLength)) (4 + packetLength)
    else if marker.toNat = 0 ∨ maxLength < marker.toNat * 4 then .malformed
    else if bytes.length < marker.toNat * 4 then .incomplete
    else .element (packetCalls (bytes.take (marker.toNat * 4))) (1 + marker.toNat * 4)

def intermediateNext (maxLength : ℕ) (b : Bytes) : Next Call :=
  if b.length < 4 then .incomplete
  else if 2 ^ 31 ≤ word b then .element [.receivedQuickAck (packetQuickAck b)] 4
  else if word b = 0 ∨ maxLength < word b then .malformed
  else if b.length - 4 < word b then .incomplete
  else .element (packetCalls ((b.drop 4).take (word b))) (4 + word b)

theorem word_append (b c : Bytes) (h : 4 ≤ b.length) : word (b ++ c) = word b := by
  unfold word
  rw [List.getD_append _ _ _ _ (by omega), List.getD_append _ _ _ _ (by omega),
    List.getD_append _ _ _ _ (by omega), List.getD_append _ _ _ _ (by omega)]

theorem lengthQuickAck_append (b c : Bytes) (h : 4 ≤ b.length) :
    lengthQuickAck (b ++ c) = lengthQuickAck b := by
  unfold lengthQuickAck swapped
  rw [List.getD_append _ _ _ _ (by omega), List.getD_append _ _ _ _ (by omega),
    List.getD_append _ _ _ _ (by omega), List.getD_append _ _ _ _ (by omega)]

theorem packetQuickAck_append (b c : Bytes) (h : 4 ≤ b.length) :
    packetQuickAck (b ++ c) = packetQuickAck b := by
  unfold packetQuickAck
  rw [List.getD_append _ _ _ _ (by omega), List.getD_append _ _ _ _ (by omega),
    List.getD_append _ _ _ _ (by omega), List.getD_append _ _ _ _ (by omega)]

theorem abridgedNext_pos {maxLength : ℕ} {b : Bytes} {o : List Call} {n : ℕ}
    (h : abridgedNext maxLength b = .element o n) : 0 < n ∧ n ≤ b.length := by
  rcases b with _ | ⟨marker, bytes⟩
  · simp [abridgedNext] at h
  simp only [abridgedNext] at h
  split_ifs at h <;> simp only [Next.element.injEq] at h <;> obtain ⟨-, rfl⟩ := h <;>
    simp only [List.length_cons] <;> omega

theorem intermediateNext_pos {maxLength : ℕ} {b : Bytes} {o : List Call} {n : ℕ}
    (h : intermediateNext maxLength b = .element o n) : 0 < n ∧ n ≤ b.length := by
  unfold intermediateNext at h
  split_ifs at h <;> simp only [Next.element.injEq] at h <;> obtain ⟨-, rfl⟩ := h <;> omega

/-- What begins a stream whole begins every longer one. -/
theorem abridgedNext_append {maxLength : ℕ} {b : Bytes} (c : Bytes)
    (h : abridgedNext maxLength b ≠ .incomplete) :
    abridgedNext maxLength (b ++ c) = abridgedNext maxLength b := by
  rcases b with _ | ⟨marker, bytes⟩
  · simp [abridgedNext] at h
  simp only [List.cons_append, abridgedNext] at h ⊢
  by_cases hack : 0x80 ≤ marker.toNat
  · rw [if_pos hack] at h
    rw [if_pos hack, if_pos hack]
    split_ifs at h with hshort
    · exact absurd rfl h
    · rw [if_neg (by simp; omega), if_neg hshort, ← List.cons_append,
        lengthQuickAck_append _ _ (by simp; omega)]
  rw [if_neg hack] at h
  rw [if_neg hack, if_neg hack]
  by_cases hlong : marker.toNat = 0x7f
  · rw [if_pos hlong] at h
    rw [if_pos hlong, if_pos hlong]
    by_cases hshort : bytes.length < 3
    · rw [if_pos hshort] at h
      exact absurd rfl h
    rw [if_neg hshort] at h
    rw [if_neg (by simp; omega), if_neg hshort, List.take_append_of_le_length (by omega),
      List.drop_append_of_le_length (by omega)]
    split_ifs at h with hbad hrest
    · simp only [if_pos hbad]
    · exact absurd rfl h
    · simp only [if_neg hbad]
      rw [if_neg (by simp; omega), if_neg hrest, List.take_append_of_le_length (by simp; omega)]
  · rw [if_neg hlong] at h
    rw [if_neg hlong, if_neg hlong]
    split_ifs at h with hbad hrest
    · simp only [if_pos hbad]
    · exact absurd rfl h
    · simp only [if_neg hbad]
      rw [if_neg (by simp; omega), if_neg hrest, List.take_append_of_le_length (by omega)]

theorem intermediateNext_append {maxLength : ℕ} {b : Bytes} (c : Bytes)
    (h : intermediateNext maxLength b ≠ .incomplete) :
    intermediateNext maxLength (b ++ c) = intermediateNext maxLength b := by
  unfold intermediateNext at h ⊢
  by_cases hshort : b.length < 4
  · rw [if_pos hshort] at h
    exact absurd rfl h
  rw [if_neg hshort] at h
  rw [if_neg (by simp; omega), if_neg hshort, word_append _ _ (by omega)]
  split_ifs at h with hack hbad hrest
  · rw [if_pos hack, if_pos hack, packetQuickAck_append _ _ (by omega)]
  · rw [if_neg hack, if_neg hack, if_pos hbad, if_pos hbad]
  · exact absurd rfl h
  · rw [if_neg hack, if_neg hack, if_neg hbad, if_neg hbad, if_neg (by simp; omega), if_neg hrest,
      List.drop_append_of_le_length (by omega), List.take_append_of_le_length (by simp; omega)]

/-- Transport packets in the abridged format: a length in units of four bytes, in one byte or in
three after `0x7f`, or a quick acknowledgement. -/
def abridged (maxLength : ℕ) : Framing UInt8 Call where
  next := abridgedNext maxLength
  pos := abridgedNext_pos
  element_append c h := (abridgedNext_append c (by simp [h])).trans h
  malformed_append c h := (abridgedNext_append c (by simp [h])).trans h

def intermediate (maxLength : ℕ) : Framing UInt8 Call where
  next := intermediateNext maxLength
  pos := intermediateNext_pos
  element_append c h := (intermediateNext_append c (by simp [h])).trans h
  malformed_append c h := (intermediateNext_append c (by simp [h])).trans h

def transportFraming (useIntermediateFormat : Bool) : Framing UInt8 Call :=
  if useIntermediateFormat then intermediate webSocketMaxMessageLength
  else abridged webSocketMaxMessageLength

def onegramProcessTransportFrame (rawData : Bytes) (c : TcpConnection) : TcpConnection :=
  if c.incomingAesCtr = none ∨ rawData = [] then c
  else
    let buffer := c.transportBuffer ++ (c.decrypt env rawData).1
    let c := { (c.decrypt env rawData).2 with transportBuffer := buffer }
    if webSocketMaxMessageLength < buffer.length then c.closeAndNotify
    else
      let p := parse (transportFraming c.useIntermediateFormat) buffer
      if p.malformed then (c.tell p.out).closeAndNotify
      else { c.tell p.out with transportBuffer := p.rest }

/-! ## Frames of a WebSocket -/

def onegramReadNextWebSocketFrame (c : TcpConnection) : TcpConnection :=
  if c.closed || !c.onegramWebSocketReady then c else c.readDataToLength 2 .webSocketFrameHeader

def onegramSendWebSocketPayload (payload : Bytes) (opcode : ℕ) (c : TcpConnection) :
    TcpConnection :=
  if c.socket = none ∨ !c.onegramWebSocketReady then c else c.tell [.wroteFrame opcode payload]

/-- A continuation of the message that has begun. -/
def appendFragment (fragment payload : Bytes) (c : TcpConnection) : TcpConnection :=
  let message := fragment ++ payload
  if webSocketMaxMessageLength < message.length then
    closeAndNotify { c with fragment := some message }
  else if c.frameFin then
    let fragmentOpcode := c.fragmentOpcode
    let c := { c with fragment := none, fragmentOpcode := 0 }
    if fragmentOpcode = 1 ∨ fragmentOpcode = 2 then c.onegramProcessTransportFrame env message
    else c
  else { c with fragment := some message }

/-- The payload of a text, binary or continuation frame. -/
def dataFrame (payload : Bytes) (c : TcpConnection) : TcpConnection :=
  if c.frameOpcode = 0x1 ∨ c.frameOpcode = 0x2 then
    if c.frameFin then c.onegramProcessTransportFrame env payload
    else { c with fragmentOpcode := c.frameOpcode, fragment := some payload }
  else
    match c.fragment with
    | some fragment => if c.frameOpcode = 0 then c.appendFragment env fragment payload else c
    | none => c

def onegramHandleWebSocketFramePayload (payload : Bytes) (c : TcpConnection) : TcpConnection :=
  if c.frameOpcode = 0x8 then
    (c.onegramSendWebSocketPayload (if payload.length ≤ 125 then payload else []) 0x8).closeAndNotify
  else if c.frameOpcode = 0x9 then
    (c.onegramSendWebSocketPayload payload 0xA).onegramReadNextWebSocketFrame
  else if c.frameOpcode = 0xA then c.onegramReadNextWebSocketFrame
  else (c.dataFrame env payload).onegramReadNextWebSocketFrame

def onegramReadWebSocketPayload (c : TcpConnection) : TcpConnection :=
  if webSocketMaxMessageLength < c.frameLength then c.closeAndNotify
  else if c.frameLength = 0 then c.onegramHandleWebSocketFramePayload env []
  else c.readDataToLength c.frameLength .webSocketFramePayload

def frameHeader (rawData : Bytes) (c : TcpConnection) : TcpConnection :=
  let first := (rawData.getD 0 0).toNat
  let second := (rawData.getD 1 0).toNat
  let opcode := first % 16
  let length := second % 128
  if rawData.length ≠ 2 then c.closeAndNotify
  else if first / 16 % 8 ≠ 0 ∨ 128 ≤ second then c.closeAndNotify
  else
    let c := { c with frameFin := 128 ≤ first, frameOpcode := opcode }
    if opcode ∉ [0x0, 0x1, 0x2, 0x8, 0x9, 0xA] then c.closeAndNotify
    else if opcode = 0 ∧ c.fragment = none ∨ (opcode = 1 ∨ opcode = 2) ∧ c.fragment ≠ none then
      c.closeAndNotify
    else if 8 ≤ opcode ∧ (c.frameFin = false ∨ 126 ≤ length) then c.closeAndNotify
    else if length < 126 then onegramReadWebSocketPayload env { c with frameLength := length }
    else if length = 126 then c.readDataToLength 2 .webSocketFrameLength16
    else c.readDataToLength 8 .webSocketFrameLength64

/-- A big-endian number. -/
def bigEndian (b : Bytes) : ℕ := b.foldl (fun value x => value * 256 + x.toNat) 0

def frameLength16 (rawData : Bytes) (c : TcpConnection) : TcpConnection :=
  if rawData.length ≠ 2 then c.closeAndNotify
  else onegramReadWebSocketPayload env { c with frameLength := bigEndian rawData }

def frameLength64 (rawData : Bytes) (c : TcpConnection) : TcpConnection :=
  if rawData.length ≠ 8 then c.closeAndNotify
  else if 128 ≤ (rawData.getD 0 0).toNat then c.closeAndNotify
  else if webSocketMaxMessageLength < bigEndian rawData then c.closeAndNotify
  else onegramReadWebSocketPayload env { c with frameLength := bigEndian rawData }

def httpHeader (rawData : Bytes) (c : TcpConnection) : TcpConnection :=
  if env.acceptsUpgrade c.onegramWebSocketAttempt rawData then
    onegramReadNextWebSocketFrame (tell [.opened] { c with onegramWebSocketReady := true })
  else c.onegramWebSocketAttemptFailed env

/-! ## SOCKS5 -/

def requestSocksConnection (c : TcpConnection) : TcpConnection := c.readDataToLength 4 .socksRequest

def socksLogin (rawData : Bytes) (c : TcpConnection) : TcpConnection :=
  if rawData.length ≠ 2 then c.closeAndNotify
  else if rawData.getD 0 0 ≠ 5 then c.closeAndNotify
  else if rawData.getD 1 0 = 0xff then c.closeAndNotify
  else if rawData.getD 1 0 = 0x02 then c.readDataToLength 2 .socksReceiveAuthResponse
  else c.requestSocksConnection

def socksRequest (rawData : Bytes) (c : TcpConnection) : TcpConnection :=
  if rawData.length ≠ 4 then c.closeAndNotify
  else if rawData.getD 1 0 ≠ 0 then c.closeAndNotify
  else if rawData.getD 3 0 = 1 then c.readDataToLength 4 .socksReceiveBindAddr4
  else if rawData.getD 3 0 = 3 then c.readDataToLength 1 .socksReceiveBindAddrDomainNameLength
  else if rawData.getD 3 0 = 4 then c.readDataToLength 16 .socksReceiveBindAddr6
  else c.closeAndNotify

def socksDomainNameLength (rawData : Bytes) (c : TcpConnection) : TcpConnection :=
  if rawData.length ≠ 1 then c.closeAndNotify
  else c.readDataToLength (rawData.getD 0 0).toNat .socksReceiveBindAddrDomainName

def socksAuthResponse (rawData : Bytes) (c : TcpConnection) : TcpConnection :=
  if rawData.getD 0 0 ≠ 1 ∨ rawData.getD 1 0 ≠ 0 then c.closeAndNotify
  else c.requestSocksConnection

/-! ## Packets of a socket -/

/-- The read every packet begins with. -/
def readPacketLength (c : TcpConnection) : TcpConnection :=
  if c.useIntermediateFormat then c.readDataToLength 4 .packetFullLength
  else c.readDataToLength 1 .packetShortLength

def readPacketBody (packetBodyLength : ℕ) (c : TcpConnection) : TcpConnection :=
  if progressCalculationThreshold ≤ packetBodyLength then
    readDataToLength 128 .packetHead { c with packetRestLength := packetBodyLength - 128 }
  else c.readDataToLength packetBodyLength .packetBody

def packetShortLength (data : Bytes) (c : TcpConnection) : TcpConnection :=
  let quarterLengthMarker := data.getD 0 0
  if 0x80 ≤ quarterLengthMarker.toNat then
    readDataToLength 3 .quickAck { c with quickAckByte := quarterLengthMarker }
  else if 1 ≤ quarterLengthMarker.toNat ∧ quarterLengthMarker.toNat ≤ 0x7e then
    c.readPacketBody (quarterLengthMarker.toNat * 4)
  else if quarterLengthMarker.toNat = 0x7f then c.readDataToLength 3 .packetLongLength
  else c.closeAndNotify

def packetLongLength (data : Bytes) (c : TcpConnection) : TcpConnection :=
  let quarterLength := word (data.take 3)
  if quarterLength = 0 ∨ 4 * 1024 * 1024 / 4 < quarterLength then c.closeAndNotify
  else c.readPacketBody (quarterLength * 4)

def packetFullLength (data : Bytes) (c : TcpConnection) : TcpConnection :=
  let length := word data
  if 2 ^ 31 ≤ length then (c.tell [.receivedQuickAck (packetQuickAck data)]).readPacketLength
  else if 16 * 1024 * 1024 < length then c.closeAndNotify
  else c.readPacketBody length

def packetHeadRead (data : Bytes) (c : TcpConnection) : TcpConnection :=
  readDataToLength c.packetRestLength .packetBody { c with packetHead := some data }

def packetBody (data : Bytes) (c : TcpConnection) : TcpConnection :=
  readPacketLength (tell (packetCalls (c.packetHead.getD [] ++ data)) { c with packetHead := none })

def quickAck (data : Bytes) (c : TcpConnection) : TcpConnection :=
  (c.tell [.receivedQuickAck (lengthQuickAck (c.quickAckByte :: data))]).readPacketLength

/-- `socket:didReadData:withTag:`. -/
def didReadData (rawData : Bytes) (tag : ReadTag) (c : TcpConnection) : TcpConnection :=
  if c.closed then c
  else
    let data := (c.decrypt env rawData).1
    let decrypted := (c.decrypt env rawData).2
    match tag with
    | .webSocketHttpHeader => c.httpHeader env rawData
    | .webSocketFrameHeader => c.frameHeader env rawData
    | .webSocketFrameLength16 => c.frameLength16 env rawData
    | .webSocketFrameLength64 => c.frameLength64 env rawData
    | .webSocketFramePayload => c.onegramHandleWebSocketFramePayload env rawData
    | .socksLogin => c.socksLogin rawData
    | .socksRequest => c.socksRequest rawData
    | .socksReceiveBindAddrDomainNameLength => c.socksDomainNameLength rawData
    | .socksReceiveBindAddrDomainName => c.readDataToLength 2 .socksReceiveBindAddrPort
    | .socksReceiveBindAddr4 => c.readDataToLength 2 .socksReceiveBindAddrPort
    | .socksReceiveBindAddr6 => c.readDataToLength 2 .socksReceiveBindAddrPort
    | .socksReceiveBindAddrPort => (c.tell [.opened]).readPacketLength
    | .socksReceiveAuthResponse => c.socksAuthResponse rawData
    | .packetShortLength => decrypted.packetShortLength data
    | .packetLongLength => decrypted.packetLongLength data
    | .packetFullLength => decrypted.packetFullLength data
    | .packetHead => decrypted.packetHeadRead data
    | .packetBody => decrypted.packetBody data
    | .quickAck => decrypted.quickAck data

/-! ## The socket -/

/-- The read that comes first is done. -/
def popRead (c : TcpConnection) : TcpConnection := { c with socket := c.socket.map List.tail }

/-- The bytes of the first read; a read up to a terminator is not one of a length. -/
def wantedLength (c : TcpConnection) : Option (ℕ × ReadTag) :=
  match c.socket with
  | some (.toLength length tag :: _) => if 0 < length then some (length, tag) else none
  | _ => none

/-- The packet and frame reads as the socket does them: it waits for the length of the first read. -/
def reader : ExactReader.Reader TcpConnection UInt8 where
  want c := c.wantedLength.map Prod.fst
  read c data :=
    match c.wantedLength with
    | some (_, tag) => c.popRead.didReadData env data tag
    | none => c
  pos {c n} h := by
    unfold wantedLength at h
    split at h
    · split_ifs at h with hpos
      · simp only [Option.map_some, Option.some.injEq] at h
        omega
      · simp at h
    · simp at h

end TcpConnection

/-! ## Runs -/

inductive TcpEvent
  | start (connects : Bool)
  | didConnect
  | didSecure
  /-- The read that comes first is satisfied. -/
  | didRead (data : Bytes)
  | didDisconnect
  | sendDatas
  | stop

open TcpConnection in
/-- `connectToHost:` is followed at once by the first read. -/
def TcpConnection.start (env : Environment) (connects : Bool) (c : TcpConnection) :
    TcpConnection :=
  if c.socket ≠ none then c
  else if c.onegramWebSocket then
    onegramStartWebSocketAttempt env { c with onegramWebSocketAttempt := 0 }
  else
    let c := { c with socket := some [] }
    if !connects then c.closeAndNotify
    else if c.socksIp then c.readDataToLength 2 .socksLogin
    else c.readPacketLength

/-- Whether data is what a read waits for: its length, or at most a length with the terminator. -/
def Satisfies (data : Bytes) : ReadRequest → Bool
  | .toLength length _ => data.length = length
  | .toData maxLength _ => data.length ≤ maxLength

def ReadRequest.tag : ReadRequest → ReadTag
  | .toLength _ tag => tag
  | .toData _ tag => tag

open TcpConnection in
/-- A socket of a WebSocket connection secures once, before anything is read; data is given to the
first read only. -/
def tcpStep (env : Environment) (c : TcpConnection) : TcpEvent → TcpConnection
  | .start connects => c.start env connects
  | .didConnect =>
    if c.onegramWebSocket || c.socksIp || c.socket.isNone then c else c.tell [.opened]
  | .didSecure =>
    if !c.onegramWebSocket || c.closed || c.onegramWebSocketReady || c.socket ≠ some [] then c
    else c.readDataToData 32768 .webSocketHttpHeader
  | .didRead data =>
    match c.socket with
    | some (request :: _) =>
      if Satisfies data request then c.popRead.didReadData env data request.tag else c
    | _ => c
  | .didDisconnect =>
    if c.socket.isNone then c
    else if c.onegramWebSocket && !c.onegramWebSocketReady && !c.closed then
      c.onegramWebSocketAttemptFailed env
    else c.closeAndNotify
  | .sendDatas =>
    if c.closed || c.socket.isNone || c.onegramWebSocket && !c.onegramWebSocketReady ||
      c.incomingAesCtr.isSome then c
    else { c with incomingAesCtr := some 0 }
  | .stop => c.closeAndNotify

end Onegram.Tcp

/-!
## A WebSocket session

The frames of RFC 6455 as the peer sends them, and what a session makes of them: messages, of which
the payloads are one stream of transport packets. A session keeps the message that has begun and
what its stream has of a packet that is not whole.
-/

namespace Onegram.Tcp

open Elements TcpConnection

/-- How a frame gives the length of its payload. -/
inductive LengthForm
  | short
  | medium
  | long
  deriving DecidableEq

/-- A frame; the payload of a masked one is as it stands in the frame, after the key. -/
structure Frame where
  fin : Bool
  reserved : ℕ
  opcode : ℕ
  mask : Option (Vector UInt8 4)
  form : LengthForm
  payload : Bytes
  reserved_lt : reserved < 8
  opcode_lt : opcode < 16
  fits : payload.length < match form with
    | .short => 126
    | .medium => 2 ^ 16
    | .long => 2 ^ 64

namespace Frame

def lengthCode (f : Frame) : ℕ :=
  match f.form with
  | .short => f.payload.length
  | .medium => 126
  | .long => 127

def extendedLength (f : Frame) : Bytes :=
  match f.form with
  | .short => []
  | .medium => Bytes.bytesBE 2 f.payload.length
  | .long => Bytes.bytesBE 8 f.payload.length

def header (f : Frame) : Bytes :=
  [UInt8.ofNat ((if f.fin then 128 else 0) + 16 * f.reserved + f.opcode),
    UInt8.ofNat ((if f.mask.isSome then 128 else 0) + f.lengthCode)]

def body (f : Frame) : Bytes :=
  f.extendedLength ++ ((f.mask.map Vector.toList).getD [] ++ f.payload)

def encode (f : Frame) : Bytes := f.header ++ f.body

/-- A frame that may come where a message has or has not begun. -/
def Legal (f : Frame) (begun : Bool) : Prop :=
  f.reserved = 0 ∧ f.mask = none ∧ f.opcode ∈ [0x0, 0x1, 0x2, 0x8, 0x9, 0xA] ∧
  (f.opcode = 0 → begun = true) ∧ (f.opcode = 1 ∨ f.opcode = 2 → begun = false) ∧
  (8 ≤ f.opcode → f.fin = true ∧ f.form = .short)

instance (f : Frame) (begun : Bool) : Decidable (f.Legal begun) := by
  unfold Legal
  infer_instance

def isData (f : Frame) : Bool := f.opcode < 8

/-- Whether a message has begun after the frame. -/
def begunAfter (f : Frame) (begun : Bool) : Bool := if f.isData then !f.fin else begun

end Frame

/-- Frames that may come one after the other. -/
def LegalFrames : Bool → List Frame → Prop
  | _, [] => True
  | begun, f :: fs => f.Legal begun ∧ LegalFrames (f.begunAfter begun) fs

/-- The payload of the whole messages, and of the one that has begun. -/
def assemble (a : Bytes × Bytes) (f : Frame) : Bytes × Bytes :=
  if f.isData then
    if f.fin then (a.1 ++ (a.2 ++ f.payload), []) else (a.1, a.2 ++ f.payload)
  else a

def assembled (fs : List Frame) : Bytes × Bytes := fs.foldl assemble ([], [])

/-- The payloads of all data frames. -/
def dataPayload (fs : List Frame) : Bytes := (assembled fs).1 ++ (assembled fs).2

/-- What the delegate is given: packets and quick acknowledgements. -/
def deliveries (calls : List Call) : List Call :=
  calls.filter fun
    | .receivedData _ => true
    | .receivedQuickAck _ => true
    | _ => false

structure Session where
  fragment : Option Bytes
  buffer : Bytes
  position : ℕ
  calls : List Call
  closed : Bool

namespace Session

variable (env : Environment)

def close (s : Session) : Session := { s with closed := true, calls := s.calls ++ [.closed] }

/-- A message continues the stream of packets. -/
def message (m : Bytes) (s : Session) : Session :=
  if m = [] then s
  else
    let buffer := s.buffer ++ applyKeystream env s.position m
    let s := { s with buffer, position := s.position + m.length }
    if webSocketMaxMessageLength < buffer.length then s.close
    else
      let p := parse (abridged webSocketMaxMessageLength) buffer
      let s := { s with calls := s.calls ++ p.out }
      if p.malformed then s.close else { s with buffer := p.rest }

def data (f : Frame) (s : Session) : Session :=
  let m := s.fragment.getD [] ++ f.payload
  if webSocketMaxMessageLength < m.length then close { s with fragment := some m }
  else if f.fin then message env m { s with fragment := none }
  else { s with fragment := some m }

def payload (f : Frame) (s : Session) : Session :=
  if f.opcode = 0x8 then
    close { s with calls := s.calls ++
      [.wroteFrame 0x8 (if f.payload.length ≤ 125 then f.payload else [])] }
  else if f.opcode = 0x9 then { s with calls := s.calls ++ [.wroteFrame 0xA f.payload] }
  else if f.opcode = 0xA then s
  else s.data env f

def frame (s : Session) (f : Frame) : Session :=
  if s.closed then s
  else if ¬ f.Legal s.fragment.isSome then s.close
  else if webSocketMaxMessageLength < f.payload.length then s.close
  else s.payload env f

end Session

/-- The packets of a WebSocket. -/
abbrev packets : Framing UInt8 Call := abridged webSocketMaxMessageLength

/-- No message is longer than the limit, and none with what the stream before it has left. -/
def WithinLimits (env : Environment) (pos : ℕ) : Bytes × Bytes → List Frame → Prop
  | _, [] => True
  | a, f :: fs =>
    (f.isData → a.2.length + f.payload.length ≤ webSocketMaxMessageLength ∧
      (f.fin → (parse packets (applyKeystream env pos a.1)).rest.length +
        (a.2.length + f.payload.length) ≤ webSocketMaxMessageLength)) ∧
    WithinLimits env pos (assemble a f) fs

end Onegram.Tcp
