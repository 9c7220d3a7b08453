import Onegram.TcpConnection

/-!
# The writing side of a TCP connection

`sendDatas:` from the payloads to the socket: the packets in the abridged or the intermediate
format, the header that hides them and the cipher it begins, and in a WebSocket the frames around
them. Below it what a server makes of these bytes.
-/

namespace Onegram.Tcp

open Elements

/-! ## The cipher -/

/-- `ctr128_inc`, from the last byte on. -/
def ctr128Inc (counter : Bytes) : Bytes :=
  (counter.foldr (fun b (c, out) => ((c + b.toNat) / 256, UInt8.ofNat (c + b.toNat) :: out))
    (1, [])).2

/-- `ecount` is the counter block before `ivec` encrypted, of which `num` bytes are used. -/
structure MTAesCtr where
  key : Bytes
  ivec : Bytes
  num : ℕ
  ecount : Bytes
  deriving DecidableEq

namespace MTAesCtr

def initWithKey (key iv : Bytes) : MTAesCtr :=
  { key, ivec := iv, num := 0, ecount := List.replicate 16 0 }

variable (aes : Bytes → Bytes → Bytes)

def encryptByte (b : UInt8) (c : MTAesCtr) : UInt8 × MTAesCtr :=
  let c :=
    if c.num = 0 then { c with ecount := aes c.key c.ivec, ivec := ctr128Inc c.ivec } else c
  (b ^^^ c.ecount.getD c.num 0, { c with num := (c.num + 1) % 16 })

/-- Byte by byte; where the buffers are aligned the code takes the same bytes by the word. -/
def encryptIn : Bytes → MTAesCtr → Bytes × MTAesCtr
  | [], c => ([], c)
  | b :: rest, c =>
    let (x, c) := c.encryptByte aes b
    let (out, c) := encryptIn rest c
    (x :: out, c)

end MTAesCtr

/-! ## Frames of a WebSocket -/

/-- `index & 3` chooses the byte of the mask. -/
def maskBytes (mask : Vector UInt8 4) (b : Bytes) : Bytes :=
  b.mapIdx fun i x => x ^^^ mask.toList.getD (i % 4) 0

def webSocketLengthBytes (length : ℕ) : Bytes :=
  if length < 126 then [0x80 ||| UInt8.ofNat length]
  else if length ≤ 0xffff then (0x80 ||| 126) :: Bytes.bytesBE 2 length
  else (0x80 ||| 127) :: Bytes.bytesBE 8 length

def MTOnegramWebSocketFrame (mask : Vector UInt8 4) (payload : Bytes) (opcode : UInt8) : Bytes :=
  (0x80 ||| opcode &&& 0x0f) ::
    (webSocketLengthBytes payload.length ++ (mask.toList ++ maskBytes mask payload))

/-- Bytes that no other protocol or format begins with. -/
def MTOnegramControlBytesAllowed (bytes : Bytes) : Bool :=
  bytes.getD 0 0 ≠ 0xef &&
    TcpConnection.word bytes ∉
      [0x44414548, 0x54534f50, 0x20544547, 0xeeeeeeee, 0xdddddddd] &&
    bytes.take 4 ≠ [0x16, 0x03, 0x01, 0x02] &&
    TcpConnection.word (bytes.drop 4) ≠ 0

/-! ## The connection -/

/-- The ciphers of the platform and what its source of random bytes gives: the draws for a header,
of which the loop takes one that may begin a stream, the masks, and the paddings. -/
structure Platform where
  aes : Bytes → Bytes → Bytes
  sha256 : Bytes → Bytes
  controlBytes : List (Vector UInt8 64)
  mask : ℕ → Vector UInt8 4
  padding : ℕ → Bytes
  allowed : ∃ b ∈ controlBytes, MTOnegramControlBytesAllowed b.toList = true
  padding_lt : ∀ n, (padding n).length < 16

/-- What a connection keeps for sending, and what it has written to its socket. -/
structure Output where
  closed : Bool
  socket : Bool
  useIntermediateFormat : Bool
  onegramWebSocket : Bool
  onegramWebSocketReady : Bool
  datacenterTag : ℤ
  mtpSecret : Option Bytes
  addressSecret : Option Bytes
  addedControlHeader : Bool
  outgoingAesCtr : Option MTAesCtr
  incomingAesCtr : Option MTAesCtr
  masksDrawn : ℕ
  paddingsDrawn : ℕ
  written : List Bytes
  completions : List Bool
  deriving DecidableEq

def secretSupportsExtendedPadding : Option Bytes → Bool
  | some data => data.length = 17 && data.getD 0 0 = 0xdd
  | none => false

/-- `initWithContext:`; a proxy with a secret is not used beside a WebSocket. -/
def Output.fresh (onegramWebSocket : Bool) (datacenterTag : ℤ)
    (proxySecret addressSecret : Option Bytes) : Output :=
  let mtpSecret := if onegramWebSocket then none else proxySecret
  { closed := false
    socket := false
    useIntermediateFormat := !onegramWebSocket &&
      (if mtpSecret ≠ none then secretSupportsExtendedPadding mtpSecret
      else secretSupportsExtendedPadding addressSecret)
    onegramWebSocket
    onegramWebSocketReady := false
    datacenterTag
    mtpSecret
    addressSecret
    addedControlHeader := false
    outgoingAesCtr := none
    incomingAesCtr := none
    masksDrawn := 0
    paddingsDrawn := 0
    written := []
    completions := [] }

/-- The value of a number as an `int32_t`. -/
def int32 (n : ℕ) : ℤ := Int.bmod n (2 ^ 32)

def quickAckFlag (requestQuickAck : Bool) : UInt8 := if requestQuickAck then 0x80 else 0

/-- The length before a packet in the abridged format. -/
def abridgedLength (length : ℕ) (requestQuickAck : Bool) : Bytes :=
  let quarterLength := length / 4
  if int32 quarterLength ≤ 0x7e then [UInt8.ofNat quarterLength ||| quickAckFlag requestQuickAck]
  else (0x7f ||| quickAckFlag requestQuickAck) :: Bytes.bytesLE 3 quarterLength

def intermediateLength (length : ℕ) (requestQuickAck : Bool) : Bytes :=
  let bytes := Bytes.bytesLE 4 length
  bytes.set 3 (bytes.getD 3 0 ||| quickAckFlag requestQuickAck)

/-- The key a secret changes. -/
def effectiveKey (sha256 : Bytes → Bytes) (secret : Option Bytes) (aesKey : Bytes) : Bytes :=
  match secret with
  | none => aesKey
  | some secret =>
    if secret.length = 16 then (sha256 (aesKey ++ secret)).take 32
    else (sha256 (aesKey ++ secret.drop 1)).take 32

/-- The cipher that the bytes of a header begin. -/
def headerCtr (sha256 : Bytes → Bytes) (secret : Option Bytes) (controlBytes : Bytes) :
    MTAesCtr :=
  .initWithKey (effectiveKey sha256 secret ((controlBytes.drop 8).take 32))
    ((controlBytes.drop 40).take 16)

namespace Output

variable (P : Platform)

def closeAndNotify (c : Output) : Output :=
  if c.closed then c else { c with closed := true, socket := false }

def writeData (data : Bytes) (c : Output) : Output := { c with written := c.written ++ [data] }

def onegramSendWebSocketPayload (payload : Bytes) (opcode : UInt8) (c : Output) : Output :=
  if !c.socket || !c.onegramWebSocketReady then c
  else writeData (MTOnegramWebSocketFrame (P.mask c.masksDrawn) payload opcode)
    { c with masksDrawn := c.masksDrawn + 1 }

def effectiveSecret (c : Output) : Option Bytes :=
  let secret :=
    if c.onegramWebSocket then none
    else match c.mtpSecret with
      | some secret => some secret
      | none => c.addressSecret
  secret.filter fun s => s.length = 16 || s.length = 17

/-- The loop over draws; a socket without frames takes the first. -/
def drawControlBytes (c : Output) : Bytes :=
  ((P.controlBytes.find? fun b =>
    !(c.onegramWebSocket && !MTOnegramControlBytesAllowed b.toList)).map Vector.toList).getD []

def datacenterValue (c : Output) : ℤ :=
  if c.onegramWebSocket then
    let id : ℤ := TcpConnection.onegramWebSocketDatacenterId c.datacenterTag
    if c.datacenterTag < 0 then -id else id
  else c.datacenterTag

/-- The draw with the version and the datacenter written into it. -/
def controlHeader (c : Output) : Bytes :=
  let draw := c.drawControlBytes P
  draw.take 56 ++ (List.replicate 4 (if c.useIntermediateFormat then 0xdd else 0xef) ++
    (Bytes.bytesLE 2 (c.datacenterValue % 2 ^ 16).toNat ++ draw.drop 62))

def packetData (data : Bytes) (requestQuickAck : Bool) (c : Output) : Bytes :=
  if c.useIntermediateFormat then
    let padding := P.padding c.paddingsDrawn
    intermediateLength (data.length + padding.length) requestQuickAck ++ (data ++ padding)
  else abridgedLength data.length requestQuickAck ++ data

/-- The cipher encrypts for the socket; without one what it should fill stays zero. -/
def encrypt (data : Bytes) (c : Output) : Bytes × Output :=
  match c.outgoingAesCtr with
  | none => (List.replicate data.length 0, c)
  | some ctr =>
    let (out, ctr) := ctr.encryptIn P.aes data
    (out, { c with outgoingAesCtr := some ctr })

/-- The header has its ends in clear up to the version, which is encrypted as the rest is. -/
def addControlHeader (packetData : Bytes) (c : Output) : Output :=
  let controlBytes := c.controlHeader P
  let secret := c.effectiveSecret
  let c := { c with
    addedControlHeader := true
    outgoingAesCtr := some (headerCtr P.sha256 secret controlBytes)
    incomingAesCtr := some (headerCtr P.sha256 secret controlBytes.reverse) }
  let (encryptedControlBytes, c) := c.encrypt P controlBytes
  let (encryptedPacket, c) := c.encrypt P packetData
  let outControl := controlBytes.take 56 ++ encryptedControlBytes.drop 56
  if c.onegramWebSocket then
    let c := c.onegramSendWebSocketPayload P outControl 0x2
    if encryptedPacket ≠ [] then c.onegramSendWebSocketPayload P encryptedPacket 0x2 else c
  else c.writeData (outControl ++ encryptedPacket)

def sendData (requestQuickAck : Bool) (c : Output) (data : Bytes) : Output :=
  let packetData := c.packetData P data requestQuickAck
  let c := if c.useIntermediateFormat then { c with paddingsDrawn := c.paddingsDrawn + 1 } else c
  if !c.addedControlHeader then c.addControlHeader P packetData
  else
    let (encryptedData, c) := c.encrypt P packetData
    if c.onegramWebSocket then c.onegramSendWebSocketPayload P encryptedData 0x2
    else c.writeData encryptedData

/-- Whether a connection is open for sending. -/
def canSend (c : Output) : Bool :=
  !c.closed && c.socket && (!c.onegramWebSocket || c.onegramWebSocketReady)

def sendDatas (datas : List Bytes) (requestQuickAck : Bool) (c : Output) : Output :=
  if datas = [] then { c with completions := c.completions ++ [false] }
  else if c.canSend then
    let c := datas.foldl (sendData P requestQuickAck) c
    { c with completions := c.completions ++ [true] }
  else { c with completions := c.completions ++ [false] }

end Output

/-- What makes a connection write or stop writing. The payload of a control frame was read from one
and is as short. -/
inductive OutputEvent
  | connected
  | upgraded
  | sendDatas (datas : List Bytes) (requestQuickAck : Bool)
  | receivedPing (payload : Bytes) (short : payload.length ≤ 125)
  | receivedClose (payload : Bytes)
  | stop

open Output in
/-- A socket is made once; a WebSocket is ready when the upgrade has been accepted. -/
def outputStep (P : Platform) (c : Output) : OutputEvent → Output
  | .connected => if c.closed then c else { c with socket := true }
  | .upgraded =>
    if c.socket && c.onegramWebSocket then { c with onegramWebSocketReady := true } else c
  | .sendDatas datas requestQuickAck => c.sendDatas P datas requestQuickAck
  | .receivedPing payload _ => c.onegramSendWebSocketPayload P payload 0xA
  | .receivedClose payload =>
    closeAndNotify
      (c.onegramSendWebSocketPayload P (if payload.length ≤ 125 then payload else []) 0x8)
  | .stop => c.closeAndNotify

/-! ## The server -/

/-- A frame as a server takes it: whole, its payload unmasked. -/
structure ClientFrame where
  fin : Bool
  opcode : ℕ
  payload : Bytes
  deriving DecidableEq

/-- How many bytes a length takes beside its code. -/
def extendedLength (code : ℕ) : ℕ := if code = 126 then 2 else if code = 127 then 8 else 0

/-- A length is in the shortest form that can give it, and below 2 ^ 63. -/
def MinimalLength (code length : ℕ) : Prop :=
  (code = 126 → 126 ≤ length) ∧ (code = 127 → 2 ^ 16 ≤ length ∧ length < 2 ^ 63)

instance (code length : ℕ) : Decidable (MinimalLength code length) :=
  inferInstanceAs (Decidable (_ ∧ _))

def payloadLength (code : ℕ) (extended : Bytes) : ℕ :=
  if code < 126 then code else TcpConnection.bigEndian extended

/-- A frame that a server refuses by its first two bytes: one with a reserved bit or an opcode
without meaning, one that is not masked, a control frame in parts or with a long payload. -/
def refused (first second : ℕ) : Bool :=
  first / 16 % 8 ≠ 0 || first % 16 ∉ [0x0, 0x1, 0x2, 0x8, 0x9, 0xA] || second < 128 ||
    8 ≤ first % 16 && (first < 128 || 126 ≤ second % 128)

/-- What comes after the first two bytes of a frame. -/
def frameBody (first second : ℕ) (b : Bytes) : Next ClientFrame :=
  let extended := extendedLength (second % 128)
  let length := payloadLength (second % 128) (b.take extended)
  if b.length < extended then .incomplete
  else if ¬ MinimalLength (second % 128) length then .malformed
  else if b.length < extended + 4 + length then .incomplete
  else .element [⟨128 ≤ first, first % 16,
      maskBytes (Bytes.slice b extended 4) ((b.drop (extended + 4)).take length)⟩]
    (2 + extended + 4 + length)

def clientFrameNext : Bytes → Next ClientFrame
  | first :: second :: b =>
    if refused first.toNat second.toNat then .malformed
    else frameBody first.toNat second.toNat b
  | _ => .incomplete

/-- A packet in the abridged format as a client sends it: the upper bit of its first byte asks for a
quick acknowledgement. -/
def clientPacketNext : Bytes → Next (Bool × Bytes)
  | [] => .incomplete
  | marker :: b =>
    let flag : Bool := 128 ≤ marker.toNat
    if marker.toNat % 128 = 0 then .malformed
    else if marker.toNat % 128 = 0x7f then
      if b.length < 3 then .incomplete
      else
        let length := Bytes.littleEndian (b.take 3) * 4
        if length = 0 then .malformed
        else if b.length - 3 < length then .incomplete
        else .element [(flag, (b.drop 3).take length)] (4 + length)
    else
      let length := marker.toNat % 128 * 4
      if b.length < length then .incomplete
      else .element [(flag, b.take length)] (1 + length)

theorem frameBody_pos {first second : ℕ} {b : Bytes} {o : List ClientFrame} {n : ℕ}
    (h : frameBody first second b = .element o n) : 0 < n ∧ n ≤ b.length + 2 := by
  unfold frameBody at h
  simp only at h
  split_ifs at h
  simp only [Next.element.injEq] at h
  obtain ⟨-, rfl⟩ := h
  omega

theorem clientFrameNext_pos {b : Bytes} {o : List ClientFrame} {n : ℕ}
    (h : clientFrameNext b = .element o n) : 0 < n ∧ n ≤ b.length := by
  rcases b with _ | ⟨first, _ | ⟨second, b⟩⟩ <;> simp only [clientFrameNext] at h
  · cases h
  · cases h
  split_ifs at h
  exact frameBody_pos h

theorem clientPacketNext_pos {b : Bytes} {o : List (Bool × Bytes)} {n : ℕ}
    (h : clientPacketNext b = .element o n) : 0 < n ∧ n ≤ b.length := by
  rcases b with _ | ⟨marker, b⟩
  · simp [clientPacketNext] at h
  simp only [clientPacketNext] at h
  split_ifs at h <;> simp only [Next.element.injEq] at h <;> obtain ⟨-, rfl⟩ := h <;>
    simp only [List.length_cons] <;> omega

/-- What begins a frame whole begins every longer stream. -/
theorem frameBody_append {first second : ℕ} {b : Bytes} (c : Bytes)
    (h : frameBody first second b ≠ .incomplete) :
    frameBody first second (b ++ c) = frameBody first second b := by
  unfold frameBody at h ⊢
  simp only at h ⊢
  by_cases hshort : b.length < extendedLength (second % 128)
  · rw [if_pos hshort] at h
    exact absurd rfl h
  rw [if_neg hshort] at h
  rw [if_neg (by simp; omega), if_neg hshort, List.take_append_of_le_length (by omega)]
  split_ifs at h with hminimal hrest
  · exact absurd rfl h
  · rw [if_neg (not_not.mpr hminimal), if_neg (not_not.mpr hminimal), if_neg (by simp; omega),
      if_neg hrest, Bytes.slice_append_left _ (by omega), List.drop_append_of_le_length (by omega),
      List.take_append_of_le_length (by simp; omega)]
  · rw [if_pos hminimal, if_pos hminimal]

theorem clientFrameNext_append {b : Bytes} (c : Bytes) (h : clientFrameNext b ≠ .incomplete) :
    clientFrameNext (b ++ c) = clientFrameNext b := by
  rcases b with _ | ⟨first, _ | ⟨second, b⟩⟩
  · exact absurd rfl h
  · exact absurd rfl h
  simp only [clientFrameNext, List.cons_append] at h ⊢
  split_ifs at h ⊢
  · rfl
  · exact frameBody_append c h

theorem clientPacketNext_append {b : Bytes} (c : Bytes) (h : clientPacketNext b ≠ .incomplete) :
    clientPacketNext (b ++ c) = clientPacketNext b := by
  rcases b with _ | ⟨marker, b⟩
  · exact absurd rfl h
  simp only [clientPacketNext, List.cons_append] at h ⊢
  by_cases hzero : marker.toNat % 128 = 0
  · rw [if_pos hzero, if_pos hzero]
  rw [if_neg hzero] at h
  rw [if_neg hzero, if_neg hzero]
  by_cases hlong : marker.toNat % 128 = 0x7f
  · rw [if_pos hlong] at h
    rw [if_pos hlong, if_pos hlong]
    by_cases hshort : b.length < 3
    · rw [if_pos hshort] at h
      exact absurd rfl h
    rw [if_neg hshort] at h
    rw [if_neg (by simp; omega), if_neg hshort, List.take_append_of_le_length (by omega),
      List.drop_append_of_le_length (by omega)]
    split_ifs at h with hbad hrest
    · rw [if_pos hbad, if_pos hbad]
    · exact absurd rfl h
    · rw [if_neg hbad, if_neg hbad, if_neg (by simp; omega), if_neg hrest,
        List.take_append_of_le_length (by simp; omega)]
  · rw [if_neg hlong] at h
    rw [if_neg hlong, if_neg hlong]
    split_ifs at h with hrest
    · exact absurd rfl h
    · rw [if_neg (by simp; omega), if_neg hrest, List.take_append_of_le_length (by omega)]

/-- The frames of RFC 6455 that a client may send, with the shortest form of every length. -/
def clientFrames : Framing UInt8 ClientFrame where
  next := clientFrameNext
  pos := clientFrameNext_pos
  element_append c h := (clientFrameNext_append c (by simp [h])).trans h
  malformed_append c h := (clientFrameNext_append c (by simp [h])).trans h

def clientPackets : Framing UInt8 (Bool × Bytes) where
  next := clientPacketNext
  pos := clientPacketNext_pos
  element_append c h := (clientPacketNext_append c (by simp [h])).trans h
  malformed_append c h := (clientPacketNext_append c (by simp [h])).trans h

/-- The binary messages, one after the other; a client of this kind sends each in one frame. -/
def binaryPayload (fs : List ClientFrame) : Bytes :=
  (fs.filter fun f => f.fin && f.opcode = 2).flatMap ClientFrame.payload

/-- The stream of packets a server takes from the bytes of a connection. -/
def transported (onegramWebSocket : Bool) (b : Bytes) : Option Bytes :=
  if onegramWebSocket then (whole clientFrames b).map binaryPayload else some b

/-- The header gives the cipher, and the version in it says that the rest is abridged. -/
def unobfuscated (P : Platform) (secret : Option Bytes) (stream : Bytes) : Option Bytes :=
  let plain := ((headerCtr P.sha256 secret stream).encryptIn P.aes stream).1
  if 64 ≤ stream.length ∧ (plain.drop 56).take 4 = [0xef, 0xef, 0xef, 0xef] then
    some (plain.drop 64)
  else none

/-- What a server that knows the secret reads from the bytes of a connection, where it takes packets
as a framing says. -/
def received {ο : Type*} (F : Framing UInt8 ο) (P : Platform) (secret : Option Bytes)
    (onegramWebSocket : Bool) (b : Bytes) : Option (List ο) :=
  (transported onegramWebSocket b).bind fun stream =>
    if stream = [] then some []
    else (unobfuscated P secret stream).bind (whole F)

end Onegram.Tcp

/-!
## AES-CTR by the word

`encryptIn:out:len:` finishes a block that has been begun byte by byte. Then it takes whole blocks
by the word, if the buffers and the counter lie at addresses for words, and goes on byte by byte
otherwise. The buffers are one or lie apart, so that what is written is not read again.
-/

namespace Onegram.Tcp

open Elements

/-- `is_endian.little`: as on every machine the app is built for. -/
def isEndianLittle : Bool := true

/-- A word in memory. -/
def loadWord (b : Bytes) : ℕ :=
  if isEndianLittle then Bytes.littleEndian b else Bytes.littleEndian b.reverse

def storeWord (sizeof_size_t x : ℕ) : Bytes :=
  if isEndianLittle then Bytes.bytesLE sizeof_size_t x else Bytes.bytesBE sizeof_size_t x

/-- One pass of the loop of `ctr128_inc_aligned`, over word `n`: the carry and the counter. -/
def incWord (sizeof_size_t : ℕ) (acc : ℕ × Bytes) (n : ℕ) : ℕ × Bytes :=
  let bits := sizeof_size_t * 8
  let word := loadWord ((acc.2.drop (sizeof_size_t * n)).take sizeof_size_t)
  let d := (word + acc.1) % 2 ^ bits
  let c := ((d + 2 ^ bits - acc.1) % 2 ^ bits ^^^ d) >>> (bits - 1)
  (c, acc.2.take (sizeof_size_t * n) ++ storeWord sizeof_size_t d
    ++ acc.2.drop (sizeof_size_t * (n + 1)))

/-- `ctr128_inc_aligned` of the counter at an address. -/
def ctr128IncAligned (sizeof_size_t address : ℕ) (counter : Bytes) : Bytes :=
  if isEndianLittle || address % sizeof_size_t ≠ 0 then ctr128Inc counter
  else ((List.range (16 / sizeof_size_t)).reverse.foldl (incWord sizeof_size_t) (1, counter)).2

/-- The words of a block. -/
def xorWords (sizeof_size_t : ℕ) (input ecount : Bytes) : Bytes :=
  (List.range (16 / sizeof_size_t)).flatMap fun i =>
    storeWord sizeof_size_t
      (loadWord (Bytes.slice input (i * sizeof_size_t) sizeof_size_t).toList ^^^
        loadWord (Bytes.slice ecount (i * sizeof_size_t) sizeof_size_t).toList)

namespace MTAesCtr

variable (aes : Bytes → Bytes → Bytes)

/-- `while (n && len)`: what is written, `n` and what is left to read. -/
def finishBlock (ecount : Bytes) : ℕ → Bytes → Bytes × ℕ × Bytes
  | n, [] => ([], n, [])
  | n, b :: rest =>
    if n = 0 then ([], n, b :: rest)
    else
      let more := finishBlock ecount ((n + 1) % 16) rest
      ((b ^^^ ecount.getD n 0) :: more.1, more.2)

/-- A new block of the key stream, with the counter at an address. -/
def nextBlock (sizeof_size_t address : ℕ) (c : MTAesCtr) : MTAesCtr :=
  { c with
    ecount := aes c.key c.ivec
    ivec := ctr128IncAligned sizeof_size_t address c.ivec }

/-- `while (len >= 16)`, `num` being `n`: what is written, the cipher and what is left to read. -/
def wholeBlocks (sizeof_size_t address : ℕ) (c : MTAesCtr) (input : Bytes) :
    Bytes × MTAesCtr × Bytes :=
  if 16 ≤ input.length then
    let c := c.nextBlock aes sizeof_size_t address
    let more := wholeBlocks sizeof_size_t address { c with num := 0 } (input.drop 16)
    (xorWords sizeof_size_t input c.ecount ++ more.1, more.2)
  else ([], c, input)
termination_by input.length
decreasing_by simp; omega

/-- `while (len--)`: what is written from `out + n` on, and `n`. -/
def lastBytes (input ecount : Bytes) : ℕ → ℕ → Bytes × ℕ
  | n, 0 => ([], n)
  | n, len + 1 =>
    let more := lastBytes input ecount (n + 1) len
    ((input.getD n 0 ^^^ ecount.getD n 0) :: more.1, more.2)

/-- `encryptIn:out:len:` with the buffers and `_ivec` at addresses. -/
def encryptInOut (sizeof_size_t inAddress outAddress ivecAddress : ℕ) (input : Bytes)
    (c : MTAesCtr) : Bytes × MTAesCtr :=
  if 16 % sizeof_size_t = 0 then
    let head := finishBlock c.ecount c.num input
    let rest := head.2.2
    let moved := input.length - rest.length
    let c := { c with num := head.2.1 }
    if ((inAddress + moved) ||| (outAddress + moved) ||| ivecAddress) % sizeof_size_t ≠ 0 then
      let bytes := c.encryptIn aes rest
      (head.1 ++ bytes.1, bytes.2)
    else
      let words := c.wholeBlocks aes sizeof_size_t ivecAddress rest
      let c := words.2.1
      let rest := words.2.2
      if rest.length ≠ 0 then
        let c := c.nextBlock aes sizeof_size_t ivecAddress
        let tail := lastBytes rest c.ecount c.num rest.length
        (head.1 ++ words.1 ++ tail.1, { c with num := tail.2 })
      else (head.1 ++ words.1, c)
  else c.encryptIn aes input

/-- A call of `encryptIn:out:len:`. -/
structure Call where
  inAddress : ℕ
  outAddress : ℕ
  input : Bytes

/-- Calls one after the other: what they write and the cipher. -/
def encryptCalls (sizeof_size_t ivecAddress : ℕ) :
    List Call → MTAesCtr → Bytes × MTAesCtr
  | [], c => ([], c)
  | call :: calls, c =>
    let first :=
      c.encryptInOut aes sizeof_size_t call.inAddress call.outAddress ivecAddress call.input
    let more := encryptCalls sizeof_size_t ivecAddress calls first.2
    (first.1 ++ more.1, more.2)

end MTAesCtr

end Onegram.Tcp
