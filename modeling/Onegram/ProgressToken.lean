import Onegram.EncryptedPackets
import Onegram.Lib.Cursor
import Onegram.ServiceMessages

/-!
# The progress token of a packet

Two readings of the same plaintext. `_parseIncomingMessages` parses the packet once it is complete
and gives its messages; `transportDecodeProgressToken` walks over it word by word, while it is still
received, for the request whose result is in it.

A constructor is compared as a word. The context's serialization and `decompressGZip` are
parameters; where an `NSRange` goes past the data there is no message either.
-/

namespace Onegram.Mtp

open Bytes TL

/-! ## The walk -/

/-- The stream that is left, `*failed` and `*reqMsgId`. -/
structure Walk where
  stream : Bytes
  failed : Bool := false
  reqMsgId : Int64 := 0
deriving DecidableEq

namespace Walk

/-- `readInt32:` and `readInt64:`, with the bytes of the value; what is too short is used up. -/
def read (w : Walk) (length : ℕ) : Bytes × Walk :=
  if w.stream.length < length then (List.replicate length 0, { w with stream := [], failed := true })
  else (w.stream.take length, { w with stream := w.stream.drop length })

def readWord (w : Walk) : UInt32 × Walk :=
  let (bytes, w) := w.read 4
  (UInt32.ofNat (littleEndian bytes), w)

def skip (w : Walk) (length : ℕ) : Walk := (w.read length).2

/-- `for (int i = 0; i < count; i++)`, left when the reading failed or the id is found. -/
def forLoop (body : Walk → Walk) : ℕ → Walk → Walk
  | 0, w => w
  | n + 1, w =>
    let w := body w
    if w.failed || w.reqMsgId != 0 then w else forLoop body n w

def count (word : UInt32) : ℕ := word.toInt32.toInt.toNat

/-- A message of a container: its header is not looked at, its constructor is. -/
def containerMessage (findReqMsgId : UInt32 → Walk → Walk) (w : Walk) : Walk :=
  let w := ((w.skip 8).skip 4).skip 4
  if w.failed then w
  else
    let (innerSignature, w) := w.readWord
    if w.failed then w else findReqMsgId innerSignature w

/-- `findReqMsgId:signature:reqMsgId:failed:`, with a bound on the nesting of containers. -/
def findReqMsgId : ℕ → UInt32 → Walk → Walk
  | 0, _, w => w
  | depth + 1, signature, w =>
    if signature = 0x73f1f8dc then
      let (word, w) := w.readWord
      if w.failed then w
      else forLoop (containerMessage (findReqMsgId depth)) (count word) w
    else if signature = 0xf35c6d01 then
      let (value, w) := w.read 8
      if w.failed then w
      else { w with reqMsgId := (UInt64.ofNat (littleEndian value)).toInt64 }
    else if signature = 0x62d6b459 then
      let w := w.skip 4
      if w.failed then w
      else
        let (word, w) := w.readWord
        if w.failed then w
        -- each of the ids is eight bytes long
        else forLoop (fun w => w.skip 4) (count word) w
    else if signature = 0x347773c5 then (w.skip 8).skip 8
    else w

/-- `while (!stop && reqMsgId == 0)`, for as many turns as `turns`. -/
def search (depth : ℕ) : ℕ → Walk → Walk
  | 0, w => w
  | turns + 1, w =>
    if w.failed || w.reqMsgId != 0 then w
    else
      let (signature, w) := w.readWord
      search depth turns (findReqMsgId depth signature w)

end Walk

variable (MTSha256 : Bytes → Bytes) (decrypt : Bytes → Bytes → Bytes)

section Parser

variable {α : Type} (serialization : Bytes → Option α) (decompressGZip : Bytes → Option Bytes)

/-- `readBytes:skippingLength:`. -/
def readBytesSkippingLength (data : Bytes) (skipLength : ℕ) : Option Bytes := do
  let tmp ← data[skipLength]?
  if tmp = 254 then
    if data.length < skipLength + 4 then none
    else
      let length := shiftedLength (MessageCipher.cut data (skipLength + 1) 3)
      (subdataWithRange data (skipLength + 4) length).toOption
  else (subdataWithRange data (skipLength + 1) tmp.toNat).toOption

/-- `unwrapMessage:`. -/
def unwrapMessage (data : Bytes) : Option Bytes :=
  if data.length < 4 then some data
  else if data.take 4 = [0xa1, 0xcf, 0x72, 0x30] then
    (readBytesSkippingLength data 4).bind decompressGZip
  else some data

/-- `parseMessage:` of `MTProto`. -/
def parseMessage (data : Bytes) : Option (Message ⊕ α) := do
  let unwrappedData ← unwrapMessage decompressGZip data
  match MTInternalMessageParser.parseMessage unwrappedData with
  | some internalMessage => some (.inl internalMessage)
  | none => (serialization unwrappedData).map .inr

/-- The bodies `_parseIncomingMessages` gives, outside the mode without a key. The padding is read
as part of the message on top. -/
def parseIncomingMessages (sessionId : Int) (data : Bytes) : Option (List (Message ⊕ α)) := do
  if data.length < 8 + 8 + 8 + 4 + 4 then none
  else if MessageCipher.cut data 8 8 ≠ int64Bytes sessionId then none
  else
    let topObject ← parseMessage serialization decompressGZip (data.drop (8 + 8 + 8 + 4 + 4))
    match topObject with
    | .inl (.msgContainer messages) =>
      messages.mapM fun m => parseMessage serialization decompressGZip m.data
    | .inl (.message m) => do
      let subObject ← parseMessage serialization decompressGZip m.data
      some [subObject]
    | topObject => some [topObject]

end Parser

end Onegram.Mtp

/-!
## Unwrapping messages

`unwrapMessage:` of `MTInternalMessageParser`, and the part of `parseMessage:` for containers. A
range past the data is an exception wherever one is made. `decompressGZip:` is the loop around
`zlib`, which is a parameter: `inflate` gives `Z_OK` only when it has made progress.
-/

namespace Onegram.Mtp.Unwrapping

open Bytes TL

/-! ## `unwrapMessage:` -/

inductive ZReturn
  | ok
  | streamEnd
  | error
deriving DecidableEq, Repr

/-- `left` is how much is still to be taken in or given out, of a stream of finite data. -/
structure ZLib (σ : Type) where
  inflateInit2 : Bytes → Option σ
  inflate : σ → ZReturn × Bytes × σ
  left : σ → ℕ
  progress : ∀ s, (inflate s).1 = .ok → left (inflate s).2.2 < left s

variable {σ : Type} (z : ZLib σ)

/-- `do … while (retCode == Z_OK)`. -/
def inflateAll (stream : σ) (result : Bytes) : Option Bytes :=
  match _h : (z.inflate stream).1 with
  | .error => none
  | .streamEnd => some (result ++ (z.inflate stream).2.1)
  | .ok => inflateAll (z.inflate stream).2.2 (result ++ (z.inflate stream).2.1)
termination_by z.left stream
decreasing_by exact z.progress stream _h

def decompressGZip (data : Bytes) : Option Bytes :=
  if data.length = 0 ∨ data.length > 2 ^ 32 - 1 then none
  else (z.inflateInit2 data).bind fun stream => inflateAll z stream []

/-- `readBytes:skippingLength:`. -/
def readBytesSkippingLength (data : Bytes) (skipLength : ℕ) : Except NSException Bytes := do
  let tmp ← subdataWithRange data skipLength 1
  if tmp = [254] then
    let bytes ← subdataWithRange data (skipLength + 1) 3
    subdataWithRange data (skipLength + 4) (shiftedLength bytes)
  else subdataWithRange data (skipLength + 1) (littleEndian tmp)

def unwrapMessage (data : Bytes) : Except NSException (Option Bytes) :=
  if data.length < 4 then .ok (some data)
  else if data.take 4 = [0xa1, 0xcf, 0x72, 0x30] then
    (readBytesSkippingLength data 4).map (decompressGZip z)
  else .ok (some data)

/-! ## `parseMessage:` -/

abbrev BufferReader := Cursor NSException UInt8

/-- `readBytes:length:`. -/
def readBytes (length : ℕ) : BufferReader Bytes :=
  Cursor.read (fun data offset length => subdataWithRange data offset length) length

def readInt32 : BufferReader Int32 := do
  let bytes ← readBytes 4
  pure (UInt32.ofNat (littleEndian bytes)).toInt32

def readInt64 : BufferReader Int64 := do
  let bytes ← readBytes 8
  pure (UInt64.ofNat (littleEndian bytes)).toInt64

/-- A buffer of the length that is declared is only made for one within the bounds. -/
def readMessageData (length : Int32) : BufferReader Bytes :=
  if length.toInt < 0 ∨ 16 * 1024 * 1024 < length.toInt then Cursor.fail
  else readBytes length.toInt.toNat

def readContainerMessage : BufferReader MTMessage := do
  let messageId ← readInt64
  let seqNo ← readInt32
  let length ← readInt32
  let messageData ← readMessageData length
  pure ⟨messageId, seqNo, messageData⟩

/-- `for (int32_t i = 0; i < count; i++)`. -/
def readMsgContainer : BufferReader (List MTMessage) := do
  let count ← readInt32
  Cursor.times readContainerMessage count.toInt.toNat

/-- The `switch`, with the one case. -/
def readSigned : BufferReader (List MTMessage) := do
  let signature ← readInt32
  if signature.toUInt32 = 0x73f1f8dc then readMsgContainer else Cursor.fail

def parseMsgContainer (data : Bytes) : Except NSException (Option (List MTMessage)) :=
  (readSigned data 0).map (·.map Prod.fst)

end Onegram.Mtp.Unwrapping
