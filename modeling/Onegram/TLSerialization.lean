import Onegram.Lib.Bytes
import Onegram.Lib.Cursor
import Onegram.Lib.Reader

/-!
# Values of the type language

`MTBuffer` and `MTOutputStream` write integers, byte strings and strings; `MTBufferReader` and
`MTInputStream` read them. A byte string has its length in one byte, or in three after the byte 254,
and zero bytes up to a multiple of four. The writers append to what is written so far; the readers
take from what is left.

Numbers are stored in little-endian order. A length is read through an `int32_t` that is shifted
down by eight bits, so its sign is that of the third byte. A string is text, whose bytes are UTF-8.
-/

namespace Onegram.TL

open Bytes

/-- `dataUsingEncoding:NSUTF8StringEncoding`. -/
def utf8 (string : String) : Bytes := string.toByteArray.data.toList

/-- `initWithData:encoding:NSUTF8StringEncoding`. -/
def ofUtf8 (bytes : Bytes) : Option String := String.fromUTF8? ⟨bytes.toArray⟩

/-- `roundUp` and `roundUpInput`. -/
def roundUp (numToRound multiple : ℤ) : ℤ :=
  if multiple = 0 then numToRound
  else if numToRound.tmod multiple = 0 then numToRound
  else numToRound + multiple - numToRound.tmod multiple

/-! ## `MTBuffer` -/

namespace MTBuffer

def appendInt32 (data : Bytes) (value : Int32) : Bytes :=
  data ++ bytesLE 4 value.toUInt32.toNat

def appendInt64 (data : Bytes) (value : Int64) : Bytes :=
  data ++ bytesLE 8 value.toUInt64.toNat

def appendTLBytes (data bytes : Bytes) : Bytes :=
  let length := bytes.length
  if length = 0 then appendInt32 data 0
  else if 254 ≤ length then
    let data := data ++ [254]
    let data := data ++ bytesLE 3 length
    let paddingBytes := (roundUp length 4 - length).toNat
    data ++ bytes ++ List.replicate paddingBytes 0
  else
    let data := data ++ bytesLE 1 length
    let paddingBytes := (roundUp (length + 1) 4 - (length + 1)).toNat
    data ++ bytes ++ List.replicate paddingBytes 0

def appendTLString (data : Bytes) (string : String) : Bytes := appendTLBytes data (utf8 string)

end MTBuffer

/-! ## `MTOutputStream` -/

namespace MTOutputStream

def writeInt32 (written : Bytes) (value : Int32) : Bytes :=
  written ++ bytesLE 4 value.toUInt32.toNat

def writeInt64 (written : Bytes) (value : Int64) : Bytes :=
  written ++ bytesLE 8 value.toUInt64.toNat

def writeBytes (written data : Bytes) : Bytes :=
  let length := data.length
  if length = 0 then writeInt32 written 0
  else
    let (written, paddingBytes) :=
      if 254 ≤ length then
        ((written ++ [254]) ++ bytesLE 3 length, roundUp length 4 - length)
      else (written ++ bytesLE 1 length, roundUp (length + 1) 4 - (length + 1))
    (List.range paddingBytes.toNat).foldl (fun written _ => written ++ [0]) (written ++ data)

def writeString (written : Bytes) (string : String) : Bytes := writeBytes written (utf8 string)

end MTOutputStream

/-! ## `MTBufferReader` -/

/-- `length >>= 8` of an `int32_t` with three bytes read above its lowest one. -/
def shiftedLength (bytes : Bytes) : ℤ :=
  ((BitVec.ofNat 32 (littleEndian (0 :: bytes))).sshiftRight 8).toInt

namespace MTBufferReader

open Reader

def readBytes (length : ℕ) : Reader UInt8 Bytes := take length

def readInt32 : Reader UInt8 Int32 := do
  let bytes ← readBytes 4
  pure (UInt32.ofNat (littleEndian bytes)).toInt32

def readInt64 : Reader UInt8 Int64 := do
  let bytes ← readBytes 8
  pure (UInt64.ofNat (littleEndian bytes)).toInt64

/-- The bytes and the padding. No data has a length that is negative as an `int32_t`. -/
def readPadded (length paddingBytes : ℤ) : Reader UInt8 Bytes := do
  if length < 0 then fail
  else
    let result ← readBytes length.toNat
    let _ ← times (readBytes 1) paddingBytes.toNat
    pure result

def readTLBytes : Reader UInt8 Bytes := do
  let tmp ← readBytes 1
  if tmp = [254] then
    let bytes ← readBytes 3
    let length := shiftedLength bytes
    readPadded length (roundUp length 4 - length)
  else
    let length : ℤ := littleEndian tmp
    readPadded length (roundUp (length + 1) 4 - (length + 1))

/-- `nil` where the bytes are not UTF-8. -/
def readTLString : Reader UInt8 (Option String) := do
  let bytes ← readTLBytes
  pure (ofUtf8 bytes)

end MTBufferReader

/-! ## `MTInputStream` -/

namespace MTInputStream

open Reader

/-- What `read:maxLength:` gets of a stream in memory. -/
def read (length : ℕ) : Reader UInt8 Bytes := fun stream =>
  some (stream.take length, stream.drop length)

/-- What a buffer of `length` bytes holds when fewer were read: the methods with `failed` give up,
those without it go on with what happens to be in the buffer. -/
abbrev Short := ℕ → Bytes → Option Bytes

variable (short : Short)

/-- A buffer filled from the stream. -/
def readFull (length : ℕ) : Reader UInt8 Bytes := do
  let bytes ← read length
  if bytes.length = length then pure bytes else StateT.lift (short length bytes)

def readInt32 : Reader UInt8 Int32 := do
  let bytes ← readFull short 4
  pure (UInt32.ofNat (littleEndian bytes)).toInt32

def readInt64 : Reader UInt8 Int64 := do
  let bytes ← readFull short 8
  pure (UInt64.ofNat (littleEndian bytes)).toInt64

/-- The length and the padding; bytes that are not there are 0. -/
def readLength : Reader UInt8 (ℤ × ℤ) := do
  let tmp ← read 1
  if tmp = [254] then
    let bytes ← read 3
    let length := shiftedLength bytes
    pure (length, roundUp length 4 - length)
  else
    let length : ℤ := littleEndian tmp
    pure (length, roundUp (length + 1) 4 - (length + 1))

/-- A negative length is a buffer that cannot be had. -/
def readBytes : Reader UInt8 Bytes := do
  let (length, paddingBytes) ← readLength
  if length < 0 then fail
  else
    let result ← readFull short length.toNat
    let _ ← times (read 1) paddingBytes.toNat
    pure result

/-- The characters of a string; the buffer is only filled where the length is positive. -/
def readCharacters (length : ℤ) : Reader UInt8 (Option String) :=
  if 0 < length then do
    let bytes ← readFull short length.toNat
    pure (ofUtf8 bytes)
  else pure (some "")

def readString : Reader UInt8 (Option String) := do
  let (length, paddingBytes) ← readLength
  let string ← readCharacters short length
  let _ ← times (read 1) paddingBytes.toNat
  pure string

end MTInputStream

/-! ## Sequences of values -/

/-- A value that has an encoding. -/
inductive Value
  | int32 (value : Int32)
  | int64 (value : Int64)
  | bytes (value : { bytes : Bytes // bytes.length < 2 ^ 24 })
  | string (value : { string : String // (utf8 string).length < 2 ^ 24 })

/-- What a reader gives. -/
inductive Item
  | int32 (value : Int32)
  | int64 (value : Int64)
  | bytes (value : Bytes)
  | string (value : Option String)

def Value.item : Value → Item
  | .int32 value => .int32 value
  | .int64 value => .int64 value
  | .bytes value => .bytes value
  | .string value => .string (some value)

/-- The value with `MTBuffer`. -/
def Value.append (data : Bytes) : Value → Bytes
  | .int32 value => MTBuffer.appendInt32 data value
  | .int64 value => MTBuffer.appendInt64 data value
  | .bytes value => MTBuffer.appendTLBytes data value
  | .string value => MTBuffer.appendTLString data value

/-- The value with `MTOutputStream`. -/
def Value.write (written : Bytes) : Value → Bytes
  | .int32 value => MTOutputStream.writeInt32 written value
  | .int64 value => MTOutputStream.writeInt64 written value
  | .bytes value => MTOutputStream.writeBytes written value
  | .string value => MTOutputStream.writeString written value

/-- The value's reader in `MTBufferReader`. -/
def Value.bufferReader : Value → Reader UInt8 Item
  | .int32 _ => .int32 <$> MTBufferReader.readInt32
  | .int64 _ => .int64 <$> MTBufferReader.readInt64
  | .bytes _ => .bytes <$> MTBufferReader.readTLBytes
  | .string _ => .string <$> MTBufferReader.readTLString

/-- The value's reader in `MTInputStream`. -/
def Value.streamReader (short : MTInputStream.Short) : Value → Reader UInt8 Item
  | .int32 _ => .int32 <$> MTInputStream.readInt32 short
  | .int64 _ => .int64 <$> MTInputStream.readInt64 short
  | .bytes _ => .bytes <$> MTInputStream.readBytes short
  | .string _ => .string <$> MTInputStream.readString short

/-- One reader after the other. -/
def readAll {α : Type} : List (Reader UInt8 α) → Reader UInt8 (List α)
  | [] => pure []
  | r :: rs => do
    let v ← r
    let vs ← readAll rs
    pure (v :: vs)

end Onegram.TL

/-!
## Byte strings that are cut off

`readBytes:` and `readString:` of `MTInputStream` and `readTLBytes:` of `MTBufferReader`, with the
place where each one is when it gives up. A stream is what is left of it; a buffer is its data and
the offset.

A length below zero asks for a buffer that cannot be had. What `read:maxLength:` does with `NULL`
and such a length is a parameter. `_offset + length` wraps, so that such a length takes the offset
back where it is not further than the beginning; then it is `dataWithBytesNoCopy:length:` that
raises.
-/

namespace Onegram.TLStrings

open Bytes TL

/-- What a call ends in. -/
inductive Outcome (α : Type)
  | accepted (value : α)
  | failed
  | raised
  deriving DecidableEq

def Outcome.isAccepted {α : Type} : Outcome α → Prop
  | .accepted _ => True
  | _ => False

/-! ## `MTInputStream` -/

namespace MTInputStream

/-- `read:maxLength:`. -/
def read (length : ℕ) (stream : Bytes) : Bytes × Bytes := (stream.take length, stream.drop length)

/-- `length` and `paddingBytes`. Bytes that are not there are 0. -/
def readLength (stream : Bytes) : (ℤ × ℤ) × Bytes :=
  let (tmp, stream) := read 1 stream
  if tmp = [254] then
    let (bytes, stream) := read 3 stream
    let length := shiftedLength bytes
    ((length, roundUp length 4 - length), stream)
  else
    let length : ℤ := littleEndian tmp
    ((length, roundUp (length + 1) 4 - (length + 1)), stream)

/-- The loop over the padding, whatever it gets. -/
def skipPadding : ℕ → Bytes → Bytes
  | 0, stream => stream
  | paddingBytes + 1, stream => skipPadding paddingBytes (read 1 stream).2

/-- A buffer of `length` bytes, filled. -/
def readFull (length : ℕ) (stream : Bytes) : Outcome Bytes × Bytes :=
  let (bytes, stream) := read length stream
  if bytes.length = length then (.accepted bytes, stream) else (.failed, stream)

/-- What `read:NULL maxLength:` does with a length that was negative. -/
abbrev NullRead := Bytes → Outcome Bytes × Bytes

variable (readNull : NullRead)

/-- `readBytes:`. -/
def readBytes (stream : Bytes) : Outcome Bytes × Bytes :=
  let ((length, paddingBytes), stream) := readLength stream
  match if length < 0 then readNull stream else readFull length.toNat stream with
  | (.accepted result, stream) => (.accepted result, skipPadding paddingBytes.toNat stream)
  | (outcome, stream) => (outcome, stream)

/-- `readString:`, whose string is `nil` where the bytes are no text. -/
def readString (stream : Bytes) : Outcome (Option String) × Bytes :=
  let ((length, paddingBytes), stream) := readLength stream
  if 0 < length then
    match readFull length.toNat stream with
    | (.accepted bytes, stream) =>
      (.accepted (ofUtf8 bytes), skipPadding paddingBytes.toNat stream)
    | (.failed, stream) => (.failed, stream)
    | (.raised, stream) => (.raised, stream)
  else (.accepted (some ""), skipPadding paddingBytes.toNat stream)

end MTInputStream

/-! ## `MTBufferReader` -/

namespace MTBufferReader

/-- `readBytes:length:`. -/
def readBytes (data : Bytes) (length : ℤ) (offset : ℕ) : Option Bytes × ℕ :=
  if offset + length < 0 ∨ data.length < offset + length then (none, offset)
  else (some ((data.drop offset).take length.toNat), (offset + length).toNat)

/-- The loop over the padding. -/
def readPadding (data : Bytes) : ℕ → ℕ → Bool × ℕ
  | 0, offset => (true, offset)
  | paddingBytes + 1, offset =>
    match readBytes data 1 offset with
    | (none, offset) => (false, offset)
    | (some _, offset) => readPadding data paddingBytes offset

/-- The bytes and the padding. -/
def readPadded (data : Bytes) (length paddingBytes : ℤ) (offset : ℕ) : Outcome Bytes × ℕ :=
  match readBytes data length offset with
  | (none, offset) => (.failed, offset)
  | (some result, offset) =>
    if length < 0 then (.raised, offset)
    else
      match readPadding data paddingBytes.toNat offset with
      | (false, offset) => (.failed, offset)
      | (true, offset) => (.accepted result, offset)

/-- `readTLBytes:`. -/
def readTLBytes (data : Bytes) (offset : ℕ) : Outcome Bytes × ℕ :=
  match readBytes data 1 offset with
  | (none, offset) => (.failed, offset)
  | (some tmp, offset) =>
    if tmp = [254] then
      match readBytes data 3 offset with
      | (none, offset) => (.failed, offset)
      | (some bytes, offset) =>
        let length := shiftedLength bytes
        readPadded data length (roundUp length 4 - length) offset
    else
      let length : ℤ := littleEndian tmp
      readPadded data length (roundUp (length + 1) 4 - (length + 1)) offset

end MTBufferReader

/-! ## Complete strings -/

/-- How many bytes the length takes, and the length. -/
def lengthPrefix : Bytes → Option (ℕ × ℕ)
  | [] => none
  | x :: s =>
    if x = 254 then if 3 ≤ s.length then some (4, littleEndian (s.take 3)) else none
    else some (1, x.toNat)

/-- The bytes of a string with its length and padding, up to a multiple of four. -/
def total (k n : ℕ) : ℕ := (k + n + 3) / 4 * 4

/-- The length, the payload and the padding are there. -/
def Complete (stream : Bytes) : Prop :=
  ∃ k n, lengthPrefix stream = some (k, n) ∧ total k n ≤ stream.length

end Onegram.TLStrings
