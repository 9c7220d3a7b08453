import Onegram.Lib.Bytes
import Onegram.Lib.Utf16

/-!
# The key-value coder

`PSKeyValueEncoder` writes an object as a row of fields: a key, a type byte, a value. An object
inside a field is a byte length, a class name and its own fields, so the length in front of it is
known only when the fields are written, and is patched in then. `PSKeyValueDecoder` is a cursor
over such a row: a read scans for the key from where the last read ended to the end, and then from
the start up to there. A nested object is read by its own class, through a decoder over its part
of the bytes.

Reads go through `data[i]?` and `copyBytes`, which are `none` outside the data: a decode that is
`some` has read only inside it.
-/

namespace Onegram.KeyValueCoder

open Utf16
open Bytes (littleEndian)

/-- A string as its UTF-16 code units. -/
abbrev NSString := List UInt16

/-- `dataUsingEncoding:NSUTF8StringEncoding`, nil for a string with an unpaired surrogate. -/
def utf8Data (s : NSString) : Option Bytes := (ofUtf16 s).map (·.flatMap String.utf8EncodeChar)

/-- `initWithBytes:length:encoding:NSUTF8StringEncoding`. -/
def stringWithBytes (b : Bytes) : Option NSString :=
  (ByteArray.mk b.toArray).utf8Decode?.map fun cs => toUtf16 cs.toList

/-- The key of a method that ends in `forCKey:`, a C string, or in `forKey:`, an `NSString`. -/
inductive Key
  | cKey (chars : Bytes)
  | key (string : NSString)

/-- The bytes of a key, as the encoder writes them. A nil `NSData` has length 0. -/
def Key.bytes : Key → Bytes
  | .cKey chars => chars.takeWhile (· ≠ 0)
  | .key string => (utf8Data string).getD []

/-- The key pointer a decode passes on: the `bytes` of a `NSData` without bytes are NULL. -/
def Key.pointer : Key → Option Bytes
  | .cKey chars => some (chars.takeWhile (· ≠ 0))
  | .key string => if (utf8Data string).getD [] = [] then none else some ((utf8Data string).getD [])

mutual

inductive Value
  | string (s : NSString)
  | int32 (n : BitVec 32)
  | int64 (n : BitVec 64)
  | object (o : Obj)
  | array (os : List Obj)
  | data (b : Bytes)
  | int32Array (ns : List (BitVec 32))
  | int32Dictionary (entries : List Entry)
  | double (bits : BitVec 64)

/-- An object, as its class and what its `encodeWithKeyValueCoder:` hands to the coder. -/
inductive Obj
  | mk (className : Bytes) (fields : List Field)

inductive Field
  | mk (key : Key) (value : Value)

inductive Entry
  | mk (key : BitVec 32) (object : Obj)

end

def Field.key : Field → Key
  | .mk key _ => key

def Field.value : Field → Value
  | .mk _ value => value

def Entry.key : Entry → BitVec 32
  | .mk key _ => key

def Entry.object : Entry → Obj
  | .mk _ object => object

inductive FieldType
  | string | int32 | int64 | customClass | array | data | int32Array | int32Dictionary | double
deriving DecidableEq

def FieldType.byte : FieldType → UInt8
  | .string => 1
  | .int32 => 2
  | .int64 => 3
  | .customClass => 4
  | .array => 5
  | .data => 6
  | .int32Array => 7
  | .int32Dictionary => 8
  | .double => 9

def FieldType.ofByte (b : UInt8) : Option FieldType :=
  [string, int32, int64, customClass, array, data, int32Array, int32Dictionary, double].find?
    (·.byte == b)

def Value.fieldType : Value → FieldType
  | .string _ => .string
  | .int32 _ => .int32
  | .int64 _ => .int64
  | .object _ => .customClass
  | .array _ => .array
  | .data _ => .data
  | .int32Array _ => .int32Array
  | .int32Dictionary _ => .int32Dictionary
  | .double _ => .double

/-! ## The encoder -/

/-- Up to `k` bytes with the continuation bit and a last one without, seven bits in each. -/
def lengthBytes : ℕ → ℕ → Bytes
  | 0, value => [UInt8.ofNat (value % 128)]
  | k + 1, value =>
    if value > 127 then UInt8.ofNat (value % 128 + 128) :: lengthBytes k (value / 128)
    else [UInt8.ofNat (value % 128)]

/-- `writeLength(self, (uint32_t)value)`. -/
def writeLength (value : ℕ) : Bytes := lengthBytes 4 (value % 2 ^ 32)

/-- The length of what was written after the four bytes at `position`, put into them. -/
def patchLength (position : ℕ) (buf : Bytes) : Bytes :=
  buf.take position ++ Bytes.bytesLE 4 (buf.length - position - 4) ++ buf.drop (position + 4)

def encodeKey (key : Key) (type : FieldType) (buf : Bytes) : Bytes :=
  buf ++ writeLength key.bytes.length ++ key.bytes ++ [type.byte]

mutual

def encodeObjectValue : Obj → Bytes → Bytes
  | .mk className fields, buf =>
    patchLength buf.length (encodeFields fields (buf ++ Bytes.bytesLE 4 0 ++ className ++ [0]))

/-- The value of a field, after its key and its type byte. -/
def encodeValue : Value → Bytes → Bytes
  | .string s, buf =>
    let stringData := (utf8Data s).getD []
    buf ++ writeLength stringData.length ++ stringData
  | .int32 n, buf => buf ++ Bytes.bytesLE 4 n.toNat
  | .int64 n, buf => buf ++ Bytes.bytesLE 8 n.toNat
  | .object o, buf => encodeObjectValue o buf
  | .array os, buf =>
    patchLength buf.length
      (encodeObjects os (os.length % 2 ^ 32) (buf ++ Bytes.bytesLE 4 0 ++ writeLength os.length))
  | .data b, buf => buf ++ writeLength b.length ++ b
  | .int32Array ns, buf =>
    buf ++ Bytes.bytesLE 4 ns.length ++ ns.flatMap fun n => Bytes.bytesLE 4 n.toNat
  | .int32Dictionary entries, buf =>
    patchLength buf.length
      (encodeEntries entries (buf ++ Bytes.bytesLE 4 0 ++ writeLength entries.length))
  | .double bits, buf => buf ++ Bytes.bytesLE 8 bits.toNat

/-- `encode...:forCKey:` and `encode...:forKey:`. -/
def encodeField : Field → Bytes → Bytes
  | .mk key value, buf => encodeValue value (encodeKey key value.fieldType buf)

def encodeFields : List Field → Bytes → Bytes
  | [], buf => buf
  | f :: rest, buf => encodeFields rest (encodeField f buf)

/-- The first `count` objects of an array. -/
def encodeObjects : List Obj → ℕ → Bytes → Bytes
  | [], _, buf => buf
  | _ :: _, 0, buf => buf
  | o :: rest, count + 1, buf => encodeObjects rest count (encodeObjectValue o buf)

def encodeEntry : Entry → Bytes → Bytes
  | .mk key object, buf => encodeObjectValue object (buf ++ Bytes.bytesLE 4 key.toNat)

def encodeEntries : List Entry → Bytes → Bytes
  | [], buf => buf
  | e :: rest, buf => encodeEntries rest (encodeEntry e buf)

end

/-! ## Reading at a pointer

Each read takes the pointer and the end it must not pass, and gives the pointer after it. -/

section

variable (data : Bytes)

def PSCanRead (ptr stop length : ℕ) : Bool := ptr ≤ stop && length ≤ stop - ptr

/-- `memcpy` of `n` bytes out of the data. -/
def copyBytes (ptr n : ℕ) : Option Bytes :=
  if ptr + n ≤ data.length then some ((data.drop ptr).take n) else none

/-- The loop of `PSReadLength` from its `i`-th turn on, with `turns` left. -/
def readLengthFrom (stop : ℕ) : ℕ → ℕ → ℕ → ℕ → Option (ℕ × Option ℕ)
  | 0, _, ptr, _ => some (ptr, none)
  | turns + 1, i, ptr, result =>
    if PSCanRead ptr stop 1 then do
      let byte ← data[ptr]?
      if i = 4 ∧ 16 ≤ byte.toNat then some (ptr + 1, none)
      else
        let result := result ||| (byte.toNat % 128) <<< (7 * i)
        if byte.toNat < 128 then some (ptr + 1, some result)
        else readLengthFrom stop turns (i + 1) (ptr + 1) result
    else some (ptr, none)

def PSReadLength (ptr stop : ℕ) : Option (ℕ × Option ℕ) := readLengthFrom data stop 5 0 ptr 0

/-- A length and then that many bytes, what `PSReadString`, `PSReadData`, `PSReadBytes` and
`PSSkipLengthPrefixed` have in common. -/
def readPrefixed (ptr stop : ℕ) : Option (ℕ × Option Bytes) := do
  let (ptr, length) ← PSReadLength data ptr stop
  match length with
  | none => some (stop, none)
  | some length =>
    if PSCanRead ptr stop length then (copyBytes data ptr length).map fun b => (ptr + length, some b)
    else some (stop, none)

def PSReadString (ptr stop : ℕ) : Option (ℕ × Option NSString) :=
  (readPrefixed data ptr stop).map fun (ptr, b) => (ptr, b.bind stringWithBytes)

def PSReadData (ptr stop : ℕ) : Option (ℕ × Option Bytes) := readPrefixed data ptr stop

/-- `PSReadBytes`: what it copies to the caller's buffer. -/
def PSReadBytes (maxLength ptr stop : ℕ) : Option (ℕ × Bytes) :=
  (readPrefixed data ptr stop).map fun (ptr, b) => (ptr, (b.getD []).take maxLength)

def PSSkipLengthPrefixed (ptr stop : ℕ) : Option (ℕ × Bool) :=
  (readPrefixed data ptr stop).map fun (ptr, b) => (ptr, b.isSome)

/-- `n` bytes as a number, what the reads of fixed size have in common. -/
def readFixed (n ptr stop : ℕ) : Option (ℕ × Option ℕ) :=
  if PSCanRead ptr stop n then (copyBytes data ptr n).map fun b => (ptr + n, some (littleEndian b))
  else some (stop, none)

def PSReadInt32 (ptr stop : ℕ) : Option (ℕ × Option (BitVec 32)) :=
  (readFixed data 4 ptr stop).map fun (ptr, n) => (ptr, n.map (BitVec.ofNat 32))

def PSReadUInt32 (ptr stop : ℕ) : Option (ℕ × Option ℕ) := readFixed data 4 ptr stop

def PSReadInt64 (ptr stop : ℕ) : Option (ℕ × Option (BitVec 64)) :=
  (readFixed data 8 ptr stop).map fun (ptr, n) => (ptr, n.map (BitVec.ofNat 64))

/-- `PSReadDouble`: the bits of the number. -/
def PSReadDouble (ptr stop : ℕ) : Option (ℕ × Option (BitVec 64)) := PSReadInt64 data ptr stop

def PSSkipBytes (ptr stop length : ℕ) : ℕ × Bool :=
  if PSCanRead ptr stop length then (ptr + length, true) else (stop, false)

/-- The 32-bit size in front of an object, an array or a dictionary, where that many bytes
follow it. -/
def readSize (ptr stop : ℕ) : Option (ℕ × Option ℕ) := do
  let (ptr, size) ← PSReadUInt32 data ptr stop
  match size with
  | none => some (stop, none)
  | some size => if PSCanRead ptr stop size then some (ptr, some size) else some (stop, none)

def PSSkipSizedObject (ptr stop : ℕ) : Option (ℕ × Bool) :=
  (readSize data ptr stop).map fun (ptr, size) => (ptr + size.getD 0, size.isSome)

def PSSkipValue (type : Option FieldType) (ptr stop : ℕ) : Option (ℕ × Bool) :=
  match type with
  | some .string | some .data => PSSkipLengthPrefixed data ptr stop
  | some .int32 => some (PSSkipBytes ptr stop 4)
  | some .int64 | some .double => some (PSSkipBytes ptr stop 8)
  | some .customClass | some .array | some .int32Dictionary => PSSkipSizedObject data ptr stop
  | some .int32Array => do
    let (ptr, count) ← PSReadInt32 data ptr stop
    match count with
    | none => some (ptr, false)
    -- 4 * count fits an NSUInteger, so the source's check of the product never fails
    | some count =>
      if count.toInt < 0 then some (ptr, false) else some (PSSkipBytes ptr stop (count.toNat * 4))
  | none => some (stop, false)

def PSSkipField (ptr stop : ℕ) : Option (ℕ × Bool) :=
  if PSCanRead ptr stop 1 then do
    let fieldType ← data[ptr]?
    PSSkipValue data (FieldType.ofByte fieldType) (ptr + 1) stop
  else some (stop, false)

/-- One pass of `PSSkipToValueForRawKey`: `some found` where it returns, `none` where it leaves
the loop. `fuel` bounds the turns. -/
def scan (key : Bytes) (scanEnd : ℕ) : ℕ → ℕ → Option (ℕ × Option Bool)
  | 0, ptr => if ptr < scanEnd then none else some (ptr, none)
  | fuel + 1, ptr =>
    if ptr < scanEnd then do
      let (ptr, length) ← PSReadLength data ptr scanEnd
      match length with
      | none => some (scanEnd, none)
      | some length =>
        if PSCanRead ptr scanEnd length then do
          let here ← copyBytes data ptr length
          if length = key.length ∧ here = key then
            some (ptr + length, some (PSCanRead (ptr + length) scanEnd 1))
          else do
            let (ptr, skipped) ← PSSkipField data (ptr + length) scanEnd
            if skipped then scan key scanEnd fuel ptr else some (ptr, none)
        else some (scanEnd, none)
    else some (ptr, none)

end

/-! ## The decoder -/

/-- A decoder over a part of the data. -/
structure Decoder where
  first : ℕ
  stop : ℕ
  currentPtr : ℕ

/-- A decode method and its arguments. -/
inductive Call
  | string (key : Key)
  | int32 (key : Key)
  | int64 (key : Key)
  | object (key : Key)
  | array (key : Key)
  | data (key : Key)
  | bytes (key : Key) (length : ℕ)
  | int32Array (key : Key)
  | int32Dictionary (key : Key)
  | double (key : Key)
  | objectsByKeys

/-- What a decode returns: `none` stands for nil. -/
inductive Result
  | string (s : Option NSString)
  | int32 (n : BitVec 32)
  | int64 (n : BitVec 64)
  | object (o : Option Obj)
  | array (os : Option (List Obj))
  | data (b : Option Bytes)
  | bytes (b : Bytes)
  | int32Array (ns : Option (List (BitVec 32)))
  | int32Dictionary (entries : Option (List Entry))
  | double (bits : BitVec 64)
  | objectsByKeys (objects : List (NSString × Obj))

/-- An `initWithKeyValueCoder:`, as the decode calls it makes and the object it ends with. -/
inductive Init
  | done (object : Option Obj)
  | decode (call : Call) (next : Result → Init)

/-- What the decoder uses of the system: the classes by name, and the conversions between numbers
and strings, taken where a field of one kind is read as another. -/
structure Foundation where
  getClass : Bytes → Option Init
  intValue : NSString → BitVec 32
  longLongValue : NSString → BitVec 64
  doubleValue : NSString → BitVec 64
  doubleOfInt32 : BitVec 32 → BitVec 64
  doubleOfInt64 : BitVec 64 → BitVec 64

/-- `initWithFormat:` of a signed number in decimal. -/
def formatInt (n : ℤ) : NSString := toUtf16 (toString n).toList

def setEntry (key : BitVec 32) (object : Obj) : List Entry → List Entry
  | [] => [.mk key object]
  | e :: rest =>
    if e.key = key then .mk key object :: rest else e :: setEntry key object rest

def setObject (key : NSString) (object : Obj) : List (NSString × Obj) → List (NSString × Obj)
  | [] => [(key, object)]
  | e :: rest => if e.1 = key then (key, object) :: rest else e :: setObject key object rest

/-- How an object's own decoder answers a call; the nesting below it is in here. -/
abbrev Sub := Decoder → Call → Option (Decoder × Result)

def Init.run (sub : Sub) : Init → Decoder → Option (Option Obj)
  | .done object, _ => some object
  | .decode call next, d => do
    let (d, result) ← sub d call
    (next result).run sub d

section

variable (F : Foundation) (sub : Sub) (data : Bytes)

/-- `PSReadObject`: whether it succeeds, and the object. -/
def PSReadObject (ptr stop : ℕ) : Option (ℕ × Bool × Option Obj) := do
  let (ptr, objectLength) ← readSize data ptr stop
  match objectLength with
  | none => some (stop, false, none)
  | some objectLength =>
    let objectEnd := ptr + objectLength
    let content ← copyBytes data ptr objectLength
    match content.findIdx? (· == 0) with
    | none => some (objectEnd, false, none)
    | some nul =>
      match F.getClass (content.take nul) with
      | none => some (objectEnd, true, none)
      | some init =>
        let begin := ptr + nul + 1
        let object ← init.run sub ⟨begin, objectEnd, begin⟩
        some (objectEnd, true, object)

/-- The loop of `PSReadArray`. -/
def readObjects (objectEnd : ℕ) : ℕ → ℕ → List Obj → Option (List Obj)
  | 0, _, array => some array
  | count + 1, ptr, array =>
    if objectEnd ≤ ptr then some array
    else do
      let (ptr, ok, value) ← PSReadObject F sub data ptr objectEnd
      if ok then readObjects objectEnd count ptr (array ++ value.toList) else some array

def PSReadArray (ptr stop : ℕ) : Option (ℕ × Option (List Obj)) := do
  let (ptr, objectLength) ← readSize data ptr stop
  match objectLength with
  | none => some (stop, none)
  | some objectLength =>
    let objectEnd := ptr + objectLength
    let (ptr, count) ← PSReadLength data ptr objectEnd
    match count with
    | none => some (objectEnd, none)
    | some count =>
      (readObjects F sub data objectEnd count ptr []).map fun array => (objectEnd, some array)

/-- The loop of `PSReadInt32Dictionary`. -/
def readEntries (objectEnd : ℕ) : ℕ → ℕ → List Entry → Option (List Entry)
  | 0, _, dict => some dict
  | count + 1, ptr, dict => do
    let (ptr, key) ← PSReadInt32 data ptr objectEnd
    match key with
    | none => some dict
    | some key =>
      let (ptr, ok, value) ← PSReadObject F sub data ptr objectEnd
      if ok then
        readEntries objectEnd count ptr (value.elim dict fun o => setEntry key o dict)
      else some dict

def PSReadInt32Dictionary (ptr stop : ℕ) : Option (ℕ × Option (List Entry)) := do
  let (ptr, objectLength) ← readSize data ptr stop
  match objectLength with
  | none => some (stop, none)
  | some objectLength =>
    let objectEnd := ptr + objectLength
    let (ptr, count) ← PSReadLength data ptr objectEnd
    match count with
    | none => some (objectEnd, none)
    | some count =>
      (readEntries F sub data objectEnd count ptr []).map fun dict => (objectEnd, some dict)

/-- The loop of `decodeInt32ArrayForCKey:`, where `none` inside stands for its `return nil`. -/
def readInt32s (stop : ℕ) : ℕ → ℕ → List (BitVec 32) → Option (ℕ × Option (List (BitVec 32)))
  | 0, ptr, array => some (ptr, some array)
  | count + 1, ptr, array => do
    let (ptr, value) ← PSReadInt32 data ptr stop
    match value with
    | none => some (ptr, none)
    | some value => readInt32s stop count ptr (array ++ [value])

def readInt32Array (ptr stop : ℕ) : Option (ℕ × Option (List (BitVec 32))) := do
  let (ptr, count) ← PSReadInt32 data ptr stop
  match count with
  | none => some (stop, none)
  | some count =>
    if count.toInt < 0 ∨ (stop - ptr) / 4 < count.toNat then some (stop, none)
    else readInt32s data stop count.toNat ptr []

/-- A NULL begin has no bytes to scan, so the source's test for it needs no branch here. -/
def PSSkipToValueForRawKey (d : Decoder) (key : Option Bytes) : Option (Decoder × Bool) :=
  match key with
  | none => some (d, false)
  | some key => do
    let middlePtr := if d.currentPtr < d.first ∨ d.stop < d.currentPtr then d.first else d.currentPtr
    let (ptr, found) ← scan data key d.stop (d.stop - d.currentPtr) d.currentPtr
    match found with
    | some found => some ({ d with currentPtr := ptr }, found)
    | none =>
      let (ptr, found) ← scan data key middlePtr (middlePtr - d.first) d.first
      some ({ d with currentPtr := ptr }, found.getD false)

/-- What the decode methods of one key have in common: find the key, read the type, and go on by
the type. -/
def decodeForKey (d : Decoder) (key : Key) (absent : Result)
    (read : Option FieldType → ℕ → ℕ → Option (ℕ × Result)) : Option (Decoder × Result) := do
  let (d, found) ← PSSkipToValueForRawKey data d key.pointer
  if found && PSCanRead d.currentPtr d.stop 1 then
    let type ← data[d.currentPtr]?
    let (ptr, result) ← read (FieldType.ofByte type) (d.currentPtr + 1) d.stop
    some ({ d with currentPtr := ptr }, result)
  else some (d, absent)

/-- A value of a kind the method does not read: skipped, whether that succeeds or not. -/
def skipAs (result : Result) (type : Option FieldType) (ptr stop : ℕ) : Option (ℕ × Result) :=
  (PSSkipValue data type ptr stop).map fun (ptr, _) => (ptr, result)

def readAsString (type : Option FieldType) (ptr stop : ℕ) : Option (ℕ × Result) :=
  match type with
  | some .string => (PSReadString data ptr stop).map fun (ptr, s) => (ptr, .string s)
  | some .int32 =>
    (PSReadInt32 data ptr stop).map fun (ptr, n) => (ptr, .string (n.map (formatInt ·.toInt)))
  | some .int64 =>
    (PSReadInt64 data ptr stop).map fun (ptr, n) => (ptr, .string (n.map (formatInt ·.toInt)))
  | type => skipAs data (.string none) type ptr stop

def readAsInt32 (type : Option FieldType) (ptr stop : ℕ) : Option (ℕ × Result) :=
  match type with
  | some .int32 => (PSReadInt32 data ptr stop).map fun (ptr, n) => (ptr, .int32 (n.getD 0))
  | some .int64 =>
    (PSReadInt64 data ptr stop).map fun (ptr, n) => (ptr, .int32 ((n.getD 0).truncate 32))
  | some .string =>
    (PSReadString data ptr stop).map fun (ptr, s) => (ptr, .int32 (s.elim 0 F.intValue))
  | type => skipAs data (.int32 0) type ptr stop

def readAsInt64 (type : Option FieldType) (ptr stop : ℕ) : Option (ℕ × Result) :=
  match type with
  | some .int64 => (PSReadInt64 data ptr stop).map fun (ptr, n) => (ptr, .int64 (n.getD 0))
  | some .int32 =>
    (PSReadInt32 data ptr stop).map fun (ptr, n) => (ptr, .int64 ((n.getD 0).signExtend 64))
  | some .string =>
    (PSReadString data ptr stop).map fun (ptr, s) => (ptr, .int64 (s.elim 0 F.longLongValue))
  | type => skipAs data (.int64 0) type ptr stop

def readAsDouble (type : Option FieldType) (ptr stop : ℕ) : Option (ℕ × Result) :=
  match type with
  | some .double => (PSReadDouble data ptr stop).map fun (ptr, n) => (ptr, .double (n.getD 0))
  | some .int32 =>
    (PSReadInt32 data ptr stop).map fun (ptr, n) => (ptr, .double (n.elim 0 F.doubleOfInt32))
  | some .int64 =>
    (PSReadInt64 data ptr stop).map fun (ptr, n) => (ptr, .double (n.elim 0 F.doubleOfInt64))
  | some .string =>
    (PSReadString data ptr stop).map fun (ptr, s) => (ptr, .double (s.elim 0 F.doubleValue))
  | type => skipAs data (.double 0) type ptr stop

def readAsObject (type : Option FieldType) (ptr stop : ℕ) : Option (ℕ × Result) :=
  match type with
  | some .customClass =>
    (PSReadObject F sub data ptr stop).map fun (ptr, _, o) => (ptr, .object o)
  | type => skipAs data (.object none) type ptr stop

def readAsArray (type : Option FieldType) (ptr stop : ℕ) : Option (ℕ × Result) :=
  match type with
  | some .array => (PSReadArray F sub data ptr stop).map fun (ptr, os) => (ptr, .array os)
  | type => skipAs data (.array none) type ptr stop

def readAsData (type : Option FieldType) (ptr stop : ℕ) : Option (ℕ × Result) :=
  match type with
  | some .data => (PSReadData data ptr stop).map fun (ptr, b) => (ptr, .data b)
  | type => skipAs data (.data none) type ptr stop

def readAsBytes (length : ℕ) (type : Option FieldType) (ptr stop : ℕ) : Option (ℕ × Result) :=
  match type with
  | some .data => (PSReadBytes data length ptr stop).map fun (ptr, b) => (ptr, .bytes b)
  | type => skipAs data (.bytes []) type ptr stop

def readAsInt32Array (type : Option FieldType) (ptr stop : ℕ) : Option (ℕ × Result) :=
  match type with
  | some .int32Array => (readInt32Array data ptr stop).map fun (ptr, ns) => (ptr, .int32Array ns)
  | type => skipAs data (.int32Array none) type ptr stop

def readAsInt32Dictionary (type : Option FieldType) (ptr stop : ℕ) : Option (ℕ × Result) :=
  match type with
  | some .int32Dictionary =>
    (PSReadInt32Dictionary F sub data ptr stop).map fun (ptr, es) => (ptr, .int32Dictionary es)
  | type => skipAs data (.int32Dictionary none) type ptr stop

/-- The loop of `decodeObjectsByKeys`. -/
def readObjectsByKeys (stop : ℕ) : ℕ → ℕ → List (NSString × Obj) → Option (List (NSString × Obj))
  | 0, ptr, dict => if ptr < stop then none else some dict
  | fuel + 1, ptr, dict =>
    if ptr < stop then do
      let (ptr, keyBytes) ← readPrefixed data ptr stop
      match keyBytes.bind stringWithBytes with
      | none => some dict
      | some key =>
        if PSCanRead ptr stop 1 then
          let type ← data[ptr]?
          if FieldType.ofByte type = some .customClass then
            let (ptr, ok, value) ← PSReadObject F sub data (ptr + 1) stop
            if ok then
              readObjectsByKeys stop fuel ptr (value.elim dict fun o => setObject key o dict)
            else some dict
          else
            let (ptr, skipped) ← PSSkipValue data (FieldType.ofByte type) (ptr + 1) stop
            if skipped then readObjectsByKeys stop fuel ptr dict else some dict
        else some dict
    else some dict

def decodeObjectsByKeys (d : Decoder) : Option (Decoder × Result) :=
  (readObjectsByKeys F sub data d.stop (d.stop - d.first) d.first []).map fun dict =>
    ({ d with currentPtr := d.first }, .objectsByKeys dict)

def decodeCall (d : Decoder) : Call → Option (Decoder × Result)
  | .string key => decodeForKey data d key (.string none) (readAsString data)
  | .int32 key => decodeForKey data d key (.int32 0) (readAsInt32 F data)
  | .int64 key => decodeForKey data d key (.int64 0) (readAsInt64 F data)
  | .object key => decodeForKey data d key (.object none) (readAsObject F sub data)
  | .array key => decodeForKey data d key (.array none) (readAsArray F sub data)
  | .data key => decodeForKey data d key (.data none) (readAsData data)
  | .bytes key length => decodeForKey data d key (.bytes []) (readAsBytes data length)
  | .int32Array key => decodeForKey data d key (.int32Array none) (readAsInt32Array data)
  | .int32Dictionary key =>
    decodeForKey data d key (.int32Dictionary none) (readAsInt32Dictionary F sub data)
  | .double key => decodeForKey data d key (.double 0) (readAsDouble F data)
  | .objectsByKeys => decodeObjectsByKeys F sub data d

end

/-- A decode whose objects nest at most `depth` deep. -/
def decode (F : Foundation) (data : Bytes) : ℕ → Decoder → Call → Option (Decoder × Result)
  | 0, _, _ => none
  | depth + 1, d, call => decodeCall F (decode F data depth) data d call

/-- `initWithData:`. -/
def decoderOf (data : Bytes) : Decoder := ⟨0, data.length, 0⟩

/-- The answers to a row of calls on one decoder. Objects nest no deeper than there are bytes. -/
def decodeAll (F : Foundation) (data : Bytes) : Decoder → List Call → Option (List Result)
  | _, [] => some []
  | d, call :: rest => do
    let (d, result) ← decode F data (data.length + 1) d call
    let results ← decodeAll F data d rest
    some (result :: results)

end Onegram.KeyValueCoder
