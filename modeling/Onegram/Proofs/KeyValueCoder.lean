import Onegram.Proofs.KeyValueBounds

/-!
# Decoding gives back what was encoded

A decoder over an encoded row of fields always stands where a field begins (`Row`). The scan for a
key passes whole fields only, since skipping a value passes exactly what encoding wrote for it
(`skipValue_of_sits`), so it finds the field of that key wherever it starts, and a read of it
leaves the cursor where the next field begins. Nested objects are read by their own class through a
decoder over their own row, and an induction on the length of that row gives the whole
(`decode_faithful`).
-/

namespace Onegram.KeyValueCoder

open Utf16
open Bytes (littleEndian littleEndian_bytesLE length_bytesLE)

/-! ## What a decode should answer -/

/-- A call is covered where its key is absent, and where it is a key a decode can look for and the
method is the one for the kind of value at the key. -/
def covered (fields : List Field) (key : Key) (absent : Result) (pick : Value → Option Result) :
    Option Result :=
  match fields.find? (·.key.bytes == key.bytes) with
  | none => some absent
  | some f => if key.pointer = some key.bytes then pick f.value else none

def pickString : Value → Option Result
  | .string s => some (.string (some s))
  | _ => none

def pickInt32 : Value → Option Result
  | .int32 n => some (.int32 n)
  | _ => none

def pickInt64 : Value → Option Result
  | .int64 n => some (.int64 n)
  | _ => none

def pickObject : Value → Option Result
  | .object o => some (.object (some o))
  | _ => none

def pickArray : Value → Option Result
  | .array os => some (.array (some os))
  | _ => none

def pickData : Value → Option Result
  | .data b => some (.data (some b))
  | _ => none

def pickBytes (length : ℕ) : Value → Option Result
  | .data b => some (.bytes (b.take length))
  | _ => none

def pickInt32Array : Value → Option Result
  | .int32Array ns => some (.int32Array (some ns))
  | _ => none

def pickInt32Dictionary : Value → Option Result
  | .int32Dictionary entries => some (.int32Dictionary (some entries))
  | _ => none

def pickDouble : Value → Option Result
  | .double bits => some (.double bits)
  | _ => none

/-- The objects of a row under their keys, where every key is a string. -/
def objectsOf : List Field → List (NSString × Obj) → Option (List (NSString × Obj))
  | [], dict => some dict
  | .mk key value :: rest, dict =>
    match stringWithBytes key.bytes, value with
    | none, _ => none
    | some name, .object o => objectsOf rest (setObject name o dict)
    | some _, _ => objectsOf rest dict

/-- The value encoded for a key where the method is the one for it, the default where there is
none; `none` where neither is asked for. -/
def answer (fields : List Field) : Call → Option Result
  | .string key => covered fields key (.string none) pickString
  | .int32 key => covered fields key (.int32 0) pickInt32
  | .int64 key => covered fields key (.int64 0) pickInt64
  | .object key => covered fields key (.object none) pickObject
  | .array key => covered fields key (.array none) pickArray
  | .data key => covered fields key (.data none) pickData
  | .bytes key length => covered fields key (.bytes []) (pickBytes length)
  | .int32Array key => covered fields key (.int32Array none) pickInt32Array
  | .int32Dictionary key => covered fields key (.int32Dictionary none) pickInt32Dictionary
  | .double key => covered fields key (.double 0) pickDouble
  | .objectsByKeys => (objectsOf fields []).map .objectsByKeys

/-- An initializer that ends with `o` on every coder that answers for `fields` as it should. -/
inductive Init.Reads (fields : List Field) (o : Obj) : Init → Prop
  | done : Init.Reads fields o (.done (some o))
  | decode {call : Call} {next : Result → Init}
      (h : ∀ result, (∀ e, answer fields call = some e → result = e) →
        Init.Reads fields o (next result)) :
      Init.Reads fields o (.decode call next)

mutual

/-- A value the coder gives back: its strings have no unpaired surrogate, its arrays fewer than 2^32
objects, a dictionary has each key once, and objects are of classes that read back what they
write. -/
inductive Value.Valid (F : Foundation) : Value → Prop
  | string {s : NSString} (h : (ofUtf16 s).isSome) : Value.Valid F (.string s)
  | int32 (n : BitVec 32) : Value.Valid F (.int32 n)
  | int64 (n : BitVec 64) : Value.Valid F (.int64 n)
  | object {o : Obj} (h : Obj.Valid F o) : Value.Valid F (.object o)
  | array {os : List Obj} (hlen : os.length < 2 ^ 32) (h : ∀ o ∈ os, Obj.Valid F o) :
      Value.Valid F (.array os)
  | data (b : Bytes) : Value.Valid F (.data b)
  | int32Array (ns : List (BitVec 32)) : Value.Valid F (.int32Array ns)
  | int32Dictionary {entries : List Entry} (hkeys : (entries.map Entry.key).Nodup)
      (h : ∀ e ∈ entries, Obj.Valid F e.object) : Value.Valid F (.int32Dictionary entries)
  | double (bits : BitVec 64) : Value.Valid F (.double bits)

inductive Obj.Valid (F : Foundation) : Obj → Prop
  | mk {className : Bytes} {fields : List Field} {init : Init} (hname : 0 ∉ className)
      (hclass : F.getClass className = some init)
      (hinit : init.Reads fields (.mk className fields))
      (hkeys : (fields.map (·.key.bytes)).Nodup)
      (hpointer : ∀ f ∈ fields, f.key.pointer = some f.key.bytes)
      (h : ∀ f ∈ fields, Value.Valid F f.value) : Obj.Valid F (.mk className fields)

end

/-- A row of fields with pairwise distinct keys a decode can look for, and such values. -/
structure FieldsValid (F : Foundation) (fields : List Field) : Prop where
  keys : (fields.map (·.key.bytes)).Nodup
  pointer : ∀ f ∈ fields, f.key.pointer = some f.key.bytes
  values : ∀ f ∈ fields, f.value.Valid F

theorem Obj.Valid.fieldsValid {F : Foundation} {className : Bytes} {fields : List Field}
    (h : Obj.Valid F (.mk className fields)) : FieldsValid F fields := by
  cases h with
  | mk _ _ _ hkeys hpointer h => exact ⟨hkeys, hpointer, h⟩

/-! ## What the encoder appends -/

theorem patchLength_append (buf content : Bytes) :
    patchLength buf.length (buf ++ Bytes.bytesLE 4 0 ++ content) =
      buf ++ Bytes.bytesLE 4 content.length ++ content := by
  have hzero : (Bytes.bytesLE 4 0).length = 4 := rfl
  have htake : (buf ++ Bytes.bytesLE 4 0 ++ content).take buf.length = buf := by simp
  have hdrop : (buf ++ Bytes.bytesLE 4 0 ++ content).drop (buf.length + 4) = content := by
    exact List.drop_left' (by simp [hzero])
  have hlen : (buf ++ Bytes.bytesLE 4 0 ++ content).length - buf.length - 4 = content.length := by
    simp only [List.length_append, hzero]
    omega
  rw [patchLength, htake, hdrop, hlen]

theorem encodeKey_append (key : Key) (type : FieldType) (buf : Bytes) :
    encodeKey key type buf = buf ++ encodeKey key type [] := by
  simp [encodeKey]

mutual

theorem encodeObjectValue_append :
    ∀ (o : Obj) (buf : Bytes), encodeObjectValue o buf = buf ++ encodeObjectValue o []
  | .mk className fields, buf => by
    have h := patchLength_append buf (className ++ [0] ++ encodeFields fields [])
    have h' := patchLength_append [] (className ++ [0] ++ encodeFields fields [])
    rw [encodeObjectValue, encodeObjectValue, encodeFields_append fields,
      encodeFields_append fields ([] ++ _ ++ _ ++ _)]
    simp only [List.append_assoc] at h h' ⊢
    rw [h, h']
    simp

theorem encodeValue_append :
    ∀ (v : Value) (buf : Bytes), encodeValue v buf = buf ++ encodeValue v []
  | .string s, buf => by simp [encodeValue]
  | .int32 n, buf => by simp [encodeValue]
  | .int64 n, buf => by simp [encodeValue]
  | .object o, buf => by rw [encodeValue, encodeValue, encodeObjectValue_append o buf]
  | .array os, buf => by
    have h := patchLength_append buf
      (writeLength os.length ++ encodeObjects os (os.length % 2 ^ 32) [])
    have h' := patchLength_append []
      (writeLength os.length ++ encodeObjects os (os.length % 2 ^ 32) [])
    rw [encodeValue, encodeValue, encodeObjects_append os,
      encodeObjects_append os _ ([] ++ _ ++ _)]
    simp only [List.append_assoc] at h h' ⊢
    rw [h, h']
    simp
  | .data b, buf => by simp [encodeValue]
  | .int32Array ns, buf => by simp [encodeValue]
  | .int32Dictionary entries, buf => by
    have h := patchLength_append buf (writeLength entries.length ++ encodeEntries entries [])
    have h' := patchLength_append [] (writeLength entries.length ++ encodeEntries entries [])
    rw [encodeValue, encodeValue, encodeEntries_append entries,
      encodeEntries_append entries ([] ++ _ ++ _)]
    simp only [List.append_assoc] at h h' ⊢
    rw [h, h']
    simp
  | .double bits, buf => by simp [encodeValue]

theorem encodeField_append :
    ∀ (f : Field) (buf : Bytes), encodeField f buf = buf ++ encodeField f []
  | .mk key value, buf => by
    rw [encodeField, encodeField, encodeValue_append value, encodeKey_append,
      encodeValue_append value (encodeKey _ _ [])]
    simp

theorem encodeFields_append :
    ∀ (fields : List Field) (buf : Bytes), encodeFields fields buf = buf ++ encodeFields fields []
  | [], buf => by simp [encodeFields]
  | f :: rest, buf => by
    rw [encodeFields, encodeFields, encodeFields_append rest, encodeField_append f,
      encodeFields_append rest (encodeField f [])]
    simp

theorem encodeObjects_append :
    ∀ (os : List Obj) (count : ℕ) (buf : Bytes),
      encodeObjects os count buf = buf ++ encodeObjects os count []
  | [], _, buf => by simp [encodeObjects]
  | _ :: _, 0, buf => by simp [encodeObjects]
  | o :: rest, count + 1, buf => by
    rw [encodeObjects, encodeObjects, encodeObjects_append rest, encodeObjectValue_append o,
      encodeObjects_append rest count (encodeObjectValue o [])]
    simp

theorem encodeEntry_append :
    ∀ (e : Entry) (buf : Bytes), encodeEntry e buf = buf ++ encodeEntry e []
  | .mk key object, buf => by
    rw [encodeEntry, encodeEntry, encodeObjectValue_append object,
      encodeObjectValue_append object ([] ++ _)]
    simp

theorem encodeEntries_append :
    ∀ (entries : List Entry) (buf : Bytes),
      encodeEntries entries buf = buf ++ encodeEntries entries []
  | [], buf => by simp [encodeEntries]
  | e :: rest, buf => by
    rw [encodeEntries, encodeEntries, encodeEntries_append rest, encodeEntry_append e,
      encodeEntries_append rest (encodeEntry e [])]
    simp

end

/-- What the encoder writes for a row of fields. -/
def row (fields : List Field) : Bytes := encodeFields fields []

/-- What it writes for the value of a field. -/
def wire (v : Value) : Bytes := encodeValue v []

/-- What stands before the type byte of a field. -/
def keyWire (key : Key) : Bytes := writeLength key.bytes.length ++ key.bytes

theorem row_nil : row [] = [] := rfl

theorem encodeField_nil (f : Field) :
    encodeField f [] = keyWire f.key ++ f.value.fieldType.byte :: wire f.value := by
  obtain ⟨key, value⟩ := f
  rw [encodeField, encodeValue_append, encodeKey]
  simp [keyWire, wire, Field.key, Field.value]

theorem row_cons (f : Field) (rest : List Field) :
    row (f :: rest) = keyWire f.key ++ f.value.fieldType.byte :: wire f.value ++ row rest := by
  rw [row, encodeFields, encodeFields_append, encodeField_nil]
  rfl

theorem row_append : ∀ a b : List Field, row (a ++ b) = row a ++ row b
  | [], b => rfl
  | f :: a, b => by
    rw [List.cons_append, row_cons, row_cons, row_append a b]
    simp

theorem encodeObjectValue_nil (className : Bytes) (fields : List Field) :
    encodeObjectValue (.mk className fields) [] =
      Bytes.bytesLE 4 (className ++ 0 :: row fields).length ++ (className ++ 0 :: row fields) := by
  have h := patchLength_append [] (className ++ 0 :: row fields)
  rw [encodeObjectValue, encodeFields_append]
  simpa [row] using h

theorem wire_array (os : List Obj) :
    wire (.array os) =
      Bytes.bytesLE 4 (writeLength os.length ++ encodeObjects os (os.length % 2 ^ 32) []).length ++
        (writeLength os.length ++ encodeObjects os (os.length % 2 ^ 32) []) := by
  have h := patchLength_append []
    (writeLength os.length ++ encodeObjects os (os.length % 2 ^ 32) [])
  rw [wire, encodeValue, encodeObjects_append]
  simpa using h

theorem wire_int32Dictionary (entries : List Entry) :
    wire (.int32Dictionary entries) =
      Bytes.bytesLE 4 (writeLength entries.length ++ encodeEntries entries []).length ++
        (writeLength entries.length ++ encodeEntries entries []) := by
  have h := patchLength_append [] (writeLength entries.length ++ encodeEntries entries [])
  rw [wire, encodeValue, encodeEntries_append]
  simpa using h

/-! ## Bytes at a place in the data -/

/-- The bytes stand in the data from `ptr` on. -/
def Sits (data : Bytes) (ptr : ℕ) (b : Bytes) : Prop :=
  ptr + b.length ≤ data.length ∧ (data.drop ptr).take b.length = b

variable {data : Bytes}

theorem Sits.left {ptr : ℕ} {a b : Bytes} (h : Sits data ptr (a ++ b)) : Sits data ptr a := by
  obtain ⟨hlen, h⟩ := h
  rw [List.length_append] at hlen
  refine ⟨by omega, ?_⟩
  have := congrArg (List.take a.length) h
  rwa [List.take_take, List.length_append, min_eq_left (by omega), List.take_left] at this

theorem Sits.right {ptr : ℕ} {a b : Bytes} (h : Sits data ptr (a ++ b)) :
    Sits data (ptr + a.length) b := by
  obtain ⟨hlen, h⟩ := h
  rw [List.length_append] at hlen
  refine ⟨by omega, ?_⟩
  have := congrArg (List.drop a.length) h
  rwa [List.drop_left, List.drop_take, List.drop_drop, List.length_append,
    Nat.add_sub_cancel_left] at this

theorem Sits.copyBytes {ptr : ℕ} {b : Bytes} (h : Sits data ptr b) :
    copyBytes data ptr b.length = some b := by
  rw [copyBytes_of_le h.1, h.2]

theorem Sits.head {ptr : ℕ} {x : UInt8} {b : Bytes} (h : Sits data ptr (x :: b)) :
    data[ptr]? = some x := by
  obtain ⟨hlen, h⟩ := h
  rw [List.length_cons] at hlen
  have := congrArg (·[0]?) h
  simpa [List.getElem?_take] using this

theorem sits_self (data : Bytes) : Sits data 0 data := ⟨by simp, by simp⟩

/-! ## Numbers -/

theorem readFixed_of_sits {k ptr stop n : ℕ} (h : Sits data ptr (Bytes.bytesLE k n))
    (hs : ptr + k ≤ stop) : readFixed data k ptr stop = some (ptr + k, some (n % 256 ^ k)) := by
  have hc := h.copyBytes
  rw [length_bytesLE] at hc
  rw [readFixed, if_pos (canRead_iff.2 hs), hc, Option.map_some, littleEndian_bytesLE]

theorem readInt32_of_sits {ptr stop : ℕ} {n : BitVec 32}
    (h : Sits data ptr (Bytes.bytesLE 4 n.toNat)) (hs : ptr + 4 ≤ stop) :
    PSReadInt32 data ptr stop = some (ptr + 4, some n) := by
  rw [PSReadInt32, readFixed_of_sits h hs,
    Nat.mod_eq_of_lt (lt_of_lt_of_le n.isLt (by norm_num))]
  simp

theorem readInt64_of_sits {ptr stop : ℕ} {n : BitVec 64}
    (h : Sits data ptr (Bytes.bytesLE 8 n.toNat)) (hs : ptr + 8 ≤ stop) :
    PSReadInt64 data ptr stop = some (ptr + 8, some n) := by
  rw [PSReadInt64, readFixed_of_sits h hs,
    Nat.mod_eq_of_lt (lt_of_lt_of_le n.isLt (by norm_num))]
  simp

/-- Seven bits more of a length. -/
theorem or_shift_seven {acc value i : ℕ} (hacc : acc < 2 ^ (7 * i)) :
    acc ||| value <<< (7 * i) = acc + value * 2 ^ (7 * i) := by
  rw [Nat.or_comm, ← Nat.shiftLeft_add_eq_or_of_lt hacc, Nat.shiftLeft_eq, Nat.add_comm]

theorem readLengthFrom_last {stop ptr turns i acc value : ℕ} (hacc : acc < 2 ^ (7 * i))
    (hv : value < 128) (hi : i = 4 → value < 16) (h : Sits data ptr [UInt8.ofNat (value % 128)])
    (hs : ptr + 1 ≤ stop) :
    readLengthFrom data stop (turns + 1) i ptr acc =
      some (ptr + 1, some (acc + value * 2 ^ (7 * i))) := by
  have hbyte : (UInt8.ofNat (value % 128)).toNat = value := by
    rw [UInt8.toNat_ofNat']
    omega
  rw [readLengthFrom, if_pos (canRead_iff.2 hs), h.head]
  simp only [Option.bind_eq_bind, Option.bind_some, hbyte]
  rw [if_neg (by omega), if_pos hv, Nat.mod_eq_of_lt hv, or_shift_seven hacc]

theorem readLengthFrom_more {stop ptr turns i acc value : ℕ} {rest : Bytes}
    (hacc : acc < 2 ^ (7 * i)) (hi : i ≠ 4)
    (h : Sits data ptr (UInt8.ofNat (value % 128 + 128) :: rest)) (hs : ptr + 1 ≤ stop) :
    readLengthFrom data stop (turns + 1) i ptr acc =
      readLengthFrom data stop turns (i + 1) (ptr + 1) (acc + value % 128 * 2 ^ (7 * i)) := by
  have hbyte : (UInt8.ofNat (value % 128 + 128)).toNat = value % 128 + 128 := by
    rw [UInt8.toNat_ofNat']
    omega
  rw [readLengthFrom, if_pos (canRead_iff.2 hs), h.head]
  simp only [Option.bind_eq_bind, Option.bind_some, hbyte]
  rw [if_neg (by omega), if_neg (by omega), show (value % 128 + 128) % 128 = value % 128 by omega,
    or_shift_seven hacc]

/-- The turns of the reader that are left follow the bytes of the writer that are left. -/
theorem readLengthFrom_of_sits {stop : ℕ} :
    ∀ (k : ℕ) {i ptr acc value : ℕ}, i + k = 4 → acc < 2 ^ (7 * i) → value < 2 ^ (7 * k + 4) →
      Sits data ptr (lengthBytes k value) → ptr + (lengthBytes k value).length ≤ stop →
      readLengthFrom data stop (k + 1) i ptr acc =
        some (ptr + (lengthBytes k value).length, some (acc + value * 2 ^ (7 * i)))
  | 0, i, ptr, acc, value, hi, hacc, hv, h, hs =>
    readLengthFrom_last hacc (lt_of_lt_of_le hv (by norm_num)) (fun _ => by simpa using hv) h hs
  | k + 1, i, ptr, acc, value, hi, hacc, hv, h, hs => by
    rw [lengthBytes] at h hs ⊢
    split_ifs at h hs ⊢ with hbig
    · rw [List.length_cons] at hs
      have hpow : 2 ^ (7 * (i + 1)) = 128 * 2 ^ (7 * i) := by
        rw [show 7 * (i + 1) = 7 + 7 * i by ring, pow_add]
        rfl
      have hacc' : acc + value % 128 * 2 ^ (7 * i) < 2 ^ (7 * (i + 1)) := by
        rw [hpow]
        have := Nat.mul_le_mul_right (2 ^ (7 * i)) (by omega : value % 128 + 1 ≤ 128)
        rw [Nat.add_mul] at this
        omega
      have hv' : value / 128 < 2 ^ (7 * k + 4) := by
        rw [show 7 * (k + 1) + 4 = 7 + (7 * k + 4) by ring, pow_add] at hv
        exact Nat.div_lt_of_lt_mul hv
      have hrest : Sits data (ptr + 1) (lengthBytes k (value / 128)) := Sits.right (a := [_]) h
      rw [readLengthFrom_more hacc (by omega) h (by omega),
        readLengthFrom_of_sits k (by omega) hacc' hv' hrest (by omega), List.length_cons, hpow]
      have hsplit : value * 2 ^ (7 * i) =
          value / 128 * (128 * 2 ^ (7 * i)) + value % 128 * 2 ^ (7 * i) := by
        rw [← mul_assoc, ← Nat.add_mul, Nat.mul_comm (value / 128), Nat.div_add_mod]
      simp only [Option.some.injEq, Prod.mk.injEq]
      omega
    · exact readLengthFrom_last hacc (by omega) (by omega) h hs

theorem readLength_of_sits {ptr stop n : ℕ} (hn : n < 2 ^ 32) (h : Sits data ptr (writeLength n))
    (hs : ptr + (writeLength n).length ≤ stop) :
    PSReadLength data ptr stop = some (ptr + (writeLength n).length, some n) := by
  rw [writeLength, Nat.mod_eq_of_lt hn] at h hs ⊢
  have := readLengthFrom_of_sits 4 (i := 0) (by norm_num) (by norm_num : 0 < 2 ^ (7 * 0)) hn h hs
  simpa [PSReadLength] using this

theorem readPrefixed_of_sits {ptr stop : ℕ} {b : Bytes} (hn : b.length < 2 ^ 32)
    (h : Sits data ptr (writeLength b.length ++ b))
    (hs : ptr + (writeLength b.length ++ b).length ≤ stop) :
    readPrefixed data ptr stop = some (ptr + (writeLength b.length ++ b).length, some b) := by
  rw [List.length_append] at hs
  rw [readPrefixed, readLength_of_sits hn h.left (by omega)]
  simp only [Option.bind_eq_bind, Option.bind_some]
  rw [if_pos (canRead_iff.2 (by omega)), h.right.copyBytes, List.length_append]
  simp [Nat.add_assoc]

theorem readSize_of_sits {ptr stop : ℕ} {content : Bytes} (hn : content.length < 2 ^ 32)
    (h : Sits data ptr (Bytes.bytesLE 4 content.length ++ content))
    (hs : ptr + (4 + content.length) ≤ stop) :
    readSize data ptr stop = some (ptr + 4, some content.length) := by
  rw [readSize, PSReadUInt32, readFixed_of_sits h.left (by omega),
    Nat.mod_eq_of_lt (lt_of_lt_of_le hn (by norm_num))]
  simp only [Option.bind_eq_bind, Option.bind_some]
  rw [if_pos (canRead_iff.2 (by omega))]

/-! ## Values -/

theorem stringWithBytes_utf8Data {s : NSString} (h : (ofUtf16 s).isSome) :
    stringWithBytes ((utf8Data s).getD []) = some s := by
  obtain ⟨cs, hcs⟩ := Option.isSome_iff_exists.1 h
  have harray : ByteArray.mk (cs.flatMap String.utf8EncodeChar).toArray = cs.utf8Encode := by
    apply ByteArray.ext
    rw [List.utf8Encode, List.data_toByteArray]
  rw [utf8Data, hcs, Option.map_some, Option.getD_some, stringWithBytes, harray,
    List.utf8Decode?_utf8Encode]
  simp [toUtf16_of_ofUtf16 hcs]

theorem ofByte_byte (type : FieldType) : FieldType.ofByte type.byte = some type := by
  cases type <;> rfl

theorem skipBytes_of_le {ptr stop n : ℕ} (h : ptr + n ≤ stop) :
    PSSkipBytes ptr stop n = (ptr + n, true) := by
  rw [PSSkipBytes, if_pos (canRead_iff.2 h)]

theorem skipSized_of_sits {ptr stop : ℕ} {content : Bytes} (hn : content.length < 2 ^ 32)
    (h : Sits data ptr (Bytes.bytesLE 4 content.length ++ content))
    (hs : ptr + (4 + content.length) ≤ stop) :
    PSSkipSizedObject data ptr stop = some (ptr + (4 + content.length), true) := by
  rw [PSSkipSizedObject, readSize_of_sits hn h hs]
  simp [Nat.add_assoc]

theorem toNat_count {n : ℕ} (h : 4 + 4 * n < 2 ^ 32) :
    (BitVec.ofNat 32 n).toNat = n ∧ ¬ (BitVec.ofNat 32 n).toInt < 0 := by
  have hn : (BitVec.ofNat 32 n).toNat = n := by
    rw [BitVec.toNat_ofNat]
    omega
  refine ⟨hn, ?_⟩
  rw [BitVec.toInt_eq_toNat_of_lt (by omega)]
  omega

/-- The count in front of an `int32` array, and the room it takes. -/
theorem readCount_of_sits {ptr stop : ℕ} {ns : List (BitVec 32)}
    (hn : (wire (.int32Array ns)).length < 2 ^ 32) (h : Sits data ptr (wire (.int32Array ns)))
    (hs : ptr + (wire (.int32Array ns)).length ≤ stop) :
    (wire (.int32Array ns)).length = 4 + 4 * ns.length ∧
      PSReadInt32 data ptr stop = some (ptr + 4, some (BitVec.ofNat 32 ns.length)) ∧
      Sits data (ptr + 4) (ns.flatMap fun n => Bytes.bytesLE 4 n.toNat) := by
  have hlen : (wire (.int32Array ns)).length = 4 + 4 * ns.length := by
    simp [wire, encodeValue, Nat.mul_comm]
  rw [hlen] at hn hs
  simp only [wire, encodeValue, List.nil_append] at h
  refine ⟨hlen, readInt32_of_sits ?_ (by omega), by simpa using h.right⟩
  rw [(toNat_count hn).1]
  exact h.left

/-- Skipping a value passes what encoding wrote for it. -/
theorem skipValue_of_sits (v : Value) {ptr stop : ℕ} (hn : (wire v).length < 2 ^ 32)
    (h : Sits data ptr (wire v)) (hs : ptr + (wire v).length ≤ stop) :
    PSSkipValue data (some v.fieldType) ptr stop = some (ptr + (wire v).length, true) := by
  have hprefixed : ∀ b : Bytes, wire v = writeLength b.length ++ b →
      PSSkipLengthPrefixed data ptr stop = some (ptr + (wire v).length, true) := by
    intro b hb
    rw [hb] at hn h hs ⊢
    rw [PSSkipLengthPrefixed, readPrefixed_of_sits _ h hs]
    · rfl
    · rw [List.length_append] at hn
      omega
  have hsized : ∀ content : Bytes, wire v = Bytes.bytesLE 4 content.length ++ content →
      PSSkipSizedObject data ptr stop = some (ptr + (wire v).length, true) := by
    intro content hb
    rw [hb] at hn h hs ⊢
    rw [List.length_append, length_bytesLE] at hn hs ⊢
    exact skipSized_of_sits (by omega) h hs
  cases v with
  | string s => exact hprefixed ((utf8Data s).getD []) (by simp [wire, encodeValue])
  | data b => exact hprefixed b (by simp [wire, encodeValue])
  | int32 n =>
    have hlen : (wire (.int32 n)).length = 4 := by simp [wire, encodeValue]
    rw [hlen] at hs ⊢
    exact congrArg some (skipBytes_of_le hs)
  | int64 n =>
    have hlen : (wire (.int64 n)).length = 8 := by simp [wire, encodeValue]
    rw [hlen] at hs ⊢
    exact congrArg some (skipBytes_of_le hs)
  | double n =>
    have hlen : (wire (.double n)).length = 8 := by simp [wire, encodeValue]
    rw [hlen] at hs ⊢
    exact congrArg some (skipBytes_of_le hs)
  | object o =>
    obtain ⟨className, fields⟩ := o
    exact hsized (className ++ 0 :: row fields) (encodeObjectValue_nil className fields)
  | array os => exact hsized _ (wire_array os)
  | int32Dictionary entries => exact hsized _ (wire_int32Dictionary entries)
  | int32Array ns =>
    obtain ⟨hlen, hcount, -⟩ := readCount_of_sits hn h hs
    rw [hlen] at hn hs ⊢
    obtain ⟨hnat, hpos⟩ := toNat_count hn
    simp only [PSSkipValue, Value.fieldType, hcount, Option.bind_eq_bind, Option.bind_some]
    rw [if_neg hpos, hnat, skipBytes_of_le (by omega)]
    simp only [Option.some.injEq, Prod.mk.injEq, and_true]
    omega

/-! ## The scan for a key -/

theorem length_row_cons (f : Field) (rest : List Field) :
    (row (f :: rest)).length =
      (keyWire f.key).length + 1 + (wire f.value).length + (row rest).length := by
  rw [row_cons]
  simp only [List.length_append, List.length_cons]
  omega

/-- What stands where in a row that begins at `ptr`. -/
theorem sits_row_cons {ptr : ℕ} {f : Field} {rest : List Field} (h : Sits data ptr (row (f :: rest))) :
    Sits data ptr (keyWire f.key) ∧
      data[ptr + (keyWire f.key).length]? = some f.value.fieldType.byte ∧
      Sits data (ptr + (keyWire f.key).length + 1) (wire f.value) ∧
      Sits data (ptr + ((keyWire f.key).length + 1 + (wire f.value).length)) (row rest) := by
  rw [row_cons] at h
  have hfield := h.left
  have htail : Sits data (ptr + (keyWire f.key).length + 1) (wire f.value) :=
    Sits.right (a := [_]) hfield.right
  refine ⟨hfield.left, hfield.right.head, htail, ?_⟩
  have hlen : (keyWire f.key ++ f.value.fieldType.byte :: wire f.value).length =
      (keyWire f.key).length + 1 + (wire f.value).length := by
    simp only [List.length_append, List.length_cons]
    omega
  rw [← hlen]
  exact h.right

/-- One turn of the scan, at a field: it is the one looked for, or it is passed. -/
theorem scan_row_cons (key : Bytes) {scanEnd fuel ptr : ℕ} {f : Field} {rest : List Field}
    (h : Sits data ptr (row (f :: rest))) (hn : (row (f :: rest)).length < 2 ^ 32)
    (hs : ptr + (row (f :: rest)).length ≤ scanEnd) :
    scan data key scanEnd (fuel + 1) ptr =
      if f.key.bytes = key then some (ptr + (keyWire f.key).length, some true)
      else scan data key scanEnd fuel
        (ptr + ((keyWire f.key).length + 1 + (wire f.value).length)) := by
  obtain ⟨hkey, htype, hvalue, -⟩ := sits_row_cons h
  have hlen : (keyWire f.key).length = (writeLength f.key.bytes.length).length + f.key.bytes.length :=
    List.length_append
  rw [length_row_cons] at hn hs
  have hread : PSReadLength data ptr scanEnd =
      some (ptr + (writeLength f.key.bytes.length).length, some f.key.bytes.length) :=
    readLength_of_sits (by omega) hkey.left (by omega)
  have hskip : PSSkipField data (ptr + (keyWire f.key).length) scanEnd =
      some (ptr + ((keyWire f.key).length + 1 + (wire f.value).length), true) := by
    rw [PSSkipField, if_pos (canRead_iff.2 (by omega)), htype]
    simp only [Option.bind_eq_bind, Option.bind_some, ofByte_byte]
    rw [skipValue_of_sits f.value (by omega) hvalue (by omega)]
    simp [Nat.add_assoc]
  rw [scan, if_pos (by omega), hread]
  simp only [Option.bind_eq_bind, Option.bind_some]
  rw [if_pos (canRead_iff.2 (by omega)), hkey.right.copyBytes, Option.bind_some]
  have hptr : ptr + (writeLength f.key.bytes.length).length + f.key.bytes.length =
      ptr + (keyWire f.key).length := by omega
  rw [hptr, hskip]
  by_cases hk : f.key.bytes = key
  · rw [if_pos hk, if_pos ⟨by rw [hk], hk⟩, canRead_iff.2 (by omega)]
  · rw [if_neg hk, if_neg fun h => hk h.2]
    rfl

theorem scan_absent {key : Bytes} {scanEnd : ℕ} :
    ∀ {fields : List Field} {fuel ptr : ℕ}, Sits data ptr (row fields) →
      (row fields).length < 2 ^ 32 → ptr + (row fields).length = scanEnd →
      (row fields).length ≤ fuel → (∀ f ∈ fields, f.key.bytes ≠ key) →
      scan data key scanEnd fuel ptr = some (scanEnd, none)
  | [], fuel, ptr, h, hn, hs, hf, hkey => by
    rw [row_nil, List.length_nil, Nat.add_zero] at hs
    subst hs
    cases fuel <;> simp [scan]
  | f :: rest, 0, ptr, h, hn, hs, hf, hkey => by
    rw [length_row_cons] at hf
    omega
  | f :: rest, fuel + 1, ptr, h, hn, hs, hf, hkey => by
    obtain ⟨-, -, -, hrest⟩ := sits_row_cons h
    rw [scan_row_cons key h hn hs.le, if_neg (hkey f List.mem_cons_self)]
    rw [length_row_cons] at hn hs hf
    exact scan_absent hrest (by omega) (by omega) (by omega)
      fun g hg => hkey g (List.mem_cons_of_mem _ hg)

theorem scan_found {key : Bytes} {scanEnd : ℕ} {f : Field} {b : List Field}
    (hf : f.key.bytes = key) :
    ∀ {a : List Field} {fuel ptr : ℕ}, Sits data ptr (row (a ++ f :: b)) →
      (row (a ++ f :: b)).length < 2 ^ 32 → ptr + (row (a ++ f :: b)).length ≤ scanEnd →
      (row (a ++ f :: b)).length ≤ fuel → (∀ g ∈ a, g.key.bytes ≠ key) →
      scan data key scanEnd fuel ptr =
        some (ptr + (row a).length + (keyWire f.key).length, some true)
  | [], 0, ptr, h, hn, hs, hfuel, hkey => by
    rw [List.nil_append, length_row_cons] at hfuel
    omega
  | [], fuel + 1, ptr, h, hn, hs, hfuel, hkey => by
    rw [scan_row_cons key h hn hs, if_pos hf, row_nil, List.length_nil, Nat.add_zero]
  | g :: a, 0, ptr, h, hn, hs, hfuel, hkey => by
    rw [List.cons_append, length_row_cons] at hfuel
    omega
  | g :: a, fuel + 1, ptr, h, hn, hs, hfuel, hkey => by
    rw [List.cons_append] at h hn hs hfuel
    obtain ⟨-, -, -, hrest⟩ := sits_row_cons h
    rw [scan_row_cons key h hn hs, if_neg (hkey g List.mem_cons_self)]
    rw [length_row_cons] at hn hs hfuel
    rw [scan_found hf hrest (by omega) (by omega) (by omega)
      fun x hx => hkey x (List.mem_cons_of_mem _ hx), length_row_cons]
    simp only [Option.some.injEq, Prod.mk.injEq, and_true]
    omega

/-! ## A decoder over a row -/

/-- A decoder over an encoded row, with its cursor where a field begins or at the end. -/
structure Row (data : Bytes) (d : Decoder) (fields : List Field) : Prop where
  stop_eq : d.stop = d.first + (row fields).length
  sits : Sits data d.first (row fields)
  small : (row fields).length < 2 ^ 32
  cursor : ∃ a b, fields = a ++ b ∧ d.currentPtr = d.first + (row a).length

theorem Row.move {d : Decoder} {fields : List Field} (h : Row data d fields) (a : List Field)
    {b : List Field} (hab : fields = a ++ b) :
    Row data { d with currentPtr := d.first + (row a).length } fields :=
  ⟨h.stop_eq, h.sits, h.small, a, b, hab, rfl⟩

/-- The two parts of the row the cursor divides. -/
theorem Row.parts {d : Decoder} {a b : List Field} (h : Row data d (a ++ b))
    (hcur : d.currentPtr = d.first + (row a).length) :
    Sits data d.first (row a) ∧ Sits data d.currentPtr (row b) ∧
      d.currentPtr + (row b).length = d.stop ∧ (row a).length + (row b).length < 2 ^ 32 := by
  have hsits := h.sits
  have hstop := h.stop_eq
  have hsmall := h.small
  rw [row_append, List.length_append] at hstop hsmall
  rw [row_append] at hsits
  refine ⟨hsits.left, hcur ▸ hsits.right, by omega, hsmall⟩

theorem skipTo_absent {d : Decoder} {fields : List Field} (h : Row data d fields) {key : Bytes}
    (hkey : ∀ f ∈ fields, f.key.bytes ≠ key) :
    PSSkipToValueForRawKey data d (some key) = some (d, false) := by
  obtain ⟨a, b, rfl, hcur⟩ := h.cursor
  obtain ⟨ha, hb, hstop, hsmall⟩ := h.parts hcur
  have hfirst : scan data key d.stop (d.stop - d.currentPtr) d.currentPtr = some (d.stop, none) :=
    scan_absent hb (by omega) hstop (by omega) fun f hf => hkey f (List.mem_append_right _ hf)
  have hsecond : scan data key d.currentPtr (d.currentPtr - d.first) d.first =
      some (d.currentPtr, none) :=
    scan_absent ha (by omega) hcur.symm (by omega) fun f hf => hkey f (List.mem_append_left _ hf)
  rw [PSSkipToValueForRawKey, if_neg (by omega)]
  simp only [hfirst, hsecond, Option.bind_eq_bind, Option.bind_some, Option.getD_none]

theorem skipTo_found {d : Decoder} {a b : List Field} {f : Field} (h : Row data d (a ++ f :: b))
    (hnodup : ((a ++ f :: b).map (·.key.bytes)).Nodup) :
    PSSkipToValueForRawKey data d (some f.key.bytes) =
      some ({ d with currentPtr := d.first + (row a).length + (keyWire f.key).length }, true) := by
  rw [List.map_append, List.map_cons, List.nodup_append, List.nodup_cons] at hnodup
  obtain ⟨-, ⟨hfb, -⟩, hdisjoint⟩ := hnodup
  have hkeya : ∀ g ∈ a, g.key.bytes ≠ f.key.bytes := fun g hg =>
    hdisjoint _ (List.mem_map_of_mem hg) _ List.mem_cons_self
  have hkeyb : ∀ g ∈ b, g.key.bytes ≠ f.key.bytes := fun g hg heq =>
    hfb (heq ▸ List.mem_map_of_mem hg)
  obtain ⟨p, q, hpq, hcur⟩ := h.cursor
  have h' := h
  rw [hpq] at h'
  obtain ⟨hp, hq, hstop, hsmall⟩ := h'.parts hcur
  rw [PSSkipToValueForRawKey, if_neg (by omega)]
  -- the field is at or after the cursor, where the first pass finds it, or before it
  rcases List.append_eq_append_iff.1 hpq with ⟨c, rfl, hc⟩ | ⟨c, rfl, rfl⟩
  · rcases c with _ | ⟨g, c⟩
    · obtain rfl : f :: b = q := by simpa using hc
      have hfirst : scan data f.key.bytes d.stop (d.stop - d.currentPtr) d.currentPtr =
          some (d.currentPtr + (row []).length + (keyWire f.key).length, some true) :=
        scan_found rfl hq (by simp only [List.nil_append]; omega)
          (by simp only [List.nil_append]; omega) (by simp only [List.nil_append]; omega) (by simp)
      simp only [hfirst, Option.bind_eq_bind, Option.bind_some, row_nil, List.length_nil]
      simp [hcur]
    · obtain ⟨rfl, rfl⟩ : f = g ∧ b = c ++ q := by simpa using hc
      have hfirst : scan data f.key.bytes d.stop (d.stop - d.currentPtr) d.currentPtr =
          some (d.stop, none) :=
        scan_absent hq (by omega) hstop (by omega) fun g hg =>
          hkeyb g (List.mem_append_right _ hg)
      have hsecond : scan data f.key.bytes d.currentPtr (d.currentPtr - d.first) d.first =
          some (d.first + (row a).length + (keyWire f.key).length, some true) :=
        scan_found rfl hp (by omega) hcur.ge (by omega) hkeya
      simp only [hfirst, hsecond, Option.bind_eq_bind, Option.bind_some, Option.getD_some]
  · have hfirst : scan data f.key.bytes d.stop (d.stop - d.currentPtr) d.currentPtr =
        some (d.currentPtr + (row c).length + (keyWire f.key).length, some true) :=
      scan_found rfl hq (by omega) hstop.le (by omega) fun g hg =>
        hkeya g (List.mem_append_right _ hg)
    simp only [hfirst, Option.bind_eq_bind, Option.bind_some, row_append, List.length_append]
    simp [hcur, Nat.add_assoc]

/-! ## Objects -/

/-- A way to answer calls that answers as it should on every encoded row of fewer than `n` bytes. -/
def FaithfulBelow (F : Foundation) (data : Bytes) (n : ℕ) (sub : Sub) : Prop :=
  ∀ (d : Decoder) (fields : List Field) (call : Call), FieldsValid F fields → Row data d fields →
    d.stop - d.first < n →
    ∃ p result, sub d call = some ({ d with currentPtr := p }, result) ∧
      Row data { d with currentPtr := p } fields ∧ ∀ e, answer fields call = some e → result = e

variable {F : Foundation} {sub : Sub} {n : ℕ}

theorem Init.run_reads (hsub : FaithfulBelow F data n sub) {fields : List Field} {o : Obj}
    (hvalid : FieldsValid F fields) {init : Init} (h : init.Reads fields o) :
    ∀ {d : Decoder}, Row data d fields → d.stop - d.first < n → init.run sub d = some (some o) := by
  induction h with
  | done =>
    intro d _ _
    rfl
  | @decode call next _ ih =>
    intro d hd hn
    obtain ⟨p, result, hr, hd', hanswer⟩ := hsub d fields call hvalid hd hn
    rw [Init.run, hr]
    exact ih result hanswer hd' hn

theorem findIdx_nul {className rest : Bytes} (h : 0 ∉ className) :
    (className ++ 0 :: rest).findIdx? (· == 0) = some className.length := by
  rw [List.findIdx?_append, List.findIdx?_eq_none_iff.2]
  · simp [List.findIdx?_cons]
  · intro x hx
    simpa using fun hzero : x = 0 => h (hzero ▸ hx)

theorem readObject_of_sits (hsub : FaithfulBelow F data n sub) {o : Obj} (ho : o.Valid F)
    {ptr stop : ℕ} (hsmall : (encodeObjectValue o []).length < 2 ^ 32)
    (h : Sits data ptr (encodeObjectValue o []))
    (hs : ptr + (encodeObjectValue o []).length ≤ stop)
    (hn : (encodeObjectValue o []).length ≤ n) :
    PSReadObject F sub data ptr stop =
      some (ptr + (encodeObjectValue o []).length, true, some o) := by
  have hvalid := ho
  cases ho with
  | @mk className fields init hname hclass hinit =>
    rw [encodeObjectValue_nil] at h hs hsmall hn ⊢
    have hlen : (className ++ 0 :: row fields).length =
        className.length + 1 + (row fields).length := by
      simp only [List.length_append, List.length_cons]
      omega
    rw [List.length_append, length_bytesLE] at hs hsmall hn ⊢
    have hcontent : Sits data (ptr + 4) (className ++ 0 :: row fields) := by
      simpa using h.right
    have hrow : Sits data (ptr + 4 + className.length + 1) (row fields) :=
      Sits.right (a := [0]) hcontent.right
    rw [PSReadObject, readSize_of_sits (by omega) h hs]
    simp only [Option.bind_eq_bind, Option.bind_some]
    rw [hcontent.copyBytes]
    simp only [Option.bind_some, findIdx_nul hname, List.take_left, hclass]
    rw [Init.run_reads hsub hvalid.fieldsValid hinit ⟨?_, hrow, by omega, [], fields, rfl, rfl⟩ ?_]
    · simp [Nat.add_assoc]
    · simp only [hlen]
      omega
    · simp only [hlen] at hn ⊢
      omega

theorem five_le_length_object (o : Obj) : 5 ≤ (encodeObjectValue o []).length := by
  obtain ⟨className, fields⟩ := o
  rw [encodeObjectValue_nil]
  simp only [List.length_append, length_bytesLE, List.length_cons]
  omega

theorem encodeObjects_cons (o : Obj) (rest : List Obj) :
    encodeObjects (o :: rest) (o :: rest).length [] =
      encodeObjectValue o [] ++ encodeObjects rest rest.length [] := by
  rw [List.length_cons, encodeObjects, encodeObjects_append]

theorem readObjects_of_sits (hsub : FaithfulBelow F data n sub) {objectEnd : ℕ} :
    ∀ (os : List Obj) {ptr : ℕ} (array : List Obj), (∀ o ∈ os, o.Valid F) →
      (encodeObjects os os.length []).length < 2 ^ 32 →
      Sits data ptr (encodeObjects os os.length []) →
      ptr + (encodeObjects os os.length []).length ≤ objectEnd →
      (encodeObjects os os.length []).length ≤ n →
      readObjects F sub data objectEnd os.length ptr array = some (array ++ os)
  | [], _, array, _, _, _, _, _ => by simp [readObjects]
  | o :: rest, ptr, array, hvalid, hsmall, h, hs, hn => by
    have hfive := five_le_length_object o
    rw [encodeObjects_cons] at hsmall h hs hn
    rw [List.length_append] at hsmall hs hn
    rw [List.length_cons, readObjects, if_neg (by omega),
      readObject_of_sits hsub (hvalid o List.mem_cons_self) (by omega) h.left (by omega) (by omega)]
    simp only [Option.bind_eq_bind, Option.bind_some, if_true, Option.toList_some]
    rw [readObjects_of_sits hsub rest _ (fun x hx => hvalid x (List.mem_cons_of_mem _ hx))
      (by omega) h.right (by omega) (by omega)]
    simp

theorem encodeEntries_cons (e : Entry) (rest : List Entry) :
    encodeEntries (e :: rest) [] =
      Bytes.bytesLE 4 e.key.toNat ++ (encodeObjectValue e.object [] ++ encodeEntries rest []) := by
  obtain ⟨key, object⟩ := e
  rw [encodeEntries, encodeEntries_append, encodeEntry, encodeObjectValue_append]
  simp [Entry.key, Entry.object]

theorem setEntry_of_notMem {key : BitVec 32} {o : Obj} :
    ∀ {dict : List Entry}, key ∉ dict.map Entry.key → setEntry key o dict = dict ++ [.mk key o]
  | [], _ => rfl
  | e :: dict, h => by
    simp only [List.map_cons, List.mem_cons, not_or] at h
    rw [setEntry, if_neg (Ne.symm h.1), setEntry_of_notMem h.2]
    rfl

theorem readEntries_of_sits (hsub : FaithfulBelow F data n sub) {objectEnd : ℕ} :
    ∀ (entries : List Entry) {ptr : ℕ} (dict : List Entry), (∀ e ∈ entries, e.object.Valid F) →
      ((dict ++ entries).map Entry.key).Nodup →
      (encodeEntries entries []).length < 2 ^ 32 → Sits data ptr (encodeEntries entries []) →
      ptr + (encodeEntries entries []).length ≤ objectEnd →
      (encodeEntries entries []).length ≤ n →
      readEntries F sub data objectEnd entries.length ptr dict = some (dict ++ entries)
  | [], _, dict, _, _, _, _, _, _ => by simp [readEntries]
  | e :: rest, ptr, dict, hvalid, hkeys, hsmall, h, hs, hn => by
    rw [encodeEntries_cons] at hsmall h hs hn
    rw [List.length_append, List.length_append, length_bytesLE] at hsmall hs hn
    have hobject : Sits data (ptr + 4) (encodeObjectValue e.object [] ++ encodeEntries rest []) := by
      simpa using h.right
    have hnew : e.key ∉ dict.map Entry.key := by
      rw [List.map_append, List.map_cons, List.nodup_append] at hkeys
      exact fun hmem => hkeys.2.2 _ hmem _ List.mem_cons_self rfl
    rw [List.length_cons, readEntries, readInt32_of_sits h.left (by omega)]
    simp only [Option.bind_eq_bind, Option.bind_some]
    rw [readObject_of_sits hsub (hvalid e List.mem_cons_self) (by omega) hobject.left (by omega)
      (by omega)]
    simp only [Option.bind_some, if_true, Option.elim_some]
    have hmk : Entry.mk e.key e.object = e := by cases e; rfl
    have happend : dict ++ e :: rest = dict ++ [e] ++ rest := by simp
    rw [setEntry_of_notMem hnew, hmk, happend]
    exact readEntries_of_sits hsub rest _ (fun x hx => hvalid x (List.mem_cons_of_mem _ hx))
      (happend ▸ hkeys) (by omega) hobject.right (by omega) (by omega)

theorem readInt32s_of_sits {stop : ℕ} :
    ∀ (ns : List (BitVec 32)) {ptr : ℕ} (array : List (BitVec 32)),
      Sits data ptr (ns.flatMap fun n => Bytes.bytesLE 4 n.toNat) → ptr + 4 * ns.length ≤ stop →
      readInt32s data stop ns.length ptr array = some (ptr + 4 * ns.length, some (array ++ ns))
  | [], _, array, _, _ => by simp [readInt32s]
  | x :: ns, ptr, array, h, hs => by
    rw [List.flatMap_cons] at h
    rw [List.length_cons] at hs ⊢
    have hrest : Sits data (ptr + 4) (ns.flatMap fun n => Bytes.bytesLE 4 n.toNat) := by
      simpa using h.right
    rw [readInt32s, readInt32_of_sits h.left (by omega)]
    simp only [Option.bind_eq_bind, Option.bind_some]
    rw [readInt32s_of_sits ns _ hrest (by omega)]
    simp only [List.append_assoc, List.singleton_append, Option.some.injEq, Prod.mk.injEq, and_true]
    omega

theorem readArray_of_sits (hsub : FaithfulBelow F data n sub) {os : List Obj}
    (ho : (Value.array os).Valid F) {ptr stop : ℕ} (hsmall : (wire (.array os)).length < 2 ^ 32)
    (h : Sits data ptr (wire (.array os))) (hs : ptr + (wire (.array os)).length ≤ stop)
    (hn : (wire (.array os)).length ≤ n) :
    PSReadArray F sub data ptr stop = some (ptr + (wire (.array os)).length, some os) := by
  cases ho with
  | array hlen ho =>
    rw [wire_array, Nat.mod_eq_of_lt hlen] at hsmall h hs hn ⊢
    rw [List.length_append, length_bytesLE] at hsmall hs hn ⊢
    have hcontent : Sits data (ptr + 4)
        (writeLength os.length ++ encodeObjects os os.length []) := by
      simpa using h.right
    rw [PSReadArray, readSize_of_sits (by omega) h hs]
    simp only [Option.bind_eq_bind, Option.bind_some]
    rw [List.length_append] at hsmall hs hn ⊢
    rw [readLength_of_sits hlen hcontent.left (by omega)]
    simp only [Option.bind_some]
    rw [readObjects_of_sits hsub os [] ho (by omega) hcontent.right (by omega) (by omega)]
    simp [Nat.add_assoc]

theorem length_encodeEntries : ∀ entries : List Entry,
    entries.length ≤ (encodeEntries entries []).length
  | [] => by simp
  | e :: rest => by
    have := length_encodeEntries rest
    rw [encodeEntries_cons]
    simp only [List.length_append, List.length_cons, length_bytesLE]
    omega

theorem readInt32Dictionary_of_sits (hsub : FaithfulBelow F data n sub) {entries : List Entry}
    (ho : (Value.int32Dictionary entries).Valid F) {ptr stop : ℕ}
    (hsmall : (wire (.int32Dictionary entries)).length < 2 ^ 32)
    (h : Sits data ptr (wire (.int32Dictionary entries)))
    (hs : ptr + (wire (.int32Dictionary entries)).length ≤ stop)
    (hn : (wire (.int32Dictionary entries)).length ≤ n) :
    PSReadInt32Dictionary F sub data ptr stop =
      some (ptr + (wire (.int32Dictionary entries)).length, some entries) := by
  cases ho with
  | int32Dictionary hkeys ho =>
    have hlen := length_encodeEntries entries
    rw [wire_int32Dictionary] at hsmall h hs hn ⊢
    rw [List.length_append, length_bytesLE] at hsmall hs hn ⊢
    have hcontent : Sits data (ptr + 4)
        (writeLength entries.length ++ encodeEntries entries []) := by
      simpa using h.right
    rw [PSReadInt32Dictionary, readSize_of_sits (by omega) h hs]
    simp only [Option.bind_eq_bind, Option.bind_some]
    rw [List.length_append] at hsmall hs hn ⊢
    rw [readLength_of_sits (by omega) hcontent.left (by omega)]
    simp only [Option.bind_some]
    rw [readEntries_of_sits hsub entries [] ho hkeys (by omega) hcontent.right (by omega)
      (by omega)]
    simp [Nat.add_assoc]

theorem readInt32Array_of_sits {ns : List (BitVec 32)} {ptr stop : ℕ}
    (hsmall : (wire (.int32Array ns)).length < 2 ^ 32) (h : Sits data ptr (wire (.int32Array ns)))
    (hs : ptr + (wire (.int32Array ns)).length ≤ stop) :
    readInt32Array data ptr stop = some (ptr + (wire (.int32Array ns)).length, some ns) := by
  obtain ⟨hlen, hcount, hrest⟩ := readCount_of_sits hsmall h hs
  rw [hlen] at hsmall hs ⊢
  obtain ⟨hnat, hpos⟩ := toNat_count hsmall
  rw [readInt32Array, hcount]
  simp only [Option.bind_eq_bind, Option.bind_some]
  rw [hnat, if_neg (by omega), readInt32s_of_sits ns [] hrest (by omega)]
  simp [Nat.add_assoc]

/-! ## The decode methods -/

/-- What a method does once it has found a value: it passes the value, and gives what is picked of
it where the method is the one for its kind. -/
def Gives (v : Value) (ptr : ℕ) (pick : Value → Option Result) (r : Option (ℕ × Result)) : Prop :=
  ∃ result, r = some (ptr + (wire v).length, result) ∧ ∀ e, pick v = some e → result = e

theorem gives_skipAs {v : Value} {ptr stop : ℕ} (hsmall : (wire v).length < 2 ^ 32)
    (h : Sits data ptr (wire v)) (hs : ptr + (wire v).length ≤ stop) (result : Result)
    {pick : Value → Option Result} (hpick : pick v = none) :
    Gives v ptr pick (skipAs data result (some v.fieldType) ptr stop) := by
  refine ⟨result, ?_, fun e he => by simp [hpick] at he⟩
  rw [skipAs, skipValue_of_sits v hsmall h hs]
  rfl

/-- A value of a kind the method reads. -/
theorem gives_of_eq {α : Type} {v : Value} {ptr : ℕ} {x : α} {r : Option (ℕ × Option α)}
    {read : Option (ℕ × Result)} {f : ℕ × Option α → ℕ × Result}
    {pick : Value → Option Result} (hr : r = some (ptr + (wire v).length, some x))
    (hread : read = r.map f)
    (hptr : (f (ptr + (wire v).length, some x)).1 = ptr + (wire v).length)
    (hpick : ∀ e, pick v = some e → (f (ptr + (wire v).length, some x)).2 = e) :
    Gives v ptr pick read := by
  refine ⟨_, ?_, hpick⟩
  rw [hread, hr, Option.map_some]
  exact congrArg some (Prod.ext hptr rfl)

section

variable {v : Value} (hv : v.Valid F) {ptr stop : ℕ} (hsmall : (wire v).length < 2 ^ 32)
  (h : Sits data ptr (wire v)) (hs : ptr + (wire v).length ≤ stop)

include hv hsmall h hs

theorem readString_of_sits {s : NSString} (hval : v = .string s) :
    PSReadString data ptr stop = some (ptr + (wire v).length, some s) := by
  subst hval
  cases hv with
  | string hunits =>
    have hwire : wire (.string s) =
        writeLength ((utf8Data s).getD []).length ++ (utf8Data s).getD [] := by
      simp [wire, encodeValue]
    rw [hwire] at hsmall h hs ⊢
    have hlen : ((utf8Data s).getD []).length < 2 ^ 32 := by
      rw [List.length_append] at hsmall
      omega
    rw [PSReadString, readPrefixed_of_sits hlen h hs]
    simp [stringWithBytes_utf8Data hunits]

omit hv in
theorem readData_of_sits {b : Bytes} (hval : v = .data b) :
    readPrefixed data ptr stop = some (ptr + (wire v).length, some b) := by
  subst hval
  have hwire : wire (.data b) = writeLength b.length ++ b := by simp [wire, encodeValue]
  rw [hwire] at hsmall h hs ⊢
  rw [List.length_append] at hsmall
  exact readPrefixed_of_sits (by omega) h hs

omit hv hsmall in
theorem readInt32_of_wire {n : BitVec 32} (hval : v = .int32 n) :
    PSReadInt32 data ptr stop = some (ptr + (wire v).length, some n) := by
  subst hval
  have hwire : wire (.int32 n) = Bytes.bytesLE 4 n.toNat := by simp [wire, encodeValue]
  rw [hwire, length_bytesLE] at hs ⊢
  exact readInt32_of_sits (hwire ▸ h) hs

omit hv hsmall in
theorem readInt64_of_wire {n : BitVec 64} (hval : v = .int64 n ∨ v = .double n) :
    PSReadInt64 data ptr stop = some (ptr + (wire v).length, some n) := by
  have hwire : wire v = Bytes.bytesLE 8 n.toNat := by
    rcases hval with rfl | rfl <;> simp [wire, encodeValue]
  rw [hwire, length_bytesLE] at hs ⊢
  exact readInt64_of_sits (hwire ▸ h) hs

theorem gives_readAsString :
    Gives v ptr pickString (readAsString data (some v.fieldType) ptr stop) := by
  cases hval : v with
  | string s =>
    subst hval
    exact gives_of_eq (readString_of_sits hv hsmall h hs rfl) rfl rfl (by simp [pickString])
  | int32 n =>
    subst hval
    exact gives_of_eq (readInt32_of_wire h hs rfl) rfl rfl (by simp [pickString])
  | int64 n =>
    subst hval
    exact gives_of_eq (readInt64_of_wire h hs (.inl rfl)) rfl rfl (by simp [pickString])
  | _ =>
    subst hval
    exact gives_skipAs hsmall h hs _ rfl

theorem gives_readAsInt32 :
    Gives v ptr pickInt32 (readAsInt32 F data (some v.fieldType) ptr stop) := by
  cases hval : v with
  | string s =>
    subst hval
    exact gives_of_eq (readString_of_sits hv hsmall h hs rfl) rfl rfl (by simp [pickInt32])
  | int32 n =>
    subst hval
    exact gives_of_eq (readInt32_of_wire h hs rfl) rfl rfl (by simp [pickInt32])
  | int64 n =>
    subst hval
    exact gives_of_eq (readInt64_of_wire h hs (.inl rfl)) rfl rfl (by simp [pickInt32])
  | _ =>
    subst hval
    exact gives_skipAs hsmall h hs _ rfl

theorem gives_readAsInt64 :
    Gives v ptr pickInt64 (readAsInt64 F data (some v.fieldType) ptr stop) := by
  cases hval : v with
  | string s =>
    subst hval
    exact gives_of_eq (readString_of_sits hv hsmall h hs rfl) rfl rfl (by simp [pickInt64])
  | int32 n =>
    subst hval
    exact gives_of_eq (readInt32_of_wire h hs rfl) rfl rfl (by simp [pickInt64])
  | int64 n =>
    subst hval
    exact gives_of_eq (readInt64_of_wire h hs (.inl rfl)) rfl rfl (by simp [pickInt64])
  | _ =>
    subst hval
    exact gives_skipAs hsmall h hs _ rfl

theorem gives_readAsDouble :
    Gives v ptr pickDouble (readAsDouble F data (some v.fieldType) ptr stop) := by
  cases hval : v with
  | string s =>
    subst hval
    exact gives_of_eq (readString_of_sits hv hsmall h hs rfl) rfl rfl (by simp [pickDouble])
  | int32 n =>
    subst hval
    exact gives_of_eq (readInt32_of_wire h hs rfl) rfl rfl (by simp [pickDouble])
  | int64 n =>
    subst hval
    exact gives_of_eq (readInt64_of_wire h hs (.inl rfl)) rfl rfl (by simp [pickDouble])
  | double n =>
    subst hval
    exact gives_of_eq (readInt64_of_wire h hs (.inr rfl)) rfl rfl (by simp [pickDouble])
  | _ =>
    subst hval
    exact gives_skipAs hsmall h hs _ rfl

omit hv in
theorem gives_readAsData :
    Gives v ptr pickData (readAsData data (some v.fieldType) ptr stop) := by
  cases hval : v with
  | data b =>
    subst hval
    exact gives_of_eq (readData_of_sits hsmall h hs rfl) rfl rfl (by simp [pickData])
  | _ =>
    subst hval
    exact gives_skipAs hsmall h hs _ rfl

omit hv in
theorem gives_readAsBytes (length : ℕ) :
    Gives v ptr (pickBytes length) (readAsBytes data length (some v.fieldType) ptr stop) := by
  cases hval : v with
  | data b =>
    subst hval
    refine ⟨.bytes (b.take length), ?_, by simp [pickBytes]⟩
    rw [Value.fieldType, readAsBytes, PSReadBytes, readData_of_sits hsmall h hs rfl]
    rfl
  | _ =>
    subst hval
    exact gives_skipAs hsmall h hs _ rfl

omit hv in
theorem gives_readAsInt32Array :
    Gives v ptr pickInt32Array (readAsInt32Array data (some v.fieldType) ptr stop) := by
  cases hval : v with
  | int32Array ns =>
    subst hval
    exact gives_of_eq (readInt32Array_of_sits hsmall h hs) rfl rfl (by simp [pickInt32Array])
  | _ =>
    subst hval
    exact gives_skipAs hsmall h hs _ rfl

variable (hsub : FaithfulBelow F data n sub) (hn : (wire v).length ≤ n)

include hsub hn

theorem gives_readAsObject :
    Gives v ptr pickObject (readAsObject F sub data (some v.fieldType) ptr stop) := by
  cases hval : v with
  | object o =>
    subst hval
    cases hv with
    | object ho =>
      refine ⟨.object (some o), ?_, by simp [pickObject]⟩
      rw [Value.fieldType, readAsObject, readObject_of_sits hsub ho hsmall h hs hn]
      rfl
  | _ =>
    subst hval
    exact gives_skipAs hsmall h hs _ rfl

theorem gives_readAsArray :
    Gives v ptr pickArray (readAsArray F sub data (some v.fieldType) ptr stop) := by
  cases hval : v with
  | array os =>
    subst hval
    exact gives_of_eq (readArray_of_sits hsub hv hsmall h hs hn) rfl rfl (by simp [pickArray])
  | _ =>
    subst hval
    exact gives_skipAs hsmall h hs _ rfl

theorem gives_readAsInt32Dictionary :
    Gives v ptr pickInt32Dictionary
      (readAsInt32Dictionary F sub data (some v.fieldType) ptr stop) := by
  cases hval : v with
  | int32Dictionary entries =>
    subst hval
    exact gives_of_eq (readInt32Dictionary_of_sits hsub hv hsmall h hs hn) rfl rfl
      (by simp [pickInt32Dictionary])
  | _ =>
    subst hval
    exact gives_skipAs hsmall h hs _ rfl

end

theorem find_of_nodup {a b : List Field} {f : Field} {key : Bytes} (hkey : f.key.bytes = key)
    (hnodup : ((a ++ f :: b).map (·.key.bytes)).Nodup) :
    (a ++ f :: b).find? (·.key.bytes == key) = some f := by
  have ha : a.find? (·.key.bytes == key) = none := by
    rw [List.find?_eq_none]
    intro g hg heq
    rw [List.map_append, List.nodup_append] at hnodup
    exact hnodup.2.2 _ (List.mem_map_of_mem hg) _ List.mem_cons_self
      ((beq_iff_eq.1 heq).trans hkey.symm)
  rw [List.find?_append, ha]
  simp [hkey]

/-- A key that is passed at all is passed as the bytes the encoder writes. -/
theorem Key.bytes_of_pointer {key : Key} {bytes : Bytes} (h : key.pointer = some bytes) :
    key.bytes = bytes := by
  cases key with
  | cKey chars => simpa [Key.pointer, Key.bytes] using h
  | key string =>
    simp only [Key.pointer] at h
    split_ifs at h
    simpa [Key.bytes] using h

/-- A method of one key over an encoded row: what it does with the value at the key decides what
it gives, and the cursor is left where the next field begins. -/
theorem decodeForKey_of_row {d : Decoder} {fields : List Field} (hvalid : FieldsValid F fields)
    (hd : Row data d fields) (key : Key) (absent : Result)
    {read : Option FieldType → ℕ → ℕ → Option (ℕ × Result)} {pick : Value → Option Result}
    (hread : ∀ (v : Value) (ptr : ℕ), v.Valid F → (wire v).length < 2 ^ 32 → Sits data ptr (wire v) →
      ptr + (wire v).length ≤ d.stop → (wire v).length < d.stop - d.first →
      Gives v ptr pick (read (some v.fieldType) ptr d.stop)) :
    ∃ p result, decodeForKey data d key absent read = some ({ d with currentPtr := p }, result) ∧
      Row data { d with currentPtr := p } fields ∧
      ∀ e, covered fields key absent pick = some e → result = e := by
  by_cases hfound : ∃ f ∈ fields, f.key.bytes = key.bytes
  · obtain ⟨f, hf, hkey⟩ := hfound
    obtain ⟨a, b, rfl⟩ := List.append_of_mem hf
    have hfind := find_of_nodup hkey hvalid.keys
    rcases hpointer : key.pointer with _ | bytes
    · refine ⟨d.currentPtr, absent, ?_, hd, ?_⟩
      · simp [decodeForKey, hpointer, PSSkipToValueForRawKey]
      · simp [covered, hfind, hpointer]
    obtain rfl := Key.bytes_of_pointer hpointer
    have hrow : Sits data (d.first + (row a).length) (row (f :: b)) := by
      have := hd.sits
      rw [row_append] at this
      exact this.right
    obtain ⟨-, htype, hvalue, -⟩ := sits_row_cons hrow
    have hstop := hd.stop_eq
    have hsmall := hd.small
    rw [row_append, List.length_append, length_row_cons] at hstop hsmall
    obtain ⟨result, hr, hpick⟩ := hread f.value _ (hvalid.values f hf) (by omega) hvalue
      (by omega) (by omega)
    refine ⟨d.first + (row (a ++ [f])).length, result, ?_, hd.move (a ++ [f]) (b := b) (by simp), ?_⟩
    · rw [decodeForKey, hpointer, ← hkey, skipTo_found hd hvalid.keys]
      simp only [Option.bind_eq_bind, Option.bind_some, Bool.true_and]
      rw [if_pos (canRead_iff.2 (by omega)), htype]
      simp only [Option.bind_some, ofByte_byte, hr, row_append, List.length_append,
        length_row_cons, row_nil, List.length_nil]
      simp [Nat.add_assoc]
    · intro e he
      simp only [covered, hfind, hpointer, if_true] at he
      exact hpick e he
  · have habsent : ∀ f ∈ fields, f.key.bytes ≠ key.bytes := fun f hf heq => hfound ⟨f, hf, heq⟩
    have hfind : fields.find? (·.key.bytes == key.bytes) = none := by
      rw [List.find?_eq_none]
      exact fun f hf heq => habsent f hf (beq_iff_eq.1 heq)
    have hskip : PSSkipToValueForRawKey data d key.pointer = some (d, false) := by
      rcases hpointer : key.pointer with _ | bytes
      · rfl
      · exact skipTo_absent hd (Key.bytes_of_pointer hpointer ▸ habsent)
    refine ⟨d.currentPtr, absent, ?_, hd, ?_⟩
    · simp [decodeForKey, hskip]
    · simp [covered, hfind]

theorem readObjectsByKeys_of_sits (hsub : FaithfulBelow F data n sub) {stop : ℕ} :
    ∀ (fields : List Field) {fuel ptr : ℕ} (dict : List (NSString × Obj)),
      (∀ f ∈ fields, f.value.Valid F) → (row fields).length < 2 ^ 32 →
      Sits data ptr (row fields) → ptr + (row fields).length = stop →
      (row fields).length ≤ fuel → (row fields).length ≤ n →
      ∃ dict', readObjectsByKeys F sub data stop fuel ptr dict = some dict' ∧
        ∀ e, objectsOf fields dict = some e → dict' = e
  | [], fuel, ptr, dict, _, _, _, hs, _, _ => by
    rw [row_nil, List.length_nil, Nat.add_zero] at hs
    refine ⟨dict, ?_, by simp [objectsOf]⟩
    cases fuel <;> simp [readObjectsByKeys, hs]
  | .mk key value :: rest, 0, ptr, dict, _, _, _, _, hf, _ => by
    rw [length_row_cons] at hf
    omega
  | .mk key value :: rest, fuel + 1, ptr, dict, hvalid, hsmall, h, hs, hf, hn => by
    obtain ⟨hkey, htype, hvalue, hrest⟩ := sits_row_cons h
    rw [length_row_cons] at hsmall hs hf hn
    simp only [Field.key, Field.value] at hkey htype hvalue hrest hsmall hs hf hn
    have hlen : (keyWire key).length = (writeLength key.bytes.length).length + key.bytes.length :=
      List.length_append
    have hvalue' : value.Valid F := hvalid (.mk key value) List.mem_cons_self
    have hread : readPrefixed data ptr stop =
        some (ptr + (keyWire key).length, some key.bytes) :=
      readPrefixed_of_sits (by omega) hkey
        (by change ptr + (keyWire key).length ≤ stop; omega)
    have hnext : ∀ dict, ∃ dict', readObjectsByKeys F sub data stop fuel
          (ptr + ((keyWire key).length + 1 + (wire value).length)) dict = some dict' ∧
        ∀ e, objectsOf rest dict = some e → dict' = e := fun dict =>
      readObjectsByKeys_of_sits hsub rest dict (fun f hf => hvalid f (List.mem_cons_of_mem _ hf))
        (by omega) hrest (by omega) (by omega) (by omega)
    have hptr : ptr + (keyWire key).length + 1 + (wire value).length =
        ptr + ((keyWire key).length + 1 + (wire value).length) := by omega
    rw [readObjectsByKeys, if_pos (by omega), hread]
    simp only [Option.bind_eq_bind, Option.bind_some]
    rcases hname : stringWithBytes key.bytes with _ | name
    · exact ⟨dict, rfl, by simp [objectsOf, hname]⟩
    simp only []
    rw [if_pos (canRead_iff.2 (by omega)), htype]
    simp only [Option.bind_some, ofByte_byte, Option.some.injEq]
    by_cases hobject : value.fieldType = .customClass
    · rw [if_pos hobject]
      cases hvalue' with
      | @object o ho =>
        have hwire : wire (.object o) = encodeObjectValue o [] := by simp [wire, encodeValue]
        obtain ⟨dict', hr, hdict⟩ := hnext (setObject name o dict)
        rw [hwire] at hvalue hsmall hs hn hptr hr
        rw [readObject_of_sits hsub ho (by omega) hvalue (by omega) (by omega), hptr]
        exact ⟨dict', hr, by simpa [objectsOf, hname] using hdict⟩
      | _ => simp [Value.fieldType] at hobject
    · rw [if_neg hobject, skipValue_of_sits value (by omega) hvalue (by omega)]
      obtain ⟨dict', hr, hdict⟩ := hnext dict
      refine ⟨dict', by simpa [hptr] using hr, ?_⟩
      cases value with
      | object o => simp [Value.fieldType] at hobject
      | _ => simpa [objectsOf, hname] using hdict

theorem decodeCall_of_row (hsub : FaithfulBelow F data n sub) {d : Decoder} {fields : List Field}
    (hvalid : FieldsValid F fields) (hd : Row data d fields) (hn : d.stop - d.first ≤ n)
    (call : Call) :
    ∃ p result, decodeCall F sub data d call = some ({ d with currentPtr := p }, result) ∧
      Row data { d with currentPtr := p } fields ∧
      ∀ e, answer fields call = some e → result = e := by
  cases call with
  | string key =>
    exact decodeForKey_of_row hvalid hd key _ fun v ptr hv hsmall h hs _ =>
      gives_readAsString hv hsmall h hs
  | int32 key =>
    exact decodeForKey_of_row hvalid hd key _ fun v ptr hv hsmall h hs _ =>
      gives_readAsInt32 hv hsmall h hs
  | int64 key =>
    exact decodeForKey_of_row hvalid hd key _ fun v ptr hv hsmall h hs _ =>
      gives_readAsInt64 hv hsmall h hs
  | double key =>
    exact decodeForKey_of_row hvalid hd key _ fun v ptr hv hsmall h hs _ =>
      gives_readAsDouble hv hsmall h hs
  | data key =>
    exact decodeForKey_of_row hvalid hd key _ fun v ptr _ hsmall h hs _ =>
      gives_readAsData hsmall h hs
  | bytes key length =>
    exact decodeForKey_of_row hvalid hd key _ fun v ptr _ hsmall h hs _ =>
      gives_readAsBytes hsmall h hs length
  | int32Array key =>
    exact decodeForKey_of_row hvalid hd key _ fun v ptr _ hsmall h hs _ =>
      gives_readAsInt32Array hsmall h hs
  | object key =>
    exact decodeForKey_of_row hvalid hd key _ fun v ptr hv hsmall h hs hlt =>
      gives_readAsObject hv hsmall h hs hsub (hlt.le.trans hn)
  | array key =>
    exact decodeForKey_of_row hvalid hd key _ fun v ptr hv hsmall h hs hlt =>
      gives_readAsArray hv hsmall h hs hsub (hlt.le.trans hn)
  | int32Dictionary key =>
    exact decodeForKey_of_row hvalid hd key _ fun v ptr hv hsmall h hs hlt =>
      gives_readAsInt32Dictionary hv hsmall h hs hsub (hlt.le.trans hn)
  | objectsByKeys =>
    have hstop := hd.stop_eq
    obtain ⟨dict, hr, hdict⟩ := readObjectsByKeys_of_sits hsub fields [] hvalid.values hd.small
      hd.sits hstop.symm (by omega : _ ≤ d.stop - d.first) (by omega)
    refine ⟨d.first, .objectsByKeys dict, ?_, hd.move [] (b := fields) rfl, ?_⟩
    · rw [decodeCall, decodeObjectsByKeys, hr]
      rfl
    · intro e he
      obtain ⟨dict', hdict', rfl⟩ := Option.map_eq_some_iff.1 he
      rw [hdict dict' hdict']

/-- Objects nested to any depth: a decoder answers as it should on every row shorter than the
depth it is given, since what is inside an object is shorter than the object. -/
theorem decode_faithful (F : Foundation) (data : Bytes) :
    ∀ depth, FaithfulBelow F data depth (decode F data depth)
  | 0, _, _, _, _, _, h => by omega
  | depth + 1, _, _, call, hvalid, hd, h =>
    decodeCall_of_row (decode_faithful F data depth) hvalid hd (by omega) call

theorem decodeAll_of_row {fields : List Field} (hvalid : FieldsValid F fields) :
    ∀ (calls : List Call) {results : List Result} {d : Decoder}, Row data d fields →
      calls.mapM (answer fields) = some results → decodeAll F data d calls = some results
  | [], results, d, _, h => by simpa [decodeAll] using h
  | call :: rest, results, d, hd, h => by
    rw [List.mapM_cons] at h
    obtain ⟨e, he, h⟩ := Option.bind_eq_some_iff.1 h
    obtain ⟨es, hes, h⟩ := Option.bind_eq_some_iff.1 h
    have hlt : d.stop - d.first < data.length + 1 := by
      have := hd.stop_eq
      have := hd.sits.1
      omega
    obtain ⟨p, result, hr, hd', hanswer⟩ :=
      decode_faithful F data (data.length + 1) d fields call hvalid hd hlt
    rw [decodeAll, hr]
    simp only [Option.bind_eq_bind, Option.bind_some]
    rw [decodeAll_of_row hvalid rest hd' hes, hanswer e he]
    exact h

theorem row_decoderOf {fields : List Field} (hsmall : (row fields).length < 2 ^ 32) :
    Row (row fields) (decoderOf (row fields)) fields :=
  ⟨(Nat.zero_add _).symm, sits_self _, hsmall, [], fields, rfl, rfl⟩

end Onegram.KeyValueCoder
