import Onegram.TLSerialization

/-!
# What the writers write, the readers read

The two writers agree on every value, and what they write is a whole number of words. Both readers
give the values back as long as a length fits the 23 bits below the sign of the shifted `int32_t`;
from `2 ^ 23` bytes on the length is read as a negative number.
-/

namespace Onegram.TL

open Bytes Reader

/-! ## The writers -/

/-- The padding brings a length to the next multiple of four. -/
theorem roundUp_padding (n : ℕ) :
    ∃ k : ℕ, k < 4 ∧ roundUp n 4 = n + k ∧ 4 ∣ n + k ∧ (roundUp n 4 - n).toNat = k := by
  have hmod : (n : ℤ).tmod 4 = (n % 4 : ℕ) := by
    rw [Int.tmod_eq_emod_of_nonneg (by omega)]
    omega
  unfold roundUp
  rw [if_neg (by omega), hmod]
  split
  · exact ⟨0, by omega, by omega, by omega, by omega⟩
  · exact ⟨4 - n % 4, by omega, by omega, by omega, by omega⟩

/-- The bytes in front of a byte string that is not empty. -/
def header (length : ℕ) : Bytes :=
  if 254 ≤ length then 254 :: bytesLE 3 length else bytesLE 1 length

/-- The number of zero bytes after it. -/
def padding (length : ℕ) : ℕ :=
  if 254 ≤ length then (roundUp length 4 - length).toNat
  else (roundUp (length + 1) 4 - (length + 1)).toNat

theorem foldl_zero (n : ℕ) (data : Bytes) :
    (List.range n).foldl (fun written _ => written ++ [0]) data = data ++ List.replicate n 0 := by
  induction n with
  | zero => simp
  | succ n ih =>
    rw [List.range_succ, List.foldl_append, ih, List.replicate_succ']
    simp

theorem appendTLBytes_eq (data bytes : Bytes) :
    MTBuffer.appendTLBytes data bytes
      = data ++ if bytes = [] then [0, 0, 0, 0]
          else header bytes.length ++ bytes ++ List.replicate (padding bytes.length) 0 := by
  have hzero : bytesLE 4 (0 : Int32).toUInt32.toNat = [0, 0, 0, 0] := rfl
  unfold MTBuffer.appendTLBytes header padding
  simp only [List.length_eq_zero_iff]
  split_ifs <;> simp [MTBuffer.appendInt32, hzero]

theorem writeBytes_eq (written data : Bytes) :
    MTOutputStream.writeBytes written data = MTBuffer.appendTLBytes written data := by
  unfold MTOutputStream.writeBytes MTBuffer.appendTLBytes
  simp only []
  split_ifs
  · rfl
  · rw [foldl_zero]
  · rw [foldl_zero]

theorem append_eq (data : Bytes) (v : Value) : v.append data = data ++ v.append [] := by
  cases v with
  | int32 => rfl
  | int64 => rfl
  | bytes b => simp only [Value.append, appendTLBytes_eq, List.nil_append]
  | string s => simp only [Value.append, MTBuffer.appendTLString, appendTLBytes_eq, List.nil_append]

theorem write_eq (written : Bytes) (v : Value) : v.write written = v.append written := by
  cases v with
  | int32 => rfl
  | int64 => rfl
  | bytes b => exact writeBytes_eq written b
  | string s => exact writeBytes_eq written (utf8 s)

theorem foldl_append_eq : ∀ (vs : List Value) (data : Bytes),
    vs.foldl Value.append data = data ++ vs.flatMap (Value.append [])
  | [], _ => by simp
  | v :: vs, data => by
    rw [List.foldl_cons, foldl_append_eq vs, append_eq, List.flatMap_cons, List.append_assoc]

theorem length_header (n : ℕ) : (header n).length = if 254 ≤ n then 4 else 1 := by
  unfold header
  split <;> simp

theorem appendTLBytes_aligned (bytes : Bytes) : 4 ∣ (MTBuffer.appendTLBytes [] bytes).length := by
  obtain ⟨k, -, -, hk, hpad⟩ := roundUp_padding bytes.length
  obtain ⟨k', -, -, hk', hpad'⟩ := roundUp_padding (bytes.length + 1)
  push_cast at hpad'
  rw [appendTLBytes_eq]
  split
  · simp
  · simp only [List.nil_append, List.length_append, length_header, List.length_replicate, padding,
      hpad, hpad']
    split <;> omega

theorem append_aligned (v : Value) : 4 ∣ (v.append []).length := by
  cases v with
  | int32 => simp [Value.append, MTBuffer.appendInt32]
  | int64 => simp [Value.append, MTBuffer.appendInt64]
  | bytes b => exact appendTLBytes_aligned b
  | string s => exact appendTLBytes_aligned (utf8 s)

theorem flatMap_aligned : ∀ vs : List Value, 4 ∣ (vs.flatMap (Value.append [])).length
  | [] => by simp
  | v :: vs => by
    rw [List.flatMap_cons, List.length_append]
    exact dvd_add (append_aligned v) (flatMap_aligned vs)

/-! ## Lengths as they are read -/

/-- A length of three bytes comes back with the sign of the third. -/
theorem shiftedLength_bytesLE {n : ℕ} (h : n < 2 ^ 24) :
    shiftedLength (bytesLE 3 n) = if n < 2 ^ 23 then (n : ℤ) else (n : ℤ) - 2 ^ 24 := by
  have hword : littleEndian (0 :: bytesLE 3 n) = 256 * n := by
    rw [littleEndian, littleEndian_bytesLE, Nat.mod_eq_of_lt (by omega)]
    simp
  unfold shiftedLength
  rw [hword, BitVec.toInt_sshiftRight, BitVec.toInt_ofNat', Int.shiftRight_eq_div_pow]
  split_ifs with hlt
  · rw [Int.bmod_eq_of_le (by omega) (by omega)]
    omega
  · have hmod : Int.bmod ((256 * n : ℕ) : ℤ) (2 ^ 32) = 256 * n - 2 ^ 32 := by
      rw [Int.bmod_def]
      omega
    rw [hmod]
    omega

/-- Three bytes as a length: those with the highest bit are below zero. -/
theorem shiftedLength_eq {bytes : Bytes} (h : bytes.length = 3) :
    shiftedLength bytes
      = if littleEndian bytes < 2 ^ 23 then (littleEndian bytes : ℤ)
        else (littleEndian bytes : ℤ) - 2 ^ 24 := by
  have hlt := littleEndian_lt bytes
  rw [h] at hlt
  rw [← shiftedLength_bytesLE (by omega), ← h, bytesLE_littleEndian]

/-- The length and the padding a reader takes a header for. -/
def lengthRead (n : ℕ) : ℤ × ℤ :=
  if 254 ≤ n then
    (shiftedLength (bytesLE 3 n), roundUp (shiftedLength (bytesLE 3 n)) 4
      - shiftedLength (bytesLE 3 n))
  else ((n : ℤ), roundUp (n + 1) 4 - (n + 1))

theorem lengthRead_fst {n : ℕ} (h : n < 2 ^ 23) : (lengthRead n).1 = n := by
  unfold lengthRead
  split
  · simp only []
    rw [shiftedLength_bytesLE (by omega), if_pos h]
  · rfl

theorem lengthRead_snd {n : ℕ} (h : n < 2 ^ 23) : (lengthRead n).2.toNat = padding n := by
  unfold lengthRead padding
  split
  · simp only []
    rw [shiftedLength_bytesLE (by omega), if_pos h]
  · rfl

theorem lengthRead_neg {n : ℕ} (h : n < 2 ^ 24) (hlong : 2 ^ 23 ≤ n) : (lengthRead n).1 < 0 := by
  unfold lengthRead
  rw [if_pos (by omega)]
  simp only []
  rw [shiftedLength_bytesLE h, if_neg (by omega)]
  omega

theorem ofUtf8_utf8 (s : String) : ofUtf8 (utf8 s) = some s := by
  have hbytes : (⟨(utf8 s).toArray⟩ : ByteArray) = s.toByteArray := by
    simp [utf8]
  unfold ofUtf8
  rw [hbytes, String.fromUTF8?, dif_pos s.isValidUTF8]
  rfl

theorem int32_word (v : Int32) :
    (UInt32.ofNat (littleEndian (bytesLE 4 v.toUInt32.toNat))).toInt32 = v := by
  have hlt := v.toUInt32.toNat_lt
  rw [littleEndian_bytesLE, Nat.mod_eq_of_lt (by norm_num; omega), UInt32.ofNat_toNat]
  rfl

theorem int64_word (v : Int64) :
    (UInt64.ofNat (littleEndian (bytesLE 8 v.toUInt64.toNat))).toInt64 = v := by
  have hlt := v.toUInt64.toNat_lt
  rw [littleEndian_bytesLE, Nat.mod_eq_of_lt (by norm_num; omega), UInt64.ofNat_toNat]
  rfl

/-- The one byte of a short length. -/
theorem short_header {n : ℕ} (h : n < 254) :
    littleEndian (bytesLE 1 n) = n ∧ bytesLE 1 n ≠ [254] := by
  have hn : littleEndian (bytesLE 1 n) = n := by
    rw [littleEndian_bytesLE, Nat.mod_eq_of_lt (by omega)]
  refine ⟨hn, fun heq => ?_⟩
  have hlong : littleEndian [254] = 254 := rfl
  rw [heq, hlong] at hn
  omega

/-- Zero bytes, read one at a time. -/
theorem reads_zeros {r : Reader UInt8 Bytes} (h : Reads r [0] [0]) (k : ℕ) :
    Reads (times r k) (List.replicate k 0) (List.replicate k [0]) := by
  have hall : ∀ v ∈ List.replicate k [(0 : UInt8)], Reads r (id v) v := by
    intro v hv
    rw [List.eq_of_mem_replicate hv]
    exact h
  have h' := reads_times _ hall
  rw [List.length_replicate] at h'
  have hflat : (List.replicate k [(0 : UInt8)]).flatMap id = List.replicate k 0 := by
    simp
  rwa [hflat] at h'

/-! ## `MTBufferReader` -/

section BufferReader

open MTBufferReader

theorem reads_int32 (v : Int32) : Reads readInt32 (MTBuffer.appendInt32 [] v) v := by
  have h := (reads_take_of (length_bytesLE 4 v.toUInt32.toNat)).bind_pure
    fun bytes => (UInt32.ofNat (littleEndian bytes)).toInt32
  rwa [int32_word] at h

theorem reads_int64 (v : Int64) : Reads readInt64 (MTBuffer.appendInt64 [] v) v := by
  have h := (reads_take_of (length_bytesLE 8 v.toUInt64.toNat)).bind_pure
    fun bytes => (UInt64.ofNat (littleEndian bytes)).toInt64
  rwa [int64_word] at h

theorem reads_padded (bytes : Bytes) (paddingBytes : ℤ) :
    Reads (readPadded bytes.length paddingBytes)
      (bytes ++ List.replicate paddingBytes.toNat 0) bytes := by
  unfold readPadded
  rw [if_neg (by omega), Int.toNat_natCast]
  exact (reads_take bytes).bind ((reads_zeros (reads_take_of rfl) _).bind_pure fun _ => bytes)

theorem readTLBytes_header (n : ℕ) (s : Bytes) :
    readTLBytes (header n ++ s) = readPadded (lengthRead n).1 (lengthRead n).2 s := by
  unfold readTLBytes header lengthRead readBytes
  rw [bind_apply]
  split_ifs with h
  · have hone : take 1 ([254] ++ (bytesLE 3 n ++ s)) = some ([254], bytesLE 3 n ++ s) :=
      reads_take [254] _
    have hthree := reads_take_of (length_bytesLE 3 n) s
    rw [List.cons_append]
    change (Option.bind (take 1 ([254] ++ (bytesLE 3 n ++ s))) _) = _
    rw [hone, Option.bind_some, if_pos rfl, bind_apply, hthree]
    rfl
  · obtain ⟨hnum, hne⟩ := short_header (not_le.mp h)
    have hone := reads_take_of (length_bytesLE 1 n) s
    rw [hone, Option.bind_some, if_neg hne, hnum]

/-- A byte string is read back when its length is below the sign. -/
theorem reads_tlBytes {bytes : Bytes} (h : bytes.length < 2 ^ 23) :
    Reads readTLBytes (MTBuffer.appendTLBytes [] bytes) bytes := by
  rw [appendTLBytes_eq, List.nil_append]
  intro s
  split_ifs with hempty
  · subst hempty
    exact readTLBytes_header 0 _ |>.trans (reads_padded [] 3 s)
  · have hpad := reads_padded bytes (lengthRead bytes.length).2 s
    rw [lengthRead_snd h] at hpad
    rw [List.append_assoc, List.append_assoc, readTLBytes_header, lengthRead_fst h,
      ← List.append_assoc]
    exact hpad

theorem fails_tlBytes {bytes : Bytes} (h : bytes.length < 2 ^ 24) (hlong : 2 ^ 23 ≤ bytes.length) :
    Fails readTLBytes (MTBuffer.appendTLBytes [] bytes) := by
  have hne : bytes ≠ [] := by
    rintro rfl
    simp at hlong
  intro s
  rw [appendTLBytes_eq, List.nil_append, if_neg hne, List.append_assoc, List.append_assoc,
    readTLBytes_header]
  unfold readPadded
  rw [if_pos (lengthRead_neg h hlong)]
  rfl

end BufferReader

/-! ## `MTInputStream` -/

section InputStream

open MTInputStream

variable (short : Short)

theorem reads_read {e : Bytes} {n : ℕ} (h : e.length = n) : Reads (MTInputStream.read n) e e := by
  intro s
  unfold MTInputStream.read
  rw [← h, List.take_left, List.drop_left]

theorem reads_full {e : Bytes} {n : ℕ} (h : e.length = n) : Reads (readFull short n) e e := by
  let f : Bytes → Reader UInt8 Bytes := fun bytes =>
    if bytes.length = n then pure bytes else StateT.lift (short n bytes)
  have hfull : Reads (f e) [] e := by
    change Reads (if e.length = n then pure e else StateT.lift (short n e)) [] e
    rw [if_pos h]
    exact Reads.pure e
  have h' := (reads_read h).bind hfull
  rwa [List.append_nil] at h'

theorem reads_streamInt32 (v : Int32) :
    Reads (MTInputStream.readInt32 short) (MTBuffer.appendInt32 [] v) v := by
  have h := (reads_full short (length_bytesLE 4 v.toUInt32.toNat)).bind_pure
    fun bytes => (UInt32.ofNat (littleEndian bytes)).toInt32
  rwa [int32_word] at h

theorem reads_streamInt64 (v : Int64) :
    Reads (MTInputStream.readInt64 short) (MTBuffer.appendInt64 [] v) v := by
  have h := (reads_full short (length_bytesLE 8 v.toUInt64.toNat)).bind_pure
    fun bytes => (UInt64.ofNat (littleEndian bytes)).toInt64
  rwa [int64_word] at h

theorem reads_length (n : ℕ) : Reads readLength (header n) (lengthRead n) := by
  intro s
  unfold readLength header lengthRead
  rw [bind_apply]
  split_ifs with h
  · have hone := reads_read (show ([254] : Bytes).length = 1 from rfl) (bytesLE 3 n ++ s)
    have hthree := reads_read (length_bytesLE 3 n) s
    rw [List.cons_append]
    change (Option.bind (MTInputStream.read 1 ([254] ++ (bytesLE 3 n ++ s))) _) = _
    rw [hone, Option.bind_some, if_pos rfl, bind_apply, hthree]
    rfl
  · obtain ⟨hnum, hne⟩ := short_header (not_le.mp h)
    have hone := reads_read (length_bytesLE 1 n) s
    rw [hone, Option.bind_some, if_neg hne, hnum]
    rfl

/-- What is written for a byte string, the header apart. -/
theorem appendTLBytes_split (bytes : Bytes) :
    MTBuffer.appendTLBytes [] bytes
      = header bytes.length ++ (bytes ++ List.replicate (padding bytes.length) 0) := by
  rw [appendTLBytes_eq, List.nil_append]
  split_ifs with hempty
  · subst hempty
    rfl
  · rw [List.append_assoc]

theorem reads_streamBytes {bytes : Bytes} (h : bytes.length < 2 ^ 23) :
    Reads (MTInputStream.readBytes short) (MTBuffer.appendTLBytes [] bytes) bytes := by
  rw [appendTLBytes_split]
  have hlength := lengthRead_fst h
  have hpadding := lengthRead_snd h
  refine (reads_length bytes.length).bind ?_
  generalize lengthRead bytes.length = lp at hlength hpadding
  obtain ⟨length, paddingBytes⟩ := lp
  simp only at hlength hpadding
  subst hlength
  simp only
  rw [if_neg (by omega), hpadding, Int.toNat_natCast]
  exact (reads_full short rfl).bind ((reads_zeros (reads_read rfl) _).bind_pure fun _ => bytes)

theorem reads_characters (string : String) :
    Reads (readCharacters short (utf8 string).length) (utf8 string) (some string) := by
  unfold readCharacters
  split_ifs with hpos
  · rw [← ofUtf8_utf8 string, Int.toNat_natCast]
    exact (reads_full short rfl).bind_pure ofUtf8
  · have hempty : utf8 string = [] := List.length_eq_zero_iff.mp (by omega)
    have hstring : string = "" := by
      have hs := ofUtf8_utf8 string
      rw [hempty] at hs
      exact (Option.some.inj hs).symm
    rw [hempty, hstring]
    exact Reads.pure _

theorem reads_streamString {string : String} (h : (utf8 string).length < 2 ^ 23) :
    Reads (MTInputStream.readString short) (MTBuffer.appendTLString [] string) (some string) := by
  unfold MTBuffer.appendTLString
  rw [appendTLBytes_split]
  have hlength := lengthRead_fst h
  have hpadding := lengthRead_snd h
  refine (reads_length (utf8 string).length).bind ?_
  generalize lengthRead (utf8 string).length = lp at hlength hpadding
  obtain ⟨length, paddingBytes⟩ := lp
  simp only at hlength hpadding
  subst hlength
  simp only
  rw [hpadding]
  exact (reads_characters short string).bind
    ((reads_zeros (reads_read rfl) _).bind_pure fun _ => some string)

end InputStream

/-! ## Sequences -/

/-- The bytes of a value, or the string's. -/
def Value.content : Value → Bytes
  | .int32 _ => []
  | .int64 _ => []
  | .bytes value => value
  | .string value => utf8 value

theorem bufferReader_reads {v : Value} (h : v.content.length < 2 ^ 23) :
    Reads v.bufferReader (v.append []) v.item := by
  cases v with
  | int32 value => exact (reads_int32 value).map _
  | int64 value => exact (reads_int64 value).map _
  | bytes value => exact (reads_tlBytes h).map _
  | string value =>
    have h' := (reads_tlBytes h).bind_pure ofUtf8
    rw [Value.content, ofUtf8_utf8] at h'
    exact h'.map _

theorem streamReader_reads (short : MTInputStream.Short) {v : Value}
    (h : v.content.length < 2 ^ 23) : Reads (v.streamReader short) (v.append []) v.item := by
  cases v with
  | int32 value => exact (reads_streamInt32 short value).map _
  | int64 value => exact (reads_streamInt64 short value).map _
  | bytes value => exact (reads_streamBytes short h).map _
  | string value => exact (reads_streamString short h).map _

theorem bufferReader_fails {v : Value} (h : 2 ^ 23 ≤ v.content.length) :
    Fails v.bufferReader (v.append []) := by
  cases v with
  | int32 value => exact absurd h (by simp [Value.content])
  | int64 value => exact absurd h (by simp [Value.content])
  | bytes value => exact (fails_tlBytes value.2 h).map _
  | string value =>
    have h' := (fails_tlBytes value.2 h).bind (fun bytes => pure (ofUtf8 bytes)) []
    rw [List.append_nil] at h'
    exact h'.map _

theorem readAll_reads {r : Value → Reader UInt8 Item} : ∀ vs : List Value,
    (∀ v ∈ vs, Reads (r v) (v.append []) v.item) →
    Reads (readAll (vs.map r)) (vs.flatMap (Value.append [])) (vs.map Value.item)
  | [], _ => Reads.pure []
  | v :: vs, h => by
    have htail := readAll_reads vs fun w hw => h w (List.mem_cons_of_mem _ hw)
    exact (h v List.mem_cons_self).bind (htail.bind_pure fun items => v.item :: items)

/-- One value that is not read back is enough. -/
theorem readAll_fails : ∀ vs : List Value, (∃ v ∈ vs, 2 ^ 23 ≤ v.content.length) →
    Fails (readAll (vs.map Value.bufferReader)) (vs.flatMap (Value.append []))
  | [], h => absurd h (by simp)
  | v :: vs, h => by
    by_cases hv : v.content.length < 2 ^ 23
    · have hvs : ∃ w ∈ vs, 2 ^ 23 ≤ w.content.length := by
        obtain ⟨w, hw, hlong⟩ := h
        rcases List.mem_cons.mp hw with rfl | hw
        · omega
        · exact ⟨w, hw, hlong⟩
      have htail := (readAll_fails vs hvs).bind (fun items => pure (v.item :: items)) []
      rw [List.append_nil] at htail
      exact (bufferReader_reads hv).bind_fails htail
    · exact (bufferReader_fails (not_lt.mp hv)).bind _ _

/-- The writers agree on whole words, and both readers give the values back and leave nothing. -/
structure RoundTrip (short : MTInputStream.Short) (vs : List Value) : Prop where
  same : vs.foldl Value.write [] = vs.foldl Value.append []
  aligned : 4 ∣ (vs.foldl Value.append []).length
  buffer : readAll (vs.map Value.bufferReader) (vs.foldl Value.append [])
    = some (vs.map Value.item, [])
  stream : readAll (vs.map (Value.streamReader short)) (vs.foldl Value.append [])
    = some (vs.map Value.item, [])

theorem roundTrip_fits (short : MTInputStream.Short) {vs : List Value} (h : RoundTrip short vs) :
    ∀ v ∈ vs, v.content.length < 2 ^ 23 := by
  intro v hv
  by_contra hlong
  have hfails := readAll_fails vs ⟨v, hv, not_lt.mp hlong⟩ []
  have hbuffer := h.buffer
  rw [foldl_append_eq, List.nil_append] at hbuffer
  rw [List.append_nil, hbuffer] at hfails
  exact Option.some_ne_none _ hfails

theorem fits_roundTrip (short : MTInputStream.Short) {vs : List Value}
    (h : ∀ v ∈ vs, v.content.length < 2 ^ 23) : RoundTrip short vs := by
  have hall : vs.foldl Value.append [] = vs.flatMap (Value.append []) := by
    rw [foldl_append_eq, List.nil_append]
  have hbuffer := readAll_reads vs fun v hv => bufferReader_reads (h v hv)
  have hstream := readAll_reads vs fun v hv => streamReader_reads short (h v hv)
  refine ⟨?_, ?_, ?_, ?_⟩
  · rw [funext₂ write_eq]
  · rw [hall]
    exact flatMap_aligned vs
  · rw [hall]
    simpa using hbuffer []
  · rw [hall]
    simpa using hstream []

/-- The round trip holds for exactly the values whose lengths stay below the sign. -/
theorem roundTrip_iff (short : MTInputStream.Short) (vs : List Value) :
    RoundTrip short vs ↔ ∀ v ∈ vs, v.content.length < 2 ^ 23 :=
  ⟨roundTrip_fits short, fits_roundTrip short⟩

/-- `2 ^ 23` bytes are written and cannot be read. -/
theorem long_bytes_lost :
    ∃ b : { bytes : Bytes // bytes.length < 2 ^ 24 },
      b.1 = List.replicate (2 ^ 23) 0 ∧ ∀ short, ¬ RoundTrip short [.bytes b] := by
  have hlength : (List.replicate (2 ^ 23) (0 : UInt8)).length = 2 ^ 23 := List.length_replicate
  refine ⟨⟨List.replicate (2 ^ 23) 0, by omega⟩, rfl, fun short h => ?_⟩
  have hlong := (roundTrip_fits short h) _ (List.mem_singleton_self _)
  change (List.replicate (2 ^ 23) (0 : UInt8)).length < 2 ^ 23 at hlong
  omega

end Onegram.TL
