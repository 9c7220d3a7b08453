import Onegram.ChannelSortKeys
import Onegram.SortKeyBytes

/-!
# The order of stored sort keys

What a key holds is read back as it was given, and keys are in the order of their dates and then
of their ids. Where the kind of a conversation's key is changed, the last byte of the id is left to
the stack.
-/

namespace Onegram.Packed

/-! ## Integers as bytes -/

@[simp] theorem length_bytesOfInt32 (x : Int32) : (bytesOfInt32 x).length = 4 :=
  Bytes.length_bytesLE _ _

@[simp] theorem length_bytesOfInt64 (x : Int64) : (bytesOfInt64 x).length = 8 :=
  Bytes.length_bytesLE _ _

theorem int32OfBytes_bytesOfInt32 (x : Int32) : int32OfBytes (bytesOfInt32 x) = x := by
  have hlt := x.toUInt32.toNat_lt
  rw [int32OfBytes, bytesOfInt32, Bytes.littleEndian_bytesLE, Nat.mod_eq_of_lt (by norm_num; omega),
    UInt32.ofNat_toNat, Int32.toInt32_toUInt32]

theorem int64OfBytes_bytesOfInt64 (x : Int64) : int64OfBytes (bytesOfInt64 x) = x := by
  have hlt := x.toUInt64.toNat_lt
  rw [int64OfBytes, bytesOfInt64, Bytes.littleEndian_bytesLE, Nat.mod_eq_of_lt (by norm_num; omega),
    UInt64.ofNat_toNat, Int64.toInt64_toUInt64]

theorem bytesOfInt32_int32OfBytes {b : Bytes} (h : b.length = 4) :
    bytesOfInt32 (int32OfBytes b) = b := by
  have hlt := Bytes.littleEndian_lt b
  rw [h] at hlt
  have hb := Bytes.bytesLE_littleEndian b
  rw [h] at hb
  rw [bytesOfInt32, int32OfBytes, UInt32.toUInt32_toInt32, UInt32.toNat_ofNat_of_lt' (by
    norm_num [UInt32.size] at hlt ⊢; omega), hb]

/-- Swapped and in the order of the machine is big-endian. -/
theorem bytesOfInt32_NSSwapInt (x : Int32) :
    bytesOfInt32 (NSSwapInt x) = Bytes.bytesBE 4 x.toUInt32.toNat := by
  rw [NSSwapInt, bytesOfInt32_int32OfBytes (by simp), bytesOfInt32, Bytes.reverse_bytesLE]

theorem NSSwapInt_NSSwapInt (x : Int32) : NSSwapInt (NSSwapInt x) = x := by
  rw [NSSwapInt, bytesOfInt32_NSSwapInt, ← Bytes.reverse_bytesLE, List.reverse_reverse]
  exact int32OfBytes_bytesOfInt32 x

/-- What the two dates or ids that are not negative are as unsigned numbers. -/
theorem compare_toNat {x y : Int32} (hx : 0 ≤ x.toInt) (hy : 0 ≤ y.toInt) :
    compare (x.toUInt32.toNat % 256 ^ 4) (y.toUInt32.toNat % 256 ^ 4)
      = compare x.toInt y.toInt := by
  have hnat : ∀ {z : Int32}, 0 ≤ z.toInt → z.toInt = (z.toUInt32.toNat % 256 ^ 4 : ℕ) := by
    intro z hz
    have hlt := z.toUInt32.toNat_lt
    have hbit : z.toInt = z.toBitVec.toInt := rfl
    have hnat : z.toUInt32.toNat = z.toBitVec.toNat := rfl
    rw [hbit, BitVec.toInt_eq_toNat_cond] at hz ⊢
    rw [← hnat] at hz ⊢
    split_ifs at hz ⊢ <;> omega
  rw [hnat hx, hnat hy, Int.compare_eq_ite_le, Nat.compare_eq_ite_le]
  simp only [Int.ofNat_le]

theorem compare_dates {t m t' m' : Int32} (ht : 0 ≤ t.toInt) (hm : 0 ≤ m.toInt) (ht' : 0 ≤ t'.toInt)
    (hm' : 0 ≤ m'.toInt) :
    compare (Bytes.bytesBE 4 t.toUInt32.toNat ++ Bytes.bytesBE 4 m.toUInt32.toNat)
        (Bytes.bytesBE 4 t'.toUInt32.toNat ++ Bytes.bytesBE 4 m'.toUInt32.toNat)
      = (compare t.toInt t'.toInt).then (compare m.toInt m'.toInt) := by
  rw [Bytes.compare_append (by simp), Bytes.compare_bytesBE, Bytes.compare_bytesBE,
    compare_toNat ht ht', compare_toNat hm hm']

/-! ## What the keys are made of -/

/-- A field behind those that are written already. -/
theorem take_blit_after {n off k : ℕ} {v : Vector UInt8 n} {p src : Bytes}
    (hp : v.toList.take off = p) (hk : src.length = k) (h : off + k ≤ n) :
    (Bytes.blit v off src).toList.take (off + k) = p ++ src := by
  subst hk
  rw [Bytes.take_blit v h, hp]

theorem length_byte (x : UInt8) : [x].length = 1 := rfl

theorem take_toList {n : ℕ} (v : Vector UInt8 n) : v.toList.take n = v.toList :=
  List.take_of_length_le (by simp)

theorem toList_TGMessageSortKeyMake (stack : Vector UInt8 17) (peerId : Int64) (space : UInt8)
    (timestamp mid : Int32) :
    (TGMessageSortKeyMake stack peerId space timestamp mid).key.toList
      = bytesOfInt64 peerId ++ [space] ++ bytesOfInt32 (NSSwapInt timestamp)
        ++ bytesOfInt32 (NSSwapInt mid) := by
  have hstart : stack.toList.take 0 = [] := rfl
  have hpeer := take_blit_after hstart (length_bytesOfInt64 peerId) (by norm_num)
  have hspace := take_blit_after hpeer (length_byte space) (by norm_num)
  have hdate := take_blit_after hspace (length_bytesOfInt32 (NSSwapInt timestamp)) (by norm_num)
  have hmid := take_blit_after hdate (length_bytesOfInt32 (NSSwapInt mid)) (by norm_num)
  rwa [take_toList] at hmid

theorem toList_TGMessageTransparentSortKeyMake (stack : Vector UInt8 17) (peerId : Int64)
    (timestamp mid : Int32) (space : UInt8) :
    (TGMessageTransparentSortKeyMake stack peerId timestamp mid space).key.toList
      = bytesOfInt64 peerId ++ bytesOfInt32 (NSSwapInt timestamp) ++ bytesOfInt32 (NSSwapInt mid)
        ++ [space] := by
  have hstart : stack.toList.take 0 = [] := rfl
  have hpeer := take_blit_after hstart (length_bytesOfInt64 peerId) (by norm_num)
  have hdate := take_blit_after hpeer (length_bytesOfInt32 (NSSwapInt timestamp)) (by norm_num)
  have hmid := take_blit_after hdate (length_bytesOfInt32 (NSSwapInt mid)) (by norm_num)
  have hspace := take_blit_after hmid (length_byte space) (by norm_num)
  rwa [take_toList] at hspace

theorem toList_TGConversationSortKeyMake (stack : Vector UInt8 9) (kind : UInt8)
    (timestamp mid : Int32) :
    (TGConversationSortKeyMake stack kind timestamp mid).key.toList
      = [kind] ++ bytesOfInt32 (NSSwapInt timestamp) ++ bytesOfInt32 (NSSwapInt mid) := by
  have hstart : stack.toList.take 0 = [] := rfl
  have hkind := take_blit_after hstart (length_byte kind) (by norm_num)
  have hdate := take_blit_after hkind (length_bytesOfInt32 (NSSwapInt timestamp)) (by norm_num)
  have hmid := take_blit_after hdate (length_bytesOfInt32 (NSSwapInt mid)) (by norm_num)
  rwa [take_toList] at hmid

/-! ## What is read back -/

/-- A field is read from between those before and behind it. -/
theorem slice_field {off n : ℕ} {l a b r : Bytes} (h : l = a ++ b ++ r) (ha : a.length = off)
    (hb : b.length = n) : (Bytes.slice l off n).toList = b := by
  rw [h, List.append_assoc, Bytes.slice_after _ ha, Bytes.slice_append_left _ (by omega),
    Bytes.toList_slice_self _ hb]

theorem getElem_field {n i : ℕ} {v : Vector UInt8 n} {x : UInt8} {a r : Bytes} (hi : i < n)
    (h : v.toList = a ++ [x] ++ r) (ha : a.length = i) : v[i] = x := by
  subst ha
  rw [← Vector.getElem_toList (by simpa using hi)]
  simp [h]

theorem read_int32 {l a r : Bytes} {off : ℕ} {x : Int32}
    (h : l = a ++ bytesOfInt32 (NSSwapInt x) ++ r) (ha : a.length = off) :
    NSSwapInt (int32OfBytes (Bytes.slice l off 4).toList) = x := by
  rw [slice_field h ha (length_bytesOfInt32 _), int32OfBytes_bytesOfInt32, NSSwapInt_NSSwapInt]

theorem read_int64 {l r : Bytes} {x : Int64} (h : l = bytesOfInt64 x ++ r) :
    int64OfBytes (Bytes.slice l 0 8).toList = x := by
  rw [h, Bytes.slice_append_left _ (by simp), Bytes.toList_slice_self _ (length_bytesOfInt64 x),
    int64OfBytes_bytesOfInt64]

theorem accessors_TGMessageSortKeyMake (stack : Vector UInt8 17) (peerId : Int64) (space : UInt8)
    (timestamp mid : Int32) :
    let key := TGMessageSortKeyMake stack peerId space timestamp mid
    TGMessageSortKeyPeerId key = peerId ∧ TGMessageSortKeySpace key = space
      ∧ TGMessageSortKeyTimestamp key = timestamp ∧ TGMessageSortKeyMid key = mid := by
  intro key
  have hkey : key.key.toList = _ := toList_TGMessageSortKeyMake stack peerId space timestamp mid
  have hmid := hkey.trans (List.append_nil _).symm
  have hspace := hkey.trans (List.append_assoc _ _ _)
  have hpeer := hspace.trans (List.append_assoc _ _ _)
  exact ⟨read_int64 hpeer, getElem_field (by norm_num) hspace (by simp), read_int32 hkey (by simp),
    read_int32 hmid (by simp)⟩

theorem accessors_TGMessageTransparentSortKeyMake (stack : Vector UInt8 17) (peerId : Int64)
    (timestamp mid : Int32) (space : UInt8) :
    let key := TGMessageTransparentSortKeyMake stack peerId timestamp mid space
    TGMessageTransparentSortKeyPeerId key = peerId ∧ TGMessageTransparentSortKeySpace key = space
      ∧ TGMessageTransparentSortKeyTimestamp key = timestamp
      ∧ TGMessageTransparentSortKeyMid key = mid := by
  intro key
  have hkey : key.key.toList = _ :=
    toList_TGMessageTransparentSortKeyMake stack peerId timestamp mid space
  have hspace := hkey.trans (List.append_nil _).symm
  have hdate := hkey.trans (List.append_assoc _ _ _)
  have hpeer := hdate.trans (List.append_assoc _ _ _)
  exact ⟨read_int64 hpeer, getElem_field (by norm_num) hspace (by simp),
    read_int32 hdate (by simp), read_int32 hkey (by simp)⟩

theorem accessors_TGConversationSortKeyMake (stack : Vector UInt8 9) (kind : UInt8)
    (timestamp mid : Int32) :
    let key := TGConversationSortKeyMake stack kind timestamp mid
    TGConversationSortKeyKind key = kind ∧ TGConversationSortKeyTimestamp key = timestamp
      ∧ TGConversationSortKeyMid key = mid := by
  intro key
  have hkey : key.key.toList = _ := toList_TGConversationSortKeyMake stack kind timestamp mid
  have hmid := hkey.trans (List.append_nil _).symm
  have hkind : key.key.toList = [] ++ [kind] ++ _ := hkey.trans (List.append_assoc _ _ _)
  exact ⟨getElem_field (by norm_num) hkind rfl, read_int32 hkey rfl, read_int32 hmid (by simp)⟩

/-! ## The order -/

theorem compare_TGMessageSortKeyMake (stack stack' : Vector UInt8 17) (peerId : Int64)
    (space space' : UInt8) (t m t' m' : Int32) :
    TGMessageSortKeyCompare (TGMessageSortKeyMake stack peerId space t m)
        (TGMessageSortKeyMake stack' peerId space' t' m')
      = compare ([space] ++ (Bytes.bytesBE 4 t.toUInt32.toNat ++ Bytes.bytesBE 4 m.toUInt32.toNat))
        ([space'] ++ (Bytes.bytesBE 4 t'.toUInt32.toNat ++ Bytes.bytesBE 4 m'.toUInt32.toNat)) := by
  simp only [TGMessageSortKeyCompare, toList_TGMessageSortKeyMake, bytesOfInt32_NSSwapInt,
    List.append_assoc, Bytes.compare_append_left]

theorem compare_TGMessageTransparentSortKeyMake (stack stack' : Vector UInt8 17) (peerId : Int64)
    (space space' : UInt8) {t m t' m' : Int32} (ht : 0 ≤ t.toInt) (hm : 0 ≤ m.toInt)
    (ht' : 0 ≤ t'.toInt) (hm' : 0 ≤ m'.toInt) :
    TGMessageTransparentSortKeyCompare (TGMessageTransparentSortKeyMake stack peerId t m space)
        (TGMessageTransparentSortKeyMake stack' peerId t' m' space')
      = ((compare t.toInt t'.toInt).then (compare m.toInt m'.toInt)).then
        (compare space space') := by
  simp only [TGMessageTransparentSortKeyCompare, toList_TGMessageTransparentSortKeyMake,
    bytesOfInt32_NSSwapInt, List.append_assoc, Bytes.compare_append_left]
  rw [← List.append_assoc, ← List.append_assoc, Bytes.compare_append (by simp),
    compare_dates ht hm ht' hm', List.compare_cons_cons, List.compare_nil_nil, Ordering.then_eq]

theorem compare_TGConversationSortKeyMake (stack stack' : Vector UInt8 9) (kind : UInt8)
    {t m t' m' : Int32} (ht : 0 ≤ t.toInt) (hm : 0 ≤ m.toInt) (ht' : 0 ≤ t'.toInt)
    (hm' : 0 ≤ m'.toInt) :
    TGConversationSortKeyCompare (TGConversationSortKeyMake stack kind t m)
        (TGConversationSortKeyMake stack' kind t' m')
      = (compare t.toInt t'.toInt).then (compare m.toInt m'.toInt) := by
  simp only [TGConversationSortKeyCompare, toList_TGConversationSortKeyMake,
    bytesOfInt32_NSSwapInt, List.append_assoc, Bytes.compare_append_left,
    compare_dates ht hm ht' hm']

theorem ofInt_toInt (x : Int32) : (BitVec.ofInt 32 x.toInt).toNat = x.toUInt32.toNat := by
  show (BitVec.ofInt 32 x.toBitVec.toInt).toNat = x.toBitVec.toNat
  rw [BitVec.ofInt_toInt]

/-- Keys of one peer are in the order of the ranks they are given elsewhere. -/
theorem compare_eq_rank (stack stack' : Vector UInt8 17) (peerId : Int64) (space space' : UInt8)
    (t m t' m' : Int32) :
    TGMessageSortKeyCompare (TGMessageSortKeyMake stack peerId space t m)
        (TGMessageSortKeyMake stack' peerId space' t' m')
      = Onegram.TGMessageSortKeyCompare
        (Onegram.TGMessageSortKeyMake space.toBitVec t.toInt m.toInt)
        (Onegram.TGMessageSortKeyMake space'.toBitVec t'.toInt m'.toInt) := by
  have hlt := fun x : Int32 => x.toUInt32.toNat_lt
  have hword : (256 : ℕ) ^ 4 = 2 ^ 32 := by norm_num
  have hbyte := Bytes.compare_byte space.toNat space'.toNat
  rw [UInt8.ofNat_toNat, UInt8.ofNat_toNat, Nat.mod_eq_of_lt space.toNat_lt,
    Nat.mod_eq_of_lt space'.toNat_lt] at hbyte
  have hlength : [space].length = [space'].length := rfl
  rw [compare_TGMessageSortKeyMake, Bytes.compare_append hlength, hbyte,
    Bytes.compare_append (by simp), Bytes.compare_bytesBE, Bytes.compare_bytesBE, hword,
    Nat.mod_eq_of_lt (hlt t), Nat.mod_eq_of_lt (hlt m), Nat.mod_eq_of_lt (hlt t'),
    Nat.mod_eq_of_lt (hlt m')]
  simp only [Onegram.TGMessageSortKeyCompare, TGMessageSortKey.rank, keyRank,
    Onegram.TGMessageSortKeyMake, ofInt_toInt]
  rw [Bytes.compare_mul_add (hlt m) (hlt m'), Bytes.compare_mul_add (hlt t) (hlt t'),
    Ordering.then_assoc]
  rfl

/-! ## The kind is changed -/

theorem getElem_blit {n off i : ℕ} (v : Vector UInt8 n) (src : Bytes) (hi : i < n) :
    (Bytes.blit v off src)[i]
      = if off ≤ i ∧ i < off + src.length then src.getD (i - off) 0 else v[i] := by
  rw [Bytes.blit, Vector.getElem_ofFn]
  rfl

theorem getElem_UpdateKind (stack : Vector UInt8 9) (key : TGConversationSortKey) (kind : UInt8)
    {i : ℕ} (hi : i < 9) :
    (TGConversationSortKeyUpdateKind stack key kind).key[i]
      = if i = 0 then kind else if i < 8 then key.key[i] else stack[i] := by
  have hcopy : (key.key.toList.take 8).length = 8 := by simp
  simp only [TGConversationSortKeyUpdateKind, getElem_blit, List.length_singleton, hcopy]
  rcases Nat.eq_zero_or_pos i with rfl | hpos
  · rfl
  · have hbehind : ¬(0 ≤ i ∧ i < 0 + 1) := by omega
    have hne : ¬i = 0 := by omega
    rw [if_neg hbehind, if_neg hne]
    by_cases hlt : i < 8
    · rw [if_pos (by omega), if_pos hlt, List.getD_eq_getElem _ _ (by simp; omega)]
      simp
    · rw [if_neg (by omega), if_neg hlt]

theorem getElem_slice_toList {n off k i : ℕ} (v : Vector UInt8 n) (hi : i < k) (h : off + k ≤ n) :
    (Bytes.slice v.toList off k)[i] = v[off + i] := by
  simp only [Bytes.slice, Vector.getElem_ofFn]
  rw [List.getD_eq_getElem _ _ (by simp; omega)]
  simp

theorem NSSwapInt_int32OfBytes_inj {v w : Vector UInt8 4} :
    NSSwapInt (int32OfBytes v.toList) = NSSwapInt (int32OfBytes w.toList) ↔ v = w := by
  refine ⟨fun h => ?_, fun h => h ▸ rfl⟩
  have hint := congrArg NSSwapInt h
  rw [NSSwapInt_NSSwapInt, NSSwapInt_NSSwapInt] at hint
  have hbytes := congrArg bytesOfInt32 hint
  rw [bytesOfInt32_int32OfBytes Vector.length_toList,
    bytesOfInt32_int32OfBytes Vector.length_toList] at hbytes
  exact Vector.toList_inj.mp hbytes

theorem timestamp_UpdateKind (stack : Vector UInt8 9) (key : TGConversationSortKey) (kind : UInt8) :
    TGConversationSortKeyTimestamp (TGConversationSortKeyUpdateKind stack key kind)
      = TGConversationSortKeyTimestamp key := by
  refine NSSwapInt_int32OfBytes_inj.mpr (Vector.ext fun i hi => ?_)
  rw [getElem_slice_toList _ hi (by norm_num), getElem_slice_toList _ hi (by norm_num),
    getElem_UpdateKind, if_neg (by omega), if_pos (by omega)]

/-- The id's last byte is what the stack held there. -/
theorem mid_UpdateKind_iff (stack : Vector UInt8 9) (key : TGConversationSortKey) (kind : UInt8) :
    TGConversationSortKeyMid (TGConversationSortKeyUpdateKind stack key kind)
      = TGConversationSortKeyMid key ↔ stack[8] = key.key[8] := by
  refine NSSwapInt_int32OfBytes_inj.trans ⟨fun h => ?_, fun h => Vector.ext fun i hi => ?_⟩
  · have hlast := congrArg (fun v => v[3]) h
    rwa [getElem_slice_toList _ (by norm_num) (by norm_num),
      getElem_slice_toList _ (by norm_num) (by norm_num), getElem_UpdateKind] at hlast
  · rw [getElem_slice_toList _ hi (by norm_num), getElem_slice_toList _ hi (by norm_num),
      getElem_UpdateKind, if_neg (by omega)]
    split_ifs with hlt
    · rfl
    · have hi : i = 3 := by omega
      subst hi
      exact h

/-! ## All of it -/

/-- The order of the three kinds of keys and what is read back from them. -/
structure SortKeyLaws (stack stack' : Vector UInt8 17) (small small' : Vector UInt8 9)
    (peerId : Int64) (space kind : UInt8) (timestamp mid timestamp' mid' : Int32) : Prop where
  message : TGMessageSortKeyCompare (TGMessageSortKeyMake stack peerId space timestamp mid)
      (TGMessageSortKeyMake stack' peerId space timestamp' mid')
    = (compare timestamp.toInt timestamp'.toInt).then (compare mid.toInt mid'.toInt)
  transparent : TGMessageTransparentSortKeyCompare
      (TGMessageTransparentSortKeyMake stack peerId timestamp mid space)
      (TGMessageTransparentSortKeyMake stack' peerId timestamp' mid' space)
    = (compare timestamp.toInt timestamp'.toInt).then (compare mid.toInt mid'.toInt)
  conversation : TGConversationSortKeyCompare (TGConversationSortKeyMake small kind timestamp mid)
      (TGConversationSortKeyMake small' kind timestamp' mid')
    = (compare timestamp.toInt timestamp'.toInt).then (compare mid.toInt mid'.toInt)
  message_read : let key := TGMessageSortKeyMake stack peerId space timestamp mid
    TGMessageSortKeyPeerId key = peerId ∧ TGMessageSortKeySpace key = space
      ∧ TGMessageSortKeyTimestamp key = timestamp ∧ TGMessageSortKeyMid key = mid
  transparent_read : let key := TGMessageTransparentSortKeyMake stack peerId timestamp mid space
    TGMessageTransparentSortKeyPeerId key = peerId ∧ TGMessageTransparentSortKeySpace key = space
      ∧ TGMessageTransparentSortKeyTimestamp key = timestamp
      ∧ TGMessageTransparentSortKeyMid key = mid
  conversation_read : let key := TGConversationSortKeyMake small kind timestamp mid
    TGConversationSortKeyKind key = kind ∧ TGConversationSortKeyTimestamp key = timestamp
      ∧ TGConversationSortKeyMid key = mid

/-- The kind is the one that was asked for and all else as it was. -/
def ChangesKindOnly (stack : Vector UInt8 9) (key : TGConversationSortKey) (kind : UInt8) : Prop :=
  let updated := TGConversationSortKeyUpdateKind stack key kind
  TGConversationSortKeyKind updated = kind
    ∧ TGConversationSortKeyTimestamp updated = TGConversationSortKeyTimestamp key
    ∧ TGConversationSortKeyMid updated = TGConversationSortKeyMid key

instance instDecidableChangesKindOnly (stack : Vector UInt8 9) (key : TGConversationSortKey)
    (kind : UInt8) : Decidable (ChangesKindOnly stack key kind) :=
  inferInstanceAs (Decidable (_ ∧ _ ∧ _))

/-- Orders and accessors are right in all keys, and a change of the kind keeps the id where the
stack happened to hold its last byte. -/
theorem sort_keys (stack stack' : Vector UInt8 17) (small small' updated : Vector UInt8 9)
    (peerId : Int64) (space kind kind' : UInt8) {timestamp mid timestamp' mid' : Int32}
    (htimestamp : 0 ≤ timestamp.toInt) (hmid : 0 ≤ mid.toInt) (htimestamp' : 0 ≤ timestamp'.toInt)
    (hmid' : 0 ≤ mid'.toInt) (key : TGConversationSortKey) :
    SortKeyLaws stack stack' small small' peerId space kind timestamp mid timestamp' mid'
      ∧ (ChangesKindOnly updated key kind' ↔ updated[8] = key.key[8]) := by
  constructor
  · constructor
    · rw [compare_TGMessageSortKeyMake, Bytes.compare_append_left,
        compare_dates htimestamp hmid htimestamp' hmid']
    · rw [compare_TGMessageTransparentSortKeyMake _ _ _ _ _ htimestamp hmid htimestamp' hmid',
        Std.ReflOrd.compare_self, Ordering.then_eq]
    · exact compare_TGConversationSortKeyMake _ _ _ htimestamp hmid htimestamp' hmid'
    · exact accessors_TGMessageSortKeyMake stack peerId space timestamp mid
    · exact accessors_TGMessageTransparentSortKeyMake stack peerId timestamp mid space
    · exact accessors_TGConversationSortKeyMake small kind timestamp mid
  · rw [← mid_UpdateKind_iff updated key kind']
    exact ⟨fun h => h.2.2, fun h => ⟨getElem_UpdateKind updated key kind' (by norm_num),
      timestamp_UpdateKind updated key kind', h⟩⟩

theorem sort_keys_dated :
    SortKeyLaws (Bytes.zeros 17) (Bytes.zeros 17) (Bytes.zeros 9) (Bytes.zeros 9) 7 1 0 10 3 10 4
      ∧ (ChangesKindOnly (Bytes.zeros 9) (TGConversationSortKeyMake (Bytes.zeros 9) 0 10 3) 1
        ↔ (Bytes.zeros 9)[8] = (TGConversationSortKeyMake (Bytes.zeros 9) 0 10 3).key[8]) :=
  sort_keys (Bytes.zeros 17) (Bytes.zeros 17) (Bytes.zeros 9) (Bytes.zeros 9) (Bytes.zeros 9) 7 1
    0 1 (by decide) (by decide) (by decide) (by decide) _

/-- A key of a message with the id 3, of which zeros remain. -/
theorem update_kind_loses_id :
    ¬ChangesKindOnly (Bytes.zeros 9) (TGConversationSortKeyMake (Bytes.zeros 9) 0 10 3) 1 := by
  decide +kernel

end Onegram.Packed
