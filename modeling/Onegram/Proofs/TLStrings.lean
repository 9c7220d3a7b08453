import Onegram.Proofs.TLSerialization
import Onegram.TLSerialization

/-!
# Where the readers of strings agree

`MTInputStream` takes a length that is cut off for the bytes of it that are there, and looks for no
padding. So it notices a missing payload only. `MTBufferReader` leaves a payload that is not all
there, which the stream has taken by then. The two do the same on a complete string, and on a length
with nothing behind it.
-/

namespace Onegram.TLStrings

open Bytes TL

/-! ## Lengths -/

theorem total_padding_short (n : ℕ) :
    (roundUp ((n : ℤ) + 1) 4 - ((n : ℤ) + 1)).toNat = total 1 n - (1 + n) := by
  obtain ⟨k, hk, -, hdvd, hpadding⟩ := roundUp_padding (n + 1)
  push_cast at hpadding
  rw [hpadding]
  unfold total
  omega

theorem total_padding_long (n : ℕ) : (roundUp (n : ℤ) 4 - (n : ℤ)).toNat = total 4 n - (4 + n) := by
  obtain ⟨k, hk, -, hdvd, hpadding⟩ := roundUp_padding n
  rw [hpadding]
  unfold total
  omega

theorem le_total (k n : ℕ) : k + n ≤ total k n := by
  unfold total
  omega

theorem lengthPrefix_none_iff (s : Bytes) :
    lengthPrefix s = none ↔ s = [] ∨ ∃ t, s = 254 :: t ∧ t.length < 3 := by
  unfold lengthPrefix
  rcases s with _ | ⟨x, t⟩
  · simp
  · by_cases hx : x = 254
    · subst hx
      by_cases ht : 3 ≤ t.length
      · simp [ht]
      · simp [ht, not_le.mp ht]
    · simp [hx]

/-- Lengths are read from the beginning of what is there. -/
theorem prefix_cases {s : Bytes} {k n : ℕ} (h : lengthPrefix s = some (k, n)) :
    (∃ x t, x ≠ 254 ∧ s = x :: t ∧ k = 1 ∧ n = x.toNat)
      ∨ ∃ t, 3 ≤ t.length ∧ s = 254 :: t ∧ k = 4 ∧ n = littleEndian (t.take 3) := by
  unfold lengthPrefix at h
  split at h
  · cases h
  · rename_i x t
    split_ifs at h with hx ht
    · obtain ⟨rfl, rfl⟩ := Prod.mk.inj (Option.some.inj h)
      exact .inr ⟨t, ht, by rw [hx], rfl, rfl⟩
    · obtain ⟨rfl, rfl⟩ := Prod.mk.inj (Option.some.inj h)
      exact .inl ⟨x, t, hx, rfl, rfl, rfl⟩

theorem prefix_le {s : Bytes} {k n : ℕ} (h : lengthPrefix s = some (k, n)) :
    0 < k ∧ k ≤ s.length := by
  rcases prefix_cases h with ⟨x, t, -, rfl, rfl, -⟩ | ⟨t, ht, rfl, rfl, -⟩
  · simp
  · simp only [List.length_cons]
    omega

/-! ## `MTInputStream` -/

section Stream

open TLStrings.MTInputStream

theorem skipPadding_eq : ∀ (n : ℕ) (stream : Bytes), skipPadding n stream = stream.drop n
  | 0, stream => rfl
  | n + 1, stream => by
    unfold skipPadding MTInputStream.read
    rw [skipPadding_eq n, List.drop_drop, Nat.add_comm]

theorem readFull_eq (length : ℕ) (stream : Bytes) :
    readFull length stream
      = if length ≤ stream.length then (.accepted (stream.take length), stream.drop length)
        else (.failed, []) := by
  unfold readFull MTInputStream.read
  simp only [List.length_take]
  by_cases h : length ≤ stream.length
  · rw [if_pos (by omega), if_pos h]
  · rw [if_neg (by omega), if_neg h, List.drop_eq_nil_of_le (by omega)]

theorem readLength_short {x : UInt8} (h : x ≠ 254) (t : Bytes) :
    readLength (x :: t)
      = (((x.toNat : ℤ), roundUp ((x.toNat : ℤ) + 1) 4 - ((x.toNat : ℤ) + 1)), t) := by
  have hne : ¬ [x] = [254] := by simpa using h
  have hvalue : littleEndian [x] = x.toNat := by simp [littleEndian]
  unfold readLength MTInputStream.read
  simp only [List.take_succ_cons, List.take_zero, List.drop_succ_cons, List.drop_zero]
  rw [if_neg hne, hvalue]

theorem readLength_long (t : Bytes) :
    readLength (254 :: t)
      = ((shiftedLength (t.take 3), roundUp (shiftedLength (t.take 3)) 4
          - shiftedLength (t.take 3)), t.drop 3) := by
  unfold readLength
  exact if_pos rfl

/-- A whole length below the sign is read for what it is. -/
theorem readLength_prefix {s : Bytes} {k n : ℕ} (h : lengthPrefix s = some (k, n))
    (hn : n < 2 ^ 23) :
    ∃ paddingBytes : ℤ, readLength s = (((n : ℤ), paddingBytes), s.drop k)
      ∧ paddingBytes.toNat = total k n - (k + n) := by
  rcases prefix_cases h with ⟨x, t, hx, rfl, rfl, rfl⟩ | ⟨t, ht, rfl, rfl, rfl⟩
  · exact ⟨_, readLength_short hx t, total_padding_short _⟩
  · have hlength : shiftedLength (t.take 3) = (littleEndian (t.take 3) : ℕ) := by
      rw [shiftedLength_eq (by rw [List.length_take]; omega), if_pos hn]
    refine ⟨_, ?_, total_padding_long (littleEndian (t.take 3))⟩
    rw [readLength_long, hlength]
    rfl

theorem readLength_negative {s : Bytes} {k n : ℕ} (h : lengthPrefix s = some (k, n))
    (hn : 2 ^ 23 ≤ n) : (readLength s).1.1 < 0 := by
  rcases prefix_cases h with ⟨x, t, hx, rfl, rfl, rfl⟩ | ⟨t, ht, rfl, rfl, rfl⟩
  · have := x.toNat_lt
    omega
  · have hbytes : (t.take 3).length = 3 := by
      rw [List.length_take]
      omega
    have hlt := littleEndian_lt (t.take 3)
    rw [hbytes] at hlt
    rw [readLength_long]
    simp only []
    rw [shiftedLength_eq hbytes, if_neg (by omega)]
    omega

variable (readNull : NullRead)

theorem stream_readBytes {s : Bytes} {k n : ℕ} (h : lengthPrefix s = some (k, n))
    (hn : n < 2 ^ 23) :
    readBytes readNull s
      = if k + n ≤ s.length then (.accepted ((s.drop k).take n), s.drop (total k n))
        else (.failed, []) := by
  obtain ⟨paddingBytes, hlength, hpadding⟩ := readLength_prefix h hn
  have hk := prefix_le h
  have htotal := le_total k n
  unfold readBytes
  rw [hlength]
  simp only []
  rw [if_neg (by omega), Int.toNat_natCast, readFull_eq, List.length_drop]
  by_cases hfits : k + n ≤ s.length
  · rw [if_pos (by omega), if_pos hfits]
    simp only []
    rw [skipPadding_eq, hpadding, List.drop_drop, List.drop_drop]
    congr 2
    omega
  · rw [if_neg (by omega), if_neg hfits]

theorem stream_readString {s : Bytes} {k n : ℕ} (h : lengthPrefix s = some (k, n))
    (hn : n < 2 ^ 23) :
    readString s
      = if k + n ≤ s.length then
          (.accepted (if 0 < n then ofUtf8 ((s.drop k).take n) else some ""), s.drop (total k n))
        else (.failed, []) := by
  obtain ⟨paddingBytes, hlength, hpadding⟩ := readLength_prefix h hn
  have hk := prefix_le h
  have htotal := le_total k n
  unfold readString
  rw [hlength]
  simp only []
  by_cases hpos : 0 < n
  · rw [if_pos (by omega), Int.toNat_natCast, readFull_eq, List.length_drop, if_pos hpos]
    by_cases hfits : k + n ≤ s.length
    · rw [if_pos (by omega), if_pos hfits]
      simp only []
      rw [skipPadding_eq, hpadding, List.drop_drop, List.drop_drop]
      congr 2
      omega
    · rw [if_neg (by omega), if_neg hfits]
  · rw [if_neg (by omega), if_pos (by omega), if_neg hpos, skipPadding_eq, hpadding, List.drop_drop]
    congr 2
    omega

/-- A length that reads as negative is a string of no bytes. -/
theorem stream_readString_negative {s : Bytes} {k n : ℕ} (h : lengthPrefix s = some (k, n))
    (hn : 2 ^ 23 ≤ n) : (readString s).1 = .accepted (some "") := by
  have hlength := readLength_negative h hn
  unfold readString
  simp only []
  rw [if_neg (not_lt.mpr hlength.le)]

end Stream

/-! ## `MTBufferReader` -/

section Buffer

open TLStrings.MTBufferReader

variable {data : Bytes} {offset : ℕ}

theorem readBytes_eq (n : ℕ) (h : offset ≤ data.length) :
    readBytes data n offset
      = if n ≤ (data.drop offset).length then
          (some ((data.drop offset).take n), offset + n)
        else (none, offset) := by
  unfold readBytes
  rw [List.length_drop]
  by_cases hfits : n ≤ data.length - offset
  · rw [if_neg (by omega), if_pos hfits, Int.toNat_natCast]
    congr 1
  · rw [if_pos (by omega), if_neg hfits]

/-- The padding is taken as far as it is there. -/
theorem readPadding_eq : ∀ (n : ℕ) {offset : ℕ}, offset ≤ data.length →
    readPadding data n offset
      = if offset + n ≤ data.length then (true, offset + n) else (false, data.length)
  | 0, offset, h => by
    rw [readPadding, if_pos (by omega), Nat.add_zero]
  | n + 1, offset, h => by
    have hone := readBytes_eq 1 h
    rw [List.length_drop, Nat.cast_one] at hone
    unfold readPadding
    rw [hone]
    by_cases hleft : 1 ≤ data.length - offset
    · rw [if_pos hleft]
      simp only []
      rw [readPadding_eq n (by omega)]
      by_cases hall : offset + (n + 1) ≤ data.length
      · rw [if_pos (by omega), if_pos hall, Nat.add_assoc, Nat.add_comm 1 n]
      · rw [if_neg (by omega), if_neg hall]
    · rw [if_neg hleft, if_neg (by omega)]
      simp only []
      congr 1
      omega

theorem readPadded_eq (n : ℕ) (paddingBytes : ℤ) (h : offset ≤ data.length) :
    readPadded data n paddingBytes offset
      = if offset + n + paddingBytes.toNat ≤ data.length then
          (.accepted ((data.drop offset).take n), offset + n + paddingBytes.toNat)
        else if offset + n ≤ data.length then (.failed, data.length)
        else (.failed, offset) := by
  unfold readPadded
  rw [readBytes_eq n h, List.length_drop]
  by_cases hpayload : n ≤ data.length - offset
  · rw [if_pos hpayload]
    simp only []
    rw [if_neg (by omega), readPadding_eq _ (by omega)]
    by_cases hpadding : offset + n + paddingBytes.toNat ≤ data.length
    · rw [if_pos hpadding, if_pos hpadding]
    · rw [if_neg hpadding, if_neg hpadding, if_pos (by omega)]
  · rw [if_neg hpayload, if_neg (by omega), if_neg (by omega)]

/-- What is read of a whole length. -/
theorem readTLBytes_marked {k n : ℕ} (h : offset ≤ data.length)
    (hmark : lengthPrefix (data.drop offset) = some (k, n)) (hn : n < 2 ^ 23) :
    readTLBytes data offset
      = if offset + total k n ≤ data.length then
          (.accepted ((data.drop (offset + k)).take n), offset + total k n)
        else if offset + k + n ≤ data.length then (.failed, data.length)
        else (.failed, offset + k) := by
  have hk := prefix_le hmark
  have htotal := le_total k n
  rw [List.length_drop] at hk
  have hone := readBytes_eq 1 h
  rw [List.length_drop, Nat.cast_one, if_pos (by omega)] at hone
  rcases prefix_cases hmark with ⟨x, t, hx, hs, rfl, rfl⟩ | ⟨t, ht, hs, rfl, rfl⟩
  · have hne : ¬ [x] = [254] := by simpa using hx
    have hvalue : littleEndian [x] = x.toNat := by simp [littleEndian]
    have hsum : offset + 1 + x.toNat + (total 1 x.toNat - (1 + x.toNat))
        = offset + total 1 x.toNat := by omega
    rw [hs, List.take_succ_cons, List.take_zero] at hone
    unfold readTLBytes
    rw [hone]
    simp only []
    rw [if_neg hne, hvalue, readPadded_eq _ _ (by omega), total_padding_short, hsum]
  · have ht' : data.drop (offset + 1) = t := by
      rw [← List.drop_drop, hs]
      rfl
    have hlength : shiftedLength (t.take 3) = (littleEndian (t.take 3) : ℕ) := by
      rw [shiftedLength_eq (by rw [List.length_take]; omega), if_pos hn]
    have hthree := readBytes_eq 3 (by omega : offset + 1 ≤ data.length)
    rw [ht', if_pos ht] at hthree
    have hthree' : readBytes data 3 (offset + 1) = (some (t.take 3), offset + 1 + 3) := hthree
    have hsum : offset + 1 + 3 + littleEndian (t.take 3)
        + (total 4 (littleEndian (t.take 3)) - (4 + littleEndian (t.take 3)))
        = offset + total 4 (littleEndian (t.take 3)) := by omega
    rw [hs, List.take_succ_cons, List.take_zero] at hone
    unfold readTLBytes
    rw [hone]
    simp only []
    rw [if_pos trivial, hthree']
    simp only []
    rw [hlength, readPadded_eq _ _ (by omega), total_padding_long, hsum]

/-- What is read of a length that is negative when it is shifted. -/
theorem readTLBytes_negative {k n : ℕ} (h : offset ≤ data.length)
    (hmark : lengthPrefix (data.drop offset) = some (k, n)) (hn : 2 ^ 23 ≤ n) :
    readTLBytes data offset
      = if 2 ^ 24 ≤ offset + 4 + n then (.raised, offset + 4 + n - 2 ^ 24)
        else (.failed, offset + 4) := by
  have hk := prefix_le hmark
  rw [List.length_drop] at hk
  have hone := readBytes_eq 1 h
  rw [List.length_drop, Nat.cast_one, if_pos (by omega)] at hone
  rcases prefix_cases hmark with ⟨x, t, hx, hs, rfl, rfl⟩ | ⟨t, ht, hs, rfl, rfl⟩
  · have := x.toNat_lt
    omega
  · have ht' : data.drop (offset + 1) = t := by
      rw [← List.drop_drop, hs]
      rfl
    have hbytes : (t.take 3).length = 3 := by
      rw [List.length_take]
      omega
    have hlt := littleEndian_lt (t.take 3)
    rw [hbytes] at hlt
    have hlength : shiftedLength (t.take 3) = (littleEndian (t.take 3) : ℤ) - 2 ^ 24 := by
      rw [shiftedLength_eq hbytes, if_neg (by omega)]
    have hthree := readBytes_eq 3 (by omega : offset + 1 ≤ data.length)
    rw [ht', if_pos ht] at hthree
    have hthree' : readBytes data 3 (offset + 1) = (some (t.take 3), offset + 1 + 3) := hthree
    rw [hs, List.take_succ_cons, List.take_zero] at hone
    unfold readTLBytes
    rw [hone]
    simp only []
    rw [if_pos trivial, hthree']
    simp only []
    rw [hlength]
    unfold readPadded readBytes
    by_cases hback : 2 ^ 24 ≤ offset + 4 + littleEndian (t.take 3)
    · have hoffset : (((offset + 1 + 3 : ℕ) : ℤ)
          + ((littleEndian (t.take 3) : ℤ) - 2 ^ 24)).toNat
          = offset + 4 + littleEndian (t.take 3) - 2 ^ 24 := by omega
      rw [if_pos hback, if_neg (by omega), hoffset]
      simp only []
      rw [if_pos (by omega)]
    · rw [if_neg hback, if_pos (by omega)]

/-- What is read of a length that is not all there. -/
theorem readTLBytes_none (h : offset ≤ data.length) (hmark : lengthPrefix (data.drop offset) = none) :
    readTLBytes data offset = (.failed, min (offset + 1) data.length) := by
  have hone := readBytes_eq 1 h
  rw [List.length_drop, Nat.cast_one] at hone
  rcases (lengthPrefix_none_iff _).mp hmark with hs | ⟨t, hs, ht⟩
  · have hlen := congrArg List.length hs
    rw [List.length_drop, List.length_nil] at hlen
    rw [if_neg (by omega)] at hone
    unfold readTLBytes
    rw [hone]
    simp only []
    congr 1
    omega
  · have hlen := congrArg List.length hs
    rw [List.length_drop, List.length_cons] at hlen
    have ht' : data.drop (offset + 1) = t := by
      rw [← List.drop_drop, hs]
      rfl
    have hthree := readBytes_eq 3 (by omega : offset + 1 ≤ data.length)
    rw [ht', if_neg (by omega)] at hthree
    have hthree' : readBytes data 3 (offset + 1) = (none, offset + 1) := hthree
    rw [if_pos (by omega), hs, List.take_succ_cons, List.take_zero] at hone
    unfold readTLBytes
    rw [hone]
    simp only []
    rw [if_pos trivial, hthree']
    simp only []
    congr 1
    omega

end Buffer

/-! ## Both -/

/-- A stream on what is left of the data from `offset` on fails exactly where no complete string is,
and then it accepts what a buffer accepts there, and stops where the buffer stops. -/
structure Detects (readNull : TLStrings.MTInputStream.NullRead) (data : Bytes) (offset : ℕ) :
    Prop where
  bytes_failed : (MTInputStream.readBytes readNull (data.drop offset)).1 = .failed
    ↔ ¬ Complete (data.drop offset)
  string_failed : (MTInputStream.readString (data.drop offset)).1 = .failed
    ↔ ¬ Complete (data.drop offset)
  bytes_accepted : (MTInputStream.readBytes readNull (data.drop offset)).1.isAccepted
    ↔ (MTBufferReader.readTLBytes data offset).1.isAccepted
  string_accepted : (MTInputStream.readString (data.drop offset)).1.isAccepted
    ↔ (MTBufferReader.readTLBytes data offset).1.isAccepted
  bytes_consumed : (MTInputStream.readBytes readNull (data.drop offset)).2.length
    + (MTBufferReader.readTLBytes data offset).2 = data.length
  string_consumed : (MTInputStream.readString (data.drop offset)).2.length
    + (MTBufferReader.readTLBytes data offset).2 = data.length

/-- The readers differ on every other beginning. -/
def Readable (stream : Bytes) : Prop :=
  ∃ k n, lengthPrefix stream = some (k, n) ∧ n < 2 ^ 23
    ∧ (total k n ≤ stream.length ∨ 0 < n ∧ stream.length = k)

section

variable {readNull : TLStrings.MTInputStream.NullRead} {data : Bytes} {offset : ℕ}

theorem complete_iff {stream : Bytes} {k n : ℕ} (h : lengthPrefix stream = some (k, n)) :
    Complete stream ↔ total k n ≤ stream.length := by
  constructor
  · rintro ⟨k', n', hmark, htotal⟩
    obtain ⟨rfl, rfl⟩ := Prod.mk.inj (Option.some.inj (h.symm.trans hmark))
    exact htotal
  · exact fun htotal => ⟨k, n, h, htotal⟩

theorem readable_iff {stream : Bytes} {k n : ℕ} (h : lengthPrefix stream = some (k, n)) :
    Readable stream
      ↔ n < 2 ^ 23 ∧ (total k n ≤ stream.length ∨ 0 < n ∧ stream.length = k) := by
  constructor
  · rintro ⟨k', n', hmark, hfits⟩
    obtain ⟨rfl, rfl⟩ := Prod.mk.inj (Option.some.inj (h.symm.trans hmark))
    exact hfits
  · exact fun hfits => ⟨k, n, h, hfits⟩

theorem detects_marked (h : offset ≤ data.length) {k n : ℕ}
    (hmark : lengthPrefix (data.drop offset) = some (k, n)) (hn : n < 2 ^ 23) :
    Detects readNull data offset
      ↔ total k n ≤ (data.drop offset).length ∨ 0 < n ∧ (data.drop offset).length = k := by
  have hk := prefix_le hmark
  have htotal := le_total k n
  have hbytes := stream_readBytes readNull hmark hn
  have hstring := stream_readString hmark hn
  have hbuffer := readTLBytes_marked h hmark hn
  have hcomplete := complete_iff hmark
  have hlen : (data.drop offset).length = data.length - offset := List.length_drop
  by_cases hall : total k n ≤ (data.drop offset).length
  · rw [if_pos (by omega)] at hbytes hstring hbuffer
    refine iff_of_true ⟨?_, ?_, ?_, ?_, ?_, ?_⟩ (.inl hall)
    · rw [hbytes]
      exact iff_of_false (by simp) (not_not.mpr (hcomplete.mpr hall))
    · rw [hstring]
      exact iff_of_false (by simp) (not_not.mpr (hcomplete.mpr hall))
    · rw [hbytes, hbuffer]
      exact Iff.rfl
    · rw [hstring, hbuffer]
      exact Iff.rfl
    · rw [hbytes, hbuffer, List.length_drop]
      omega
    · rw [hstring, hbuffer, List.length_drop]
      omega
  · by_cases hpayload : k + n ≤ (data.drop offset).length
    -- The padding is missed by the buffer only.
    · rw [if_pos hpayload] at hbytes
      refine iff_of_false (fun hdetects => ?_) (by omega)
      have hfailed := hdetects.bytes_failed.mpr (by rw [hcomplete]; exact hall)
      rw [hbytes] at hfailed
      cases hfailed
    · rw [if_neg hpayload] at hbytes hstring
      rw [if_neg (by omega), if_neg (by omega)] at hbuffer
      constructor
      · intro hdetects
        have hconsumed := hdetects.bytes_consumed
        rw [hbytes, hbuffer, List.length_nil] at hconsumed
        omega
      · rintro (hfits | ⟨hpos, hbare⟩)
        · exact absurd hfits hall
        · refine ⟨?_, ?_, ?_, ?_, ?_, ?_⟩
          · rw [hbytes]
            exact iff_of_true rfl fun hwhole => hall (hcomplete.mp hwhole)
          · rw [hstring]
            exact iff_of_true rfl fun hwhole => hall (hcomplete.mp hwhole)
          · rw [hbytes, hbuffer]
          · rw [hstring, hbuffer]
            exact Iff.rfl
          · rw [hbytes, hbuffer, List.length_nil]
            omega
          · rw [hstring, hbuffer, List.length_nil]
            omega

/-- Of a length that is cut off the stream takes what is there. -/
theorem not_detects_none (h : offset ≤ data.length)
    (hmark : lengthPrefix (data.drop offset) = none) : ¬ Detects readNull data offset := by
  intro hdetects
  have hbuffer := readTLBytes_none h hmark
  have hincomplete : ¬ Complete (data.drop offset) := by
    rintro ⟨k, n, hsome, -⟩
    rw [hmark] at hsome
    cases hsome
  have hfailed := hdetects.string_failed.mpr hincomplete
  have hconsumed := hdetects.string_consumed
  rcases (lengthPrefix_none_iff _).mp hmark with hs | ⟨t, hs, ht⟩
  · rw [hs] at hfailed
    cases hfailed
  · have hlen := congrArg List.length hs
    rw [List.length_drop, List.length_cons] at hlen
    rw [hs] at hfailed hconsumed
    unfold MTInputStream.readString at hfailed hconsumed
    rw [readLength_long, List.drop_eq_nil_of_le ht.le] at hfailed hconsumed
    simp only [] at hfailed hconsumed
    by_cases hpos : 0 < shiftedLength (t.take 3)
    · have hfull := readFull_eq (shiftedLength (t.take 3)).toNat []
      rw [List.length_nil, if_neg (by omega)] at hfull
      rw [if_pos hpos, hfull, hbuffer] at hconsumed
      simp only [List.length_nil] at hconsumed
      rw [List.length_eq_zero_iff.mp (by omega : t.length = 0)] at hpos
      exact absurd hpos (by decide)
    · rw [if_neg hpos] at hfailed
      cases hfailed

end

/-- The readers agree, and notice what is not complete, exactly on a complete string whose length is
below the sign, and on such a length that is not zero with nothing behind it. -/
theorem detects_iff (readNull : TLStrings.MTInputStream.NullRead) {data : Bytes} {offset : ℕ}
    (h : offset ≤ data.length) : Detects readNull data offset ↔ Readable (data.drop offset) := by
  rcases hmark : lengthPrefix (data.drop offset) with _ | ⟨k, n⟩
  · refine iff_of_false (not_detects_none h hmark) ?_
    rintro ⟨k, n, hsome, -⟩
    rw [hmark] at hsome
    cases hsome
  · rw [readable_iff hmark]
    by_cases hn : n < 2 ^ 23
    · rw [detects_marked h hmark hn]
      exact ⟨fun hfits => ⟨hn, hfits⟩, fun hfits => hfits.2⟩
    · refine iff_of_false (fun hdetects => ?_) fun hfits => hn hfits.1
      have haccepted := hdetects.string_accepted.mp (by
        rw [stream_readString_negative hmark (not_lt.mp hn)]
        trivial)
      rw [readTLBytes_negative h hmark (not_lt.mp hn)] at haccepted
      split_ifs at haccepted
      · exact haccepted
      · exact haccepted

/-- A read that gives up. -/
def nullFails : TLStrings.MTInputStream.NullRead := fun stream => (.failed, stream)

/-- The string `abcd` after a word. -/
theorem detects_sample :
    Detects nullFails [0, 0, 0, 0, 4, 97, 98, 99, 100, 0, 0, 0] 4 :=
  (detects_iff nullFails (by decide)).mpr ⟨1, 4, rfl, by decide, .inl (by decide)⟩

/-- Nothing is read as an empty string. -/
theorem nothing_accepted :
    ¬ Complete [] ∧ MTInputStream.readBytes nullFails [] = (.accepted [], [])
      ∧ MTInputStream.readString [] = (.accepted (some ""), [])
      ∧ MTBufferReader.readTLBytes [] 0 = (.failed, 0) := by
  refine ⟨?_, rfl, rfl, rfl⟩
  rintro ⟨k, n, hmark, -⟩
  cases hmark

/-! ## The readers without a place -/

section Readers

open Reader

/-- What is accepted, and what is left. -/
def taken {α β : Type} (f : β → Bytes) : Outcome α × β → Option (α × Bytes)
  | (.accepted value, place) => some (value, f place)
  | _ => none

theorem times_skip : ∀ (n : ℕ) (s : Bytes),
    (times (TL.MTBufferReader.readBytes 1) n s).map Prod.snd
      = if n ≤ s.length then some (s.drop n) else none
  | 0, s => rfl
  | n + 1, s => by
    have ih := times_skip n (s.drop 1)
    rw [List.length_drop, List.drop_drop] at ih
    rw [times, bind_apply]
    unfold TL.MTBufferReader.readBytes take at ih ⊢
    by_cases hone : 1 ≤ s.length
    · rw [if_pos hone, Option.bind_some, bind_apply]
      rcases htail : times (TL.MTBufferReader.readBytes 1) n (s.drop 1) with _ | ⟨vs, t⟩
      · unfold TL.MTBufferReader.readBytes take at htail
        rw [htail] at ih ⊢
        by_cases hall : n + 1 ≤ s.length
        · rw [if_pos (by omega)] at ih
          cases ih
        · rw [if_neg hall]
          rfl
      · unfold TL.MTBufferReader.readBytes take at htail
        rw [htail] at ih ⊢
        by_cases hall : n + 1 ≤ s.length
        · rw [if_pos (by omega), Nat.add_comm 1 n] at ih
          rw [if_pos hall]
          exact ih
        · rw [if_neg (by omega)] at ih
          cases ih
    · rw [if_neg hone, if_neg (by omega)]
      rfl

theorem reader_readPadded (n : ℕ) (paddingBytes : ℤ) (s : Bytes) :
    TL.MTBufferReader.readPadded n paddingBytes s
      = if n + paddingBytes.toNat ≤ s.length then
          some (s.take n, s.drop (n + paddingBytes.toNat))
        else none := by
  have hpadding := times_skip paddingBytes.toNat (s.drop n)
  rw [List.length_drop, List.drop_drop] at hpadding
  unfold TL.MTBufferReader.readPadded
  rw [if_neg (by omega), Int.toNat_natCast, bind_apply]
  unfold TL.MTBufferReader.readBytes at hpadding ⊢
  by_cases hpayload : n ≤ s.length
  · have htake : take n s = some (s.take n, s.drop n) := if_pos hpayload
    rw [htake, Option.bind_some, bind_apply]
    rcases hskip : times (take 1) paddingBytes.toNat (s.drop n) with _ | ⟨vs, t⟩
    · rw [hskip] at hpadding
      by_cases hall : n + paddingBytes.toNat ≤ s.length
      · rw [if_pos (by omega)] at hpadding
        cases hpadding
      · rw [if_neg hall]
        rfl
    · rw [hskip] at hpadding
      by_cases hall : n + paddingBytes.toNat ≤ s.length
      · rw [if_pos (by omega)] at hpadding
        rw [if_pos hall, ← Option.some.inj hpadding]
        rfl
      · rw [if_neg (by omega)] at hpadding
        cases hpadding
  · have htake : take n s = none := if_neg hpayload
    rw [htake, if_neg (by omega)]
    rfl

theorem reader_short {x : UInt8} (h : x ≠ 254) (t : Bytes) :
    TL.MTBufferReader.readTLBytes (x :: t)
      = TL.MTBufferReader.readPadded x.toNat
        (roundUp ((x.toNat : ℤ) + 1) 4 - ((x.toNat : ℤ) + 1)) t := by
  have hne : ¬ [x] = [254] := by simpa using h
  have hvalue : littleEndian [x] = x.toNat := by simp [littleEndian]
  have hone : TL.MTBufferReader.readBytes 1 ([x] ++ t) = some ([x], t) := reads_take [x] t
  unfold TL.MTBufferReader.readTLBytes
  rw [bind_apply, ← List.singleton_append, hone, Option.bind_some, if_neg hne, hvalue]

theorem reader_long (t : Bytes) :
    TL.MTBufferReader.readTLBytes (254 :: t)
      = if 3 ≤ t.length then
          TL.MTBufferReader.readPadded (shiftedLength (t.take 3))
            (roundUp (shiftedLength (t.take 3)) 4 - shiftedLength (t.take 3)) (t.drop 3)
        else none := by
  have hone : TL.MTBufferReader.readBytes 1 ([254] ++ t) = some ([254], t) := reads_take [254] t
  unfold TL.MTBufferReader.readTLBytes
  rw [bind_apply, ← List.singleton_append, hone, Option.bind_some, if_pos rfl, bind_apply]
  by_cases ht : 3 ≤ t.length
  · have hthree : TL.MTBufferReader.readBytes 3 t = some (t.take 3, t.drop 3) := if_pos ht
    rw [hthree, Option.bind_some, if_pos ht]
  · have hthree : TL.MTBufferReader.readBytes 3 t = none := if_neg ht
    rw [hthree, if_neg ht]
    rfl

/-- What is taken off the front is what is accepted at the place. -/
theorem reader_eq {data : Bytes} {offset : ℕ} (h : offset ≤ data.length) :
    TL.MTBufferReader.readTLBytes (data.drop offset)
      = taken (data.drop ·) (MTBufferReader.readTLBytes data offset) := by
  rcases hmark : lengthPrefix (data.drop offset) with _ | ⟨k, n⟩
  · rw [readTLBytes_none h hmark]
    rcases (lengthPrefix_none_iff _).mp hmark with hs | ⟨t, hs, ht⟩
    · rw [hs]
      rfl
    · rw [hs, reader_long, if_neg (by omega)]
      rfl
  have hk := prefix_le hmark
  have hlen : (data.drop offset).length = data.length - offset := List.length_drop
  by_cases hn : n < 2 ^ 23
  · have htotal := le_total k n
    have hread : TL.MTBufferReader.readTLBytes (data.drop offset)
        = if total k n ≤ (data.drop offset).length then
            some (((data.drop offset).drop k).take n, (data.drop offset).drop (total k n))
          else none := by
      rcases prefix_cases hmark with ⟨x, t, hx, hs, rfl, rfl⟩ | ⟨t, ht, hs, rfl, rfl⟩
      · obtain ⟨m, hm⟩ : ∃ m, total 1 x.toNat = x.toNat + m + 1 :=
          ⟨total 1 x.toNat - (1 + x.toNat), by omega⟩
        have hpadding : total 1 x.toNat - (1 + x.toNat) = m := by omega
        rw [hs, reader_short hx, reader_readPadded, total_padding_short, hpadding, hm]
        by_cases hall : x.toNat + m ≤ t.length
        · rw [if_pos hall, if_pos (by rw [List.length_cons]; omega)]
          rfl
        · rw [if_neg hall, if_neg (by rw [List.length_cons]; omega)]
      · obtain ⟨m, hm⟩ : ∃ m, total 4 (littleEndian (t.take 3))
            = 3 + (littleEndian (t.take 3) + m) + 1 :=
          ⟨total 4 (littleEndian (t.take 3)) - (4 + littleEndian (t.take 3)), by omega⟩
        have hpadding : total 4 (littleEndian (t.take 3)) - (4 + littleEndian (t.take 3)) = m := by
          omega
        have hlength : shiftedLength (t.take 3) = (littleEndian (t.take 3) : ℕ) := by
          rw [shiftedLength_eq (by rw [List.length_take]; omega), if_pos hn]
        rw [hs, reader_long, if_pos ht, hlength, reader_readPadded, total_padding_long, hpadding, hm,
          List.length_drop, List.drop_drop]
        by_cases hall : littleEndian (t.take 3) + m ≤ t.length - 3
        · rw [if_pos hall, if_pos (by rw [List.length_cons]; omega)]
          rfl
        · rw [if_neg hall, if_neg (by rw [List.length_cons]; omega)]
    rw [hread, readTLBytes_marked h hmark hn, hlen, List.drop_drop, List.drop_drop]
    by_cases hall : total k n ≤ data.length - offset
    · rw [if_pos hall, if_pos (by omega)]
      rfl
    · rw [if_neg hall, if_neg (by omega)]
      split_ifs <;> rfl
  · rw [readTLBytes_negative h hmark (not_lt.mp hn)]
    have hread : TL.MTBufferReader.readTLBytes (data.drop offset) = none := by
      have hnegative := readLength_negative hmark (not_lt.mp hn)
      rcases prefix_cases hmark with ⟨x, t, hx, hs, rfl, rfl⟩ | ⟨t, ht, hs, rfl, rfl⟩
      · have := x.toNat_lt
        omega
      · rw [hs, readLength_long] at hnegative
        rw [hs, reader_long, if_pos ht]
        unfold TL.MTBufferReader.readPadded
        rw [if_pos hnegative]
        rfl
    rw [hread]
    split_ifs <;> rfl

theorem times_read : ∀ (n : ℕ) (s : Bytes),
    (times (TL.MTInputStream.read 1) n s).map Prod.snd
      = some (MTInputStream.skipPadding n s)
  | 0, s => rfl
  | n + 1, s => by
    have ih := times_read n (s.drop 1)
    obtain ⟨⟨vs, t⟩, htail, ht⟩ := Option.map_eq_some_iff.mp ih
    rw [times, bind_apply]
    unfold TL.MTInputStream.read at htail ⊢
    rw [Option.bind_some, bind_apply, htail]
    exact congrArg some ht

theorem stream_readLength (s : Bytes) :
    TL.MTInputStream.readLength s = some (MTInputStream.readLength s) := by
  unfold TL.MTInputStream.readLength MTInputStream.readLength
  rw [bind_apply]
  unfold TL.MTInputStream.read MTInputStream.read
  simp only [Option.bind_some]
  split_ifs
  · rfl
  · rfl

theorem stream_readFull (n : ℕ) (s : Bytes) :
    TL.MTInputStream.readFull (fun _ _ => none) n s = taken id (MTInputStream.readFull n s) := by
  unfold TL.MTInputStream.readFull MTInputStream.readFull
  rw [bind_apply]
  unfold TL.MTInputStream.read MTInputStream.read
  simp only [Option.bind_some]
  split_ifs
  · rfl
  · rfl

/-- The stream that gives up where the flag is set. -/
theorem stream_readBytes_eq (s : Bytes) :
    TL.MTInputStream.readBytes (fun _ _ => none) s
      = taken id (MTInputStream.readBytes nullFails s) := by
  unfold TL.MTInputStream.readBytes MTInputStream.readBytes
  rw [bind_apply, stream_readLength, Option.bind_some]
  obtain ⟨⟨length, paddingBytes⟩, t⟩ := MTInputStream.readLength s
  simp only []
  by_cases hneg : length < 0
  · rw [if_pos hneg, if_pos hneg]
    rfl
  · rw [if_neg hneg, if_neg hneg, bind_apply, stream_readFull]
    rcases MTInputStream.readFull length.toNat t with ⟨outcome, u⟩
    obtain ⟨⟨vs, w⟩, hskip, hw⟩ := Option.map_eq_some_iff.mp (times_read paddingBytes.toNat u)
    cases outcome with
    | accepted value =>
      change ((times (TL.MTInputStream.read 1) paddingBytes.toNat u).bind _) = _
      rw [hskip]
      exact congrArg (fun rest => some (value, rest)) hw
    | failed => rfl
    | raised => rfl

end Readers

end Onegram.TLStrings
