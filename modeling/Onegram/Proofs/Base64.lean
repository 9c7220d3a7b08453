import Onegram.Base64

/-!
# Encoded bytes decode to themselves

A byte leaves the accumulator when the sextets that make it up are its lowest, so only the lowest
twelve bits of the accumulator ever matter. Decoding is followed group by group, from an accumulator
of any contents.
-/

namespace Onegram.Base64

/-! ## Sextets -/

theorem idxOf_T : ∀ s < 64, T.idxOf? (T.getD s 0) = some s ∧ T.getD s 0 ≠ 0 ∧ T.getD s 0 ≠ 0x3d := by
  decide

theorem sextet_eq (val shift : ℕ) : sextet val shift = T.getD (val / 2 ^ shift % 64) 0 := by
  rw [sextet, Nat.and_two_pow_sub_one_eq_mod _ 6, Nat.shiftRight_eq_div_pow]

theorem group_eq (a b c : UInt8) : group a b c = a.toNat * 65536 + b.toNat * 256 + c.toNat := by
  have hb := b.toNat_lt
  have hc := c.toNat_lt
  have h₁ : a.toNat <<< 16 ||| b.toNat <<< 8 = (a.toNat * 256 + b.toNat) <<< 8 := by
    rw [← Nat.shiftLeft_add_eq_or_of_lt (by rw [Nat.shiftLeft_eq]; omega)]
    simp only [Nat.shiftLeft_eq]
    omega
  rw [group, h₁, ← Nat.shiftLeft_add_eq_or_of_lt (by omega), Nat.shiftLeft_eq]
  omega

theorem group_bytes (a b c : UInt8) :
    group a b c / 65536 = a.toNat ∧ group a b c / 256 % 256 = b.toNat
      ∧ group a b c % 256 = c.toNat := by
  have hb := b.toNat_lt
  have hc := c.toNat_lt
  rw [group_eq]
  refine ⟨?_, ?_, ?_⟩ <;> omega

theorem toNat_accumulate (val : BitVec 32) {q : ℕ} (hq : q < 64) :
    (val <<< 6 ||| BitVec.ofNat 32 q).toNat = (val.toNat * 64 + q) % 2 ^ 32 := by
  have hlow : val.toNat <<< 6 % 2 ^ 32 = (val.toNat % 2 ^ 26) <<< 6 := by
    simp only [Nat.shiftLeft_eq]
    omega
  rw [BitVec.toNat_or, BitVec.toNat_shiftLeft, BitVec.toNat_ofNat, hlow,
    Nat.mod_eq_of_lt (by omega : q < 2 ^ 32), ← Nat.shiftLeft_add_eq_or_of_lt (by omega),
    Nat.shiftLeft_eq]
  omega

/-- The sign does not reach the byte. -/
theorem toNat_outByte (val : BitVec 32) {valb : ℕ} (h : valb ≤ 24) :
    (outByte val valb).toNat = val.toNat / 2 ^ valb % 256 := by
  have hbits : (val.sshiftRight valb &&& 0xff#32).setWidth 8 = (val >>> valb).setWidth 8 := by
    apply BitVec.eq_of_getLsbD_eq
    intro i hi
    have hmask : (0xff#32).getLsbD i = true := by
      interval_cases i <;> rfl
    have hlt : valb + i < 32 := by omega
    rw [BitVec.getLsbD_setWidth, BitVec.getLsbD_setWidth, BitVec.getLsbD_and,
      BitVec.getLsbD_sshiftRight, BitVec.getLsbD_ushiftRight, hmask, if_pos hlt]
    simp [show ¬32 ≤ i by omega]
  rw [outByte, hbits, UInt8.toNat_ofBitVec, BitVec.toNat_setWidth, BitVec.toNat_ushiftRight,
    Nat.shiftRight_eq_div_pow]

/-! ## Decoding -/

section

variable {outcap : ℕ} {val : BitVec 32} {valb : ℤ} {out p : Bytes}

/-- A sextet that completes no byte. -/
theorem loop_sextet {s : ℕ} (hs : s < 64) (hvalb : valb + 6 < 0) :
    b64decodeLoop outcap (T.getD s 0 :: p) val valb out
      = b64decodeLoop outcap p (val <<< 6 ||| BitVec.ofNat 32 s) (valb + 6) out := by
  obtain ⟨hidx, h₀, heq⟩ := idxOf_T s hs
  rw [b64decodeLoop, if_neg (by simp only [h₀, heq, or_self, not_false_eq_true]), hidx]
  simp only [if_neg (by omega : ¬0 ≤ valb + 6)]

/-- A sextet that completes a byte. -/
theorem loop_byte {s : ℕ} (hs : s < 64) (hvalb : 0 ≤ valb + 6) (hroom : out.length < outcap) :
    b64decodeLoop outcap (T.getD s 0 :: p) val valb out
      = b64decodeLoop outcap p (val <<< 6 ||| BitVec.ofNat 32 s) (valb + 6 - 8)
          (out ++ [outByte (val <<< 6 ||| BitVec.ofNat 32 s) (valb + 6).toNat]) := by
  obtain ⟨hidx, h₀, heq⟩ := idxOf_T s hs
  rw [b64decodeLoop, if_neg (by simp only [h₀, heq, or_self, not_false_eq_true]), hidx]
  simp only [if_pos hvalb, if_neg (by omega : ¬outcap ≤ out.length)]

/-- `=` and the end of the text stop the decoder. -/
theorem loop_end (hp : p = [] ∨ p.head? = some 0x3d) :
    b64decodeLoop outcap p val valb out = (asInt out.length, out) := by
  rcases hp with rfl | hp
  · rfl
  · obtain ⟨rest, rfl⟩ := List.head?_eq_some_iff.1 hp
    rw [b64decodeLoop, if_pos (Or.inr rfl)]

/-- No byte past the capacity. -/
theorem length_b64decodeLoop : ∀ (p : Bytes) (val : BitVec 32) (valb : ℤ) {out : Bytes},
    out.length ≤ outcap → (b64decodeLoop outcap p val valb out).2.length ≤ outcap
  | [], _, _, _, h => h
  | c :: p, val, valb, out, h => by
    rw [b64decodeLoop]
    by_cases hc : c = 0 ∨ c = 0x3d
    · rw [if_pos hc]
      exact h
    rw [if_neg hc]
    cases T.idxOf? c with
    | none => exact length_b64decodeLoop p val valb h
    | some q =>
      by_cases hvalb : 0 ≤ valb + 6
      · by_cases hfull : outcap ≤ out.length
        · simp only [if_pos hvalb, if_pos hfull]
          exact h
        · simp only [if_pos hvalb, if_neg hfull]
          exact length_b64decodeLoop p _ _ (by rw [List.length_append, List.length_singleton]; omega)
      · simp only [if_neg hvalb]
        exact length_b64decodeLoop p _ _ h

end

/-! ## Groups -/

/-- Two sextets in a row decide the byte, whatever the accumulator held before. -/
theorem outByte_pair (val : BitVec 32) {s t valb : ℕ} (hs : s < 64) (ht : t < 64)
    (h : valb ≤ 4) :
    (outByte ((val <<< 6 ||| BitVec.ofNat 32 s) <<< 6 ||| BitVec.ofNat 32 t) valb).toNat
      = (s * 64 + t) / 2 ^ valb % 256 := by
  rw [toNat_outByte _ (by omega), toNat_accumulate _ ht, toNat_accumulate _ hs]
  interval_cases valb <;> omega

variable {outcap : ℕ} {out p : Bytes}

/-- The first two characters of a group. -/
theorem decode_two (val : BitVec 32) {n : ℕ} (a : UInt8) (ha : n / 65536 = a.toNat)
    (hroom : out.length < outcap) :
    ∃ val' : BitVec 32, b64decodeLoop outcap (sextet n 18 :: sextet n 12 :: p) val (-8) out
      = b64decodeLoop outcap p (val' <<< 6 ||| BitVec.ofNat 32 (n / 2 ^ 12 % 64)) (-4)
          (out ++ [a]) := by
  have hlt := a.toNat_lt
  have hs : n / 2 ^ 18 % 64 < 64 := Nat.mod_lt _ (by norm_num)
  have ht : n / 2 ^ 12 % 64 < 64 := Nat.mod_lt _ (by norm_num)
  have hbyte : outByte ((val <<< 6 ||| BitVec.ofNat 32 (n / 2 ^ 18 % 64)) <<< 6
      ||| BitVec.ofNat 32 (n / 2 ^ 12 % 64)) 4 = a := by
    apply UInt8.toNat_inj.1
    rw [outByte_pair _ hs ht (by omega)]
    omega
  refine ⟨val <<< 6 ||| BitVec.ofNat 32 (n / 2 ^ 18 % 64), ?_⟩
  rw [sextet_eq, sextet_eq, loop_sextet hs (by norm_num), loop_byte ht (by norm_num) hroom]
  show b64decodeLoop outcap p _ (-4) (out ++ [outByte _ 4]) = _
  rw [hbyte]

/-- The third character, with the second as the last one read. -/
theorem decode_three (val : BitVec 32) {n : ℕ} (b : UInt8) (hb : n / 256 % 256 = b.toNat)
    (hroom : out.length < outcap) :
    ∃ val' : BitVec 32,
      b64decodeLoop outcap (sextet n 6 :: p) (val <<< 6 ||| BitVec.ofNat 32 (n / 2 ^ 12 % 64)) (-4)
          out
        = b64decodeLoop outcap p (val' <<< 6 ||| BitVec.ofNat 32 (n / 2 ^ 6 % 64)) (-6)
            (out ++ [b]) := by
  have hs : n / 2 ^ 12 % 64 < 64 := Nat.mod_lt _ (by norm_num)
  have ht : n / 2 ^ 6 % 64 < 64 := Nat.mod_lt _ (by norm_num)
  have hbyte : outByte ((val <<< 6 ||| BitVec.ofNat 32 (n / 2 ^ 12 % 64)) <<< 6
      ||| BitVec.ofNat 32 (n / 2 ^ 6 % 64)) 2 = b := by
    apply UInt8.toNat_inj.1
    rw [outByte_pair _ hs ht (by omega)]
    omega
  refine ⟨val <<< 6 ||| BitVec.ofNat 32 (n / 2 ^ 12 % 64), ?_⟩
  rw [sextet_eq, loop_byte ht (by norm_num) hroom]
  show b64decodeLoop outcap p _ (-6) (out ++ [outByte _ 2]) = _
  rw [hbyte]

/-- The fourth character, with the third as the last one read. -/
theorem decode_four (val : BitVec 32) {n : ℕ} (c : UInt8) (hc : n % 256 = c.toNat)
    (hroom : out.length < outcap) :
    ∃ val' : BitVec 32,
      b64decodeLoop outcap (sextet n 0 :: p) (val <<< 6 ||| BitVec.ofNat 32 (n / 2 ^ 6 % 64)) (-6)
          out
        = b64decodeLoop outcap p val' (-8) (out ++ [c]) := by
  have hs : n / 2 ^ 6 % 64 < 64 := Nat.mod_lt _ (by norm_num)
  have ht : n / 2 ^ 0 % 64 < 64 := Nat.mod_lt _ (by norm_num)
  have hbyte : outByte ((val <<< 6 ||| BitVec.ofNat 32 (n / 2 ^ 6 % 64)) <<< 6
      ||| BitVec.ofNat 32 (n / 2 ^ 0 % 64)) 0 = c := by
    apply UInt8.toNat_inj.1
    rw [outByte_pair _ hs ht (by omega)]
    omega
  refine ⟨(val <<< 6 ||| BitVec.ofNat 32 (n / 2 ^ 6 % 64)) <<< 6
    ||| BitVec.ofNat 32 (n / 2 ^ 0 % 64), ?_⟩
  rw [sextet_eq, loop_byte ht (by norm_num) hroom]
  show b64decodeLoop outcap p _ (-8) (out ++ [outByte _ 0]) = _
  rw [hbyte]

/-- The text of `x`, read from an accumulator of any contents. -/
theorem decode_encode {textcap : ℕ} : ∀ (x : Bytes) (written : ℕ) (val : BitVec 32) {out : Bytes},
    written + 4 * ((x.length + 2) / 3) < textcap → out.length + x.length ≤ outcap →
    b64decodeLoop outcap (b64encodeLoop textcap x written) val (-8) out
      = (asInt (out.length + x.length), out ++ x)
  | [], _, _, out, _, _ => by
    rw [b64encodeLoop, loop_end (Or.inl rfl), List.length_nil, List.append_nil, Nat.add_zero]
  | [a], written, val, out, htext, hroom => by
    simp only [List.length_cons, List.length_nil] at htext hroom
    obtain ⟨ha, -, -⟩ := group_bytes a 0 0
    have hroom₁ : out.length < outcap := by omega
    obtain ⟨v, htwo⟩ := decode_two (p := [0x3d, 0x3d]) val a ha hroom₁
    rw [b64encodeLoop, if_neg (by omega), htwo, loop_end (Or.inr rfl), List.length_append]
  | [a, b], written, val, out, htext, hroom => by
    simp only [List.length_cons, List.length_nil] at htext hroom
    obtain ⟨ha, hb, -⟩ := group_bytes a b 0
    have hroom₁ : out.length < outcap := by omega
    have hroom₂ : (out ++ [a]).length < outcap := by
      rw [List.length_append, List.length_singleton]
      omega
    obtain ⟨v, htwo⟩ := decode_two (p := [sextet (group a b 0) 6, 0x3d]) val a ha hroom₁
    obtain ⟨v', hthree⟩ := decode_three (p := [0x3d]) v b hb hroom₂
    rw [b64encodeLoop, if_neg (by omega), htwo, hthree, loop_end (Or.inr rfl), List.append_assoc,
      List.length_append]
    rfl
  | a :: b :: c :: rest, written, val, out, htext, hroom => by
    simp only [List.length_cons] at htext hroom
    obtain ⟨ha, hb, hc⟩ := group_bytes a b c
    have hroom₁ : out.length < outcap := by omega
    have hroom₂ : (out ++ [a]).length < outcap := by
      rw [List.length_append, List.length_singleton]
      omega
    have hroom₃ : (out ++ [a] ++ [b]).length < outcap := by
      rw [List.length_append, List.length_append, List.length_singleton, List.length_singleton]
      omega
    obtain ⟨v, htwo⟩ := decode_two val a ha hroom₁
    obtain ⟨v', hthree⟩ := decode_three v b hb hroom₂
    obtain ⟨v'', hfour⟩ := decode_four (p := b64encodeLoop textcap rest (written + 4)) v' c hc hroom₃
    have htext' : written + 4 + 4 * ((rest.length + 2) / 3) < textcap := by omega
    have hroom' : (out ++ [a] ++ [b] ++ [c]).length + rest.length ≤ outcap := by
      simp only [List.length_append, List.length_singleton]
      omega
    have ih := decode_encode rest (written + 4) v'' htext' hroom'
    have hout : out ++ [a] ++ [b] ++ [c] ++ rest = out ++ a :: b :: c :: rest := by simp
    have hlen : (out ++ [a] ++ [b] ++ [c]).length + rest.length
        = out.length + (a :: b :: c :: rest).length := by
      rw [← List.length_append, hout, List.length_append]
    rw [b64encodeLoop, if_neg (by omega), List.cons_append, List.cons_append, htwo,
      List.cons_append, hthree, List.cons_append, List.nil_append, hfour, ih, hout, hlen]

/-- The text and its `NUL` fit a buffer that has room for the `NUL`. -/
theorem length_b64encodeLoop {textcap : ℕ} : ∀ (x : Bytes) {written : ℕ}, written < textcap →
    written + (b64encodeLoop textcap x written).length < textcap
  | [], _, h => h
  | [a], written, h => by
    rw [b64encodeLoop]
    split_ifs
    · exact h
    · simp only [List.length_cons, List.length_nil]
      omega
  | [a, b], written, h => by
    rw [b64encodeLoop]
    split_ifs
    · exact h
    · simp only [List.length_cons, List.length_nil]
      omega
  | a :: b :: c :: rest, written, h => by
    rw [b64encodeLoop]
    split_ifs with hfull
    · exact h
    · have ih := length_b64encodeLoop rest (by omega : written + 4 < textcap)
      simp only [List.length_append, List.length_cons, List.length_nil]
      omega

theorem length_b64encode {outcap : ℕ} (h : 0 < outcap) (bytes : Bytes) :
    (b64encode bytes outcap).length < outcap := by
  have hlen := length_b64encodeLoop bytes h
  rwa [Nat.zero_add] at hlen

/-- The codec: decoding undoes encoding, and stays within the capacity on every text. -/
theorem b64decode_b64encode :
    (∀ (x : Bytes) (textcap outcap : ℕ), 4 * ((x.length + 2) / 3) < textcap →
      x.length ≤ outcap → b64decode (b64encode x textcap) outcap = (asInt x.length, x))
    ∧ ∀ (text : Bytes) (outcap : ℕ), (b64decode text outcap).2.length ≤ outcap := by
  constructor
  · intro x textcap outcap htext hroom
    have htext' : 0 + 4 * ((x.length + 2) / 3) < textcap := by omega
    have hroom' : ([] : Bytes).length + x.length ≤ outcap := by
      rw [List.length_nil]
      omega
    have h := decode_encode x 0 (0 : BitVec 32) htext' hroom'
    rw [List.length_nil, Nat.zero_add, List.nil_append] at h
    exact h
  · intro text outcap
    exact length_b64decodeLoop text 0 (-8) (Nat.zero_le _)

theorem b64decode_b64encode_one :
    b64decode (b64encode [255] 5) 1 = (1, [255]) := by
  have h := b64decode_b64encode.1 [255] 5 1 (by decide) (by decide)
  exact h

end Onegram.Base64
