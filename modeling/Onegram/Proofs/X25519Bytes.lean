import Onegram.Proofs.X25519Bounds

/-!
# The bytes of X25519

A coordinate is unpacked as it is, its highest bit aside, and a result is packed as the one number
below `2 ^ 255 - 19` that its limbs stand for: twice the prime is within 38 of all that sixteen
digits can hold, so that two conditional subtractions are enough.
-/

namespace Onegram.X25519

open Checked Limbs

theorem value_take_succ {v : Limbs} {k : ℕ} (hk : k < v.length) :
    value (2 ^ 16) (v.take (k + 1)) = value (2 ^ 16) (v.take k) + (2 ^ 16) ^ k * v.getD k 0 := by
  rw [List.take_succ_eq_append_getElem hk, value_append, List.length_take_of_le hk.le,
    List.getD_eq_getElem _ _ hk, value, value, mul_zero, add_zero]

/-! ## Packing -/

/-- After `k` turns of the subtraction: `k` digits, the limb that may be negative, and zeros. -/
def Borrowing (t : Limbs) (k : ℕ) (m : Limbs) : Prop := ∃ done cur,
  m = done ++ cur :: List.replicate (15 - k) 0 ∧ done.length = k ∧ Digits (2 ^ 16) done ∧
    (-2 ^ 16 ≤ cur ∧ cur < 2 ^ 16) ∧
    value (2 ^ 16) done + (2 ^ 16) ^ k * cur =
      value (2 ^ 16) (t.take (k + 1)) - (2 ^ 16) ^ (k + 1) + 19

theorem pack25519_borrow_isSome {t : Limbs} (hlength : t.length = 16) (ht : Digits (2 ^ 16) t)
    {k : ℕ} (hk : k < 14) {m : Limbs} (hm : Borrowing t k m) :
    ∃ m', pack25519_borrow t m k = some m' ∧ Borrowing t (k + 1) m' := by
  obtain ⟨done, cur, rfl, rfl, hdigits, hcur, hvalue⟩ := hm
  have hnext : done.length + 1 < t.length := by omega
  have hdigit := ht _ (List.getElem_mem hnext)
  rw [← List.getD_eq_getElem _ 0 hnext] at hdigit
  have hcur' : (done ++ cur :: List.replicate (15 - done.length) 0).getD done.length 0 = cur := by
    simp
  have hzeros : List.replicate (15 - done.length) (0 : ℤ) =
      0 :: List.replicate (15 - (done.length + 1)) 0 := by
    rw [← List.replicate_succ]
    congr 1
    omega
  generalize hx : t.getD (done.length + 1) 0 = x at hdigit
  have hless : int64 (x - 0xffff) = some _ := int64_of_abs_le (abs_lt.mpr ⟨by omega, by omega⟩)
  have hlimb : int64 (x - 0xffff - cur / 2 ^ 16 % 2) = some _ :=
    int64_of_abs_le (abs_lt.mpr ⟨by omega, by omega⟩)
  refine ⟨done ++ cur % 2 ^ 16 :: (x - 0xffff - cur / 2 ^ 16 % 2) ::
    List.replicate (15 - (done.length + 1)) 0, ?_, done ++ [cur % 2 ^ 16], _,
    List.append_cons _ _ _, by simp, hdigits.append (Digits.mod (by norm_num) cur), by omega, ?_⟩
  · rw [pack25519_borrow, hx, hless, Option.bind_eq_bind, Option.bind_some, hcur', hlimb,
      Option.bind_some, hzeros]
    simp
  · have hborrow : -(cur / 2 ^ 16 % 2) = cur / 2 ^ 16 := by omega
    have hdiv := Int.emod_add_mul_ediv cur (2 ^ 16)
    rw [value_append, value_take_succ hnext, hx, value, value, sub_eq_add_neg _ (cur / 2 ^ 16 % 2),
      hborrow]
    linear_combination hvalue + (2 ^ 16) ^ done.length * hdiv

/-- The subtraction of the prime, and its last borrow. -/
theorem pack25519_sub_isSome {t : Limbs} (hlength : t.length = 16) (ht : Digits (2 ^ 16) t) :
    ∃ m, pack25519_sub t = some (m, if value (2 ^ 16) t < Rfc7748.p then 1 else 0) ∧
      m.length = 16 ∧ value (2 ^ 16) m = value (2 ^ 16) t - Rfc7748.p ∧
      ((Rfc7748.p : ℤ) ≤ value (2 ^ 16) t → Digits (2 ^ 16) m) := by
  have hdigit (k : ℕ) (hk : k < 16) : 0 ≤ t.getD k 0 ∧ t.getD k 0 < 2 ^ 16 := by
    rw [List.getD_eq_getElem _ _ (by omega)]
    exact ht _ (List.getElem_mem _)
  have hlow := hdigit 0 (by norm_num)
  have hhigh := hdigit 15 (by norm_num)
  have hfirst : int64 (t.getD 0 0 - 0xffed) = some _ :=
    int64_of_abs_le (abs_lt.mpr ⟨by omega, by omega⟩)
  have hstart : Borrowing t 0 ((List.replicate 16 0).set 0 (t.getD 0 0 - 0xffed)) := by
    refine ⟨[], _, rfl, rfl, fun _ h => (List.not_mem_nil h).elim, by omega, ?_⟩
    rw [value_take_succ (by omega), List.take_zero, value]
    ring
  obtain ⟨m, hm, done, cur, rfl, hdone, hdigits, hcur, hvalue⟩ := foldlM_range_isSome
    (Borrowing t) (fun k hk m hm => pack25519_borrow_isSome hlength ht hk hm) hstart
  have hm : (List.range 14).foldlM (pack25519_borrow t)
      ((List.replicate 16 0).set 0 (t.getD 0 0 - 0xffed)) = some (done ++ [cur, 0]) := hm
  have hget : (done ++ [cur, 0]).getD 14 0 = cur := by simp [hdone]
  have hset (y : ℤ) : (done ++ [cur, 0]).set 15 y = done ++ [cur, y] := by
    simp [hdone]
  have hset' (y z : ℤ) : (done ++ [cur, y]).set 14 z = done ++ [z, y] := by
    simp [hdone]
  have hget' (y : ℤ) : (done ++ [cur, y]).getD 14 0 = cur ∧ (done ++ [cur, y]).getD 15 0 = y := by
    simp [hdone]
  generalize hx : t.getD 15 0 = x at hhigh
  have hless : int64 (x - 0x7fff) = some _ := int64_of_abs_le (abs_lt.mpr ⟨by omega, by omega⟩)
  have hlast : int64 (x - 0x7fff - cur / 2 ^ 16 % 2) = some _ :=
    int64_of_abs_le (abs_lt.mpr ⟨by omega, by omega⟩)
  obtain ⟨y, hy⟩ : ∃ y, x - 0x7fff - cur / 2 ^ 16 % 2 = y := ⟨_, rfl⟩
  have hsub : pack25519_sub t = some (done ++ [cur % 2 ^ 16, y], y / 2 ^ 16 % 2) := by
    rw [pack25519_sub, hfirst, Option.bind_eq_bind, Option.bind_some, Option.bind_eq_bind, hm,
      Option.bind_some, hx, hless, Option.bind_some, hget, hlast, Option.bind_some, hy]
    dsimp only
    rw [hset, hset', (hget' y).1, (hget' y).2]
  have hmod := Int.emod_add_mul_ediv cur (2 ^ 16)
  have hdigits' := hdigits.append (Digits.mod (by norm_num) cur)
  have hnonneg := hdigits'.value_nonneg (by norm_num)
  have hlt := hdigits'.value_lt (by norm_num)
  rw [List.length_append, hdone] at hlt
  have hlt : value (2 ^ 16) (done ++ [cur % 2 ^ 16]) < (2 ^ 16) ^ 15 := hlt
  have hprime : (Rfc7748.p : ℤ) = 2 ^ 255 - 19 := by decide
  have htop : value (2 ^ 16) t = value (2 ^ 16) (t.take 15) + (2 ^ 16) ^ 15 * x := by
    rw [← hx, ← value_take_succ (by omega), List.take_of_length_le hlength.le]
  have hvalue' : value (2 ^ 16) (done ++ [cur % 2 ^ 16]) + (2 ^ 16) ^ 15 * y =
      value (2 ^ 16) t - Rfc7748.p := by
    have hborrow : y = x - 0x7fff + cur / 2 ^ 16 := by omega
    rw [value_append, hdone, htop, hprime, hborrow, value, value]
    linear_combination hvalue + (2 ^ 16) ^ 14 * hmod
  refine ⟨done ++ [cur % 2 ^ 16, y], hsub.trans ?_, by simp [hdone], ?_, ?_⟩
  · congr 2
    split_ifs with hless
    · omega
    · omega
  · rw [← hvalue', value_append, value_append, hdone]
    simp only [value]
    ring
  · intro hge
    rw [List.append_cons]
    refine hdigits'.append fun z hz => ?_
    obtain rfl := List.mem_singleton.mp hz
    omega

theorem pack25519_pass_isSome {t : Limbs} (hlength : t.length = 16) (ht : Digits (2 ^ 16) t) :
    ∃ s, pack25519_pass t = some s ∧ s.length = 16 ∧ Digits (2 ^ 16) s ∧
      value (2 ^ 16) s =
        if value (2 ^ 16) t < Rfc7748.p then value (2 ^ 16) t else value (2 ^ 16) t - Rfc7748.p := by
  obtain ⟨m, hsub, hm, hvalue, hdigits⟩ := pack25519_sub_isSome hlength ht
  rw [pack25519_pass, hsub]
  split_ifs with hless
  · exact ⟨t, rfl, hlength, ht, rfl⟩
  · exact ⟨m, rfl, hm, hdigits (not_lt.mp hless), hvalue⟩

theorem residue_pack25519_pass {s t : Limbs} (h : value (2 ^ 16) s =
    if value (2 ^ 16) t < Rfc7748.p then value (2 ^ 16) t else value (2 ^ 16) t - Rfc7748.p) :
    residue s = residue t := by
  rw [residue, residue, h]
  split_ifs
  · rfl
  · rw [Int.cast_sub, Int.cast_natCast, ZMod.natCast_self, sub_zero]

theorem flatMap_digits : ∀ {t : Limbs}, Digits (2 ^ 16) t → (t.flatMap fun limb =>
    [UInt8.ofNat (limb % 256).toNat, UInt8.ofNat (limb / 256 % 256).toNat]) =
      Bytes.bytesLE (2 * t.length) (value (2 ^ 16) t).toNat
  | [], _ => rfl
  | x :: t, h => by
    have hx := h x List.mem_cons_self
    have hrest := h.tail.value_nonneg (by norm_num)
    have hhead : UInt8.ofNat (x % 256).toNat =
        UInt8.ofNat (x + 2 ^ 16 * value (2 ^ 16) t).toNat := by
      apply UInt8.toNat.inj
      rw [UInt8.toNat_ofNat', UInt8.toNat_ofNat']
      omega
    have hnext : UInt8.ofNat (x / 256 % 256).toNat =
        UInt8.ofNat ((x + 2 ^ 16 * value (2 ^ 16) t).toNat / 256) := by
      apply UInt8.toNat.inj
      rw [UInt8.toNat_ofNat', UInt8.toNat_ofNat']
      omega
    have htail : (x + 2 ^ 16 * value (2 ^ 16) t).toNat / 256 / 256 = (value (2 ^ 16) t).toNat := by
      omega
    rw [List.flatMap_cons, flatMap_digits h.tail, hhead, hnext, value, List.length_cons,
      Nat.mul_succ, Bytes.bytesLE, Bytes.bytesLE, htail]
    rfl

/-- Packing gives the bytes of the one residue below the prime. -/
theorem pack25519_eq {v once : Limbs} (hv : Within (2 ^ 63) v) (honce : car25519 v = some once) :
    pack25519 v = some (Rfc7748.encodeUCoordinate (residue v)) := by
  obtain ⟨twice, htwice, hreduced⟩ := car25519_again hv honce
  obtain ⟨t, ht, hlength, hdigits⟩ := car25519_reduced hreduced
  obtain ⟨s, hs, hsLength, hsDigits, hsValue⟩ := pack25519_pass_isSome hlength hdigits
  obtain ⟨u, hu, huLength, huDigits, huValue⟩ := pack25519_pass_isSome hsLength hsDigits
  have hresidue : residue t = residue v := by
    obtain ⟨honceLength, honceResidue⟩ := residue_car25519 hv.1 honce
    rw [(residue_car25519 hreduced.length ht).2, (residue_car25519 honceLength htwice).2,
      honceResidue]
  have hnonneg := hdigits.value_nonneg (by norm_num)
  have hlt := hdigits.value_lt (by norm_num)
  rw [hlength] at hlt
  have hprime : (Rfc7748.p : ℤ) = 2 ^ 255 - 19 := by decide
  have hcanonical : 0 ≤ value (2 ^ 16) u ∧ value (2 ^ 16) u < Rfc7748.p := by
    rw [huValue, hsValue]
    split_ifs <;> omega
  have hval : (residue v).val = (value (2 ^ 16) u).toNat := by
    rw [← hresidue, ← residue_pack25519_pass hsValue, ← residue_pack25519_pass huValue, residue,
      ← Int.toNat_of_nonneg hcanonical.1, Int.cast_natCast, Int.toNat_natCast,
      ZMod.val_natCast_of_lt (by omega)]
  rw [pack25519, honce, Option.bind_eq_bind, Option.bind_some, htwice, Option.bind_some, ht,
    Option.bind_some, hs, Option.bind_some, hu, Option.bind_some, flatMap_digits huDigits, huLength,
    Rfc7748.encodeUCoordinate, hval]

/-! ## Unpacking -/

/-- A limb of two bytes. -/
def word (n : Bytes) (i : ℕ) : ℤ := (n.getD (2 * i) 0).toNat + (n.getD (2 * i + 1) 0).toNat * 2 ^ 8

theorem word_digit (n : Bytes) (i : ℕ) : 0 ≤ word n i ∧ word n i < 2 ^ 16 := by
  have hlow := (n.getD (2 * i) 0).toNat_lt
  have hhigh := (n.getD (2 * i + 1) 0).toNat_lt
  unfold word
  omega

theorem value_words : ∀ (k : ℕ) {n : Bytes}, n.length = 2 * k →
    value (2 ^ 16) ((List.range k).map (word n)) = Bytes.littleEndian n
  | 0, n, hn => by
    obtain rfl := List.length_eq_zero_iff.mp hn
    rfl
  | k + 1, n, hn => by
    obtain _ | ⟨low, _ | ⟨high, rest⟩⟩ := n
    · simp at hn
    · simp at hn
      omega
    have hshift (i : ℕ) : word (low :: high :: rest) (i + 1) = word rest i := rfl
    have hrest := value_words k (n := rest) (by simp at hn; omega)
    have hfirst : word (low :: high :: rest) 0 = low.toNat + high.toNat * 2 ^ 8 := rfl
    rw [List.range_succ_eq_map, List.map_cons, List.map_map, value,
      show word (low :: high :: rest) ∘ Nat.succ = word rest from funext hshift, hrest, hfirst,
      Bytes.littleEndian, Bytes.littleEndian]
    push_cast
    ring

/-- The bytes of a coordinate without the highest bit. -/
theorem word_masked {n : Bytes} (hn : n.length = 32) {i : ℕ} (hi : i < 16) :
    word (n.set 31 (n.getD 31 0 &&& 127)) i = if i = 15 then word n i % 2 ^ 15 else word n i := by
  unfold word
  split_ifs with hlast
  · have hmask (b : UInt8) : (b &&& 127).toNat = b.toNat % 2 ^ 7 :=
      (UInt8.toNat_and b 127).trans (Nat.and_two_pow_sub_one_eq_mod _ 7)
    have hlow := (n.getD 30 0).toNat_lt
    subst hlast
    rw [getD_set_ne _ (by norm_num), getD_set_self (by omega), hmask]
    push_cast
    omega
  · rw [getD_set_ne _ (by omega), getD_set_ne _ (by omega)]

theorem unpack25519_isSome {n : Bytes} (hn : n.length = 32) :
    ∃ x, unpack25519 n = some x ∧ Reduced x ∧
      residue x = (Rfc7748.decodeUCoordinate n : ZMod Rfc7748.p) := by
  have hloop : (results 16 fun i => do
      let high ← int64 ((n.getD (2 * i + 1) 0).toNat * 2 ^ 8)
      int64 ((n.getD (2 * i) 0).toNat + high)) = some ((List.range 16).map (word n)) := by
    refine results_eq_some.mpr ⟨by simp, fun i hi => ?_⟩
    have hword := word_digit n i
    have hhigh := (n.getD (2 * i + 1) 0).toNat_lt
    have hhigh' : int64 ((n.getD (2 * i + 1) 0).toNat * 2 ^ 8) = some _ :=
      int64_of_abs_le (abs_lt.mpr ⟨by omega, by omega⟩)
    have hsum : int64 (word n i) = some _ := int64_of_abs_le (abs_lt.mpr ⟨by omega, by omega⟩)
    rw [List.getElem_map, List.getElem_range, hhigh', Option.bind_eq_bind, Option.bind_some, ← word,
      hsum]
  have hwords : ((List.range 16).map (word n)).set 15
      (((List.range 16).map (word n)).getD 15 0 % 2 ^ 15) =
        (List.range 16).map (word (n.set 31 (n.getD 31 0 &&& 127))) := by
    refine List.ext_getElem (by simp) fun i hi _ => ?_
    have hi : i < 16 := by simpa using hi
    rw [List.getElem_map, List.getElem_range, word_masked hn hi, List.getElem_set]
    split_ifs with h₁ h₂ h₂
    · rw [List.getD_eq_getElem _ _ (by simp), List.getElem_map, List.getElem_range, h₂]
    · exact absurd h₁.symm h₂
    · exact absurd h₂.symm h₁
    · rw [List.getElem_map, List.getElem_range]
  refine ⟨(List.range 16).map (word (n.set 31 (n.getD 31 0 &&& 127))), ?_,
    reduced_of_digits (by rw [List.length_map, List.length_range]) fun x hx => ?_, ?_⟩
  · rw [unpack25519, hloop, Option.bind_eq_bind, Option.bind_some, hwords]
  · obtain ⟨i, -, rfl⟩ := List.mem_map.mp hx
    exact word_digit _ i
  · rw [residue, value_words 16 (by simpa using hn), Int.cast_natCast]
    rfl

end Onegram.X25519
