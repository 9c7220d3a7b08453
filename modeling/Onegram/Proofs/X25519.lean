import Onegram.Proofs.X25519Bytes

/-!
# X25519 is the function of RFC 7748

The ladder of the code swaps back after each step, where the standard's keeps the swap for the next
one. On the residues of their limbs both take the same steps.
-/

namespace Onegram.X25519

open Checked Limbs

/-! ## The ladder -/

/-- The limbs of the ladder's variables are as two carries leave them. -/
def Ladder.Reduced (L : Ladder) : Prop :=
  X25519.Reduced L.a ∧ X25519.Reduced L.b ∧ X25519.Reduced L.c ∧ X25519.Reduced L.d

theorem gf_121665_within : Within (2 ^ 18) (ints gf_121665) := by
  refine ⟨length_ints _, ?_⟩
  decide

theorem residue_gf_121665 : residue (ints gf_121665) = (Rfc7748.a24 : ℕ) := by
  have hvalue : value (2 ^ 16) (ints gf_121665) = Rfc7748.a24 := by decide
  rw [residue, hvalue, Int.cast_natCast]


/-- The variables of the code's ladder, and those of the standard's with its swap done. -/
structure Refines (L : Ladder) (R : Rfc7748.Ladder (ZMod Rfc7748.p)) : Prop where
  swap : R.swap = 0 ∨ R.swap = 1
  x : (residue L.a, residue L.b) = Rfc7748.cswap R.swap R.x2 R.x3
  z : (residue L.c, residue L.d) = Rfc7748.cswap R.swap R.z2 R.z3

theorem residue_sel25519 {a b : Limbs} {x y : ZMod Rfc7748.p} {s k : ℕ} (hs : s = 0 ∨ s = 1)
    (hk : k = 0 ∨ k = 1) (h : (residue a, residue b) = Rfc7748.cswap s x y) :
    (residue (sel25519 a b k).1, residue (sel25519 a b k).2) = Rfc7748.cswap (s ^^^ k) x y := by
  obtain ⟨ha, hb⟩ := Prod.mk.inj h
  rcases hs with rfl | rfl <;> rcases hk with rfl | rfl
  all_goals
    simp [sel25519, Rfc7748.cswap] at ha hb ⊢
    exact ⟨by assumption, by assumption⟩

theorem sel25519_reduced {a b : Limbs} (ha : Reduced a) (hb : Reduced b) (r : ℤ) :
    Reduced (sel25519 a b r).1 ∧ Reduced (sel25519 a b r).2 := by
  unfold sel25519
  split_ifs
  · exact ⟨hb, ha⟩
  · exact ⟨ha, hb⟩

theorem ladder_step_isSome {x : Limbs} (hx : Reduced x) {L : Ladder} (hL : L.Reduced)
    {R : Rfc7748.Ladder (ZMod Rfc7748.p)} (hR : Refines L R) {k : ℕ} (hk : k = 0 ∨ k = 1) :
    ∃ s, ladder_step x L k = some s ∧ s.Reduced ∧
      Refines s (Rfc7748.ladderStep (residue x) R k) := by
  have hx2 := residue_sel25519 hR.swap hk hR.x
  have hz2 := residue_sel25519 hR.swap hk hR.z
  obtain ⟨ha₀, hb₀⟩ := sel25519_reduced hL.1 hL.2.1 k
  obtain ⟨hc₀, hd₀⟩ := sel25519_reduced hL.2.2.1 hL.2.2.2 k
  rw [ladder_step, Rfc7748.ladderStep]
  rw [← hx2, ← hz2]
  generalize sel25519 L.a L.b k = ab at ha₀ hb₀ ⊢
  generalize sel25519 L.c L.d k = cd at hc₀ hd₀ ⊢
  obtain ⟨a₀, b₀⟩ := ab
  obtain ⟨c₀, d₀⟩ := cd
  dsimp only at ha₀ hb₀ hc₀ hd₀ ⊢
  have h18 {v : Limbs} (h : Reduced v) : Within (2 ^ 18) v := h.within (by norm_num)
  obtain ⟨e₁, he₁, he₁', re₁⟩ := gf_A_isSome ha₀ hc₀
  obtain ⟨a₁, ha₁, ha₁', ra₁⟩ := gf_Z_isSome ha₀ hc₀
  obtain ⟨c₁, hc₁, hc₁', rc₁⟩ := gf_A_isSome hb₀ hd₀
  obtain ⟨b₁, hb₁, hb₁', rb₁⟩ := gf_Z_isSome hb₀ hd₀
  obtain ⟨d₁, hd₁, hd₁', rd₁⟩ := gf_S_isSome he₁'
  obtain ⟨f₁, hf₁, hf₁', rf₁⟩ := gf_S_isSome ha₁'
  obtain ⟨a₂, ha₂, ha₂', ra₂⟩ := gf_M_isSome hc₁' ha₁'
  obtain ⟨c₂, hc₂, hc₂', rc₂⟩ := gf_M_isSome hb₁' he₁'
  obtain ⟨e₂, he₂, he₂', re₂⟩ := gf_A_isSome ha₂' hc₂'
  obtain ⟨a₃, ha₃, ha₃', ra₃⟩ := gf_Z_isSome ha₂' hc₂'
  obtain ⟨b₂, hb₂, hb₂', rb₂⟩ := gf_S_isSome ha₃'
  obtain ⟨c₃, hc₃, hc₃', rc₃⟩ := gf_Z_isSome hd₁' hf₁'
  obtain ⟨a₄, ha₄, ha₄', ra₄⟩ := gf_M_isSome hc₃' gf_121665_within
  obtain ⟨a₅, ha₅, ha₅', ra₅⟩ := gf_A_isSome ha₄' hd₁'
  obtain ⟨c₄, hc₄, hc₄', rc₄⟩ := gf_M_isSome hc₃' ha₅'
  obtain ⟨a₆, ha₆, ha₆', ra₆⟩ := gf_M_isSome (h18 hd₁') (h18 hf₁')
  obtain ⟨d₂, hd₂, hd₂', rd₂⟩ := gf_M_isSome (h18 hb₂') (h18 hx)
  obtain ⟨b₃, hb₃, hb₃', rb₃⟩ := gf_S_isSome he₂'
  rw [he₁, Option.bind_eq_bind, Option.bind_some, ha₁, Option.bind_some, hc₁, Option.bind_some,
    hb₁, Option.bind_some, hd₁, Option.bind_some, hf₁, Option.bind_some, ha₂, Option.bind_some,
    hc₂, Option.bind_some, he₂, Option.bind_some, ha₃, Option.bind_some, hb₂, Option.bind_some,
    hc₃, Option.bind_some, ha₄, Option.bind_some, ha₅, Option.bind_some, hc₄, Option.bind_some,
    ha₆, Option.bind_some, hd₂, Option.bind_some, hb₃, Option.bind_some]
  refine ⟨_, rfl, ?_, ?_⟩
  · obtain ⟨ha₇, hb₇⟩ := sel25519_reduced ha₆' hb₃' k
    obtain ⟨hc₇, hd₇⟩ := sel25519_reduced hc₄' hd₂' k
    exact ⟨ha₇, hb₇, hc₇, hd₇⟩
  · have hkeep (x y : Limbs) : (residue x, residue y) = Rfc7748.cswap 0 (residue x) (residue y) :=
      rfl
    refine ⟨hk, ?_, ?_⟩
    · refine (residue_sel25519 (Or.inl rfl) hk (hkeep a₆ b₃)).trans ?_
      rw [Nat.zero_xor, ra₆, rd₁, rf₁, re₁, ra₁, rb₃, re₂, ra₂, rc₂, rc₁, rb₁, re₁, ra₁]
      congr 1
      ring
    · refine (residue_sel25519 (Or.inl rfl) hk (hkeep c₄ d₂)).trans ?_
      rw [Nat.zero_xor, rc₄, ra₅, ra₄, rc₃, rd₁, rf₁, re₁, ra₁, rd₂, rb₂, ra₃, ra₂, rc₂, rc₁, rb₁,
        re₁, ra₁, residue_gf_121665]
      congr 1 <;> ring

/-! ## The scalar -/

theorem decodeScalar25519_eq (n : Vector UInt8 32) :
    Rfc7748.decodeScalar25519 n.toList = Bytes.littleEndian (x25519_clamp n).toList := by
  have hfirst : n.toList.getD 0 0 = n[0] := by
    rw [List.getD_eq_getElem _ _ (by simp)]
    rfl
  have hlast : n.toList.getD 31 0 = n[31] := by
    rw [List.getD_eq_getElem _ _ (by simp)]
    rfl
  rw [Rfc7748.decodeScalar25519, getD_set_self (by simp), getD_set_ne _ (by norm_num),
    List.set_set, hfirst, hlast, x25519_clamp, Vector.toList_set, Vector.toList_set,
    List.set_comm _ _ (by norm_num)]

theorem bit_eq (z : Bytes) (i : ℕ) : bit z i = ((Bytes.littleEndian z >>> i &&& 1 : ℕ) : ℤ) := by
  have hpow : 2 ^ i = 256 ^ (i / 8) * 2 ^ (i % 8) := by
    rw [show 256 = 2 ^ 8 by norm_num, ← pow_mul, ← pow_add, Nat.div_add_mod]
  have hbyte : Bytes.littleEndian (z.drop (i / 8)) / 2 ^ (i % 8) % 2 =
      (z.getD (i / 8) 0).toNat / 2 ^ (i % 8) % 2 := by
    rw [List.getD_eq_getElem?_getD, ← Nat.add_zero (i / 8), ← List.getElem?_drop, Nat.add_zero]
    have hlt : i % 8 < 8 := Nat.mod_lt _ (by norm_num)
    rcases z.drop (i / 8) with _ | ⟨b, rest⟩
    · rfl
    · rw [Bytes.littleEndian, List.getElem?_cons_zero, Option.getD_some]
      interval_cases i % 8 <;> omega
  rw [Nat.and_one_is_mod, Nat.shiftRight_eq_div_pow, hpow, ← Nat.div_div_eq_div_mul,
    ← littleEndian_drop, hbyte, bit]
  push_cast
  rfl

/-! ## The whole function -/

theorem nw_x25519_isSome (n p : Vector UInt8 32) :
    nw_x25519 n p = some (Rfc7748.X25519 n.toList p.toList) := by
  obtain ⟨x, hx, hxReduced, hxResidue⟩ := unpack25519_isSome (n := p.toList) (by simp)
  have hzero : Reduced (List.replicate 16 0) := reduced_of_digits rfl (by decide)
  have hone : Reduced ((List.replicate 16 0).set 0 1) := reduced_of_digits rfl (by decide)
  have hzero' : residue (List.replicate 16 0) = 0 := by
    rw [residue, show value (2 ^ 16) (List.replicate 16 0) = 0 by decide, Int.cast_zero]
  have hone' : residue ((List.replicate 16 0).set 0 1) = 1 := by
    rw [residue, show value (2 ^ 16) ((List.replicate 16 0).set 0 1) = 1 by decide, Int.cast_one]
  have hstart : Refines ⟨(List.replicate 16 0).set 0 1, x, List.replicate 16 0,
      (List.replicate 16 0).set 0 1⟩ ⟨1, 0, residue x, 1, 0⟩ :=
    ⟨Or.inl rfl, by rw [hone']; rfl, by rw [hone', hzero']; rfl⟩
  have hstep (L : Ladder) (R : Rfc7748.Ladder (ZMod Rfc7748.p)) (i : ℕ)
      (h : L.Reduced ∧ Refines L R) :
      ∃ s, ladder_step x L (bit (x25519_clamp n).toList i) = some s ∧ s.Reduced ∧
        Refines s (Rfc7748.ladderStep (residue x) R
          (Rfc7748.decodeScalar25519 n.toList >>> i &&& 1)) := by
    rw [bit_eq, decodeScalar25519_eq]
    refine ladder_step_isSome hxReduced h.1 h.2 ?_
    rw [Nat.and_one_is_mod]
    exact Nat.mod_two_eq_zero_or_one _
  obtain ⟨L, hL, hLReduced, hLRefines⟩ := foldlM_refines
    (fun L R => L.Reduced ∧ Refines L R) hstep (List.range 255).reverse
    ⟨⟨hone, hxReduced, hzero, hone⟩, hstart⟩
  obtain ⟨c, hc, hcReduced, hcResidue⟩ := inv25519_isSome hLReduced.2.2.1
  obtain ⟨a, ha, haReduced, haResidue⟩ :=
    gf_M_isSome (hLReduced.1.within (by norm_num)) (hcReduced.within (by norm_num))
  have hx2 := congrArg Prod.fst hLRefines.x
  have hz2 := congrArg Prod.fst hLRefines.z
  dsimp only at hx2 hz2
  rw [nw_x25519, hx, Option.bind_eq_bind, Option.bind_some]
  dsimp only
  rw [hL, Option.bind_eq_bind, Option.bind_some, hc, Option.bind_some, ha, Option.bind_some,
    pack25519_eq (haReduced.within (by norm_num))
      (car25519_isSome (haReduced.within (by norm_num))), haResidue, hcResidue, hx2, hz2,
    Rfc7748.X25519, Rfc7748.ladder, ← hxResidue]

/-- No operation of `nw_x25519` overflows, on any scalar and point, and its result is that of RFC
7748. Wherever none of its operations overflows, a routine computes what it is named for modulo the
prime, `inv25519` the power `p - 2`, and `pack25519` the bytes of the residue below the prime. -/
theorem nw_x25519_limbs :
    (∀ n p : Vector UInt8 32, nw_x25519 n p = some (Onegram.nw_x25519 n p).toList ∧
      (Onegram.nw_x25519 n p).toList = Rfc7748.X25519 n.toList p.toList) ∧
    (∀ (a b : Gf) (s : Limbs), gf_A (ints a) (ints b) = some s →
      residue (ints (Onegram.gf_A a b)) = residue (ints a) + residue (ints b)) ∧
    (∀ (a b : Gf) (s : Limbs), gf_Z (ints a) (ints b) = some s →
      residue (ints (Onegram.gf_Z a b)) = residue (ints a) - residue (ints b)) ∧
    (∀ (a b : Gf) (s : Limbs), gf_M (ints a) (ints b) = some s →
      residue (ints (Onegram.gf_M a b)) = residue (ints a) * residue (ints b)) ∧
    (∀ (a : Gf) (s : Limbs), gf_S (ints a) = some s →
      residue (ints (Onegram.gf_S a)) = residue (ints a) ^ 2) ∧
    (∀ (o : Gf) (s : Limbs), car25519 (ints o) = some s →
      residue (ints (Onegram.car25519 o)) = residue (ints o)) ∧
    (∀ p q : Gf, Onegram.sel25519 p q 0 = (p, q) ∧ Onegram.sel25519 p q 1 = (q, p)) ∧
    (∀ (i : Gf) (s : Limbs), inv25519 (ints i) = some s →
      residue (ints (Onegram.inv25519 i)) = residue (ints i) ^ (Rfc7748.p - 2)) ∧
    (∀ (o : Gf) (s : Bytes), pack25519 (ints o) = some s →
      (Onegram.pack25519 o).toList = Bytes.bytesLE 32 (residue (ints o)).val) := by
  refine ⟨fun n p => ?_, fun a b s h => ?_, fun a b s h => ?_, fun a b s h => ?_, fun a s h => ?_,
    fun o s h => ?_, fun p q => ⟨sel25519_zero p q, sel25519_one p q⟩, fun i s h => ?_,
    fun o s h => ?_⟩
  · have hsome := nw_x25519_isSome n p
    have hwords := nw_x25519_checked hsome
    exact ⟨by rw [hwords, hsome], hwords⟩
  · rw [gf_A_checked h]
    exact (residue_gf_A (length_ints a) (length_ints b) h).2
  · rw [gf_Z_checked h]
    exact (residue_gf_Z (length_ints a) (length_ints b) h).2
  · rw [gf_M_checked h]
    exact (residue_gf_M (length_ints a) (length_ints b) h).2
  · rw [gf_S_checked h]
    exact (residue_gf_S (length_ints a) h).2
  · rw [car25519_checked h]
    exact (residue_car25519 (length_ints o) h).2
  · rw [inv25519_checked h]
    exact (residue_inv25519 (length_ints i) h).2
  · obtain ⟨once, honce, -⟩ := Option.bind_eq_some_iff.mp h
    rw [pack25519_checked (pack25519_eq (ints_within o) honce)]
    rfl

end Onegram.X25519
