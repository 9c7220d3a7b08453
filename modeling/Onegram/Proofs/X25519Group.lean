import Mathlib.FieldTheory.IsAlgClosed.AlgebraicClosure
import Onegram.Lib.Montgomery
import Onegram.Proofs.Prime25519
import Onegram.Proofs.X25519

/-!
# X25519 multiplies points of a group

Each element of the field is the x-coordinate of a point over an algebraic closure, on the curve or
on its twist, and the ladder takes it to the x-coordinate of the multiple. Points at infinity have
0 for theirs, as the inversion gives it. Multiples of multiples commute, and so does X25519.
-/

namespace Onegram.Rfc7748

open Montgomery WeierstrassCurve.Affine

instance instFactPrime : Fact p.Prime := ⟨prime_p⟩

variable {K : Type*} [Field K]

/-- The x-coordinate that the inversion of a denominator leaves: 0 for the point at infinity. -/
def xcoord : (curve (486662 : K)).Point → K
  | .zero => 0
  | .some x _ _ => x

@[simp] theorem xcoord_zero : xcoord (0 : (curve (486662 : K)).Point) = 0 := rfl

@[simp] theorem xcoord_some {x y : K} (h : (curve (486662 : K)).Nonsingular x y) :
    xcoord (.some _ _ h) = x := rfl

theorem natCast_ne_zero (f : ZMod p →+* K) {n : ℕ} (hpos : 0 < n) (hlt : n < p) : (n : K) ≠ 0 := by
  rw [← map_natCast f n, ne_eq, map_eq_zero, ZMod.natCast_eq_zero_iff]
  exact Nat.not_dvd_of_pos_of_lt hpos hlt

theorem two_ne_zero_of (f : ZMod p →+* K) : (2 : K) ≠ 0 :=
  natCast_ne_zero f (n := 2) (by norm_num) (by decide)

theorem sq_ne_four (f : ZMod p →+* K) : (486662 : K) ^ 2 ≠ 4 := by
  have hne := natCast_ne_zero f (n := 486662 ^ 2 - 4) (by norm_num) (by decide)
  rw [Nat.cast_sub (by norm_num), sub_ne_zero] at hne
  exact_mod_cast hne

/-- Each element of the field is the x-coordinate of a point. -/
theorem exists_xcoord [IsAlgClosed K] (f : ZMod p →+* K) (u : ZMod p) :
    ∃ Q : (curve (486662 : K)).Point, xcoord Q = f u := by
  obtain ⟨y, hy⟩ := IsAlgClosed.exists_pow_nat_eq (f u ^ 3 + 486662 * f u ^ 2 + f u)
    (show 0 < 2 by norm_num)
  exact ⟨.some _ _ (nonsingular_of_eq (two_ne_zero_of f) (sq_ne_four f) hy), xcoord_some _⟩

variable [DecidableEq K]

/-- The variables of the ladder, with their swap done, stand for a multiple and the next one. -/
structure Multiples (f : ZMod p →+* K) (P : (curve (486662 : K)).Point) (m : ℕ)
    (L : Ladder (ZMod p)) : Prop where
  swap : L.swap = 0 ∨ L.swap = 1
  low : Represents (f (cswap L.swap L.x2 L.x3).1) (f (cswap L.swap L.z2 L.z3).1) (m • P)
  high : Represents (f (cswap L.swap L.x2 L.x3).2) (f (cswap L.swap L.z2 L.z3).2) ((m + 1) • P)

variable (f : ZMod p →+* K)

/-- One step from two points with the difference `P` or `-P`, of which the first is doubled. -/
theorem represents_ladderStep {u : ZMod p} {v : K} {hP : (curve (486662 : K)).Nonsingular (f u) v}
    (hu : u ≠ 0) {Q R : (curve (486662 : K)).Point}
    (hdiff : R - Q = .some _ _ hP ∨ R - Q = -.some _ _ hP) {L : Ladder (ZMod p)} (kt : ℕ)
    (hQ : Represents (f (cswap (L.swap ^^^ kt) L.x2 L.x3).1)
      (f (cswap (L.swap ^^^ kt) L.z2 L.z3).1) Q)
    (hR : Represents (f (cswap (L.swap ^^^ kt) L.x2 L.x3).2)
      (f (cswap (L.swap ^^^ kt) L.z2 L.z3).2) R) :
    Represents (f (ladderStep u L kt).x2) (f (ladderStep u L kt).z2) (Q + Q) ∧
      Represents (f (ladderStep u L kt).x3) (f (ladderStep u L kt).z3) (Q + R) := by
  have hu' : f u ≠ 0 := by rwa [ne_eq, map_eq_zero]
  have h2 := two_ne_zero_of f
  have ha : 4 * (a24 : K) = 486662 - 2 := by norm_num [a24]
  obtain ⟨w, hw, hdiff⟩ : ∃ w, ∃ hw : (curve (486662 : K)).Nonsingular (f u) w,
      R - Q = .some _ _ hw := by
    rcases hdiff with h | h
    · exact ⟨v, hP, h⟩
    · exact ⟨_, _, h.trans (Point.neg_some hP)⟩
  constructor
  · have hdouble := represents_double h2 (sq_ne_four f) ha hQ rfl rfl rfl
    simpa [ladderStep] using hdouble
  · have hadd := represents_add h2 hu' hdiff hQ hR rfl rfl
    simpa [ladderStep] using hadd

theorem Multiples.step {u : ZMod p} {v : K} {hP : (curve (486662 : K)).Nonsingular (f u) v}
    (hu : u ≠ 0) {m : ℕ} {L : Ladder (ZMod p)} (h : Multiples f (.some _ _ hP) m L) {kt : ℕ}
    (hkt : kt = 0 ∨ kt = 1) :
    Multiples f (.some _ _ hP) (2 * m + kt) (ladderStep u L kt) := by
  obtain ⟨hswap, hlow, hhigh⟩ := h
  rcases hkt with rfl | rfl
  · rw [← Nat.xor_zero L.swap] at hlow hhigh
    obtain ⟨hdouble, hadd⟩ := represents_ladderStep f hu
      (Or.inl (by rw [succ_nsmul', add_sub_cancel_right])) 0 hlow hhigh
    refine ⟨Or.inl rfl, ?_, ?_⟩
    · have htwice : (2 * m + 0) • Point.some _ _ hP = m • Point.some _ _ hP + m • .some _ _ hP := by
        rw [add_zero, two_mul, add_nsmul]
      rw [htwice]
      exact hdouble
    · have hnext : (2 * m + 0 + 1) • Point.some _ _ hP =
          m • Point.some _ _ hP + (m + 1) • .some _ _ hP := by
        rw [← add_nsmul]
        congr 1
        omega
      rw [hnext]
      exact hadd
  · have hflip : cswap (L.swap ^^^ 1) L.x2 L.x3 = (cswap L.swap L.x2 L.x3).swap ∧
        cswap (L.swap ^^^ 1) L.z2 L.z3 = (cswap L.swap L.z2 L.z3).swap := by
      rcases hswap with hzero | hone
      · rw [hzero]
        exact ⟨rfl, rfl⟩
      · rw [hone]
        exact ⟨rfl, rfl⟩
    obtain ⟨hdouble, hadd⟩ := represents_ladderStep f hu
      (Q := (m + 1) • .some _ _ hP) (R := m • .some _ _ hP) (L := L)
      (Or.inr (by rw [succ_nsmul', sub_add_cancel_right])) 1
      (by rw [hflip.1, hflip.2]; exact hhigh) (by rw [hflip.1, hflip.2]; exact hlow)
    refine ⟨Or.inr rfl, ?_, ?_⟩
    · have hsum : (2 * m + 1) • Point.some _ _ hP =
          (m + 1) • Point.some _ _ hP + m • .some _ _ hP := by
        rw [← add_nsmul]
        congr 1
        omega
      rw [hsum]
      exact hadd
    · have htwice : (2 * m + 1 + 1) • Point.some _ _ hP =
          (m + 1) • Point.some _ _ hP + (m + 1) • .some _ _ hP := by
        rw [← add_nsmul]
        congr 1
        omega
      rw [htwice]
      exact hdouble

/-- From the bits above `n` to all of them. -/
theorem Multiples.run {u : ZMod p} {v : K} {hP : (curve (486662 : K)).Nonsingular (f u) v}
    (hu : u ≠ 0) (k : ℕ) : ∀ (n : ℕ) {L : Ladder (ZMod p)},
    Multiples f (.some _ _ hP) (k / 2 ^ n) L →
      Multiples f (.some _ _ hP) k
        ((List.range n).reverse.foldl (fun L t => ladderStep u L (k >>> t &&& 1)) L)
  | 0, L, h => by simpa using h
  | n + 1, L, h => by
    rw [List.range_succ, List.reverse_append, List.reverse_singleton, List.singleton_append,
      List.foldl_cons]
    refine Multiples.run hu k n ?_
    have hbit : k >>> n &&& 1 = 0 ∨ k >>> n &&& 1 = 1 := by
      rw [Nat.and_one_is_mod]
      exact Nat.mod_two_eq_zero_or_one _
    have hnext : 2 * (k / 2 ^ (n + 1)) + (k >>> n &&& 1) = k / 2 ^ n := by
      rw [Nat.and_one_is_mod, Nat.shiftRight_eq_div_pow, pow_succ, ← Nat.div_div_eq_div_mul]
      exact Nat.div_add_mod _ 2
    rw [← hnext]
    exact h.step f hu hbit

omit [DecidableEq K] in
/-- The denominator is inverted as its power `p - 2`, which leaves a denominator of 0 as it is. -/
theorem map_quotient {X Z : ZMod p} {Q : (curve (486662 : K)).Point}
    (h : Represents (f X) (f Z) Q) : f (X * Z ^ (p - 2)) = xcoord Q := by
  rcases Q with _ | ⟨x, y, hQ⟩
  · obtain ⟨-, hZ⟩ := represents_zero.mp h
    have hzero : Z ^ (p - 2) = 0 := by
      rw [(map_eq_zero f).mp hZ]
      exact zero_pow (by decide)
    rw [hzero, mul_zero, map_zero]
    exact xcoord_zero.symm
  · obtain ⟨hZ, hX⟩ := represents_some.mp h
    have hZ' : Z ≠ 0 := fun hzero => hZ (by rw [hzero, map_zero])
    have hfermat : Z * Z ^ (p - 2) = 1 := by
      rw [← pow_succ', show p - 2 + 1 = p - 1 by decide]
      exact ZMod.pow_card_sub_one_eq_one hZ'
    calc f (X * Z ^ (p - 2)) = f Z * x * f (Z ^ (p - 2)) := by rw [map_mul, hX]
      _ = f (Z * Z ^ (p - 2)) * x := by rw [map_mul]; ring
      _ = xcoord (.some _ _ hQ) := by rw [hfermat, map_one, one_mul, xcoord_some]

/-- Each pair has a numerator or a denominator of 0. -/
def Degenerate (L : Ladder (ZMod p)) : Prop := L.x2 * L.z2 = 0 ∧ L.x3 * L.z3 = 0

theorem Degenerate.cswap {L : Ladder (ZMod p)} (h : Degenerate L) (s : ℕ) :
    (cswap s L.x2 L.x3).1 * (cswap s L.z2 L.z3).1 = 0 := by
  unfold Rfc7748.cswap
  split_ifs
  · exact h.2
  · exact h.1

theorem Degenerate.step {L : Ladder (ZMod p)} (h : Degenerate L) (kt : ℕ) :
    Degenerate (ladderStep 0 L kt) := by
  have hpair := h.cswap (L.swap ^^^ kt)
  have hE : ((Rfc7748.cswap (L.swap ^^^ kt) L.x2 L.x3).1 +
        (Rfc7748.cswap (L.swap ^^^ kt) L.z2 L.z3).1) ^ 2 -
      ((Rfc7748.cswap (L.swap ^^^ kt) L.x2 L.x3).1 -
        (Rfc7748.cswap (L.swap ^^^ kt) L.z2 L.z3).1) ^ 2 = 0 := by
    linear_combination 4 * hpair
  constructor
  · simp only [ladderStep]
    rw [hE, zero_mul, mul_zero]
  · simp only [ladderStep]
    rw [zero_mul, mul_zero]

theorem Degenerate.run (k : ℕ) : ∀ (l : List ℕ) {L : Ladder (ZMod p)}, Degenerate L →
    Degenerate (l.foldl (fun L t => ladderStep 0 L (k >>> t &&& 1)) L)
  | [], _, h => h
  | t :: l, _, h => Degenerate.run k l (h.step (k >>> t &&& 1))

/-- The x-coordinate 0 stays. -/
theorem ladder_zero (k : ℕ) : ladder k (0 : ZMod p) = 0 := by
  have hstart : Degenerate ⟨1, 0, 0, 1, 0⟩ := ⟨mul_zero 1, zero_mul 1⟩
  rcases mul_eq_zero.mp ((hstart.run k (List.range 255).reverse).cswap _) with hX | hZ
  · rw [ladder, hX, zero_mul]
  · rw [ladder, hZ, zero_pow (by decide), mul_zero]

theorem map_ladder {u : ZMod p} {Q : (curve (486662 : K)).Point} (h : f u = xcoord Q) {k : ℕ}
    (hk : k < 2 ^ 255) : f (ladder k u) = xcoord (k • Q) := by
  rcases Q with _ | ⟨x, v, hQ⟩
  · have hu : u = 0 := (map_eq_zero f).mp (h.trans xcoord_zero)
    rw [hu, ladder_zero, map_zero]
    exact (congrArg xcoord (nsmul_zero k)).trans xcoord_zero |>.symm
  · obtain rfl := h.trans (xcoord_some hQ)
    by_cases hu : u = 0
    · -- The point is of order 2, so that its multiples are itself and the point at infinity.
      subst hu
      have hv : v = 0 := by
        have hcurve := equation_iff.mp hQ.1
        rw [map_zero] at hcurve
        simpa using hcurve
      subst hv
      have htwo : 2 • Point.some _ _ hQ = 0 := by
        rw [two_nsmul]
        exact add_self_eq_zero hQ
      rw [ladder_zero]
      rcases Nat.even_or_odd' k with ⟨q, rfl | rfl⟩
      · rw [mul_nsmul, htwo, nsmul_zero, xcoord_zero, map_zero]
      · rw [add_nsmul, one_nsmul, mul_nsmul, htwo, nsmul_zero, zero_add, xcoord_some]
    · have hstart : Multiples f (.some _ _ hQ) (k / 2 ^ 255) ⟨1, 0, u, 1, 0⟩ := by
        rw [Nat.div_eq_of_lt hk]
        refine ⟨Or.inl rfl, ?_, ?_⟩
        · rw [zero_nsmul, represents_zero]
          simp [cswap]
        · rw [zero_add, one_nsmul, represents_some]
          simp [cswap]
      exact map_quotient f (hstart.run f hu k 255).low

/-! ## Bytes -/

theorem littleEndian_set_last {b : Bytes} (hb : b.length = 32) (x : UInt8) :
    Bytes.littleEndian (b.set 31 x) = Bytes.littleEndian b % 2 ^ 248 + 2 ^ 248 * x.toNat := by
  have hsplit : b.set 31 x = b.take 31 ++ [x] := by
    rw [List.set_eq_take_append_cons_drop, if_pos (by omega), List.drop_of_length_le (by omega)]
  rw [hsplit, littleEndian_append, littleEndian_take, List.length_take_of_le (by omega)]
  simp [Bytes.littleEndian]

theorem littleEndian_last {b : Bytes} (hb : b.length = 32) :
    (b.getD 31 0).toNat = Bytes.littleEndian b / 2 ^ 248 := by
  have hdrop : b.drop 31 = [b.getD 31 0] := by
    rw [List.drop_eq_getElem_cons (by omega), List.drop_of_length_le (by omega),
      List.getD_eq_getElem _ _ (by omega)]
  have hvalue := littleEndian_drop b 31
  rw [hdrop] at hvalue
  simpa [Bytes.littleEndian] using hvalue

theorem decodeScalar25519_lt {k : Bytes} (hk : k.length = 32) : decodeScalar25519 k < 2 ^ 255 := by
  have hlast (b : UInt8) : (b &&& 127 ||| 64).toNat < 2 ^ 7 := by
    rw [UInt8.toNat_or, UInt8.toNat_and]
    exact Nat.or_lt_two_pow (Nat.and_lt_two_pow _ (by decide)) (by decide)
  have hlength : (k.set 0 (k.getD 0 0 &&& 248)).length = 32 := by rw [List.length_set, hk]
  rw [decodeScalar25519, X25519.getD_set_self (by omega), List.set_set,
    littleEndian_set_last hlength]
  have hbound := hlast ((k.set 0 (k.getD 0 0 &&& 248)).getD 31 0)
  omega

/-- The coordinate without its highest bit. -/
theorem decodeUCoordinate_eq {u : Bytes} (hu : u.length = 32) :
    decodeUCoordinate u = Bytes.littleEndian u % 2 ^ 255 := by
  have hmask (b : UInt8) : (b &&& 127).toNat = b.toNat % 2 ^ 7 :=
    (UInt8.toNat_and b 127).trans (Nat.and_two_pow_sub_one_eq_mod _ 7)
  rw [decodeUCoordinate, littleEndian_set_last hu, hmask, littleEndian_last hu]
  omega

theorem decodeUCoordinate_encode (v : ZMod p) :
    (decodeUCoordinate (encodeUCoordinate v) : ZMod p) = v := by
  have hlt : v.val < 2 ^ 255 := (ZMod.val_lt v).trans (by decide)
  rw [encodeUCoordinate, decodeUCoordinate_eq (Bytes.length_bytesLE 32 _),
    Bytes.littleEndian_bytesLE, Nat.mod_eq_of_lt (hlt.trans (by norm_num)), Nat.mod_eq_of_lt hlt,
    ZMod.natCast_val, ZMod.cast_id]

/-! ## The group -/

theorem ladder_ladder (u : ZMod p) {a b : ℕ} (ha : a < 2 ^ 255) (hb : b < 2 ^ 255) :
    ladder a (ladder b u) = ladder b (ladder a u) := by
  classical
  let f := algebraMap (ZMod p) (AlgebraicClosure (ZMod p))
  obtain ⟨Q, hQ⟩ := exists_xcoord f u
  apply f.injective
  rw [map_ladder f (map_ladder f hQ.symm hb) ha, map_ladder f (map_ladder f hQ.symm ha) hb,
    smul_smul, smul_smul, mul_comm]

theorem X25519_comm (u : Bytes) {a b : Bytes} (ha : a.length = 32) (hb : b.length = 32) :
    X25519 a (X25519 b u) = X25519 b (X25519 a u) := by
  simp only [X25519]
  rw [decodeUCoordinate_encode, decodeUCoordinate_encode,
    ladder_ladder _ (decodeScalar25519_lt ha) (decodeScalar25519_lt hb)]

end Onegram.Rfc7748

namespace Onegram.X25519

open Montgomery

theorem toList_nw_x25519 (n p : Vector UInt8 32) :
    (Onegram.nw_x25519 n p).toList = Rfc7748.X25519 n.toList p.toList :=
  nw_x25519_checked (nw_x25519_isSome n p)

/-- The result is the x-coordinate of the multiple of any point with the given x-coordinate, over
any field that holds the residues modulo the prime. -/
theorem nw_x25519_multiple {K : Type*} [Field K] [DecidableEq K] (f : ZMod Rfc7748.p →+* K)
    (n p : Vector UInt8 32) {Q : (curve (486662 : K)).Point}
    (hQ : Rfc7748.xcoord Q = f (Rfc7748.decodeUCoordinate p.toList)) :
    f (Rfc7748.decodeUCoordinate (Onegram.nw_x25519 n p).toList) =
      Rfc7748.xcoord (Rfc7748.decodeScalar25519 n.toList • Q) := by
  rw [toList_nw_x25519, Rfc7748.X25519, Rfc7748.decodeUCoordinate_encode,
    Rfc7748.map_ladder f hQ.symm (Rfc7748.decodeScalar25519_lt (by simp))]

/-- The x-coordinate 0 is that of the point at infinity. -/
theorem nw_x25519_multiple_zero : Rfc7748.xcoord (0 : (curve (486662 : ZMod Rfc7748.p)).Point) =
      (Rfc7748.decodeUCoordinate (Bytes.zeros 32).toList : ZMod Rfc7748.p) ∧
    (Rfc7748.decodeUCoordinate (Onegram.nw_x25519 (Bytes.zeros 32) (Bytes.zeros 32)).toList :
        ZMod Rfc7748.p) = Rfc7748.xcoord (Rfc7748.decodeScalar25519 (Bytes.zeros 32).toList •
          (0 : (curve (486662 : ZMod Rfc7748.p)).Point)) := by
  have hzero : Rfc7748.xcoord (0 : (curve (486662 : ZMod Rfc7748.p)).Point) =
      (Rfc7748.decodeUCoordinate (Bytes.zeros 32).toList : ZMod Rfc7748.p) := by
    have hbytes : Rfc7748.decodeUCoordinate (Bytes.zeros 32).toList = 0 := by decide
    rw [hbytes, Rfc7748.xcoord_zero, Nat.cast_zero]
  exact ⟨hzero, nw_x25519_multiple (RingHom.id _) _ _ hzero⟩

/-- Two parties come to one shared secret, from any point. -/
theorem nw_x25519_comm (a b p : Vector UInt8 32) :
    Onegram.nw_x25519 a (Onegram.nw_x25519 b p) = Onegram.nw_x25519 b (Onegram.nw_x25519 a p) := by
  apply Vector.toList_inj.mp
  rw [toList_nw_x25519, toList_nw_x25519, toList_nw_x25519, toList_nw_x25519,
    Rfc7748.X25519_comm _ (by simp) (by simp)]

end Onegram.X25519
