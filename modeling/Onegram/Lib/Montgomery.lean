import Mathlib.AlgebraicGeometry.EllipticCurve.Affine.Point
import Mathlib.Tactic

/-!
# Montgomery's ladder

On the curve `y ^ 2 = x ^ 3 + A x ^ 2 + x` the x-coordinate of a sum follows from those of the two
points and of their difference. Two field elements stand for an x-coordinate as its numerator and
denominator, with a denominator of 0 for the point at infinity.
-/

namespace Montgomery

open WeierstrassCurve.Affine

variable {K : Type*} [Field K] (A : K)

def curve : WeierstrassCurve.Affine K := { a₁ := 0, a₂ := A, a₃ := 0, a₄ := 1, a₆ := 0 }

variable {A}

theorem equation_iff {x y : K} : (curve A).Equation x y ↔ y ^ 2 = x ^ 3 + A * x ^ 2 + x := by
  rw [WeierstrassCurve.Affine.equation_iff]
  simp [curve]

theorem negY_eq (x y : K) : (curve A).negY x y = -y := by
  simp [curve, negY]

/-- Where 2 is not 0 and `A` neither 2 nor -2, each solution is a point. -/
theorem nonsingular_of_eq (h2 : (2 : K) ≠ 0) (hA : A ^ 2 ≠ 4) {x y : K}
    (h : y ^ 2 = x ^ 3 + A * x ^ 2 + x) : (curve A).Nonsingular x y := by
  have hdisc : (curve A).Δ = 2 ^ 4 * (A ^ 2 - 4) := by
    simp [curve, WeierstrassCurve.Δ, WeierstrassCurve.b₂, WeierstrassCurve.b₄, WeierstrassCurve.b₆,
      WeierstrassCurve.b₈]
    ring
  rw [← equation_iff_nonsingular_of_Δ_ne_zero, equation_iff]
  · exact h
  · rw [hdisc]
    exact mul_ne_zero (pow_ne_zero 4 h2) (sub_ne_zero.mpr hA)

/-! ## The x-coordinate of a sum -/

section Sum

variable [DecidableEq K]

theorem xRep_add {x₁ x₂ y₁ y₂ : K} (h₁ : (curve A).Nonsingular x₁ y₁)
    (h₂ : (curve A).Nonsingular x₂ y₂) (hx : x₁ ≠ x₂) : (Point.some _ _ h₁ + .some _ _ h₂).xRep =
      ![((y₁ - y₂) / (x₁ - x₂)) ^ 2 - A - x₁ - x₂, 1] := by
  rw [Point.add_of_X_ne hx, Point.xRep_some, slope_of_X_ne hx]
  simp [curve]

theorem xRep_add_self {x y : K} (h : (curve A).Nonsingular x y) (h2 : (2 : K) ≠ 0) (hy : y ≠ 0) :
    (Point.some _ _ h + .some _ _ h).xRep =
      ![((3 * x ^ 2 + 2 * A * x + 1) / (2 * y)) ^ 2 - A - x - x, 1] := by
  have hne : y ≠ (curve A).negY x y := by
    rw [negY_eq]
    intro hneg
    exact mul_ne_zero h2 hy (by linear_combination hneg)
  rw [Point.add_self_of_Y_ne hne, Point.xRep_some, slope_of_Y_ne rfl hne, negY_eq]
  simp [curve, two_mul]

theorem add_self_eq_zero {x : K} (h : (curve A).Nonsingular x 0) :
    Point.some _ _ h + .some _ _ h = 0 :=
  Point.add_self_of_Y_eq (by rw [negY_eq, neg_zero])

end Sum

/-- The x-coordinate of a double. -/
theorem mul_xRep_self (h2 : (2 : K) ≠ 0) {x y : K} (hy : y ≠ 0)
    (h : y ^ 2 = x ^ 3 + A * x ^ 2 + x) :
    (2 * y) ^ 2 * (((3 * x ^ 2 + 2 * A * x + 1) / (2 * y)) ^ 2 - A - x - x) = (x ^ 2 - 1) ^ 2 := by
  have hslope : (2 * y) ^ 2 * (((3 * x ^ 2 + 2 * A * x + 1) / (2 * y)) ^ 2 - A - x - x) =
      (3 * x ^ 2 + 2 * A * x + 1) ^ 2 - (2 * y) ^ 2 * (A + 2 * x) := by
    field_simp
    ring
  rw [hslope]
  linear_combination -4 * (A + 2 * x) * h

/-- The product of the x-coordinates of a sum and of a difference. -/
theorem mul_xRep {x₁ x₂ y₁ y₂ : K} (h₁ : y₁ ^ 2 = x₁ ^ 3 + A * x₁ ^ 2 + x₁)
    (h₂ : y₂ ^ 2 = x₂ ^ 3 + A * x₂ ^ 2 + x₂) (hx : x₁ ≠ x₂) :
    (((y₁ - y₂) / (x₁ - x₂)) ^ 2 - A - x₁ - x₂) * (((y₁ + y₂) / (x₁ - x₂)) ^ 2 - A - x₁ - x₂) *
      (x₁ - x₂) ^ 2 = (x₁ * x₂ - 1) ^ 2 := by
  have hne := sub_ne_zero.mpr hx
  have hsum (y : K) : ((y / (x₁ - x₂)) ^ 2 - A - x₁ - x₂) * (x₁ - x₂) ^ 2 =
      y ^ 2 - (A + x₁ + x₂) * (x₁ - x₂) ^ 2 := by
    field_simp
    ring
  apply mul_right_cancel₀ (pow_ne_zero 2 hne)
  calc _ = (((y₁ - y₂) / (x₁ - x₂)) ^ 2 - A - x₁ - x₂) * (x₁ - x₂) ^ 2 *
        ((((y₁ + y₂) / (x₁ - x₂)) ^ 2 - A - x₁ - x₂) * (x₁ - x₂) ^ 2) := by ring
    _ = _ := by
      rw [hsum, hsum]
      linear_combination (y₁ ^ 2 + (x₁ ^ 3 + A * x₁ ^ 2 + x₁) - 2 * y₂ ^ 2 -
        2 * (A + x₁ + x₂) * (x₁ - x₂) ^ 2) * h₁ + (y₂ ^ 2 + (x₂ ^ 3 + A * x₂ ^ 2 + x₂) -
        2 * (x₁ ^ 3 + A * x₁ ^ 2 + x₁) - 2 * (A + x₁ + x₂) * (x₁ - x₂) ^ 2) * h₂

/-- What a numerator and a denominator say of a point. -/
def Represents (X Z : K) (Q : (curve A).Point) : Prop :=
  ∃ c ≠ 0, X = c * Q.xRep 0 ∧ Z = c * Q.xRep 1

theorem represents_zero {X Z : K} : Represents X Z (0 : (curve A).Point) ↔ X ≠ 0 ∧ Z = 0 := by
  constructor
  · rintro ⟨c, hc, rfl, rfl⟩
    simpa using hc
  · rintro ⟨hX, rfl⟩
    exact ⟨X, hX, by simp, by simp⟩

theorem represents_some {X Z x y : K} {h : (curve A).Nonsingular x y} :
    Represents X Z (.some _ _ h) ↔ Z ≠ 0 ∧ X = Z * x := by
  constructor
  · rintro ⟨c, hc, rfl, rfl⟩
    simpa using hc
  · rintro ⟨hZ, rfl⟩
    exact ⟨Z, hZ, by simp, by simp⟩

theorem Represents.of_xRep {X Z x : K} {Q : (curve A).Point} (h : Q.xRep = ![x, 1]) (hZ : Z ≠ 0)
    (hX : X = Z * x) : Represents X Z Q := ⟨Z, hZ, by simp [h, hX], by simp [h]⟩

section Ladder

variable [DecidableEq K]

/-- A point is doubled from its x-coordinate alone. -/
theorem represents_double (h2 : (2 : K) ≠ 0) (hA : A ^ 2 ≠ 4) {a24 : K} (ha : 4 * a24 = A - 2)
    {Q : (curve A).Point} {X Z AA BB E : K} (hQ : Represents X Z Q) (hAA : AA = (X + Z) ^ 2)
    (hBB : BB = (X - Z) ^ 2) (hE : E = AA - BB) :
    Represents (AA * BB) (E * (AA + a24 * E)) (Q + Q) := by
  subst hAA hBB hE
  rcases Q with _ | ⟨x, y, h⟩
  · obtain ⟨hX, rfl⟩ := represents_zero.mp hQ
    refine (add_zero (0 : (curve A).Point)).symm ▸ represents_zero.mpr ⟨?_, by ring⟩
    simpa using hX
  · obtain ⟨hZ, rfl⟩ := represents_some.mp hQ
    have hxy := equation_iff.mp h.1
    have hE : ((Z * x + Z) ^ 2 - (Z * x - Z) ^ 2) *
        ((Z * x + Z) ^ 2 + a24 * ((Z * x + Z) ^ 2 - (Z * x - Z) ^ 2)) = Z ^ 4 * (2 * y) ^ 2 := by
      linear_combination 4 * Z ^ 4 * x ^ 2 * ha - 4 * Z ^ 4 * hxy
    rw [hE]
    by_cases hy : y = 0
    · subst hy
      rw [add_self_eq_zero h, represents_zero]
      refine ⟨fun hX => ?_, by ring⟩
      have hprod : Z ^ 4 * (x ^ 2 - 1) ^ 2 = 0 := by linear_combination hX
      have hx : x ^ 2 = 1 := by
        rw [mul_eq_zero, or_iff_right (pow_ne_zero 4 hZ)] at hprod
        exact sub_eq_zero.mp (pow_eq_zero_iff two_ne_zero |>.mp hprod)
      apply hA
      have hroot : A + 2 * x = 0 := by linear_combination -hxy - (x + A) * hx
      linear_combination (A - 2 * x) * hroot + 4 * hx
    · refine Represents.of_xRep (xRep_add_self h h2 hy) ?_ ?_
      · exact mul_ne_zero (pow_ne_zero 4 hZ) (pow_ne_zero 2 (mul_ne_zero h2 hy))
      · rw [mul_assoc, mul_xRep_self h2 hy hxy]
        ring

/-- A point is added from its x-coordinate and that of the difference. -/
theorem represents_add (h2 : (2 : K) ≠ 0) {u v : K} {hP : (curve A).Nonsingular u v} (hu : u ≠ 0)
    {Q R : (curve A).Point} (hdiff : R - Q = .some _ _ hP) {X₂ Z₂ X₃ Z₃ DA CB : K}
    (hQ : Represents X₂ Z₂ Q) (hR : Represents X₃ Z₃ R) (hDA : DA = (X₃ - Z₃) * (X₂ + Z₂))
    (hCB : CB = (X₃ + Z₃) * (X₂ - Z₂)) :
    Represents ((DA + CB) ^ 2) (u * (DA - CB) ^ 2) (Q + R) := by
  have hsum : DA + CB = 2 * (X₂ * X₃ - Z₂ * Z₃) := by rw [hDA, hCB]; ring
  have hsub : DA - CB = 2 * (X₃ * Z₂ - X₂ * Z₃) := by rw [hDA, hCB]; ring
  rw [hsum, hsub]
  rcases Q with _ | ⟨x₂, y₂, h₂⟩
  · obtain rfl : R = .some _ _ hP := by
      rw [← hdiff]
      exact (sub_zero R).symm
    obtain ⟨hX₂, rfl⟩ := represents_zero.mp hQ
    obtain ⟨hZ₃, rfl⟩ := represents_some.mp hR
    refine (zero_add (Point.some _ _ hP)).symm ▸ represents_some.mpr ⟨?_, by ring⟩
    simp [hu, h2, hX₂, hZ₃]
  have hneg : -(Point.some _ _ h₂) = .some _ _ ((nonsingular_neg x₂ y₂).mpr h₂) := Point.neg_some h₂
  obtain ⟨hZ₂, rfl⟩ := represents_some.mp hQ
  rcases R with _ | ⟨x₃, y₃, h₃⟩
  · obtain ⟨hX₃, rfl⟩ := represents_zero.mp hR
    have hux : u = x₂ := by
      have hP : Point.some _ _ hP = -(Point.some _ _ h₂) := by
        rw [← hdiff]
        exact zero_sub _
      rw [hneg] at hP
      exact (Point.some.inj hP).1
    subst hux
    refine (add_zero (Point.some _ _ h₂)).symm ▸ represents_some.mpr ⟨?_, by ring⟩
    simp [hu, h2, hX₃, hZ₂]
  · obtain ⟨hZ₃, rfl⟩ := represents_some.mp hR
    by_cases hx : x₃ = x₂
    · -- The difference is not 0, so that the two points are opposite, and it is their double.
      rcases Point.X_eq_iff.mp hx with hsame | hopposite
      · rw [hsame, sub_self] at hdiff
        exact absurd hdiff.symm (Point.some_ne_zero hP)
      · subst hx
        have hdouble : Point.some _ _ h₂ + .some _ _ h₂ = -(.some _ _ hP) := by
          rw [← hdiff, hopposite]
          abel
        have hy : y₂ ≠ 0 := by
          rintro rfl
          rw [add_self_eq_zero h₂] at hdouble
          exact Point.some_ne_zero hP (neg_eq_zero.mp hdouble.symm)
        have hx' : x₃ ^ 2 ≠ 1 := by
          intro hone
          have hrep := xRep_add_self h₂ h2 hy
          rw [hdouble, Point.xRep_neg, Point.xRep_some] at hrep
          have hu' : u = ((3 * x₃ ^ 2 + 2 * A * x₃ + 1) / (2 * y₂)) ^ 2 - A - x₃ - x₃ :=
            congrFun hrep 0
          have hzero := mul_xRep_self h2 hy (equation_iff.mp h₂.1)
          rw [← hu', hone, sub_self, zero_pow two_ne_zero] at hzero
          exact mul_ne_zero (pow_ne_zero 2 (mul_ne_zero h2 hy)) hu hzero
        rw [hopposite, add_neg_cancel, represents_zero]
        refine ⟨?_, by ring⟩
        have hX : Z₂ * x₃ * (Z₃ * x₃) - Z₂ * Z₃ = Z₂ * Z₃ * (x₃ ^ 2 - 1) := by ring
        rw [hX]
        exact pow_ne_zero 2 (mul_ne_zero h2 (mul_ne_zero (mul_ne_zero hZ₂ hZ₃)
          (sub_ne_zero.mpr hx')))
    · have hsub : (Point.some _ _ h₃ - .some _ _ h₂).xRep =
          ![((y₃ + y₂) / (x₃ - x₂)) ^ 2 - A - x₃ - x₂, 1] := by
        rw [sub_eq_add_neg, hneg, xRep_add _ _ hx, negY_eq, sub_neg_eq_add]
      rw [hdiff, Point.xRep_some] at hsub
      have hu' : u = ((y₃ + y₂) / (x₃ - x₂)) ^ 2 - A - x₃ - x₂ := congrFun hsub 0
      have hprod := mul_xRep (equation_iff.mp h₃.1) (equation_iff.mp h₂.1) hx
      rw [← hu'] at hprod
      have hX : Z₃ * x₃ * Z₂ - Z₂ * x₂ * Z₃ = Z₂ * Z₃ * (x₃ - x₂) := by ring
      rw [hX, add_comm (Point.some _ _ h₂)]
      refine Represents.of_xRep (xRep_add h₃ h₂ hx) ?_ ?_
      · exact mul_ne_zero hu (pow_ne_zero 2 (mul_ne_zero h2 (mul_ne_zero (mul_ne_zero hZ₂ hZ₃)
          (sub_ne_zero.mpr hx))))
      · linear_combination -(2 * Z₂ * Z₃) ^ 2 * hprod

end Ladder

end Montgomery
