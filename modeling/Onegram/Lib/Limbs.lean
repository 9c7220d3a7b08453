import Mathlib.Algebra.BigOperators.Intervals
import Mathlib.Tactic

/-!
# Numbers in signed limbs

A list of integers, the lowest first, stands for the number it gives to a base `b`. A carry leaves
of each limb what is below the base and adds the rest to the next one. Limbs may be negative, and the
division is the one that rounds down.
-/

namespace Limbs

variable {b : ℤ}

/-- The number that limbs stand for. -/
def value (b : ℤ) : List ℤ → ℤ
  | [] => 0
  | x :: xs => x + b * value b xs

/-- The limbs after a carry, and what is carried out of the last one. -/
def carry (b : ℤ) : ℤ → List ℤ → List ℤ × ℤ
  | k, [] => ([], k)
  | k, x :: xs =>
    ((x + k) % b :: (carry b ((x + k) / b) xs).1, (carry b ((x + k) / b) xs).2)

/-- Each limb is a digit. -/
def Digits (b : ℤ) (xs : List ℤ) : Prop := ∀ x ∈ xs, 0 ≤ x ∧ x < b

instance instDecidableDigits (b : ℤ) (xs : List ℤ) : Decidable (Digits b xs) :=
  inferInstanceAs (Decidable (∀ x ∈ xs, 0 ≤ x ∧ x < b))

theorem Digits.tail {x : ℤ} {xs : List ℤ} (h : Digits b (x :: xs)) : Digits b xs :=
  fun y hy => h y (List.mem_cons_of_mem x hy)

theorem Digits.append {xs ys : List ℤ} (hx : Digits b xs) (hy : Digits b ys) :
    Digits b (xs ++ ys) := fun z hz => (List.mem_append.mp hz).elim (hx z) (hy z)

theorem Digits.mod (hb : 0 < b) (x : ℤ) : Digits b [x % b] := fun y hy => by
  obtain rfl := List.mem_singleton.mp hy
  exact ⟨Int.emod_nonneg _ hb.ne', Int.emod_lt_of_pos _ hb⟩

theorem value_append (xs ys : List ℤ) :
    value b (xs ++ ys) = value b xs + b ^ xs.length * value b ys := by
  induction xs with
  | nil => simp [value]
  | cons x xs ih =>
    rw [List.cons_append, value, ih, value, List.length_cons, pow_succ]
    ring

theorem value_eq_sum : ∀ xs : List ℤ,
    value b xs = ∑ i ∈ Finset.range xs.length, xs.getD i 0 * b ^ i
  | [] => rfl
  | x :: xs => by
    rw [value, value_eq_sum xs, List.length_cons, Finset.sum_range_succ', Finset.mul_sum,
      add_comm]
    congr 1
    · refine Finset.sum_congr rfl fun i _ => ?_
      rw [List.getD_cons_succ, pow_succ]
      ring
    · simp

theorem sum_range_map (f : ℕ → ℤ) (n : ℕ) :
    ((List.range n).map f).sum = ∑ i ∈ Finset.range n, f i := by
  rw [← Fin.sum_univ_eq_sum_range, ← List.map_coe_finRange_eq_range, List.map_map,
    ← List.ofFn_eq_map, List.sum_ofFn]
  rfl

/-- The product of two numbers, one column of products of limbs after another. -/
theorem value_mul (xs ys : List ℤ) {n : ℕ} (hn : xs.length + ys.length ≤ n + 1) :
    value b xs * value b ys = ∑ k ∈ Finset.range n, (∑ i ∈ Finset.range xs.length,
      ∑ j ∈ Finset.range ys.length, if i + j = k then xs.getD i 0 * ys.getD j 0 else 0) *
        b ^ k := by
  have hcell (i j : ℕ) (hi : i < xs.length) (hj : j < ys.length) :
      xs.getD i 0 * b ^ i * (ys.getD j 0 * b ^ j) = ∑ k ∈ Finset.range n,
        (if i + j = k then xs.getD i 0 * ys.getD j 0 else 0) * b ^ k := by
    have hk : i + j ∈ Finset.range n := Finset.mem_range.mpr (by omega)
    simp only [ite_mul, zero_mul, Finset.sum_ite_eq, hk, if_true, pow_add]
    ring
  rw [value_eq_sum xs, value_eq_sum ys, Finset.sum_mul_sum, Finset.sum_congr rfl fun i hi =>
    Finset.sum_congr rfl fun j hj =>
      hcell i j (Finset.mem_range.mp hi) (Finset.mem_range.mp hj)]
  simp only [Finset.sum_mul]
  rw [Finset.sum_congr rfl fun i _ => Finset.sum_comm]
  exact Finset.sum_comm

/-! ## Digits -/

theorem Digits.value_nonneg (hb : 0 < b) : ∀ {xs : List ℤ}, Digits b xs →
    0 ≤ value b xs
  | [], _ => le_rfl
  | x :: xs, h => by
    have hx := (h x List.mem_cons_self).1
    have htail := mul_nonneg hb.le (h.tail.value_nonneg hb)
    rw [value]
    omega

theorem Digits.value_lt (hb : 0 < b) : ∀ {xs : List ℤ}, Digits b xs →
    value b xs < b ^ xs.length
  | [], _ => by simp [value]
  | x :: xs, h => by
    have hx := (h x List.mem_cons_self).2
    have htail := h.tail.value_lt hb
    calc value b (x :: xs) = x + b * value b xs := rfl
      _ < b + b * value b xs := by omega
      _ = b * (value b xs + 1) := by ring
      _ ≤ b * b ^ xs.length := mul_le_mul_of_nonneg_left htail hb.le
      _ = b ^ (x :: xs).length := by rw [List.length_cons, pow_succ']

/-- A digit is read off the number. -/
theorem Digits.value_div_mod (hb : 0 < b) : ∀ {xs : List ℤ}, Digits b xs →
    ∀ (i : ℕ) (hi : i < xs.length), value b xs / b ^ i % b = xs[i]
  | _ :: _, h, 0, _ => by
    obtain ⟨hx, hlt⟩ := h _ List.mem_cons_self
    rw [pow_zero, Int.ediv_one, value, Int.add_mul_emod_self_left, Int.emod_eq_of_lt hx hlt]
    rfl
  | x :: xs, h, i + 1, hi => by
    obtain ⟨hx, hlt⟩ := h x List.mem_cons_self
    have hrest : value b (x :: xs) / b = value b xs := by
      rw [value, Int.add_mul_ediv_left _ _ hb.ne', Int.ediv_eq_zero_of_lt hx hlt, zero_add]
    rw [pow_succ', ← Int.ediv_ediv_of_nonneg hb.le, hrest,
      h.tail.value_div_mod hb i (Nat.lt_of_succ_lt_succ hi)]
    rfl

/-! ## Carries -/

theorem length_carry : ∀ (k : ℤ) (xs : List ℤ), (carry b k xs).1.length = xs.length
  | _, [] => rfl
  | _, _ :: xs => congrArg Nat.succ (length_carry _ xs)

theorem digits_carry (hb : 0 < b) : ∀ (k : ℤ) (xs : List ℤ), Digits b (carry b k xs).1
  | _, [] => fun _ h => by cases h
  | k, x :: xs => fun y hy => by
    rcases List.mem_cons.mp hy with rfl | hy
    · exact ⟨Int.emod_nonneg _ hb.ne', Int.emod_lt_of_pos _ hb⟩
    · exact digits_carry hb _ xs y hy

/-- What the lowest limb hands on is added to the next one. -/
theorem carry_cons_cons (x y : ℤ) (xs : List ℤ) :
    carry b 0 (x :: y :: xs) = (x % b :: (carry b 0 ((y + x / b) :: xs)).1,
      (carry b 0 ((y + x / b) :: xs)).2) := by
  simp only [carry, add_zero]

/-- A carry only moves what it takes. -/
theorem value_carry (b : ℤ) : ∀ (k : ℤ) (xs : List ℤ),
    value b (carry b k xs).1 + b ^ xs.length * (carry b k xs).2 = k + value b xs
  | k, [] => by simp [carry, value]
  | k, x :: xs => by
    have hrest := value_carry b ((x + k) / b) xs
    have hdiv := Int.emod_add_mul_ediv (x + k) b
    rw [carry, value, value, List.length_cons, pow_succ]
    linear_combination b * hrest + hdiv

theorem carry_nonneg (hb : 0 < b) : ∀ {xs : List ℤ} {k : ℤ}, Digits b xs → 0 ≤ k →
    0 ≤ (carry b k xs).2
  | [], _, _, hk => hk
  | x :: xs, k, h, hk => by
    rw [carry]
    exact carry_nonneg hb h.tail
      (Int.ediv_nonneg (add_nonneg (h x List.mem_cons_self).1 hk) hb.le)

theorem carry_nonpos (hb : 0 < b) : ∀ {xs : List ℤ} {k : ℤ}, Digits b xs → k ≤ 0 →
    (carry b k xs).2 ≤ 0
  | [], _, _, hk => hk
  | x :: xs, k, h, hk => by
    have hlt := (h x List.mem_cons_self).2
    have hnext : (x + k) / b < 1 := Int.ediv_lt_of_lt_mul hb (by omega)
    rw [carry]
    exact carry_nonpos hb h.tail (by omega)

/-- Each digit divides what a carry can come to by the b, down to one. -/
theorem carry_abs_le (hb : 1 < b) : ∀ {xs : List ℤ} {k : ℤ} {m : ℕ}, Digits b xs →
    |k| ≤ b ^ m → |(carry b k xs).2| ≤ b ^ (m - xs.length)
  | [], _, _, _, hk => hk
  | x :: xs, k, m, h, hk => by
    have hpos : 0 < b := by omega
    obtain ⟨hx, hlt⟩ := h x List.mem_cons_self
    obtain ⟨hlow, hhigh⟩ := abs_le.mp hk
    have hnext : |(x + k) / b| ≤ b ^ (m - 1) := by
      rcases m with _ | m
      · rw [pow_zero] at hlow hhigh
        refine abs_le.mpr ⟨?_, ?_⟩
        · rw [Int.le_ediv_iff_mul_le hpos]
          simp
          omega
        · exact Int.lt_add_one_iff.mp (Int.ediv_lt_of_lt_mul hpos (by simp; omega))
      · rw [pow_succ] at hlow hhigh
        refine abs_le.mpr ⟨?_, ?_⟩
        · rw [Int.le_ediv_iff_mul_le hpos, Nat.add_sub_cancel]
          linarith
        · refine Int.lt_add_one_iff.mp (Int.ediv_lt_of_lt_mul hpos ?_)
          rw [Nat.add_sub_cancel]
          linarith
    have hrest := carry_abs_le hb h.tail hnext
    rw [Nat.sub_sub, Nat.add_comm] at hrest
    exact hrest

/-- What limbs of any size hand on, where the base leaves room for them. -/
theorem carry_abs_le_of_limbs (hb : 0 < b) {M K : ℤ} (hK : M + K ≤ b * K) :
    ∀ {xs : List ℤ} {k : ℤ}, (∀ x ∈ xs, |x| ≤ M) → |k| ≤ K → |(carry b k xs).2| ≤ K
  | [], _, _, hk => hk
  | x :: xs, k, h, hk => by
    obtain ⟨hlow, hhigh⟩ := abs_le.mp (h x List.mem_cons_self)
    obtain ⟨hlow', hhigh'⟩ := abs_le.mp hk
    rw [carry]
    refine carry_abs_le_of_limbs hb hK (fun y hy => h y (List.mem_cons_of_mem x hy))
      (abs_le.mpr ⟨?_, ?_⟩)
    · rw [Int.le_ediv_iff_mul_le hb]
      linarith
    · refine Int.lt_add_one_iff.mp (Int.ediv_lt_of_lt_mul hb ?_)
      linarith

/-- Digits hand on nothing. -/
theorem carry_digits (hb : 0 < b) {xs : List ℤ} (h : Digits b xs) :
    (carry b 0 xs).2 = 0 :=
  le_antisymm (carry_nonpos hb h le_rfl) (carry_nonneg hb h le_rfl)

end Limbs
