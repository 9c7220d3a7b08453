import Onegram.Proofs.X25519Field

/-!
# No overflow in X25519

After two carries from any limbs of 61 bits, each limb but the first is a digit, and the first one
is at most 38 off. Sums and differences of such limbs fit in 18 bits, and of limbs of 18 bits
everything in a product fits in 51 bits.
-/

namespace Onegram.X25519

open Checked Limbs

/-- Limbs of an absolute value of at most `M`. -/
def Within (M : ℤ) (v : Limbs) : Prop := v.length = 16 ∧ ∀ x ∈ v, |x| ≤ M

/-- What two carries leave. -/
def Reduced (v : Limbs) : Prop := ∃ x ys, v = x :: ys ∧ ys.length = 15 ∧ Digits (2 ^ 16) ys ∧
  -38 ≤ x ∧ x ≤ 65573

theorem Within.mono {M N : ℤ} {v : Limbs} (h : Within M v) (hMN : M ≤ N) : Within N v :=
  ⟨h.1, fun x hx => (h.2 x hx).trans hMN⟩

theorem Within.getD {M : ℤ} {v : Limbs} (h : Within M v) (hM : 0 ≤ M) (i : ℕ) :
    |v.getD i 0| ≤ M := by
  rcases Nat.lt_or_ge i v.length with hi | hi
  · rw [List.getD_eq_getElem _ _ hi]
    exact h.2 _ (List.getElem_mem hi)
  · rwa [List.getD_eq_default _ _ hi, abs_zero]

theorem Reduced.limb {v : Limbs} (h : Reduced v) {x : ℤ} (hx : x ∈ v) :
    -38 ≤ x ∧ x ≤ 65573 := by
  obtain ⟨y, ys, rfl, -, hdigits, hy⟩ := h
  rcases List.mem_cons.mp hx with rfl | hx
  · exact hy
  · have hdigit := hdigits x hx
    omega

theorem Reduced.length {v : Limbs} (h : Reduced v) : v.length = 16 := by
  obtain ⟨y, ys, rfl, hlength, -⟩ := h
  exact congrArg Nat.succ hlength

theorem Reduced.within {v : Limbs} (h : Reduced v) {M : ℤ} (hM : 65573 ≤ M) : Within M v :=
  ⟨h.length, fun x hx => abs_le.mpr (by have hlimb := h.limb hx; omega)⟩

/-- Words are within 63 bits. -/
theorem ints_within (g : Gf) : Within (2 ^ 63) (ints g) := by
  refine ⟨length_ints g, fun x hx => ?_⟩
  obtain ⟨w, -, rfl⟩ := List.mem_map.mp hx
  exact abs_le.mpr ⟨w.le_toInt, w.toInt_lt.le⟩

theorem reduced_of_digits {v : Limbs} (hlength : v.length = 16) (h : Digits (2 ^ 16) v) :
    Reduced v := by
  obtain ⟨x, ys, rfl⟩ := List.exists_cons_of_length_eq_add_one hlength
  have hx := h x List.mem_cons_self
  exact ⟨x, ys, rfl, by simpa using hlength, h.tail, by omega, by omega⟩

/-! ## Carries -/

theorem car25519_run_isSome : ∀ (rest done : Limbs) (x cur : ℤ),
    (x :: done).length + rest.length = 15 → |x| ≤ 2 ^ 61 → |cur| ≤ 2 ^ 62 →
      (∀ y ∈ rest, |y| ≤ 2 ^ 61) →
      ∃ s, (List.range' (x :: done).length (rest.length + 1)).foldlM car25519_step
        (x :: done ++ cur :: rest) = some s
  | [], done, x, cur, hlength, hx, hcur, _ => by
    have hlast : next (x :: done).length = 0 := by
      rw [show (x :: done).length = 15 from hlength]
      rfl
    obtain ⟨s, hs⟩ := car25519_step_isSome (o := x :: done ++ [cur]) (i := (x :: done).length)
      (by simp) (by simpa using hcur) (by rw [hlast]; simpa using hx)
    exact ⟨s, Option.bind_eq_some_iff.mpr ⟨s, hs, rfl⟩⟩
  | above :: rest, done, x, cur, hlength, hx, hcur, hrest => by
    have hshort : (x :: done).length < 15 := by
      rw [← hlength]
      simp
    have habove := hrest above List.mem_cons_self
    have hnext : next (x :: done).length = (x :: done).length + 1 := if_pos hshort
    obtain ⟨o, ho⟩ := car25519_step_isSome (o := x :: done ++ cur :: above :: rest)
      (i := (x :: done).length) (by simp) (by simpa using hcur)
      (by rw [hnext]; simpa using habove)
    have hsum : |above + cur / 2 ^ 16| ≤ 2 ^ 62 := by
      obtain ⟨hlow, hhigh⟩ := abs_le.mp habove
      obtain ⟨hlow', hhigh'⟩ := abs_le.mp hcur
      exact abs_le.mpr ⟨by omega, by omega⟩
    obtain ⟨s, hs⟩ := car25519_run_isSome rest (done ++ [cur % 2 ^ 16]) x (above + cur / 2 ^ 16)
      (by simp at hlength ⊢; omega) hx hsum (fun y hy => hrest y (List.mem_cons_of_mem _ hy))
    refine ⟨s, ?_⟩
    rw [List.length_cons, List.range'_succ, List.foldlM_cons]
    refine Option.bind_eq_some_iff.mpr ⟨o, ho, ?_⟩
    rw [car25519_step_eq (by simp) ho, carried_append hshort]
    simpa using hs

theorem car25519_isSome {o : Limbs} (h : Within (2 ^ 61) o) :
    car25519 o = some (wrap (carry (2 ^ 16) 0 o)) := by
  have hlength := h.1
  suffices hsome : ∃ s, car25519 o = some s by
    obtain ⟨s, hs⟩ := hsome
    rw [hs, car25519_eq hlength hs]
  obtain _ | ⟨x, _ | ⟨y, rest⟩⟩ := o
  · cases hlength
  · cases hlength
  have hrest : rest.length = 14 := by simpa using hlength
  have hx : |x| ≤ 2 ^ 61 := h.2 x (by simp)
  have hy : |y| ≤ 2 ^ 61 := h.2 y (by simp)
  obtain ⟨hlow, hhigh⟩ := abs_le.mp hx
  obtain ⟨hlow', hhigh'⟩ := abs_le.mp hy
  obtain ⟨first, hfirst⟩ := car25519_step_isSome (o := x :: y :: rest) (i := 0) (by simp)
    (abs_le.mpr ⟨by simp; omega, by simp; omega⟩) hy
  have hstep : first = x % 2 ^ 16 :: (y + x / 2 ^ 16) :: rest :=
    (car25519_step_eq (by simp) hfirst).trans (carried_append (by simp : [].length < 15) x y rest)
  obtain ⟨s, hs⟩ := car25519_run_isSome rest [] (x % 2 ^ 16) (y + x / 2 ^ 16) (by simp [hrest])
    (abs_le.mpr ⟨by omega, by omega⟩) (abs_le.mpr ⟨by omega, by omega⟩)
    (fun z hz => h.2 z (by simp [hz]))
  refine ⟨s, ?_⟩
  rw [car25519, List.range_eq_range', List.range'_succ, List.foldlM_cons]
  refine Option.bind_eq_some_iff.mpr ⟨first, hfirst, ?_⟩
  rw [hrest] at hs
  rw [hstep]
  exact hs

/-- The first limb of what a carry leaves, and the digits after it. -/
theorem wrap_eq {o : Limbs} (hlength : o.length = 16) : ∃ x ys,
    wrap (carry (2 ^ 16) 0 o) = (x + 38 * (carry (2 ^ 16) 0 o).2) :: ys ∧ ys.length = 15 ∧
      (0 ≤ x ∧ x < 2 ^ 16) ∧ Digits (2 ^ 16) ys := by
  have hlength' := (length_carry (b := 2 ^ 16) 0 o).trans hlength
  obtain ⟨x, ys, hcons⟩ := List.exists_cons_of_length_eq_add_one hlength'
  have hdigits := digits_carry (b := 2 ^ 16) (by norm_num) 0 o
  rw [hcons] at hdigits hlength'
  refine ⟨x, ys, ?_, by simpa using hlength', hdigits x List.mem_cons_self, hdigits.tail⟩
  rw [wrap, hcons]
  rfl

/-- After one carry that did not overflow, a second one does not, and leaves little to carry. -/
theorem car25519_again {o s : Limbs} (h : Within (2 ^ 63) o) (hs : car25519 o = some s) :
    ∃ t, car25519 s = some t ∧ Reduced t := by
  obtain rfl := car25519_eq h.1 hs
  obtain ⟨x, ys, hs, hys, hx, hdigits⟩ := wrap_eq h.1
  have hout : |(carry (2 ^ 16) 0 o).2| ≤ 2 ^ 48 :=
    carry_abs_le_of_limbs (by norm_num) (by norm_num) h.2 (by norm_num)
  obtain ⟨hlow, hhigh⟩ := abs_le.mp hout
  have hwithin : Within (2 ^ 61) (wrap (carry (2 ^ 16) 0 o)) := by
    refine ⟨(length_wrap o).trans h.1, fun y hy => ?_⟩
    rw [hs] at hy
    rcases List.mem_cons.mp hy with rfl | hy
    · exact abs_le.mpr ⟨by omega, by omega⟩
    · have hdigit := hdigits y hy
      exact abs_le.mpr ⟨by omega, by omega⟩
  refine ⟨_, car25519_isSome hwithin, ?_⟩
  obtain ⟨z, zs, ht, hzs, hz, hdigits'⟩ := wrap_eq hwithin.1
  have hone : |(carry (2 ^ 16) 0 (wrap (carry (2 ^ 16) 0 o))).2| ≤ 1 := by
    rw [hs, carry]
    have hbound := carry_abs_le (b := 2 ^ 16) (m := 3) (by norm_num) hdigits
      (k := (x + 38 * (carry (2 ^ 16) 0 o).2 + 0) / 2 ^ 16) (abs_le.mpr ⟨by omega, by omega⟩)
    rwa [hys] at hbound
  obtain ⟨hlow', hhigh'⟩ := abs_le.mp hone
  exact ⟨_, zs, ht, hzs, hdigits', by omega, by omega⟩

/-- Two carries from any limbs of 61 bits. -/
theorem car25519_twice {o : Limbs} (h : Within (2 ^ 61) o) :
    ∃ s t, car25519 o = some s ∧ car25519 s = some t ∧ Reduced t := by
  have hs := car25519_isSome h
  obtain ⟨t, ht, hreduced⟩ := car25519_again (h.mono (by norm_num)) hs
  exact ⟨_, t, hs, ht, hreduced⟩

/-- A third one leaves digits: where the first limb borrows or hands on, there is room for 38. -/
theorem car25519_reduced {o : Limbs} (h : Reduced o) :
    ∃ s, car25519 o = some s ∧ s.length = 16 ∧ Digits (2 ^ 16) s := by
  refine ⟨_, car25519_isSome (h.within (by norm_num)), (length_wrap o).trans h.length, ?_⟩
  obtain ⟨x, ys, rfl, hys, hdigits, hx⟩ := h
  have hone := carry_abs_le (b := 2 ^ 16) (m := 0) (by norm_num) hdigits (k := (x + 0) / 2 ^ 16)
    (abs_le.mpr ⟨by omega, by omega⟩)
  rw [Nat.zero_sub, pow_zero] at hone
  obtain ⟨hlow, hhigh⟩ := abs_le.mp hone
  have hnone : (x + 0) / 2 ^ 16 = 0 → (carry (2 ^ 16) ((x + 0) / 2 ^ 16) ys).2 = 0 := fun hzero => by
    rw [hzero]
    exact carry_digits (by norm_num) hdigits
  have hup : 0 ≤ (x + 0) / 2 ^ 16 → 0 ≤ (carry (2 ^ 16) ((x + 0) / 2 ^ 16) ys).2 :=
    carry_nonneg (by norm_num) hdigits
  have hdown : (x + 0) / 2 ^ 16 ≤ 0 → (carry (2 ^ 16) ((x + 0) / 2 ^ 16) ys).2 ≤ 0 :=
    carry_nonpos (by norm_num) hdigits
  intro y hy
  rw [wrap, carry, List.modifyHead_cons] at hy
  rcases List.mem_cons.mp hy with rfl | hy
  · dsimp only
    omega
  · exact digits_carry (by norm_num) _ ys y hy

/-! ## The operations -/

theorem gf_A_isSome {a b : Limbs} (ha : Reduced a) (hb : Reduced b) :
    ∃ s, gf_A a b = some s ∧ Within (2 ^ 18) s ∧ residue s = residue a + residue b := by
  obtain ⟨s, hs, hwithin⟩ := results_isSome (f := fun i => int64 (a.getD i 0 + b.getD i 0))
    (|·| ≤ 2 ^ 18) (n := 16) fun i _ => by
      have hlimb := abs_le.mp ((ha.within le_rfl).getD (by norm_num) i)
      have hlimb' := abs_le.mp ((hb.within le_rfl).getD (by norm_num) i)
      have hbound : |a.getD i 0 + b.getD i 0| ≤ 2 ^ 18 := abs_le.mpr ⟨by omega, by omega⟩
      exact ⟨_, int64_of_abs_le (by omega), hbound⟩
  exact ⟨s, hs, hwithin, (residue_gf_A ha.length hb.length hs).2⟩

theorem gf_Z_isSome {a b : Limbs} (ha : Reduced a) (hb : Reduced b) :
    ∃ s, gf_Z a b = some s ∧ Within (2 ^ 18) s ∧ residue s = residue a - residue b := by
  obtain ⟨s, hs, hwithin⟩ := results_isSome (f := fun i => int64 (a.getD i 0 - b.getD i 0))
    (|·| ≤ 2 ^ 18) (n := 16) fun i _ => by
      have hlimb := abs_le.mp ((ha.within le_rfl).getD (by norm_num) i)
      have hlimb' := abs_le.mp ((hb.within le_rfl).getD (by norm_num) i)
      have hbound : |a.getD i 0 - b.getD i 0| ≤ 2 ^ 18 := abs_le.mpr ⟨by omega, by omega⟩
      exact ⟨_, int64_of_abs_le (by omega), hbound⟩
  exact ⟨s, hs, hwithin, (residue_gf_Z ha.length hb.length hs).2⟩

theorem gf_row_isSome {a b : Limbs} (ha : Within (2 ^ 18) a) (hb : Within (2 ^ 18) b) (k : ℕ)
    {n : ℕ} (hn : n < 16) {acc : ℤ} (i : ℕ) (hacc : |acc| ≤ n * 2 ^ 40) :
    ∃ y, gf_row a b k acc i = some y ∧ |y| ≤ ((n + 1 : ℕ) : ℤ) * 2 ^ 40 := by
  have hproduct (j : ℕ) : |a.getD i 0 * b.getD j 0| ≤ 2 ^ 36 := by
    rw [abs_mul]
    exact mul_le_mul (ha.getD (by norm_num) i) (hb.getD (by norm_num) j) (abs_nonneg _)
      (by norm_num)
  have hcell (j : ℕ) (hj : j < 16) (y : ℤ) (hy : |y| ≤ n * 2 ^ 40 + j * 2 ^ 36) :
      ∃ y', (if i + j = k then do
          let product ← int64 (a.getD i 0 * b.getD j 0)
          int64 (y + product)
        else some y) = some y' ∧ |y'| ≤ n * 2 ^ 40 + ((j + 1 : ℕ) : ℤ) * 2 ^ 36 := by
    have hsum := abs_add_le y (a.getD i 0 * b.getD j 0)
    have hbound := hproduct j
    split_ifs
    · refine ⟨_, ?_, le_trans hsum (by push_cast; omega)⟩
      rw [int64_of_abs_le (by omega)]
      exact int64_of_abs_le (by omega)
    · exact ⟨y, rfl, by push_cast; omega⟩
  obtain ⟨y, hy, hbound⟩ := foldlM_range_isSome (fun j (y : ℤ) => |y| ≤ n * 2 ^ 40 + j * 2 ^ 36)
    hcell (s := acc) (by simpa using hacc)
  exact ⟨y, hy, le_trans hbound (by push_cast; omega)⟩

theorem gf_prod_isSome {a b : Limbs} (ha : Within (2 ^ 18) a) (hb : Within (2 ^ 18) b) (k : ℕ) :
    ∃ t, gf_prod a b k = some t ∧ |t| ≤ 2 ^ 44 := by
  obtain ⟨t, ht, hbound⟩ := foldlM_range_isSome (fun n (t : ℤ) => |t| ≤ n * 2 ^ 40)
    (fun i hi acc hacc => gf_row_isSome ha hb k hi i hacc) (s := 0) (by simp)
  exact ⟨t, ht, hbound⟩

theorem gf_fold_isSome {a b : Limbs} (ha : Within (2 ^ 18) a) (hb : Within (2 ^ 18) b) (i : ℕ) :
    ∃ y, gf_fold a b i = some y ∧ |y| ≤ 2 ^ 61 := by
  obtain ⟨low, hlow, hlow'⟩ := gf_prod_isSome ha hb i
  obtain ⟨high, hhigh, hhigh'⟩ := gf_prod_isSome ha hb (i + 16)
  have hlow' := abs_le.mp hlow'
  have hhigh' := abs_le.mp hhigh'
  rw [gf_fold, hlow, hhigh]
  rcases Nat.lt_or_ge i 15 with hi | hi
  · have hfolded : int64 (38 * high) = some (38 * high) :=
      int64_of_abs_le (abs_lt.mpr ⟨by omega, by omega⟩)
    have hsum : int64 (low + 38 * high) = some (low + 38 * high) :=
      int64_of_abs_le (abs_lt.mpr ⟨by omega, by omega⟩)
    refine ⟨low + 38 * high, ?_, abs_le.mpr ⟨by omega, by omega⟩⟩
    simp only [Option.bind_eq_bind, Option.bind_some, hi, if_true, hfolded, hsum]
  · refine ⟨low, ?_, abs_le.mpr ⟨by omega, by omega⟩⟩
    simp only [Option.bind_eq_bind, Option.bind_some, Nat.not_lt.mpr hi, if_false]

theorem gf_M_isSome {a b : Limbs} (ha : Within (2 ^ 18) a) (hb : Within (2 ^ 18) b) :
    ∃ s, gf_M a b = some s ∧ Reduced s ∧ residue s = residue a * residue b := by
  obtain ⟨o, ho, hwithin⟩ := results_isSome (|·| ≤ 2 ^ 61) (n := 16)
    (fun i _ => gf_fold_isSome ha hb i)
  obtain ⟨s, t, hs, ht, hreduced⟩ := car25519_twice hwithin
  have hM : gf_M a b = some t := Option.bind_eq_some_iff.mpr
    ⟨o, ho, Option.bind_eq_some_iff.mpr ⟨s, hs, ht⟩⟩
  exact ⟨t, hM, hreduced, (residue_gf_M ha.1 hb.1 hM).2⟩

theorem gf_S_isSome {a : Limbs} (ha : Within (2 ^ 18) a) :
    ∃ s, gf_S a = some s ∧ Reduced s ∧ residue s = residue a ^ 2 := by
  rw [pow_two]
  exact gf_M_isSome ha ha

theorem inv25519_isSome {i : Limbs} (hi : Reduced i) :
    ∃ s, inv25519 i = some s ∧ Reduced s ∧ residue s = residue i ^ (Rfc7748.p - 2) := by
  have hstep (c : Limbs) (e a : ℕ) (hc : Reduced c ∧ residue c = residue i ^ e) :
      ∃ s, inv25519_step i c a = some s ∧ Reduced s ∧
        residue s = residue i ^ inv25519_exponent e a := by
    obtain ⟨squared, hsquared, hreduced, hsquare⟩ := gf_S_isSome (hc.1.within (by norm_num))
    rw [inv25519_step, hsquared, Option.bind_eq_bind, Option.bind_some, inv25519_exponent]
    split_ifs
    · obtain ⟨s, hs, hs', hproduct⟩ :=
        gf_M_isSome (hreduced.within (by norm_num)) (hi.within (by norm_num))
      exact ⟨s, hs, hs', by rw [hproduct, hsquare, hc.2]; ring⟩
    · exact ⟨squared, rfl, hreduced, by rw [hsquare, hc.2]; ring⟩
  rw [← inv25519_exponent_eq]
  exact foldlM_refines (fun s e => Reduced s ∧ residue s = residue i ^ e) hstep _
    ⟨hi, (pow_one _).symm⟩

end Onegram.X25519
