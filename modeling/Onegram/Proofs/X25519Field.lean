import Onegram.Proofs.X25519Limbs

/-!
# The field of X25519

What the limbs stand for modulo `2 ^ 255 - 19`. A routine that has a result without an overflow
computes what it is named for on these residues, and none overflows on the limbs it meets.
-/

namespace Onegram.X25519

open Checked Limbs

/-- The element of the field that limbs stand for. -/
def residue (v : Limbs) : ZMod Rfc7748.p := (value (2 ^ 16) v : ℤ)

/-! ## Carries -/

/-- What goes out of the last limb comes back into the first one, times 38. -/
def wrap (c : List ℤ × ℤ) : Limbs := c.1.modifyHead (· + 38 * c.2)

/-- The limb that the carry of `i` goes to. -/
def next (i : ℕ) : ℕ := if i < 15 then i + 1 else 0

/-- What a step leaves, where nothing in it overflows. -/
def carried (o : Limbs) (i : ℕ) : Limbs :=
  let c := o.getD i 0 / 2 ^ 16
  (o.set (next i) (o.getD (next i) 0 + (c + if i = 15 then 37 * c else 0))).set i
    (o.getD i 0 % 2 ^ 16)

theorem next_ne (i : ℕ) : next i ≠ i := by
  unfold next
  split_ifs <;> omega

theorem getD_set_self {α : Type*} {o : List α} {i : ℕ} (hi : i < o.length) (x d : α) :
    (o.set i x).getD i d = x := by
  rw [List.getD_eq_getElem _ _ (by simpa using hi), List.getElem_set_self]

theorem getD_set_ne {α : Type*} (o : List α) {i j : ℕ} (hij : i ≠ j) (x d : α) :
    (o.set i x).getD j d = o.getD j d := by
  rw [List.getD_eq_getElem?_getD, List.getElem?_set_ne hij, ← List.getD_eq_getElem?_getD]

theorem car25519_step_eq {o s : Limbs} {i : ℕ} (hi : i < o.length)
    (h : car25519_step o i = some s) : s = carried o i := by
  obtain ⟨raised, hraised, h⟩ := Option.bind_eq_some_iff.mp h
  obtain ⟨less, hless, h⟩ := Option.bind_eq_some_iff.mp h
  obtain ⟨folded, hfolded, h⟩ := Option.bind_eq_some_iff.mp h
  obtain ⟨carry, hcarry, h⟩ := Option.bind_eq_some_iff.mp h
  obtain ⟨above, habove, h⟩ := Option.bind_eq_some_iff.mp h
  obtain ⟨taken, htaken, h⟩ := Option.bind_eq_some_iff.mp h
  obtain ⟨left, hleft, h⟩ := Option.bind_eq_some_iff.mp h
  obtain rfl := Option.some.inj h
  obtain ⟨-, rfl⟩ := int64_eq_some.mp hraised
  obtain ⟨-, rfl⟩ := int64_eq_some.mp hless
  obtain ⟨-, rfl⟩ := int64_eq_some.mp hfolded
  obtain ⟨-, rfl⟩ := int64_eq_some.mp hcarry
  obtain ⟨-, rfl⟩ := int64_eq_some.mp habove
  obtain ⟨-, rfl⟩ := int64_eq_some.mp htaken
  obtain ⟨-, rfl⟩ := int64_eq_some.mp hleft
  have hdiv (x : ℤ) : (x + 2 ^ 16) / 2 ^ 16 - 1 = x / 2 ^ 16 := by omega
  have hmod (x : ℤ) : x + 2 ^ 16 - (x + 2 ^ 16) / 2 ^ 16 * 2 ^ 16 = x % 2 ^ 16 := by omega
  have hne := next_ne i
  rw [← next, getD_set_self hi, getD_set_ne _ hne, getD_set_self hi, getD_set_ne _ hne.symm, hdiv,
    hmod, carried, List.set_comm _ _ hne.symm, List.set_set]

/-- No step overflows on limbs of 61 bits and what was carried to them. -/
theorem car25519_step_isSome {o : Limbs} {i : ℕ} (hi : i < o.length)
    (hlimb : |o.getD i 0| ≤ 2 ^ 62) (hnext : |o.getD (next i) 0| ≤ 2 ^ 61) :
    ∃ s, car25519_step o i = some s := by
  have hne := next_ne i
  obtain ⟨hlow, hhigh⟩ := abs_le.mp hlimb
  obtain ⟨hlow', hhigh'⟩ := abs_le.mp hnext
  generalize hx : o.getD i 0 = x at hlow hhigh
  generalize hy : o.getD (next i) 0 = y at hlow' hhigh'
  have hraised : int64 (x + 2 ^ 16) = some _ := int64_of_abs_le (abs_lt.mpr ⟨by omega, by omega⟩)
  have hless : int64 ((x + 2 ^ 16) / 2 ^ 16 - 1) = some _ :=
    int64_of_abs_le (abs_lt.mpr ⟨by omega, by omega⟩)
  have hfolded : int64 (37 * ((x + 2 ^ 16) / 2 ^ 16 - 1)) = some _ :=
    int64_of_abs_le (abs_lt.mpr ⟨by omega, by omega⟩)
  have hcarry : int64 ((x + 2 ^ 16) / 2 ^ 16 - 1 +
      if i = 15 then 37 * ((x + 2 ^ 16) / 2 ^ 16 - 1) else 0) = some _ :=
    int64_of_abs_le (abs_lt.mpr ⟨by split_ifs <;> omega, by split_ifs <;> omega⟩)
  have habove : int64 (y + ((x + 2 ^ 16) / 2 ^ 16 - 1 +
      if i = 15 then 37 * ((x + 2 ^ 16) / 2 ^ 16 - 1) else 0)) = some _ :=
    int64_of_abs_le (abs_lt.mpr ⟨by split_ifs <;> omega, by split_ifs <;> omega⟩)
  have htaken : int64 ((x + 2 ^ 16) / 2 ^ 16 * 2 ^ 16) = some _ :=
    int64_of_abs_le (abs_lt.mpr ⟨by omega, by omega⟩)
  have hleft : int64 (x + 2 ^ 16 - (x + 2 ^ 16) / 2 ^ 16 * 2 ^ 16) = some _ :=
    int64_of_abs_le (abs_lt.mpr ⟨by omega, by omega⟩)
  rw [← Option.isSome_iff_exists, car25519_step, hx, hraised, Option.bind_eq_bind, Option.bind_some]
  dsimp only
  rw [getD_set_self hi, hless, Option.bind_some, hfolded, Option.bind_some, hcarry,
    Option.bind_some, ← next, getD_set_ne _ hne.symm, hy, habove, Option.bind_some, htaken,
    Option.bind_some, getD_set_ne _ hne, getD_set_self hi, hleft]
  rfl

theorem carried_append {done : Limbs} (hi : done.length < 15) (cur above : ℤ) (rest : Limbs) :
    carried (done ++ cur :: above :: rest) done.length =
      done ++ cur % 2 ^ 16 :: (above + cur / 2 ^ 16) :: rest := by
  simp [carried, next, hi, hi.ne]

theorem carried_last {x : ℤ} {done : Limbs} (hi : (x :: done).length = 15) (cur : ℤ) :
    carried (x :: done ++ [cur]) (x :: done).length =
      (x + 38 * (cur / 2 ^ 16)) :: done ++ [cur % 2 ^ 16] := by
  have hnext : next (x :: done).length = 0 := by rw [hi]; rfl
  rw [carried, hnext, if_pos hi]
  simp
  ring

theorem car25519_run : ∀ (rest done : Limbs) (x cur : ℤ) {s : Limbs},
    (x :: done).length + rest.length = 15 →
      (List.range' (x :: done).length (rest.length + 1)).foldlM car25519_step
        (x :: done ++ cur :: rest) = some s →
      s = (x + 38 * (carry (2 ^ 16) 0 (cur :: rest)).2) :: done ++
        (carry (2 ^ 16) 0 (cur :: rest)).1
  | [], done, x, cur, s, hlength, h => by
    obtain ⟨last, hlast, h⟩ := Option.bind_eq_some_iff.mp h
    obtain rfl := Option.some.inj h
    rw [car25519_step_eq (by simp) hlast, carried_last hlength, carry, add_zero]
    rfl
  | above :: rest, done, x, cur, s, hlength, h => by
    have hshort : (x :: done).length < 15 := by
      rw [← hlength]
      simp
    rw [List.range'_succ, List.foldlM_cons] at h
    obtain ⟨o, ho, h⟩ := Option.bind_eq_some_iff.mp h
    rw [car25519_step_eq (by simp) ho, carried_append hshort] at h
    have hrun := car25519_run rest (done ++ [cur % 2 ^ 16]) x (above + cur / 2 ^ 16) (s := s)
      (by simp at hlength ⊢; omega) (by simpa using h)
    rw [hrun, carry_cons_cons, List.cons_append, List.append_assoc]
    rfl

/-- Where nothing overflows, the limbs are carried once around. -/
theorem car25519_eq {o s : Limbs} (hlength : o.length = 16) (h : car25519 o = some s) :
    s = wrap (carry (2 ^ 16) 0 o) := by
  obtain _ | ⟨x, _ | ⟨y, rest⟩⟩ := o
  · cases hlength
  · cases hlength
  have hrest : rest.length = 14 := by simpa using hlength
  rw [car25519, List.range_eq_range', List.range'_succ, List.foldlM_cons] at h
  obtain ⟨first, hfirst, h⟩ := Option.bind_eq_some_iff.mp h
  have hstep : first = x % 2 ^ 16 :: (y + x / 2 ^ 16) :: rest :=
    (car25519_step_eq (by simp) hfirst).trans (carried_append (by simp : [].length < 15) x y rest)
  have hrun := car25519_run rest [] (x % 2 ^ 16) (y + x / 2 ^ 16) (s := s)
    (by simp [hrest]) (by rw [hrest]; rwa [hstep] at h)
  rw [hrun, carry_cons_cons]
  rfl

theorem length_wrap (o : Limbs) : (wrap (carry (2 ^ 16) 0 o)).length = o.length := by
  rw [wrap, List.length_modifyHead, length_carry]

theorem cast_pow_16 : (((2 ^ 16) ^ 16 : ℤ) : ZMod Rfc7748.p) = (38 : ℤ) := by
  rw [ZMod.intCast_eq_intCast_iff]
  decide

theorem residue_wrap {o : Limbs} (hlength : o.length = 16) :
    residue (wrap (carry (2 ^ 16) 0 o)) = residue o := by
  have hvalue := value_carry (2 ^ 16) 0 o
  obtain ⟨x, rest, hcons⟩ := List.exists_cons_of_length_eq_add_one
    ((length_carry (b := 2 ^ 16) 0 o).trans hlength)
  have hwrap : value (2 ^ 16) (wrap (carry (2 ^ 16) 0 o)) =
      value (2 ^ 16) (carry (2 ^ 16) 0 o).1 + 38 * (carry (2 ^ 16) 0 o).2 := by
    rw [wrap, hcons, List.modifyHead_cons, value, value]
    ring
  rw [hlength, zero_add] at hvalue
  rw [residue, residue, hwrap, ← hvalue, Int.cast_add, Int.cast_add, Int.cast_mul, Int.cast_mul,
    cast_pow_16]

theorem residue_car25519 {o s : Limbs} (hlength : o.length = 16) (h : car25519 o = some s) :
    s.length = 16 ∧ residue s = residue o := by
  obtain rfl := car25519_eq hlength h
  exact ⟨(length_wrap o).trans hlength, residue_wrap hlength⟩

/-! ## The operations -/

/-- The number whose limbs a loop computes one by one. -/
theorem value_results {f : ℕ → Option ℤ} {g : ℕ → ℤ} {s : Limbs} (h : results 16 f = some s)
    (hf : ∀ i y, f i = some y → y = g i) :
    s.length = 16 ∧ value (2 ^ 16) s = ∑ i ∈ Finset.range 16, g i * (2 ^ 16) ^ i := by
  obtain ⟨hlength, hs⟩ := results_eq_some.mp h
  refine ⟨hlength, ?_⟩
  rw [value_eq_sum, hlength]
  refine Finset.sum_congr rfl fun i hi => ?_
  have hi : i < s.length := by rw [hlength]; exact Finset.mem_range.mp hi
  rw [List.getD_eq_getElem _ _ hi, hf i _ (hs i hi)]

theorem residue_gf_A {a b s : Limbs} (ha : a.length = 16) (hb : b.length = 16)
    (h : gf_A a b = some s) : s.length = 16 ∧ residue s = residue a + residue b := by
  obtain ⟨hlength, hvalue⟩ := value_results h fun i y hy => (int64_eq_some.mp hy).2.symm
  refine ⟨hlength, ?_⟩
  rw [residue, residue, residue, hvalue, value_eq_sum a, value_eq_sum b, ha, hb, ← Int.cast_add,
    ← Finset.sum_add_distrib]
  simp only [add_mul]

theorem residue_gf_Z {a b s : Limbs} (ha : a.length = 16) (hb : b.length = 16)
    (h : gf_Z a b = some s) : s.length = 16 ∧ residue s = residue a - residue b := by
  obtain ⟨hlength, hvalue⟩ := value_results h fun i y hy => (int64_eq_some.mp hy).2.symm
  refine ⟨hlength, ?_⟩
  rw [residue, residue, residue, hvalue, value_eq_sum a, value_eq_sum b, ha, hb, ← Int.cast_sub,
    ← Finset.sum_sub_distrib]
  simp only [sub_mul]

/-- A column of the product. -/
def column (a b : Limbs) (k : ℕ) : ℤ := ∑ i ∈ Finset.range 16, ∑ j ∈ Finset.range 16,
  if i + j = k then a.getD i 0 * b.getD j 0 else 0

theorem gf_row_eq {a b : Limbs} {k : ℕ} {acc y : ℤ} {i : ℕ} (h : gf_row a b k acc i = some y) :
    y = acc + ∑ j ∈ Finset.range 16, if i + j = k then a.getD i 0 * b.getD j 0 else 0 := by
  rw [← sum_range_map]
  refine foldlM_add _ (fun acc j _ y hy => ?_) h
  split_ifs at hy ⊢
  · obtain ⟨product, hproduct, hy⟩ := Option.bind_eq_some_iff.mp hy
    rw [(int64_eq_some.mp hproduct).2]
    exact (int64_eq_some.mp hy).2.symm
  · rw [add_zero]
    exact (Option.some.inj hy).symm

theorem gf_prod_eq {a b : Limbs} {k : ℕ} {t : ℤ} (h : gf_prod a b k = some t) :
    t = column a b k := by
  have hsum := foldlM_add _ (fun acc i _ y hy => gf_row_eq hy) h
  rw [hsum, zero_add, sum_range_map, column]

theorem gf_fold_eq {a b : Limbs} {i : ℕ} {y : ℤ} (h : gf_fold a b i = some y) :
    y = column a b i + if i < 15 then 38 * column a b (i + 16) else 0 := by
  obtain ⟨low, hlow, h⟩ := Option.bind_eq_some_iff.mp h
  rw [← gf_prod_eq hlow]
  split_ifs at h ⊢
  · obtain ⟨high, hhigh, h⟩ := Option.bind_eq_some_iff.mp h
    obtain ⟨folded, hfolded, h⟩ := Option.bind_eq_some_iff.mp h
    rw [← gf_prod_eq hhigh, (int64_eq_some.mp hfolded).2]
    exact (int64_eq_some.mp h).2.symm
  · rw [add_zero]
    exact (Option.some.inj h).symm

/-- The columns from the sixteenth on come back times `2 ^ 256`. -/
theorem residue_columns {a b o : Limbs} (ha : a.length = 16) (hb : b.length = 16)
    (ho : value (2 ^ 16) o = ∑ i ∈ Finset.range 16,
      (column a b i + if i < 15 then 38 * column a b (i + 16) else 0) * (2 ^ 16) ^ i) :
    residue o = residue a * residue b := by
  have hmul : value (2 ^ 16) a * value (2 ^ 16) b =
      ∑ i ∈ Finset.range 31, column a b i * (2 ^ 16) ^ i := by
    rw [value_mul a b (n := 31) (by rw [ha, hb]), ha, hb]
    rfl
  have hsplit : value (2 ^ 16) a * value (2 ^ 16) b =
      ∑ i ∈ Finset.range 16, column a b i * (2 ^ 16) ^ i +
        (2 ^ 16) ^ 16 * ∑ i ∈ Finset.range 15, column a b (i + 16) * (2 ^ 16) ^ i := by
    rw [hmul, Finset.sum_range_add _ 16 15, Finset.mul_sum]
    refine congrArg (_ + ·) (Finset.sum_congr rfl fun i _ => ?_)
    rw [Nat.add_comm 16 i, pow_add]
    ring
  have hfold : value (2 ^ 16) o =
      ∑ i ∈ Finset.range 16, column a b i * (2 ^ 16) ^ i +
        38 * ∑ i ∈ Finset.range 15, column a b (i + 16) * (2 ^ 16) ^ i := by
    rw [ho]
    simp only [add_mul, Finset.sum_add_distrib]
    refine congrArg (_ + ·) ?_
    rw [Finset.sum_range_succ, if_neg (Nat.lt_irrefl 15), zero_mul, add_zero, Finset.mul_sum]
    refine Finset.sum_congr rfl fun i hi => ?_
    rw [if_pos (Finset.mem_range.mp hi), mul_assoc]
  rw [residue, residue, residue, ← Int.cast_mul, hfold, hsplit, Int.cast_add, Int.cast_add,
    Int.cast_mul, Int.cast_mul, cast_pow_16]

theorem residue_gf_M {a b s : Limbs} (ha : a.length = 16) (hb : b.length = 16)
    (h : gf_M a b = some s) : s.length = 16 ∧ residue s = residue a * residue b := by
  obtain ⟨o, ho, h⟩ := Option.bind_eq_some_iff.mp h
  obtain ⟨once, honce, h⟩ := Option.bind_eq_some_iff.mp h
  obtain ⟨hlength, hvalue⟩ := value_results ho fun i y hy => gf_fold_eq hy
  obtain ⟨honceLength, honceResidue⟩ := residue_car25519 hlength honce
  obtain ⟨hlength', hresidue⟩ := residue_car25519 honceLength h
  exact ⟨hlength', by rw [hresidue, honceResidue, residue_columns ha hb hvalue]⟩

theorem residue_gf_S {a s : Limbs} (ha : a.length = 16) (h : gf_S a = some s) :
    s.length = 16 ∧ residue s = residue a ^ 2 := by
  rw [pow_two]
  exact residue_gf_M ha ha h

/-- The exponent that a step of `inv25519` reaches. -/
def inv25519_exponent (e a : ℕ) : ℕ := 2 * e + if a ≠ 2 ∧ a ≠ 4 then 1 else 0

theorem residue_inv25519_run {i : Limbs} (hi : i.length = 16) : ∀ (l : List ℕ) {c s : Limbs} {e : ℕ},
    c.length = 16 → residue c = residue i ^ e → l.foldlM (inv25519_step i) c = some s →
      s.length = 16 ∧ residue s = residue i ^ l.foldl inv25519_exponent e
  | [], c, s, e, hc, hpow, h => by
    obtain rfl := Option.some.inj h
    exact ⟨hc, hpow⟩
  | a :: l, c, s, e, hc, hpow, h => by
    rw [List.foldlM_cons] at h
    obtain ⟨o, ho, h⟩ := Option.bind_eq_some_iff.mp h
    obtain ⟨squared, hsquared, ho⟩ := Option.bind_eq_some_iff.mp ho
    obtain ⟨hlength, hsquare⟩ := residue_gf_S hc hsquared
    have hstep : o.length = 16 ∧ residue o = residue i ^ inv25519_exponent e a := by
      unfold inv25519_exponent
      split_ifs at ho ⊢
      · obtain ⟨holength, hproduct⟩ := residue_gf_M hlength hi ho
        exact ⟨holength, by rw [hproduct, hsquare, hpow]; ring⟩
      · obtain rfl := Option.some.inj ho
        exact ⟨hlength, by rw [hsquare, hpow]; ring⟩
    exact residue_inv25519_run hi l hstep.1 hstep.2 h

/-- The bits of the exponent of `inv25519` are those of `p - 2`. -/
theorem inv25519_exponent_eq :
    (List.range 254).reverse.foldl inv25519_exponent 1 = Rfc7748.p - 2 := by
  decide +kernel

theorem residue_inv25519 {i s : Limbs} (hi : i.length = 16) (h : inv25519 i = some s) :
    s.length = 16 ∧ residue s = residue i ^ (Rfc7748.p - 2) := by
  rw [← inv25519_exponent_eq]
  exact residue_inv25519_run hi _ hi (pow_one _).symm h

end Onegram.X25519
