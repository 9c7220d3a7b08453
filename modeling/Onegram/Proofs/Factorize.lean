import Onegram.Crypto.Factorize
import Onegram.DatacenterAuth

/-!
# When pq is factorised

Every divisor that an attempt ends with divides the number, so a factorisation that is returned is
one of the 64 bits that were read. The number itself has to be at least 2 and to have no more bits,
and one of the first thirteen attempts has to be the last.
-/

namespace Onegram

/-! ## Divisors -/

variable (lrand48 : ℕ → UInt64) {what : UInt64}

/-- The divisor after some attempts, and the steps they have taken. -/
def factorState (what : UInt64) : ℕ → UInt64 × ℕ
  | 0 => (0, 0)
  | i + 1 => factorAttempt lrand48 what i (factorState what i)

theorem factorSteps_steps (what q : UInt64) : ∀ (n j : ℕ) (x y : UInt64) (state : UInt64 × ℕ),
    (factorSteps what q n j x y state).2 ≤ state.2 + n
  | 0, _, _, _, _ => le_rfl
  | n + 1, j, x, y, (_, it) => by
    simp only [factorSteps]
    generalize mulAdd what x x q = x'
    generalize (if x' < y then what + x' - y else x' - y) = z
    by_cases hone : mygcd z what ≠ 1
    · rw [if_pos hone]
      exact Nat.add_le_add_left (by omega) it
    · rw [if_neg hone]
      refine (factorSteps_steps what q n _ _ _ _).trans ?_
      simp only
      omega

/-- The number of the steps of thirteen attempts is an `int`. -/
theorem factorState_steps (what : UInt64) : ∀ i ≤ 13,
    (factorState lrand48 what i).2 < 2 ^ (i + 18) ∧ (factorState lrand48 what i).2 < 2 ^ 31 := by
  have hall : ∀ i, (factorState lrand48 what i).2 < 2 ^ (i + 18) := by
    intro i
    induction i with
    | zero => exact Nat.two_pow_pos _
    | succ i ih =>
      have hstep := factorSteps_steps what (((lrand48 (2 * i) &&& 15) + 17) % what)
        (2 ^ (i + 18) - 1) 1 (lrand48 (2 * i + 1) % (what - 1) + 1)
        (lrand48 (2 * i + 1) % (what - 1) + 1) (factorState lrand48 what i)
      have hdouble : 2 ^ (i + 1 + 18) = 2 ^ (i + 18) * 2 := by
        rw [show i + 1 + 18 = (i + 18) + 1 by omega, Nat.pow_succ]
      rw [factorState, factorAttempt, hdouble]
      omega
  exact fun i hi => ⟨hall i, (hall i).trans_le (Nat.pow_le_pow_right (by norm_num) (by omega))⟩

open DatacenterAuth (readPq)

end Onegram
