import Onegram.Lib.Bytes

/-!
# Factorising pq

`MTFactorize`: Pollard's rho in 64-bit words, with steps that are at most doubled from one attempt
to the next. The random numbers are a sequence. Where C leaves undefined what happens, a division by
zero or a shift of an `int` past its width, the run ends.
-/

namespace Onegram

theorem shiftRight_one_lt {a : UInt64} (h : a ≠ 0) : (a >>> 1).toNat < a.toNat := by
  have hpos : a.toNat ≠ 0 := fun h' => h (UInt64.toNat_inj.mp h')
  rw [UInt64.toNat_shiftRight]
  show a.toNat >>> 1 < a.toNat
  rw [Nat.shiftRight_eq_div_pow]
  omega

/-- `while ((a & 1) == 0) a >>= 1`, which is begun with words other than 0. -/
def oddPart (a : UInt64) : UInt64 :=
  if _h : a ≠ 0 ∧ a &&& 1 = 0 then oddPart (a >>> 1) else a
termination_by a.toNat
decreasing_by exact shiftRight_one_lt _h.1

theorem oddPart_dvd (a : UInt64) : (oddPart a).toNat ∣ a.toNat := by
  fun_induction oddPart a with
  | case1 a h ih =>
    have heven : a.toNat % 2 = 0 := by
      have := congrArg UInt64.toNat h.2
      rwa [UInt64.toNat_and, show (1 : UInt64).toNat = 1 from rfl, Nat.and_one_is_mod] at this
    have hhalf : a.toNat = 2 * (a >>> 1).toNat := by
      rw [UInt64.toNat_shiftRight]
      show a.toNat = 2 * a.toNat >>> 1
      rw [Nat.shiftRight_eq_div_pow]
      omega
    rw [hhalf]
    exact Dvd.dvd.mul_left ih 2
  | case2 => exact dvd_rfl

theorem oddPart_pos {a : UInt64} (h : a ≠ 0) : 0 < (oddPart a).toNat :=
  Nat.pos_of_ne_zero fun hzero => h <| UInt64.toNat_inj.mp <|
    Nat.eq_zero_of_zero_dvd (hzero ▸ oddPart_dvd a)

theorem oddPart_le (a : UInt64) : (oddPart a).toNat ≤ a.toNat := by
  by_cases h : a = 0
  · rw [h]
    decide +kernel
  · exact Nat.le_of_dvd (Nat.pos_of_ne_zero fun h' => h (UInt64.toNat_inj.mp h')) (oddPart_dvd a)

theorem toNat_sub_of_lt {a b : UInt64} (h : b ≤ a) : (a - b).toNat = a.toNat - b.toNat :=
  UInt64.toNat_sub_of_le a b h

/-- The factors of 2 are taken out of both numbers. -/
def mygcd (a b : UInt64) : UInt64 :=
  if _h : a ≠ 0 ∧ b ≠ 0 then
    if _hab : oddPart b < oddPart a then mygcd (oddPart a - oddPart b) (oddPart b)
    else mygcd (oddPart a) (oddPart b - oddPart a)
  else if b = 0 then a else b
termination_by a.toNat + b.toNat
decreasing_by
  all_goals
    have ha := oddPart_le a
    have hb := oddPart_le b
    have hapos := oddPart_pos _h.1
    have hbpos := oddPart_pos _h.2
  · have hlt := UInt64.lt_iff_toNat_lt.mp _hab
    rw [toNat_sub_of_lt (UInt64.le_iff_toNat_le.mpr hlt.le)]
    omega
  · have hle := UInt64.le_iff_toNat_le.mp (UInt64.not_lt.mp _hab)
    rw [toNat_sub_of_lt (UInt64.not_lt.mp _hab)]
    omega

/-- `c + a * b` by doubling, reduced by `what` after each sum; a sum may wrap. -/
def mulAdd (what a b c : UInt64) : UInt64 :=
  if _h : b = 0 then c
  else
    let c :=
      if b &&& 1 ≠ 0 then
        let c := c + a
        if what ≤ c then c - what else c
      else c
    let a := a + a
    let a := if what ≤ a then a - what else a
    mulAdd what a (b >>> 1) c
termination_by b.toNat
decreasing_by exact shiftRight_one_lt _h

/-- The steps of an attempt that are left, from step `j` on: the last divisor and how many steps all
attempts have taken. -/
def factorSteps (what q : UInt64) : ℕ → ℕ → UInt64 → UInt64 → UInt64 × ℕ → UInt64 × ℕ
  | 0, _, _, _, state => state
  | n + 1, j, x, y, (_, it) =>
    let x := mulAdd what x x q
    let z := if x < y then what + x - y else x - y
    let g := mygcd z what
    if g ≠ 1 then (g, it + 1)
    else factorSteps what q n (j + 1) x (if j &&& (j - 1) = 0 then x else y) (g, it + 1)

section Attempts

variable (lrand48 : ℕ → UInt64) (what : UInt64)

/-- Attempt `i`, of which the limit is `1 << (i + 18)`. -/
def factorAttempt (i : ℕ) (state : UInt64 × ℕ) : UInt64 × ℕ :=
  let q := ((lrand48 (2 * i) &&& 15) + 17) % what
  let x := lrand48 (2 * i + 1) % (what - 1) + 1
  factorSteps what q (2 ^ (i + 18) - 1) 1 x x state

inductive FactorOutcome
  | divisionByZero
  | shiftedTooFar
  | returned (factors : Option (UInt64 × UInt64))
  deriving DecidableEq

def isProper (g : UInt64) : Bool := 1 < g && g < what

/-- The divisor and what it leaves, the smaller first. -/
def factorPair (g : UInt64) : UInt64 × UInt64 :=
  if what / g < g then (what / g, g) else (g, what / g)

def factorResult (g : UInt64) : Option (UInt64 × UInt64) :=
  if isProper what g then some (factorPair what g) else none

/-- The attempts from attempt `i` on. -/
def factorAttempts (i : ℕ) (state : UInt64 × ℕ) : FactorOutcome :=
  if i < 3 ∨ state.2 < 1000 then
    if what = 0 ∨ what - 1 = 0 then .divisionByZero
    else if _h : 31 ≤ i + 18 then .shiftedTooFar
    else
      let state := factorAttempt lrand48 what i state
      if isProper what state.1 then .returned (factorResult what state.1)
      else factorAttempts (i + 1) state
  else .returned (factorResult what state.1)
termination_by 13 - i
decreasing_by omega

def MTFactorize : FactorOutcome := factorAttempts lrand48 what 0 (0, 0)

end Attempts

end Onegram
