import Mathlib.NumberTheory.LucasPrimality
import Mathlib.Tactic.ReduceModChar
import Onegram.Crypto.X25519

/-!
# The prime of X25519

A number is prime where some residue has the order `n - 1` modulo it, which Lucas's test reads off
the primes of `n - 1`. The large ones among these are prime for the same reason.
-/

namespace Onegram.Rfc7748

/-- Lucas's test with a list of the primes of `n - 1`. -/
theorem prime_of_factors {n : ℕ} (a : ZMod n) {m : ℕ} (hm : n - 1 = m) (factors : List ℕ)
    (hprimes : ∀ q ∈ factors, q.Prime) (hfactors : m ∣ factors.prod ^ 5) (hone : a ^ m = 1)
    (horder : ∀ q ∈ factors, a ^ (m / q) ≠ 1) : n.Prime := by
  subst hm
  refine lucas_primality n a hone fun q hq hdvd => horder q ?_
  have hprod := hq.dvd_of_dvd_pow (hdvd.trans hfactors)
  obtain ⟨r, hr, hqr⟩ := (Prime.dvd_prod_iff hq.prime).mp hprod
  rwa [(Nat.prime_dvd_prime_iff_eq hq (hprimes r hr)).mp hqr]

theorem prime_2773320623 : Nat.Prime 2773320623 := by
  refine prime_of_factors 5 (m := 2773320622) (by norm_num) [2, 2437, 569003] ?_ (by norm_num)
    (by reduce_mod_char) ?_
  · simp only [List.forall_mem_cons]
    norm_num
  · simp only [List.forall_mem_cons]
    norm_num only
    reduce_mod_char
    decide

theorem prime_72106336199 : Nat.Prime 72106336199 := by
  refine prime_of_factors 7 (m := 72106336198) (by norm_num) [2, 13, 2773320623] ?_ (by norm_num)
    (by reduce_mod_char) ?_
  · simp only [List.forall_mem_cons, prime_2773320623]
    norm_num
  · simp only [List.forall_mem_cons]
    norm_num only
    reduce_mod_char
    decide

theorem prime_1919519569386763 : Nat.Prime 1919519569386763 := by
  refine prime_of_factors 2 (m := 1919519569386762) (by norm_num) [2, 3, 7, 19, 47, 127, 8574133]
    ?_ (by norm_num) (by reduce_mod_char) ?_
  · simp only [List.forall_mem_cons]
    norm_num
  · simp only [List.forall_mem_cons]
    norm_num only
    reduce_mod_char
    decide

theorem prime_31757755568855353 : Nat.Prime 31757755568855353 := by
  refine prime_of_factors 10 (m := 31757755568855352) (by norm_num) [2, 3, 31, 107, 223, 4153,
    430751] ?_ (by norm_num) (by reduce_mod_char) ?_
  · simp only [List.forall_mem_cons]
    norm_num
  · simp only [List.forall_mem_cons]
    norm_num only
    reduce_mod_char
    decide

theorem prime_75445702479781427272750846543864801 :
    Nat.Prime 75445702479781427272750846543864801 := by
  refine prime_of_factors 7 (m := 75445702479781427272750846543864800) (by norm_num) [2, 3, 5,
    75707, 72106336199, 1919519569386763] ?_ (by norm_num) (by reduce_mod_char) ?_
  · simp only [List.forall_mem_cons, prime_72106336199, prime_1919519569386763]
    norm_num
  · simp only [List.forall_mem_cons]
    norm_num only
    reduce_mod_char
    decide

theorem prime_large :
    Nat.Prime 74058212732561358302231226437062788676166966415465897661863160754340907 := by
  refine prime_of_factors 2
    (m := 74058212732561358302231226437062788676166966415465897661863160754340906) (by norm_num)
    [2, 3, 353, 57467, 132049, 1923133, 31757755568855353, 75445702479781427272750846543864801] ?_
    (by norm_num) (by reduce_mod_char) ?_
  · simp only [List.forall_mem_cons, prime_31757755568855353,
      prime_75445702479781427272750846543864801]
    norm_num
  · simp only [List.forall_mem_cons]
    norm_num only
    reduce_mod_char
    decide

theorem prime_p : p.Prime := by
  have hp : p = 57896044618658097711785492504343953926634992332820282019728792003956564819949 := by
    decide
  rw [hp]
  refine prime_of_factors 2
    (m := 57896044618658097711785492504343953926634992332820282019728792003956564819948)
    (by norm_num) [2, 3, 65147,
    74058212732561358302231226437062788676166966415465897661863160754340907] ?_ (by norm_num)
    (by reduce_mod_char) ?_
  · simp only [List.forall_mem_cons, prime_large]
    norm_num
  · simp only [List.forall_mem_cons]
    norm_num only
    reduce_mod_char
    decide

end Onegram.Rfc7748
