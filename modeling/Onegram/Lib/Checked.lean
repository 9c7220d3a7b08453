import Mathlib.Tactic

/-!
# Arithmetic that must not overflow

A result in `Option` for the operations of a signed word of 64 bits: none where the exact result
does not fit. Where it fits, the operation on words gives the same.
-/

namespace Checked

/-- A result, where it fits in 64 bits. -/
def int64 (x : ℤ) : Option ℤ := if -2 ^ 63 ≤ x ∧ x < 2 ^ 63 then some x else none

theorem int64_eq_some {x y : ℤ} : int64 x = some y ↔ (-2 ^ 63 ≤ x ∧ x < 2 ^ 63) ∧ x = y := by
  unfold int64
  split_ifs with h
  · rw [Option.some_inj, and_iff_right h]
  · exact iff_of_false (fun h => nomatch h) (fun hx => h hx.1)

theorem int64_of_abs_le {x : ℤ} (h : |x| < 2 ^ 63) : int64 x = some x := by
  have hx := abs_lt.mp h
  exact int64_eq_some.mpr ⟨⟨hx.1.le, hx.2⟩, rfl⟩

/-- The results of a loop that computes each limb of its own, where all of them are there. -/
def results {α : Type*} (n : ℕ) (f : ℕ → Option α) : Option (List α) := (List.range n).mapM f

theorem mapM_eq_some {α β : Type*} {f : α → Option β} : ∀ {l : List α} {ys : List β},
    l.mapM f = some ys ↔ l.map f = ys.map some
  | [], ys => by
    rw [List.mapM_nil, List.map_nil]
    constructor
    · rintro ⟨⟩
      rfl
    · intro h
      rw [List.map_eq_nil_iff.mp h.symm]
      rfl
  | a :: l, ys => by
    rw [List.mapM_cons, List.map_cons]
    constructor
    · intro h
      obtain ⟨y, hy, h⟩ := Option.bind_eq_some_iff.mp h
      obtain ⟨rest, hrest, h⟩ := Option.bind_eq_some_iff.mp h
      obtain rfl := Option.some.inj h
      rw [List.map_cons, hy, mapM_eq_some.mp hrest]
    · intro h
      rcases ys with _ | ⟨y, rest⟩
      · cases h
      · rw [List.map_cons, List.cons.injEq] at h
        rw [h.1, mapM_eq_some.mpr h.2]
        rfl

theorem results_eq_some {α : Type*} {n : ℕ} {f : ℕ → Option α} {ys : List α} :
    results n f = some ys ↔ ys.length = n ∧ ∀ (i : ℕ) (hi : i < ys.length), f i = some ys[i] := by
  rw [results, mapM_eq_some]
  constructor
  · intro h
    have hlength : n = ys.length := by simpa using congrArg List.length h
    refine ⟨hlength.symm, fun i hi => ?_⟩
    have hi' := List.getElem_of_eq h (i := i) (by simpa [hlength] using hi)
    simpa using hi'
  · rintro ⟨rfl, h⟩
    apply List.ext_getElem
    · simp
    · intro i h₁ h₂
      simpa using h i (by simpa using h₁)

theorem results_isSome {α : Type*} [Inhabited α] {n : ℕ} {f : ℕ → Option α} (P : α → Prop)
    (h : ∀ i < n, ∃ y, f i = some y ∧ P y) :
    ∃ ys, results n f = some ys ∧ ys.length = n ∧ ∀ y ∈ ys, P y := by
  choose! y hy hP using h
  refine ⟨(List.range n).map y, results_eq_some.mpr ⟨by simp, fun i hi => ?_⟩, by simp, ?_⟩
  · rw [List.length_map, List.length_range] at hi
    simpa using hy i hi
  · intro z hz
    obtain ⟨i, hi, rfl⟩ := List.mem_map.mp hz
    exact hP i (List.mem_range.mp hi)

/-! ## Words -/

theorem toInt_of_bmod {x y : ℤ} {w : Int64} (hw : w.toInt = x.bmod (2 ^ 64))
    (h : int64 x = some y) : w.toInt = y := by
  obtain ⟨⟨hlow, hhigh⟩, rfl⟩ := int64_eq_some.mp h
  rw [hw]
  exact Int.bmod_eq_of_le_mul_two (by omega) (by omega)

theorem toInt_add {a b : Int64} {x : ℤ} (h : int64 (a.toInt + b.toInt) = some x) :
    (a + b).toInt = x := toInt_of_bmod (Int64.toInt_add a b) h

theorem toInt_sub {a b : Int64} {x : ℤ} (h : int64 (a.toInt - b.toInt) = some x) :
    (a - b).toInt = x := toInt_of_bmod (Int64.toInt_sub a b) h

theorem toInt_mul {a b : Int64} {x : ℤ} (h : int64 (a.toInt * b.toInt) = some x) :
    (a * b).toInt = x := toInt_of_bmod (Int64.toInt_mul a b) h

/-! ## Loops -/

variable {α σ τ : Type*}

/-- A loop on words does what the checked one does, where each turn does. -/
theorem foldlM_simulates {checked : σ → α → Option σ} {step : τ → α → τ} (f : τ → σ) :
    ∀ {l : List α}, (∀ t, ∀ a ∈ l, ∀ s, checked (f t) a = some s → f (step t a) = s) →
      ∀ {t : τ} {s : σ}, l.foldlM checked (f t) = some s → f (l.foldl step t) = s
  | [], _, t, s, hs => Option.some.inj hs
  | a :: l, h, t, s, hs => by
    rw [List.foldlM_cons] at hs
    obtain ⟨next, hnext, hs⟩ := Option.bind_eq_some_iff.mp hs
    rw [← h t a List.mem_cons_self next hnext] at hs
    exact foldlM_simulates f (fun t b hb => h t b (List.mem_cons_of_mem a hb)) hs

/-- A checked loop has a result where each turn has one, and stays in step with another loop. -/
theorem foldlM_refines {checked : σ → α → Option σ} {step : τ → α → τ} (rel : σ → τ → Prop)
    (h : ∀ s t a, rel s t → ∃ s', checked s a = some s' ∧ rel s' (step t a)) :
    ∀ (l : List α) {s : σ} {t : τ}, rel s t →
      ∃ s', l.foldlM checked s = some s' ∧ rel s' (l.foldl step t)
  | [], s, _, hs => ⟨s, rfl, hs⟩
  | a :: l, s, t, hs => by
    obtain ⟨next, hnext, hrel⟩ := h s t a hs
    obtain ⟨s', hs', hrel'⟩ := foldlM_refines rel h l hrel
    refine ⟨s', ?_, hrel'⟩
    rw [List.foldlM_cons, hnext]
    exact hs'

/-- A checked loop has a result where each turn has one and keeps an invariant, which may speak of
the count. -/
theorem foldlM_range_isSome {checked : σ → ℕ → Option σ} (inv : ℕ → σ → Prop) : ∀ {n : ℕ},
    (∀ k < n, ∀ s, inv k s → ∃ s', checked s k = some s' ∧ inv (k + 1) s') →
      ∀ {s : σ}, inv 0 s → ∃ s', (List.range n).foldlM checked s = some s' ∧ inv n s'
  | 0, _, s, hs => ⟨s, rfl, hs⟩
  | n + 1, h, s, hs => by
    obtain ⟨last, hlast, hinv⟩ :=
      foldlM_range_isSome inv (fun k hk => h k (Nat.lt_succ_of_lt hk)) hs
    obtain ⟨s', hs', hinv'⟩ := h n n.lt_succ_self last hinv
    refine ⟨s', ?_, hinv'⟩
    rw [List.range_succ, List.foldlM_append]
    exact Option.bind_eq_some_iff.mpr ⟨last, hlast, Option.bind_eq_some_iff.mpr ⟨s', hs', rfl⟩⟩

/-- A checked loop that adds up has the sum. -/
theorem foldlM_add {checked : ℤ → α → Option ℤ} (f : α → ℤ) :
    ∀ {l : List α}, (∀ acc, ∀ a ∈ l, ∀ y, checked acc a = some y → y = acc + f a) →
      ∀ {acc y : ℤ}, l.foldlM checked acc = some y → y = acc + (l.map f).sum
  | [], _, acc, y, hy => by
    rw [List.map_nil, List.sum_nil, add_zero]
    exact (Option.some.inj hy).symm
  | a :: l, h, acc, y, hy => by
    rw [List.foldlM_cons] at hy
    obtain ⟨next, hnext, hy⟩ := Option.bind_eq_some_iff.mp hy
    rw [foldlM_add f (fun acc b hb => h acc b (List.mem_cons_of_mem a hb)) hy,
      h acc a List.mem_cons_self next hnext, List.map_cons, List.sum_cons, add_assoc]

end Checked
