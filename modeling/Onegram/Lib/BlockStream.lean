import Mathlib.Data.List.Basic
import Mathlib.Tactic

/-!
# Streams taken in blocks

A stream that arrives in pieces and is consumed in blocks of `B` items: what does not make up a
block waits in a buffer. A buffer that keeps up to `lim` items back lets a block go when it holds
more. With `lim = B` the last block stays until the stream has ended; with `lim + 1 = B` it goes as
soon as it is full. Either way the blocks that were let go depend on the stream alone.
-/

namespace BlockStream

variable {α σ : Type*} {B lim : ℕ}

/-- Blocks are taken from the front while more than `lim` items are left. -/
def drain (f : σ → List α → σ) (B lim : ℕ) (s : σ) (l : List α) : σ × List α :=
  if 0 < B ∧ lim < l.length then drain f B lim (f s (l.take B)) (l.drop B) else (s, l)
termination_by l.length
decreasing_by simp; omega

/-- A piece arrives behind what the buffer holds. -/
def push (f : σ → List α → σ) (B lim : ℕ) (S : σ × List α) (piece : List α) : σ × List α :=
  drain f B lim S.1 (S.2 ++ piece)

variable {f : σ → List α → σ}

theorem drain_of_le (s : σ) {l : List α} (h : l.length ≤ lim) : drain f B lim s l = (s, l) := by
  rw [drain, if_neg (by omega)]

theorem drain_of_lt (hB : 0 < B) (s : σ) {l : List α} (h : lim < l.length) :
    drain f B lim s l = drain f B lim (f s (l.take B)) (l.drop B) := by
  rw [drain, if_pos ⟨hB, h⟩]

theorem drain_nil (s : σ) : drain f B lim s [] = (s, []) := drain_of_le s (by simp)

theorem length_drain (hB : 0 < B) (s : σ) (l : List α) : (drain f B lim s l).2.length ≤ lim := by
  induction s, l using drain.induct f B lim with
  | case1 s l h ih => rwa [drain_of_lt hB s h.2]
  | case2 s l h =>
    have hl : l.length ≤ lim := by omega
    rwa [drain_of_le s hl]

/-- What is left over from the front of a stream goes on as if the whole had come at once. -/
theorem drain_drain (hB : 0 < B) (hlim : B ≤ lim + 1) (s : σ) (l r : List α) :
    drain f B lim (drain f B lim s l).1 ((drain f B lim s l).2 ++ r) = drain f B lim s (l ++ r) := by
  induction s, l using drain.induct f B lim with
  | case1 s l h ih =>
    have hlong : lim < (l ++ r).length := by simp; omega
    rw [drain_of_lt hB s h.2, ih, drain_of_lt hB s hlong,
      List.take_append_of_le_length (by omega), List.drop_append_of_le_length (by omega)]
  | case2 s l h =>
    have hl : l.length ≤ lim := by omega
    rw [drain_of_le s hl]

/-- However a stream is cut into pieces, the outcome is that of the stream in one piece. -/
theorem foldl_push (hB : 0 < B) (hlim : B ≤ lim + 1) :
    ∀ (pieces : List (List α)) (s : σ) (l : List α),
      pieces.foldl (push f B lim) (drain f B lim s l) = drain f B lim s (l ++ pieces.flatten)
  | [], s, l => by simp
  | p :: pieces, s, l => by
    rw [List.foldl_cons, push, drain_drain hB hlim, foldl_push hB hlim pieces, List.flatten_cons,
      List.append_assoc]

/-! ## The blocks that were let go -/

/-- The first `k` blocks of a stream. -/
def blocks (B k : ℕ) (l : List α) : List (List α) :=
  (List.range k).map fun i => (l.drop (i * B)).take B

@[simp] theorem blocks_zero (l : List α) : blocks B 0 l = [] := rfl

theorem blocks_succ (k : ℕ) (l : List α) :
    blocks B (k + 1) l = blocks B k l ++ [(l.drop (k * B)).take B] := by
  rw [blocks, List.range_succ, List.map_append]
  rfl

theorem blocks_succ_cons (k : ℕ) (l : List α) :
    blocks B (k + 1) l = l.take B :: blocks B k (l.drop B) := by
  rw [blocks, List.range_succ_eq_map, List.map_cons, List.map_map, Nat.zero_mul, List.drop_zero,
    blocks]
  congr 1
  apply List.map_congr_left
  intro i _
  rw [Function.comp_apply, List.drop_drop, Nat.succ_mul, Nat.add_comm]

theorem blocks_take {k n : ℕ} {l : List α} (h : k * B ≤ n) :
    blocks B k (l.take n) = blocks B k l := by
  apply List.map_congr_left
  intro i hi
  have hi : i + 1 ≤ k := List.mem_range.mp hi
  have hend : i * B + B ≤ n := by
    rw [← Nat.succ_mul]
    exact (Nat.mul_le_mul_right B hi).trans h
  rw [List.drop_take, List.take_take, Nat.min_eq_left (by omega)]

/-- How many blocks a stream of `n` items lets go. -/
def count (B lim n : ℕ) : ℕ := (n - (lim + 1 - B)) / B

theorem count_of_le (h : B ≤ lim + 1) {n : ℕ} (hn : n ≤ lim) : count B lim n = 0 := by
  rcases Nat.eq_zero_or_pos B with rfl | hB
  · exact Nat.div_zero _
  · exact Nat.div_eq_of_lt (by omega)

theorem count_of_lt (hB : 0 < B) (h : B ≤ lim + 1) {n : ℕ} (hn : lim < n) :
    count B lim n = count B lim (n - B) + 1 := by
  rw [count, count, ← Nat.add_div_right _ hB]
  congr 1
  omega

theorem drain_eq (hB : 0 < B) (hlim : B ≤ lim + 1) (s : σ) (l : List α) :
    drain f B lim s l = ((blocks B (count B lim l.length) l).foldl f s,
      l.drop (count B lim l.length * B)) := by
  induction s, l using drain.induct f B lim with
  | case1 s l h ih =>
    rw [drain_of_lt hB s h.2, ih, count_of_lt hB hlim h.2, blocks_succ_cons, List.foldl_cons,
      List.length_drop, List.drop_drop, Nat.succ_mul, Nat.add_comm B]
  | case2 s l h =>
    have hl : l.length ≤ lim := by omega
    rw [drain_of_le s hl, count_of_le hlim hl]
    simp

end BlockStream
