import Mathlib.Data.List.Range
import Mathlib.Tactic

/-!
# Scans in overlapping chunks

The first place with a property, looked for in chunks that begin every `step` places and are `count`
places long. Chunks that reach the next one's beginning miss no place, so the scan is one over all
the places that the chunks cover; it goes wrong at most behind the range that was asked for.
-/

namespace ChunkedScan

variable {p : ℕ → Bool} {step count : ℕ}

/-- The first place in `chunks` chunks from `base` on. -/
def scanChunks (p : ℕ → Bool) (step count : ℕ) : ℕ → ℕ → Option ℕ
  | 0, _ => none
  | chunks + 1, base =>
    ((List.range' base count).find? p).or (scanChunks p step count chunks (base + step))

theorem range'_split (base n m : ℕ) :
    List.range' base (n + m) = List.range' base n ++ List.range' (base + n) m := by
  rw [List.range'_append_1]

/-- A chunk in front of a scan that begins inside it. -/
theorem find?_or_find? (h : step ≤ count) (base more : ℕ) :
    ((List.range' base count).find? p).or ((List.range' (base + step) (more + count)).find? p)
      = (List.range' base (step + (more + count))).find? p := by
  have hchunk : List.range' base count
      = List.range' base step ++ List.range' (base + step) (count - step) := by
    rw [← range'_split, Nat.add_sub_cancel' h]
  have hrest : List.range' (base + step) (more + count)
      = List.range' (base + step) (count - step)
        ++ List.range' (base + step + (count - step)) (more + step) := by
    rw [← range'_split]
    congr 1
    omega
  rw [range'_split base step, List.find?_append, hchunk, List.find?_append, hrest,
    List.find?_append]
  cases (List.range' base step).find? p with
  | some i => rfl
  | none =>
    cases (List.range' (base + step) (count - step)).find? p with
    | some i => rfl
    | none => rfl

theorem scanChunks_eq (h : step ≤ count) : ∀ chunks base,
    scanChunks p step count (chunks + 1) base
      = (List.range' base (chunks * step + count)).find? p
  | 0, base => by
    rw [scanChunks, scanChunks, Option.or_none, Nat.zero_mul, Nat.zero_add]
  | chunks + 1, base => by
    rw [scanChunks, scanChunks_eq h chunks, find?_or_find? h, Nat.succ_mul]
    congr 2
    omega

/-- A scan that goes on behind its range gives what the range does, unless the range has nothing
and what is behind it has. -/
theorem find?_extend_iff {n m : ℕ} (h : n ≤ m) :
    (List.range m).find? p = (List.range n).find? p
      ↔ (∃ i < n, p i = true) ∨ ∀ i, n ≤ i → i < m → p i = false := by
  have hsplit : List.range m = List.range n ++ List.range' n (m - n) := by
    rw [List.range_eq_range', List.range_eq_range', ← Nat.add_sub_cancel' h, range'_split,
      Nat.zero_add, Nat.add_sub_cancel_left]
  have hbehind : (List.range' n (m - n)).find? p = none
      ↔ ∀ i, n ≤ i → i < m → p i = false := by
    rw [List.find?_eq_none]
    constructor
    · intro hnone i hi hlt
      exact Bool.eq_false_iff.2 (hnone i (List.mem_range'_1.2 ⟨hi, by omega⟩))
    · intro hfalse i hi
      obtain ⟨hle, hlt⟩ := List.mem_range'_1.1 hi
      exact Bool.eq_false_iff.1 (hfalse i hle (by omega))
  rw [hsplit, List.find?_append, ← hbehind]
  cases hfind : (List.range n).find? p with
  | some i =>
    have hi := List.mem_of_find?_eq_some hfind
    have hp : p i = true := List.find?_some hfind
    exact iff_of_true rfl (Or.inl ⟨i, List.mem_range.1 hi, hp⟩)
  | none =>
    have hnone : ¬∃ i < n, p i = true := by
      rintro ⟨i, hi, hp⟩
      exact List.find?_eq_none.1 hfind i (List.mem_range.2 hi) hp
    rw [Option.none_or, or_iff_right hnone]

end ChunkedScan
