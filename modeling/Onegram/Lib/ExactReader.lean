import Mathlib.Data.List.Basic
import Mathlib.Tactic

/-!
# Reads of an exact length

A socket collects what arrives until it has as much as the reader has asked for; the reader is then
given exactly that and asks for more. However the bytes arrive, the reader is given the same.
-/

namespace ExactReader

variable {σ α : Type*}

/-- A reader: how much it waits for, and what it does with that. -/
structure Reader (σ α : Type*) where
  want : σ → Option ℕ
  read : σ → List α → σ
  pos : ∀ {s n}, want s = some n → 0 < n

variable (R : Reader σ α)

/-- The reader with what has arrived, as long as there is enough. -/
def drain (s : σ) (u : List α) : σ × List α :=
  match h : R.want s with
  | none => (s, u)
  | some n => if n ≤ u.length then drain (R.read s (u.take n)) (u.drop n) else (s, u)
termination_by u.length
decreasing_by
  have := R.pos h
  simp only [List.length_drop]
  omega

/-- A piece arrives. -/
def feed (su : σ × List α) (chunk : List α) : σ × List α := drain R su.1 (su.2 ++ chunk)

variable {R} {s : σ} {u : List α} {n : ℕ}

theorem drain_none (h : R.want s = none) : drain R s u = (s, u) := by
  rw [drain]
  split <;> simp_all

theorem drain_wait (h : R.want s = some n) (hn : u.length < n) : drain R s u = (s, u) := by
  rw [drain]
  split
  · rfl
  · rename_i n' h'
    obtain rfl : n' = n := Option.some.inj (h'.symm.trans h)
    rw [if_neg (by omega)]

theorem drain_read (h : R.want s = some n) (hn : n ≤ u.length) :
    drain R s u = drain R (R.read s (u.take n)) (u.drop n) := by
  rw [drain]
  split
  · simp_all
  · rename_i n' h'
    obtain rfl : n' = n := Option.some.inj (h'.symm.trans h)
    rw [if_pos hn]

/-- What a reader was asked for first is read first. -/
theorem drain_append_read {a b : List α} (h : R.want s = some a.length) :
    drain R s (a ++ b) = drain R (R.read s a) b := by
  rw [drain_read h (by simp), List.take_left, List.drop_left]

/-- The reader goes on where it was when more arrives. -/
theorem drain_drain (s : σ) (u c : List α) :
    drain R (drain R s u).1 ((drain R s u).2 ++ c) = drain R s (u ++ c) := by
  induction hk : u.length using Nat.strong_induction_on generalizing s u with
  | _ k ih =>
    rcases h : R.want s with _ | n
    · rw [drain_none h]
    · have hpos := R.pos h
      by_cases hn : n ≤ u.length
      · rw [drain_read h hn, ih (u.drop n).length (by simp only [List.length_drop]; omega) _ _ rfl,
          drain_read (u := u ++ c) h (by simp; omega), List.take_append_of_le_length hn,
          List.drop_append_of_le_length hn]
      · rw [drain_wait h (by omega)]

/-- In pieces or at once. -/
theorem foldl_feed : ∀ (chunks : List (List α)) (s : σ) (u : List α), drain R s u = (s, u) →
    chunks.foldl (feed R) (s, u) = drain R s (u ++ chunks.flatten)
  | [], s, u, h => by simp [h]
  | c :: cs, s, u, h => by
    have hidle : drain R (drain R s (u ++ c)).1 (drain R s (u ++ c)).2 = drain R s (u ++ c) := by
      have := drain_drain (R := R) s (u ++ c) []
      simpa using this
    rw [List.foldl_cons, show feed R (s, u) c = drain R s (u ++ c) from rfl,
      foldl_feed cs _ _ hidle, drain_drain, List.flatten_cons, List.append_assoc]

end ExactReader
