import Mathlib.Data.List.GetD
import Mathlib.Tactic

/-!
# A flat memory

Cells at natural addresses, and the reads and writes of a run of them. What is read back from a run
that was written is what was written; a run apart from it is as it was.
-/

/-- A memory with a value in every cell. -/
abbrev Memory (α : Type*) := ℕ → α

namespace Memory

variable {α : Type*}

/-- The `n` cells from `p` on. -/
def read (m : Memory α) (p n : ℕ) : List α := (List.range n).map fun i => m (p + i)

/-- The cells of `b` stored from `p` on. -/
def write (m : Memory α) (p : ℕ) (b : List α) : Memory α :=
  fun a => if p ≤ a then b.getD (a - p) (m a) else m a

/-- Two runs of cells have no cell in common. -/
def Apart (p n q k : ℕ) : Prop := p + n ≤ q ∨ q + k ≤ p

instance decidableApart (p n q k : ℕ) : Decidable (Apart p n q k) :=
  inferInstanceAs (Decidable (_ ∨ _))

theorem Apart.symm {p n q k : ℕ} (h : Apart p n q k) : Apart q k p n := h.elim .inr .inl

@[simp] theorem length_read (m : Memory α) (p n : ℕ) : (read m p n).length = n := by simp [read]

@[simp] theorem write_nil (m : Memory α) (p : ℕ) : write m p [] = m := by
  funext a
  simp [write]

theorem write_of_notMem {m : Memory α} {p a : ℕ} {b : List α} (h : ¬(p ≤ a ∧ a < p + b.length)) :
    write m p b a = m a := by
  rw [write]
  split_ifs with hp
  · exact List.getD_eq_default _ _ (by omega)
  · rfl

theorem read_write_self (m : Memory α) (p : ℕ) (b : List α) :
    read (write m p b) p b.length = b := by
  apply List.ext_getElem
  · simp
  · intro i h₁ h₂
    simp only [read, List.getElem_map, List.getElem_range, write, if_pos (Nat.le_add_right p i),
      Nat.add_sub_cancel_left]
    rw [List.getD_eq_getElem]

theorem read_write_of_apart {m : Memory α} {p n q : ℕ} {b : List α} (h : Apart p n q b.length) :
    read (write m q b) p n = read m p n := by
  apply List.map_congr_left
  intro i hi
  have hi := List.mem_range.mp hi
  exact write_of_notMem (by rcases h with h | h <;> omega)

theorem read_add (m : Memory α) (p n k : ℕ) : read m p (n + k) = read m p n ++ read m (p + n) k := by
  simp [read, List.range_add, Nat.add_assoc]

theorem write_append (m : Memory α) (p : ℕ) (a b : List α) :
    write m p (a ++ b) = write (write m p a) (p + a.length) b := by
  funext x
  simp only [write]
  by_cases hp : p ≤ x
  · by_cases ha : p + a.length ≤ x
    · rw [if_pos hp, if_pos ha, List.getD_append_right _ _ _ _ (by omega), if_pos hp,
        List.getD_eq_default a _ (by omega), Nat.sub_sub]
    · rw [if_pos hp, if_neg ha, if_pos hp, List.getD_append _ _ _ _ (by omega),
        List.getD_eq_getElem _ _ (by omega)]
  · rw [if_neg hp, if_neg (by omega), if_neg hp]

theorem read_eq_append {m : Memory α} {p n k : ℕ} (h : k ≤ n) :
    read m p n = read m p k ++ read m (p + k) (n - k) := by
  rw [← read_add, Nat.add_sub_cancel' h]

theorem read_succ (m : Memory α) (p n : ℕ) : read m p (n + 1) = read m p n ++ [m (p + n)] := by
  simp [read, List.range_succ]

/-! ## A pass from front to back -/

/-- Cells computed one after the other, each from the source's at the same place. The source may be
the destination or lie behind it: no cell is written before it is read. -/
theorem foldl_write_eq (g : ℕ → α → α) (m : Memory α) {out inp : ℕ} : ∀ {n : ℕ},
    out ≤ inp ∨ inp + n ≤ out →
    (List.range n).foldl (fun m i => m.write (out + i) [g i (m (inp + i))]) m
      = m.write out ((m.read inp n).mapIdx g)
  | 0, _ => by simp [read]
  | n + 1, h => by
    have hunread : (m.write out ((m.read inp n).mapIdx g)) (inp + n) = m (inp + n) :=
      write_of_notMem (by rw [List.length_mapIdx, length_read]; omega)
    rw [List.range_succ, List.foldl_append, foldl_write_eq g m (by omega), List.foldl_cons,
      List.foldl_nil, hunread, read_succ, List.mapIdx_append, write_append]
    simp

/-! ## Several writes -/

/-- Runs of cells stored one after the other. -/
def writeAll (m : Memory α) (l : List (ℕ × List α)) : Memory α :=
  l.foldl (fun m e => m.write e.1 e.2) m

theorem writeAll_of_notMem : ∀ {l : List (ℕ × List α)} {m : Memory α} {a : ℕ},
    (∀ e ∈ l, ¬(e.1 ≤ a ∧ a < e.1 + e.2.length)) → writeAll m l a = m a
  | [], _, _, _ => rfl
  | e :: l, m, a, h => by
    rw [writeAll, List.foldl_cons, ← writeAll,
      writeAll_of_notMem fun e he => h e (List.mem_cons_of_mem _ he),
      write_of_notMem (h e List.mem_cons_self)]

theorem read_writeAll_of_apart : ∀ {l : List (ℕ × List α)} {m : Memory α} {p n : ℕ},
    (∀ e ∈ l, Apart p n e.1 e.2.length) → read (writeAll m l) p n = read m p n
  | [], _, _, _, _ => rfl
  | e :: l, m, p, n, h => by
    rw [writeAll, List.foldl_cons, ← writeAll,
      read_writeAll_of_apart fun e he => h e (List.mem_cons_of_mem _ he),
      read_write_of_apart (h e List.mem_cons_self)]

/-- Writes apart from each other all stay. -/
theorem read_writeAll : ∀ {l : List (ℕ × List α)} (m : Memory α),
    (l.Pairwise fun e e' => Apart e.1 e.2.length e'.1 e'.2.length) →
    ∀ e ∈ l, read (writeAll m l) e.1 e.2.length = e.2
  | e₀ :: l, m, h, e, he => by
    obtain ⟨hfirst, hrest⟩ := List.pairwise_cons.mp h
    rw [writeAll, List.foldl_cons, ← writeAll]
    rcases List.mem_cons.mp he with rfl | he
    · rw [read_writeAll_of_apart hfirst, read_write_self]
    · exact read_writeAll _ hrest e he

end Memory
