import Mathlib.Data.List.InsertIdx
import Mathlib.Tactic

/-!
# Insertions as one batch

A batch lists what is inserted, each with the index it has in the result, by rising index. It is
carried out one insertion after the other. An insertion at any index of the result becomes part of
the batch by a shift of what stands at that index or behind it.
-/

namespace BatchInsert

variable {α : Type*}

/-- The list after the batch; `none` if an index lies behind the end. -/
def insertAll : List α → List (ℕ × α) → Option (List α)
  | l, [] => some l
  | l, (i, a) :: batch => if i ≤ l.length then insertAll (l.insertIdx i a) batch else none

/-- One place to the right. -/
def shift (entry : ℕ × α) : ℕ × α := (entry.1 + 1, entry.2)

/-- The batch with one more insertion, of `x` at `k`. -/
def record (k : ℕ) (x : α) : List (ℕ × α) → List (ℕ × α)
  | [] => [(k, x)]
  | entry :: batch =>
    if entry.1 < k then entry :: record k x batch else (k, x) :: shift entry :: batch.map shift

/-- A batch behind `k` is carried out one place further to the right once `x` is at `k`. -/
theorem insertAll_shift {k : ℕ} {x : α} : ∀ {batch : List (ℕ × α)} {l result : List α},
    k ≤ l.length → (∀ entry ∈ batch, k ≤ entry.1) → insertAll l batch = some result →
    insertAll (l.insertIdx k x) (batch.map shift) = some (result.insertIdx k x)
  | [], l, result, _, _, h => by
    obtain rfl := Option.some.inj h
    rfl
  | (i, a) :: batch, l, result, hk, hbatch, h => by
    have hki : k ≤ i := hbatch _ List.mem_cons_self
    rw [insertAll] at h
    split_ifs at h with hi
    have hlength := List.length_insertIdx_of_le_length hk x
    have hlength' := List.length_insertIdx_of_le_length hi a
    rw [List.map_cons, shift, insertAll, if_pos (by omega), List.insertIdx_comm x a hki hi]
    exact insertAll_shift (by omega) (fun entry he => hbatch entry (List.mem_cons_of_mem _ he)) h

/-- The batch with one more insertion gives the result with that insertion made. -/
theorem insertAll_record {k : ℕ} {x : α} : ∀ {batch : List (ℕ × α)} {l result : List α},
    batch.Pairwise (·.1 < ·.1) → insertAll l batch = some result → k ≤ result.length →
    insertAll l (record k x batch) = some (result.insertIdx k x)
  | [], l, result, _, h, hk => by
    obtain rfl := Option.some.inj h
    rw [record, insertAll, if_pos hk]
    rfl
  | (i, a) :: batch, l, result, hsorted, h, hk => by
    rw [List.pairwise_cons] at hsorted
    have hcons := h
    rw [insertAll] at h
    split_ifs at h with hi
    rw [record]
    split_ifs with hlt
    · rw [insertAll, if_pos hi]
      exact insertAll_record hsorted.2 h hk
    · have hki : k ≤ i := not_lt.mp hlt
      rw [insertAll, if_pos (hki.trans hi)]
      refine @insertAll_shift α k x ((i, a) :: batch) l result (hki.trans hi) ?_ hcons
      intro entry he
      rcases List.mem_cons.mp he with rfl | he
      · exact hki
      · exact hki.trans (hsorted.1 entry he).le

theorem mem_record {k : ℕ} {x : α} {entry : ℕ × α} : ∀ {batch : List (ℕ × α)},
    entry ∈ record k x batch → entry = (k, x) ∨ entry ∈ batch ∨ entry ∈ batch.map shift
  | [], h => .inl (List.mem_singleton.mp h)
  | first :: batch, h => by
    rw [record] at h
    split_ifs at h
    · rcases List.mem_cons.mp h with rfl | h
      · exact .inr (.inl List.mem_cons_self)
      · rcases mem_record h with heq | hmem | hmem
        · exact .inl heq
        · exact .inr (.inl (List.mem_cons_of_mem _ hmem))
        · exact .inr (.inr (List.mem_cons_of_mem _ hmem))
    · rcases List.mem_cons.mp h with heq | hmem
      · exact .inl heq
      · exact .inr (.inr hmem)

theorem record_sorted {k : ℕ} {x : α} : ∀ {batch : List (ℕ × α)},
    batch.Pairwise (·.1 < ·.1) → (record k x batch).Pairwise (·.1 < ·.1)
  | [], _ => List.pairwise_singleton _ _
  | first :: batch, h => by
    have hcons := h
    rw [List.pairwise_cons] at h
    rw [record]
    split_ifs with hlt
    · refine List.pairwise_cons.mpr ⟨fun entry he => ?_, record_sorted h.2⟩
      rcases mem_record he with rfl | hmem | hmem
      · exact hlt
      · exact h.1 entry hmem
      · obtain ⟨old, hold, rfl⟩ := List.mem_map.mp hmem
        exact (h.1 old hold).trans (Nat.lt_succ_self _)
    · have hshift : ((first :: batch).map shift).Pairwise (·.1 < ·.1) :=
        List.pairwise_map.mpr (hcons.imp fun hlt => Nat.succ_lt_succ hlt)
      refine List.pairwise_cons.mpr ⟨fun entry he => ?_, hshift⟩
      rw [← List.map_cons] at he
      obtain ⟨old, hold, rfl⟩ := List.mem_map.mp he
      show k < old.1 + 1
      rcases List.mem_cons.mp hold with rfl | hold
      · omega
      · have := h.1 old hold
        omega

end BatchInsert
