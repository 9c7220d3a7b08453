import Mathlib.Data.List.Sort
import Mathlib.Data.List.Pairwise
import Mathlib.Tactic

/-!
# The members of a family of intervals that cross a given one

Intervals are stored under their upper end. Those that cross `[a, b]` are looked up with two range
queries: the ones whose upper end lies in `[a, b]`, and, of the ones that end above `b`, the one
that ends first, when a test says that it crosses.
-/

namespace Crossing

variable {α ι : Type*} [LinearOrder ι] (hi : α → ι)

/-- `SELECT … WHERE hi > b ORDER BY hi ASC LIMIT 1`. -/
def firstAbove (b : ι) (rows : List α) : Option α :=
  ((rows.filter fun r => b < hi r).insertionSort (hi · ≤ hi ·)).head?

def crossing (a b : ι) (test : α → Bool) (rows : List α) : List α :=
  ((rows.filter fun r => a ≤ hi r ∧ hi r ≤ b)
    ++ ((firstAbove hi b rows).filter test).toList).insertionSort (hi · ≤ hi ·)

variable {hi} {a b : ι} {test : α → Bool} {rows : List α} {r : α}

instance le_total_hi : Std.Total (hi · ≤ hi · : α → α → Prop) := ⟨fun x y => le_total (hi x) (hi y)⟩

instance le_trans_hi : IsTrans α (hi · ≤ hi · : α → α → Prop) := ⟨fun _ _ _ => le_trans⟩

theorem firstAbove_spec (h : firstAbove hi b rows = some r) :
    r ∈ rows ∧ b < hi r ∧ ∀ r' ∈ rows, b < hi r' → hi r ≤ hi r' := by
  have hsorted := List.pairwise_insertionSort (hi · ≤ hi ·) (rows.filter fun r => b < hi r)
  unfold firstAbove at h
  rw [List.head?_eq_some_iff] at h
  obtain ⟨l, hl⟩ := h
  rw [hl, List.pairwise_cons] at hsorted
  have hmem : ∀ x, x ∈ r :: l ↔ x ∈ rows ∧ b < hi x := fun x => by
    rw [← hl, List.mem_insertionSort, List.mem_filter, decide_eq_true_iff]
  obtain ⟨hr, hb⟩ := (hmem r).1 List.mem_cons_self
  refine ⟨hr, hb, fun r' hr' hb' => ?_⟩
  rcases List.mem_cons.1 ((hmem r').2 ⟨hr', hb'⟩) with rfl | hl'
  · exact le_rfl
  · exact hsorted.1 r' hl'

theorem firstAbove_isSome (hr : r ∈ rows) (hb : b < hi r) : ∃ n, firstAbove hi b rows = some n := by
  unfold firstAbove
  rw [← Option.isSome_iff_exists, List.isSome_head?, ← List.length_pos_iff,
    List.length_insertionSort]
  exact List.length_pos_of_mem (List.mem_filter.2 ⟨hr, by simpa using hb⟩)

theorem mem_crossing : r ∈ crossing hi a b test rows ↔
    (r ∈ rows ∧ a ≤ hi r ∧ hi r ≤ b) ∨ (firstAbove hi b rows = some r ∧ test r) := by
  unfold crossing
  rw [List.mem_insertionSort, List.mem_append, List.mem_filter, decide_eq_true_iff,
    Option.mem_toList, Option.filter_eq_some_iff]

theorem mem_of_mem_crossing (h : r ∈ crossing hi a b test rows) : r ∈ rows := by
  rcases mem_crossing.1 h with ⟨hr, -⟩ | ⟨hr, -⟩
  · exact hr
  · exact (firstAbove_spec hr).1

theorem nodup_crossing (h : rows.Nodup) : (crossing hi a b test rows).Nodup := by
  unfold crossing
  rw [(List.perm_insertionSort _ _).nodup_iff, List.nodup_append]
  refine ⟨h.filter _, ?_, fun x hx y hy => ?_⟩
  · cases (firstAbove hi b rows).filter test <;> simp
  · rw [List.mem_filter, decide_eq_true_iff] at hx
    rw [Option.mem_toList, Option.filter_eq_some_iff] at hy
    rintro rfl
    exact absurd (firstAbove_spec hy.1).2.1 (not_lt.2 hx.2.2)

theorem firstAbove_eq (hr : r ∈ rows) (hb : b < hi r)
    (hmin : ∀ r' ∈ rows, b < hi r' → hi r ≤ hi r') (halone : ∀ r' ∈ rows, hi r' = hi r → r' = r) :
    firstAbove hi b rows = some r := by
  obtain ⟨n, hn⟩ := firstAbove_isSome hr hb
  obtain ⟨hnr, hbn, hminn⟩ := firstAbove_spec hn
  rw [hn, halone n hnr (le_antisymm (hminn r hr hb) (hmin n hnr hbn))]

/-- When the members are apart from each other, no other than the first above can reach down
to `b`. -/
theorem firstAbove_of_le {lo : α → ι} (hlo : ∀ r ∈ rows, lo r ≤ hi r)
    (hapart : ∀ x ∈ rows, ∀ y ∈ rows, x ≠ y → hi x < lo y ∨ hi y < lo x)
    (hr : r ∈ rows) (hb : b < hi r) (hle : lo r ≤ b) : firstAbove hi b rows = some r := by
  obtain ⟨n, hn⟩ := firstAbove_isSome hr hb
  obtain ⟨hnr, hbn, hmin⟩ := firstAbove_spec hn
  rcases eq_or_ne n r with rfl | hne
  · exact hn
  · rcases hapart n hnr r hr hne with h | h
    · exact absurd (hbn.trans h) (not_lt.2 hle)
    · exact absurd ((h.trans_le (hlo n hnr)).trans_le (hmin r hr hb)) (lt_irrefl _)

end Crossing
