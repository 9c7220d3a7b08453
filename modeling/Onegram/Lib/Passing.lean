import Mathlib.Data.List.DropRight
import Mathlib.Data.List.Sigma
import Mathlib.Tactic

/-!
# The first entries that pass a test

The first `n` entries of a list that pass, each with its place. Two lists that agree up to some
place, where one of them ends, have the same first entries, each by its own test, exactly when what
passes in the shorter one is also found in the other, and nothing that passes in the longer one is
missed.
-/

namespace Passing

variable {α β : Type*}

def firstPassing (p : α → Bool) (n : ℕ) (l : List α) : List (α × ℕ) :=
  (l.zipIdx.filter fun e => p e.1).take n

theorem mem_take_filter_zipIdx {p : α → Bool} {x : α} : ∀ {l : List α} {n k i : ℕ},
    (x, i) ∈ ((l.zipIdx k).filter fun e => p e.1).take n ↔
      ∃ j, i = k + j ∧ l[j]? = some x ∧ p x = true ∧ (l.take j).countP p < n
  | [], n, k, i => by simp
  | y :: l, n, k, i => by
    rw [List.zipIdx_cons]
    by_cases hy : p y = true
    · rw [List.filter_cons_of_pos (by simpa using hy)]
      cases n with
      | zero => simp
      | succ n =>
        rw [List.take_succ_cons, List.mem_cons, mem_take_filter_zipIdx]
        constructor
        · rintro (heq | ⟨j, rfl, hj, hx, hlt⟩)
          · obtain ⟨rfl, rfl⟩ := Prod.mk.inj heq
            exact ⟨0, rfl, rfl, hy, Nat.succ_pos n⟩
          · refine ⟨j + 1, by omega, hj, hx, ?_⟩
            rw [List.take_succ_cons, List.countP_cons_of_pos hy]
            omega
        · rintro ⟨j, rfl, hj, hx, hlt⟩
          cases j with
          | zero =>
            left
            obtain rfl : y = x := by simpa using hj
            rfl
          | succ j =>
            right
            rw [List.take_succ_cons, List.countP_cons_of_pos hy] at hlt
            exact ⟨j, by omega, hj, hx, by omega⟩
    · rw [List.filter_cons_of_neg (by simpa using hy), mem_take_filter_zipIdx]
      constructor
      · rintro ⟨j, rfl, hj, hx, hlt⟩
        refine ⟨j + 1, by omega, hj, hx, ?_⟩
        rwa [List.take_succ_cons, List.countP_cons_of_neg hy]
      · rintro ⟨j, rfl, hj, hx, hlt⟩
        cases j with
        | zero =>
          obtain rfl : y = x := by simpa using hj
          exact absurd hx hy
        | succ j =>
          rw [List.take_succ_cons, List.countP_cons_of_neg hy] at hlt
          exact ⟨j, by omega, hj, hx, hlt⟩

theorem mem_firstPassing {p : α → Bool} {n : ℕ} {l : List α} {x : α} {i : ℕ} :
    (x, i) ∈ firstPassing p n l ↔
      l[i]? = some x ∧ p x = true ∧ (l.take i).countP p < n := by
  rw [firstPassing, mem_take_filter_zipIdx]
  simp

theorem length_filter_zipIdx (p : α → Bool) (l : List α) (k : ℕ) :
    ((l.zipIdx k).filter fun e => p e.1).length = l.countP p := by
  rw [← List.countP_eq_length_filter, ← List.zipIdx_map_fst k l, List.countP_map,
    List.zipIdx_map_fst]
  rfl

theorem length_firstPassing (p : α → Bool) (n : ℕ) (l : List α) :
    (firstPassing p n l).length = min n (l.countP p) := by
  rw [firstPassing, List.length_take, length_filter_zipIdx]

theorem filterMap_take_filter_zipIdx (f : α → Option β) : ∀ (n k : ℕ) (l : List α),
    (((l.zipIdx k).filter fun e => (f e.1).isSome).take n).filterMap (fun e => f e.1) =
      (l.filterMap f).take n
  | n, k, [] => by simp
  | n, k, x :: l => by
    rw [List.zipIdx_cons]
    cases hx : f x with
    | none =>
      rw [List.filter_cons_of_neg (by simp [hx]), List.filterMap_cons_none hx,
        filterMap_take_filter_zipIdx f n]
    | some y =>
      rw [List.filter_cons_of_pos (by simp [hx]), List.filterMap_cons_some hx]
      cases n with
      | zero => rfl
      | succ n =>
        rw [List.take_succ_cons, List.take_succ_cons,
          List.filterMap_cons_some (f := fun e : α × ℕ => f e.1) hx, filterMap_take_filter_zipIdx f n]

/-- What the first entries that pass become under the map that decides which pass. -/
theorem filterMap_firstPassing (f : α → Option β) (n : ℕ) (l : List α) :
    (firstPassing (fun x => (f x).isSome) n l).filterMap (fun e => f e.1) =
      (l.filterMap f).take n :=
  filterMap_take_filter_zipIdx f n 0 l

theorem take_filter_of_forall {q : α → Bool} : ∀ {l : List α} {n : ℕ},
    (∀ e ∈ l.take n, q e = true) → (l.filter q).take n = l.take n
  | _, 0, _ => by simp
  | [], n + 1, _ => by simp
  | e :: l, n + 1, h => by
    rw [List.take_succ_cons] at h ⊢
    rw [List.filter_cons_of_pos (h e List.mem_cons_self), List.take_succ_cons,
      take_filter_of_forall fun a ha => h a (List.mem_cons_of_mem e ha)]

section Agree

variable [DecidableEq α] {a v : α → Bool} {P S : List α} {c s : α}

/-- The entries that pass and stand at the same place of the other list. -/
def found (v : α → Bool) (whole part : List α) : List (α × ℕ) :=
  part.zipIdx.filter fun e => v e.1 && decide (whole[e.2]? = some e.1)

theorem found_prefix (v : α → Bool) (P S : List α) (c s : α) :
    found v (P ++ s :: S) (P ++ [c]) <+: (P ++ s :: S).zipIdx.filter fun e => v e.1 := by
  have hP : (P.zipIdx.filter fun e => v e.1 && decide ((P ++ s :: S)[e.2]? = some e.1)) =
      P.zipIdx.filter fun e => v e.1 := by
    refine List.filter_congr ?_
    rintro ⟨x, i⟩ he
    have hget := List.mk_mem_zipIdx_iff_getElem?.1 he
    have hi := (List.getElem?_eq_some_iff.1 hget).1
    simp [List.getElem?_append_left hi, hget]
  rw [found, List.zipIdx_append, List.zipIdx_append, List.filter_append, List.filter_append, hP]
  refine (List.prefix_append_right_inj _).2 ?_
  rw [List.zipIdx_cons, List.zipIdx_nil, List.zipIdx_cons]
  simp only [List.filter_cons, List.filter_nil]
  split_ifs with hc hs hs
  · obtain rfl : s = c := by simpa using (Bool.and_eq_true_iff.1 hc).2
    simp
  · obtain rfl : s = c := by simpa using (Bool.and_eq_true_iff.1 hc).2
    exact absurd (Bool.and_eq_true_iff.1 hc).1 hs
  · exact List.nil_prefix
  · exact List.nil_prefix

/-- The first entries that pass `a` in a list that has been cut are those that pass `v` in the whole
list. -/
theorem firstPassing_eq_iff (hva : ∀ x, v x = true → a x = true) (n : ℕ) :
    firstPassing a n (P ++ [c]) = firstPassing v n (P ++ s :: S) ↔
      (∀ (i : ℕ) (x : α), (P ++ [c])[i]? = some x → a x = true → ((P ++ [c]).take i).countP a < n →
        v x = true ∧ (P ++ s :: S)[i]? = some x) ∧
      (n ≤ (P ++ [c]).countP a ∨
        ∀ (i : ℕ) (x : α), (P ++ s :: S)[i]? = some x → v x = true → (P ++ [c])[i]? = some x) := by
  have hprefix := found_prefix v P S c s
  generalize P ++ s :: S = whole at *
  generalize P ++ [c] = part at *
  constructor
  · intro h
    refine ⟨fun i x hx ha hlt => ?_, ?_⟩
    · have hmem : (x, i) ∈ firstPassing v n whole := h ▸ mem_firstPassing.2 ⟨hx, ha, hlt⟩
      obtain ⟨hget, hv, -⟩ := mem_firstPassing.1 hmem
      exact ⟨hv, hget⟩
    · by_contra hcon
      obtain ⟨hfew, hmiss⟩ := not_or.1 hcon
      have hlen := congrArg List.length h
      rw [length_firstPassing, length_firstPassing] at hlen
      apply hmiss
      intro i x hx hv
      have hcount : (whole.take i).countP v ≤ whole.countP v :=
        (List.take_sublist i whole).countP_le
      have hmem : (x, i) ∈ firstPassing a n part :=
        h ▸ mem_firstPassing.2 ⟨hx, hv, by omega⟩
      exact (mem_firstPassing.1 hmem).1
  · rintro ⟨hfound, hnone⟩
    -- of the entries that pass `a`, the first are among those found in the whole list
    have hall : ∀ e ∈ firstPassing a n part,
        (v e.1 && decide (whole[e.2]? = some e.1)) = true := by
      rintro ⟨x, i⟩ he
      obtain ⟨hx, ha, hlt⟩ := mem_firstPassing.1 he
      obtain ⟨hv, hget⟩ := hfound i x hx ha hlt
      simp [hv, hget]
    have htake := take_filter_of_forall hall
    have hsame : ((part.zipIdx.filter fun e => a e.1).filter fun e =>
        v e.1 && decide (whole[e.2]? = some e.1)) = found v whole part := by
      rw [List.filter_filter]
      refine List.filter_congr fun e _ => ?_
      cases hv : v e.1 with
      | false => rfl
      | true => rw [hva _ hv, Bool.and_true]
    rw [hsame] at htake
    rw [firstPassing, ← htake]
    rcases le_or_gt n (found v whole part).length with hle | hgt
    · obtain ⟨rest, hrest⟩ := hprefix
      rw [firstPassing, ← hrest, List.take_append_of_le_length hle]
    · have hlen := congrArg List.length htake
      rw [List.length_take, List.length_take, length_filter_zipIdx, min_eq_right hgt.le] at hlen
      have hcomplete := hnone.resolve_left (by omega)
      have hsub : (whole.zipIdx.filter fun e => v e.1) ⊆ found v whole part := by
        rintro ⟨x, i⟩ he
        obtain ⟨hmem, hv⟩ := List.mem_filter.1 he
        have hget := List.mk_mem_zipIdx_iff_getElem?.1 hmem
        refine List.mem_filter.2 ⟨?_, ?_⟩
        · exact List.mk_mem_zipIdx_iff_getElem?.2 (hcomplete i x hget hv)
        · simp only [hget, decide_true, Bool.and_true]
          exact hv
      have hnodup : (whole.zipIdx.filter fun e => v e.1).Nodup :=
        (List.nodup_zipIdx_map_snd whole).of_map.filter _
      rw [firstPassing, hprefix.eq_of_length (le_antisymm hprefix.length_le
        (hnodup.subperm hsub).length_le)]

end Agree

/-- The parts of a text that has been cut: all but the last are parts of the whole text. -/
theorem splitOn_take [BEq α] [LawfulBEq α] (sep : α) : ∀ (text : List α) (n : ℕ),
    ∃ P c s S, (text.take n).splitOn sep = P ++ [c] ∧ text.splitOn sep = P ++ s :: S
  | text, 0 => by
    obtain ⟨s, S, hs⟩ := List.exists_cons_of_ne_nil (List.splitOn_ne_nil sep text)
    exact ⟨[], [], s, S, by simp, hs⟩
  | [], n + 1 => ⟨[], [], [], [], by simp, by simp⟩
  | x :: text, n + 1 => by
    obtain ⟨P, c, s, S, hcut, hwhole⟩ := splitOn_take sep text n
    rw [List.take_succ_cons]
    by_cases hx : (x == sep) = true
    · refine ⟨[] :: P, c, s, S, ?_, ?_⟩
      · rw [List.splitOn, List.splitOnP_cons_eq_if_modifyHead, if_pos hx, ← List.splitOn, hcut,
          List.cons_append]
      · rw [List.splitOn, List.splitOnP_cons_eq_if_modifyHead, if_pos hx, ← List.splitOn, hwhole,
          List.cons_append]
    · cases P with
      | nil =>
        refine ⟨[], x :: c, x :: s, S, ?_, ?_⟩
        · rw [List.splitOn, List.splitOnP_cons_eq_if_modifyHead, if_neg hx, ← List.splitOn, hcut]
          rfl
        · rw [List.splitOn, List.splitOnP_cons_eq_if_modifyHead, if_neg hx, ← List.splitOn, hwhole]
          rfl
      | cons p P =>
        refine ⟨(x :: p) :: P, c, s, S, ?_, ?_⟩
        · rw [List.splitOn, List.splitOnP_cons_eq_if_modifyHead, if_neg hx, ← List.splitOn, hcut]
          rfl
        · rw [List.splitOn, List.splitOnP_cons_eq_if_modifyHead, if_neg hx, ← List.splitOn, hwhole]
          rfl

end Passing
