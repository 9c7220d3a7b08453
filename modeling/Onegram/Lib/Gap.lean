import Mathlib.Data.List.Basic
import Mathlib.Tactic

/-!
# The first gap

Numbers arrive in any order; those from `next` on without a gap are in turn. The first number that
is missing is where the turn ends, and a scan of the numbers in increasing order finds it.
-/

namespace Gap

/-- `m` is the first number from `next` on that is not in the list. -/
structure Frontier (next : Int) (l : List Int) (m : Int) : Prop where
  le : next ≤ m
  below : ∀ j, next ≤ j → j < m → j ∈ l
  notMem : m ∉ l

theorem Frontier.unique {next m m' : Int} {l : List Int} (h : Frontier next l m)
    (h' : Frontier next l m') : m = m' := by
  rcases lt_trichotomy m m' with hlt | heq | hlt
  · exact absurd (h'.below m h.le hlt) h.notMem
  · exact heq
  · exact absurd (h.below m' h'.le hlt) h'.notMem

/-- The scan: a number that is next moves the turn on. -/
def advance (m : Int) (l : List Int) : Int := l.foldl (fun m x => if x = m then m + 1 else m) m

@[simp] theorem advance_nil (m : Int) : advance m [] = m := rfl

theorem advance_cons (m x : Int) (l : List Int) :
    advance m (x :: l) = advance (if x = m then m + 1 else m) l := rfl

theorem le_advance : ∀ (l : List Int) (m : Int), m ≤ advance m l
  | [], m => le_rfl
  | x :: l, m => by
    have ih := le_advance l (if x = m then m + 1 else m)
    rw [advance_cons]
    split_ifs at ih ⊢ <;> omega

/-- Past a gap nothing is in turn any more. -/
theorem advance_of_lt : ∀ (l : List Int) {m : Int}, (∀ x ∈ l, m < x) → advance m l = m
  | [], _, _ => rfl
  | x :: l, m, h => by
    have hx : m < x := h x List.mem_cons_self
    rw [advance_cons, if_neg (by omega)]
    exact advance_of_lt l fun y hy => h y (List.mem_cons_of_mem _ hy)

theorem advance_frontier : ∀ (l : List Int) (m : Int), l.Pairwise (· ≤ ·) →
    Frontier m l (advance m l)
  | [], m, _ => ⟨le_rfl, fun j h₁ h₂ => absurd h₂ (not_lt_of_ge h₁), by simp⟩
  | x :: l, m, h => by
    obtain ⟨hx, hl⟩ := List.pairwise_cons.mp h
    rw [advance_cons]
    split_ifs with hxm
    · obtain ⟨hle, hbelow, hnot⟩ := advance_frontier l (m + 1) hl
      refine ⟨by omega, fun j hj hlt => ?_, ?_⟩
      · rcases eq_or_lt_of_le hj with rfl | hj
        · exact hxm ▸ List.mem_cons_self
        · exact List.mem_cons_of_mem _ (hbelow j hj hlt)
      · rw [List.mem_cons, not_or]
        exact ⟨by omega, hnot⟩
    · rcases lt_or_gt_of_ne hxm with hlt | hgt
      · obtain ⟨hle, hbelow, hnot⟩ := advance_frontier l m hl
        refine ⟨hle, fun j hj hj' => List.mem_cons_of_mem _ (hbelow j hj hj'), ?_⟩
        rw [List.mem_cons, not_or]
        exact ⟨by omega, hnot⟩
      · rw [advance_of_lt l fun y hy => lt_of_lt_of_le hgt (hx y hy)]
        refine ⟨le_rfl, fun j h₁ h₂ => absurd h₂ (by omega), ?_⟩
        rw [List.mem_cons, not_or]
        exact ⟨by omega, fun hm => absurd (hx m hm) (by omega)⟩

end Gap
