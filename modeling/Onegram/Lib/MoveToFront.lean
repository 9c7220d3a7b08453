import Mathlib.Data.List.Basic
import Mathlib.Tactic

/-!
# Lists edited by key

A list without repetitions whose elements are moved to the front or removed, one after the other.
The last edit of an element decides: those moved to the front stand first, the latest before the
others, and what no edit is about follows as it was.
-/

namespace MoveToFront

inductive Edit (α : Type*)
  | front (a : α)
  | remove (a : α)

def Edit.key {α : Type*} : Edit α → α
  | .front a => a
  | .remove a => a

variable {α : Type*} [DecidableEq α] {l : List α} {a b : α} {e : Edit α} {es : List (Edit α)}

def Edit.apply (l : List α) : Edit α → List α
  | .front a => a :: l.filter (· ≠ a)
  | .remove a => l.filter (· ≠ a)

def applyAll (l : List α) (es : List (Edit α)) : List α := es.foldl Edit.apply l

@[simp] theorem applyAll_nil : applyAll l [] = l := rfl

@[simp] theorem applyAll_snoc : applyAll l (es ++ [e]) = e.apply (applyAll l es) :=
  List.foldl_concat ..

theorem mem_apply : b ∈ e.apply l ↔ (b = e.key ∧ e = .front b) ∨ (b ∈ l ∧ b ≠ e.key) := by
  rcases e with a | a
  · simp only [Edit.apply, Edit.key, List.mem_cons, List.mem_filter, decide_eq_true_eq,
      Edit.front.injEq]
    tauto
  · simp [Edit.apply, Edit.key]

theorem nodup_apply (h : l.Nodup) (e : Edit α) : (e.apply l).Nodup := by
  rcases e with a | a
  · exact List.nodup_cons.mpr ⟨by simp, h.filter _⟩
  · exact h.filter _

theorem nodup_applyAll (h : l.Nodup) (es : List (Edit α)) : (applyAll l es).Nodup := by
  induction es using List.reverseRecOn with
  | nil => exact h
  | append_singleton es e ih => exact applyAll_snoc (e := e) ▸ nodup_apply ih e

/-- What is there in the end without being there before was moved to the front. -/
theorem key_of_mem_applyAll_nil (h : a ∈ applyAll [] es) : a ∈ es.map Edit.key := by
  induction es using List.reverseRecOn with
  | nil => exact h
  | append_singleton es e ih =>
    rw [applyAll_snoc, mem_apply] at h
    rw [List.map_append, List.mem_append]
    rcases h with ⟨rfl, -⟩ | ⟨h, -⟩
    · exact .inr List.mem_cons_self
    · exact .inl (ih h)

/-- What no edit is about keeps its order, behind what the edits leave. -/
theorem applyAll_eq (l : List α) (es : List (Edit α)) :
    applyAll l es = applyAll [] es ++ l.filter (· ∉ es.map Edit.key) := by
  induction es using List.reverseRecOn with
  | nil => simp
  | append_singleton es e ih =>
    have hfilter : (l.filter (· ∉ es.map Edit.key)).filter (· ≠ e.key) =
        l.filter (· ∉ (es ++ [e]).map Edit.key) := by
      rw [List.filter_filter]
      refine List.filter_congr fun b _ => ?_
      simp [and_comm]
    rw [applyAll_snoc, applyAll_snoc, ih, ← hfilter]
    rcases e with a | a
    · rw [Edit.apply, Edit.apply, List.filter_append, List.cons_append]
      rfl
    · exact List.filter_append ..

/-- The edits leave a list as it is just where they make a beginning of it and are about no other
element of it. -/
theorem applyAll_eq_self_iff (h : l.Nodup) (es : List (Edit α)) :
    applyAll l es = l ↔
      applyAll [] es <+: l ∧ ∀ a ∈ l, a ∈ es.map Edit.key → a ∈ applyAll [] es := by
  rw [applyAll_eq l es]
  constructor
  · intro heq
    refine ⟨⟨_, heq⟩, fun a ha hkey => ?_⟩
    rw [← heq, List.mem_append] at ha
    refine ha.resolve_right fun hrest => ?_
    exact of_decide_eq_true (List.mem_filter.mp hrest).2 hkey
  · rintro ⟨⟨rest, rfl⟩, hall⟩
    have hfront : (applyAll [] es).filter (· ∉ es.map Edit.key) = [] :=
      List.filter_eq_nil_iff.mpr fun a ha => by simpa using key_of_mem_applyAll_nil ha
    have hrest : rest.filter (· ∉ es.map Edit.key) = rest := by
      refine List.filter_eq_self.mpr fun a ha => decide_eq_true fun hkey => ?_
      have hmem := hall a (List.mem_append_right _ ha) hkey
      exact List.disjoint_of_nodup_append h hmem ha
    rw [List.filter_append, hfront, hrest, List.nil_append]

end MoveToFront
