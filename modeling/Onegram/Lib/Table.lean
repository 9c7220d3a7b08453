import Mathlib.Data.List.Basic
import Mathlib.Tactic

/-!
# Tables with an increasing row id

A table of a database whose rows carry an `INTEGER PRIMARY KEY AUTOINCREMENT`: rows are kept in
the order of their ids, an id that was given out is never given out again, and a deletion leaves
the other rows and the counter alone.
-/

structure Table (α : Type*) where
  rows : List (ℕ × α)
  /-- The largest id given out so far. -/
  seq : ℕ
  increasing : rows.Pairwise (·.1 < ·.1)
  bounded : ∀ r ∈ rows, r.1 ≤ seq

namespace Table

variable {α : Type*}

def empty : Table α := ⟨[], 0, .nil, by simp⟩

def insert (t : Table α) (a : α) : Table α where
  rows := t.rows ++ [(t.seq + 1, a)]
  seq := t.seq + 1
  increasing := by
    rw [List.pairwise_append]
    refine ⟨t.increasing, List.pairwise_singleton _ _, ?_⟩
    intro r hr q hq
    rw [List.mem_singleton] at hq
    subst hq
    exact Nat.lt_succ_of_le (t.bounded r hr)
  bounded := by
    intro r hr
    rcases List.mem_append.mp hr with hr | hr
    · exact Nat.le_succ_of_le (t.bounded r hr)
    · rw [List.mem_singleton] at hr
      exact hr ▸ le_rfl

def insertAll (t : Table α) (as : List α) : Table α := as.foldl insert t

/-- Ids given out to rows that are not of interest here. -/
def skip (t : Table α) (n : ℕ) : Table α where
  rows := t.rows
  seq := t.seq + n
  increasing := t.increasing
  bounded := fun r hr => Nat.le_add_right_of_le (t.bounded r hr)

/-- `DELETE … WHERE NOT keep`. -/
def filter (t : Table α) (keep : ℕ × α → Bool) : Table α where
  rows := t.rows.filter keep
  seq := t.seq
  increasing := t.increasing.filter keep
  bounded := fun r hr => t.bounded r (List.mem_of_mem_filter hr)

/-- `DELETE … WHERE action_id IN ids`. -/
def deleteIds (t : Table α) (ids : List ℕ) : Table α := t.filter fun r => r.1 ∉ ids

@[simp] theorem rows_empty : (empty : Table α).rows = [] := rfl

@[simp] theorem rows_skip (t : Table α) (n : ℕ) : (t.skip n).rows = t.rows := rfl

@[simp] theorem rows_insert (t : Table α) (a : α) :
    (t.insert a).rows = t.rows ++ [(t.seq + 1, a)] := rfl

theorem mem_filter {t : Table α} {keep : ℕ × α → Bool} {r : ℕ × α} :
    r ∈ (t.filter keep).rows ↔ r ∈ t.rows ∧ keep r := List.mem_filter

theorem mem_deleteIds {t : Table α} {ids : List ℕ} {r : ℕ × α} :
    r ∈ (t.deleteIds ids).rows ↔ r ∈ t.rows ∧ r.1 ∉ ids := by
  simp [deleteIds, mem_filter]

theorem eq_of_id {t : Table α} {r q : ℕ × α} (hr : r ∈ t.rows) (hq : q ∈ t.rows)
    (h : r.1 = q.1) : r = q := by
  have hnodup : (t.rows.map Prod.fst).Nodup := by
    rw [List.nodup_iff_pairwise_ne, List.pairwise_map]
    exact t.increasing.imp fun hlt => Nat.ne_of_lt hlt
  exact List.inj_on_of_nodup_map hnodup hr hq h

/-- What an insertion of several rows leaves: the old rows, and new ones with new ids. -/
theorem insertAll_rows : ∀ (as : List α) (t : Table α), ∃ new : List (ℕ × α),
    (t.insertAll as).rows = t.rows ++ new ∧ new.map Prod.snd = as
      ∧ (∀ r ∈ new, t.seq < r.1) ∧ t.seq ≤ (t.insertAll as).seq
  | [], t => ⟨[], by simp [insertAll]⟩
  | a :: as, t => by
    obtain ⟨new, hrows, hmap, hlt, hle⟩ := insertAll_rows as (t.insert a)
    have hle' : t.seq + 1 ≤ ((t.insert a).insertAll as).seq := hle
    refine ⟨(t.seq + 1, a) :: new, ?_, by simp [hmap], ?_, ?_⟩
    · change ((t.insert a).insertAll as).rows = _
      rw [hrows, rows_insert, List.append_assoc]
      rfl
    · intro r hr
      rcases List.mem_cons.mp hr with rfl | hr
      · exact Nat.lt_succ_self _
      · exact Nat.lt_of_succ_lt (hlt r hr)
    · change t.seq ≤ ((t.insert a).insertAll as).seq
      omega

theorem insertAll_seq : ∀ (as : List α) (t : Table α),
    (t.insertAll as).seq = t.seq + as.length
  | [], t => rfl
  | a :: as, t => by
    change ((t.insert a).insertAll as).seq = _
    rw [insertAll_seq as (t.insert a), List.length_cons]
    change t.seq + 1 + as.length = _
    omega

/-! ## Deletions under way

A deletion is decided on before it runs. What matters of the rows stored so far is that each is done
with or still there and not among those to go.
-/

structure Keeps (t : Table α) (pending : List ℕ) (stored : List α) (Done : α → Prop) : Prop where
  stored_of_mem : ∀ r ∈ t.rows, r.2 ∈ stored
  kept : ∀ x ∈ stored, Done x ∨ ∃ id, (id, x) ∈ t.rows ∧ id ∉ pending
  pending_le : ∀ id ∈ pending, id ≤ t.seq

namespace Keeps

variable {t : Table α} {pending ids : List ℕ} {stored : List α} {Done Done' : α → Prop}

theorem insertAll (h : t.Keeps pending stored Done) (as : List α) :
    (t.insertAll as).Keeps pending (stored ++ as) Done := by
  obtain ⟨new, hrows, hmap, hnew, hle⟩ := insertAll_rows as t
  refine ⟨fun r hr => ?_, fun x hx => ?_, fun id hid => (h.pending_le id hid).trans hle⟩
  · rw [hrows] at hr
    rcases List.mem_append.mp hr with hr | hr
    · exact List.mem_append_left _ (h.stored_of_mem r hr)
    · exact List.mem_append_right _ (hmap ▸ List.mem_map_of_mem hr)
  · rcases List.mem_append.mp hx with hx | hx
    · refine (h.kept x hx).imp_right fun ⟨id, hid, hpending⟩ => ⟨id, ?_, hpending⟩
      exact hrows ▸ List.mem_append_left _ hid
    · rw [← hmap] at hx
      obtain ⟨r, hr, rfl⟩ := List.mem_map.mp hx
      refine Or.inr ⟨r.1, hrows ▸ List.mem_append_right _ hr, fun hid => ?_⟩
      have hlt := hnew r hr
      have hle := h.pending_le r.1 hid
      omega

theorem deleteIds (h : t.Keeps (ids ++ pending) stored Done) :
    (t.deleteIds ids).Keeps pending stored Done := by
  refine ⟨fun r hr => h.stored_of_mem r (mem_deleteIds.mp hr).1, fun x hx => ?_,
    fun id hid => h.pending_le id (List.mem_append_right _ hid)⟩
  refine (h.kept x hx).imp_right fun ⟨id, hid, hpending⟩ => ?_
  rw [List.mem_append, not_or] at hpending
  exact ⟨id, mem_deleteIds.mpr ⟨hid, hpending.1⟩, hpending.2⟩

/-- Deletions of rows that are done with may be added. -/
theorem decide (h : t.Keeps pending stored Done) (hmono : ∀ x, Done x → Done' x)
    (hids : ∀ id ∈ ids, ∃ x, (id, x) ∈ t.rows ∧ Done' x) :
    t.Keeps (pending ++ ids) stored Done' := by
  refine ⟨h.stored_of_mem, fun x hx => ?_, fun id hid => ?_⟩
  · rcases h.kept x hx with hdone | ⟨id, hid, hpending⟩
    · exact Or.inl (hmono x hdone)
    · by_cases hgo : id ∈ ids
      · obtain ⟨y, hy, hdone⟩ := hids id hgo
        cases eq_of_id hid hy rfl
        exact Or.inl hdone
      · exact Or.inr ⟨id, hid, by simp [hpending, hgo]⟩
  · rcases List.mem_append.mp hid with hid | hid
    · exact h.pending_le id hid
    · obtain ⟨y, hy, -⟩ := hids id hid
      exact t.bounded _ hy

end Keeps

end Table
