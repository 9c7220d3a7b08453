import Mathlib.Data.List.Basic
import Mathlib.Tactic

/-!
# Tables with a primary key

A table of a database with an `INTEGER PRIMARY KEY`: one row for a key, and a query without an order
gives the rows by rising key.
-/

structure KeyedTable (α : Type*) where
  rows : List (ℤ × α)
  increasing : rows.Pairwise (·.1 < ·.1)

namespace KeyedTable

variable {α : Type*} {t : KeyedTable α} {key : ℤ} {a b : α} {r q : ℤ × α}

def empty : KeyedTable α := ⟨[], .nil⟩

/-- `INSERT OR REPLACE`. -/
def insertOrReplace (t : KeyedTable α) (key : ℤ) (a : α) : KeyedTable α where
  rows := t.rows.filter (·.1 < key) ++ (key, a) :: t.rows.filter (·.1 > key)
  increasing := by
    refine List.pairwise_append.mpr ⟨t.increasing.filter _, ?_, ?_⟩
    · refine List.pairwise_cons.mpr ⟨fun q hq => ?_, t.increasing.filter _⟩
      exact of_decide_eq_true (List.mem_filter.mp hq).2
    · intro r hr q hq
      have hlt : r.1 < key := of_decide_eq_true (List.mem_filter.mp hr).2
      rcases List.mem_cons.mp hq with rfl | hq
      · exact hlt
      · exact hlt.trans (of_decide_eq_true (List.mem_filter.mp hq).2)

/-- `DELETE … WHERE NOT keep`. -/
def filter (t : KeyedTable α) (keep : ℤ × α → Bool) : KeyedTable α :=
  ⟨t.rows.filter keep, t.increasing.filter keep⟩

/-- `DELETE … WHERE key=?`. -/
def delete (t : KeyedTable α) (key : ℤ) : KeyedTable α := t.filter (·.1 ≠ key)

/-- `SELECT … WHERE key=?`. -/
def lookup (t : KeyedTable α) (key : ℤ) : Option α := (t.rows.find? (·.1 = key)).map (·.2)

@[simp] theorem rows_empty : (empty : KeyedTable α).rows = [] := rfl

@[simp] theorem mem_insertOrReplace :
    r ∈ (t.insertOrReplace key a).rows ↔ r = (key, a) ∨ (r ∈ t.rows ∧ r.1 ≠ key) := by
  simp only [insertOrReplace, List.mem_append, List.mem_cons, List.mem_filter, decide_eq_true_eq,
    gt_iff_lt, ne_iff_lt_or_gt]
  tauto

@[simp] theorem mem_filter {keep : ℤ × α → Bool} :
    r ∈ (t.filter keep).rows ↔ r ∈ t.rows ∧ keep r = true := List.mem_filter

@[simp] theorem mem_delete : r ∈ (t.delete key).rows ↔ r ∈ t.rows ∧ r.1 ≠ key := by
  rw [delete, mem_filter, decide_eq_true_eq]

theorem nodup_keys (t : KeyedTable α) : (t.rows.map Prod.fst).Nodup := by
  rw [List.nodup_iff_pairwise_ne, List.pairwise_map]
  exact t.increasing.imp fun hlt => hlt.ne

theorem eq_of_key (hr : r ∈ t.rows) (hq : q ∈ t.rows) (h : r.1 = q.1) : r = q :=
  List.inj_on_of_nodup_map t.nodup_keys hr hq h

theorem lookup_eq_some : t.lookup key = some a ↔ (key, a) ∈ t.rows := by
  unfold lookup
  constructor
  · intro h
    obtain ⟨r, hr, rfl⟩ := Option.map_eq_some_iff.mp h
    have hkey : r.1 = key := by simpa using List.find?_some hr
    exact hkey ▸ List.mem_of_find?_eq_some hr
  · intro h
    have hsome : (t.rows.find? (·.1 = key)).isSome :=
      List.find?_isSome.mpr ⟨(key, a), h, decide_eq_true rfl⟩
    obtain ⟨r, hr⟩ := Option.isSome_iff_exists.mp hsome
    have hkey : r.1 = key := by simpa using List.find?_some hr
    rw [hr, eq_of_key (List.mem_of_find?_eq_some hr) h hkey]
    rfl

theorem lookup_insertOrReplace (k : ℤ) :
    (t.insertOrReplace key a).lookup k = if k = key then some a else t.lookup k := by
  ext b
  rw [lookup_eq_some, mem_insertOrReplace]
  split_ifs with h
  · subst h
    simp [eq_comm]
  · rw [lookup_eq_some]
    simp [h]

theorem lookup_delete (k : ℤ) : (t.delete key).lookup k = if k = key then none else t.lookup k := by
  ext b
  rw [lookup_eq_some, mem_delete]
  split_ifs with h
  · simp [h]
  · rw [lookup_eq_some]
    simp [h]

end KeyedTable
