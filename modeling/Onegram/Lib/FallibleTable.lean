import Mathlib.Logic.Function.Basic
import Mathlib.Tactic

/-!
# Tables that refuse

A table of keys where an insertion leaves what is there, and where either operation may fail and
change nothing. Taking back what was put in gives the table that was there before exactly where the
removals succeed on the keys that were free.
-/

namespace FallibleTable

variable {κ ν : Type*} [DecidableEq κ]

def insert (fails : Bool) (key : κ) (value : ν) (t : κ → Option ν) : κ → Option ν :=
  if fails = true ∨ (t key).isSome then t else Function.update t key (some value)

def erase (fails : Bool) (key : κ) (t : κ → Option ν) : κ → Option ν :=
  if fails then t else Function.update t key none

variable {fails fails' : Bool} {key key' : κ} {value : ν} {t : κ → Option ν}

theorem insert_of_ne (h : key' ≠ key) : insert fails key value t key' = t key' := by
  unfold insert
  split_ifs
  · rfl
  · exact Function.update_of_ne h _ _

theorem erase_of_ne (h : key' ≠ key) : erase fails key t key' = t key' := by
  unfold erase
  split_ifs
  · rfl
  · exact Function.update_of_ne h _ _

theorem insert_failed : insert true key value t = t := if_pos (.inl rfl)

theorem erase_failed : erase true key t = t := if_pos rfl

theorem insert_congr {t' : κ → Option ν} (h : t key' = t' key') :
    insert fails key value t key' = insert fails key value t' key' := by
  by_cases hkey : key' = key
  · subst hkey
    unfold insert
    rw [h]
    split_ifs
    · exact h
    · rw [Function.update_self, Function.update_self]
  · rw [insert_of_ne hkey, insert_of_ne hkey, h]

theorem erase_congr {t' : κ → Option ν} (h : t key' = t' key') :
    erase fails key t key' = erase fails key t' key' := by
  unfold erase
  split_ifs
  · exact h
  · by_cases hkey : key' = key
    · rw [hkey, Function.update_self, Function.update_self]
    · rw [Function.update_of_ne hkey, Function.update_of_ne hkey, h]

theorem erase_self : erase false key t key = none := by
  unfold erase
  rw [if_neg (by simp), Function.update_self]

theorem erase_of_none (h : t key = none) : erase fails key t = t := by
  unfold erase
  split_ifs
  · rfl
  · exact Function.update_eq_self_iff.mpr h.symm

theorem insert_self : insert fails key value t key
    = if (t key).isSome ∨ fails = true then t key else some value := by
  unfold insert
  by_cases h : (t key).isSome ∨ fails = true
  · rw [if_pos h, if_pos h.symm]
  · rw [if_neg h, if_neg fun h' => h h'.symm, Function.update_self]

theorem insert_isSome : (insert false key value t key).isSome := by
  unfold insert
  by_cases h : (t key).isSome
  · rw [if_pos (.inr h)]
    exact h
  · rw [if_neg (by simpa using h), Function.update_self]
    rfl

theorem insert_of_isSome (h : (t key).isSome) : insert fails key value t = t := if_pos (.inr h)

theorem insert_self_of_none (h : t key = none) : insert false key value t key = some value := by
  unfold insert
  rw [if_neg (by simp [h]), Function.update_self]

/-- What is put in under one key and taken back. -/
theorem erase_insert_self_iff : erase fails key (insert false key value t) key = t key
    ↔ (t key = none ↔ fails = false) := by
  cases fails with
  | false => simp [erase_self, eq_comm]
  | true =>
    rw [erase_failed]
    rcases h : t key with _ | v
    · simp [insert_self_of_none h]
    · have hsome : (t key).isSome := by rw [h]; rfl
      simp [insert_of_isSome hsome, h]

/-! ## Lists -/

/-- All the keys, one after the other. -/
def insertAll (entries : List (κ × ν)) (t : κ → Option ν) : κ → Option ν :=
  entries.foldl (fun t e => insert false e.1 e.2 t) t

def eraseAll (entries : List (κ × Bool)) (t : κ → Option ν) : κ → Option ν :=
  entries.foldl (fun t e => erase e.2 e.1 t) t

theorem insertAll_congr : ∀ (entries : List (κ × ν)) {t t' : κ → Option ν}, t key = t' key →
    insertAll entries t key = insertAll entries t' key
  | [], _, _, h => h
  | _ :: entries, _, _, h => insertAll_congr entries (insert_congr h)

theorem eraseAll_congr : ∀ (entries : List (κ × Bool)) {t t' : κ → Option ν}, t key = t' key →
    eraseAll entries t key = eraseAll entries t' key
  | [], _, _, h => h
  | _ :: entries, _, _, h => eraseAll_congr entries (erase_congr h)

theorem insertAll_of_notMem : ∀ (entries : List (κ × ν)) {t : κ → Option ν},
    key ∉ entries.map Prod.fst → insertAll entries t key = t key
  | [], _, _ => rfl
  | e :: entries, t, h => by
    rw [List.map_cons, List.mem_cons, not_or] at h
    exact (insertAll_of_notMem entries h.2).trans (insert_of_ne h.1)

theorem insertAll_of_isSome : ∀ (entries : List (κ × ν)) {t : κ → Option ν}, (t key).isSome →
    insertAll entries t key = t key
  | [], _, _ => rfl
  | e :: entries, t, h => by
    have hsame : insert false e.1 e.2 t key = t key := by
      by_cases he : key = e.1
      · rw [insert_of_isSome (he ▸ h)]
      · exact insert_of_ne he
    have hrest := insertAll_of_isSome entries (t := insert false e.1 e.2 t) (by rw [hsame]; exact h)
    exact hrest.trans hsame

theorem insertAll_isSome : ∀ (entries : List (κ × ν)) {t : κ → Option ν},
    key ∈ entries.map Prod.fst → (insertAll entries t key).isSome
  | e :: entries, t, h => by
    change (insertAll entries (insert false e.1 e.2 t) key).isSome
    rcases List.mem_cons.mp h with rfl | h
    · rw [insertAll_of_isSome entries insert_isSome]
      exact insert_isSome
    · exact insertAll_isSome entries h

theorem eraseAll_of_none : ∀ (entries : List (κ × Bool)) {t : κ → Option ν}, t key = none →
    eraseAll entries t key = none
  | [], _, h => h
  | e :: entries, t, h => by
    refine eraseAll_of_none entries ?_
    by_cases he : key = e.1
    · subst he
      exact (congrFun (erase_of_none h) _).trans h
    · exact (erase_of_ne he).trans h

theorem eraseAll_of_notMem : ∀ (entries : List (κ × Bool)) {t : κ → Option ν},
    (key, false) ∉ entries → eraseAll entries t key = t key
  | [], _, _ => rfl
  | (k, fails) :: entries, t, h => by
    rw [List.mem_cons, not_or] at h
    refine (eraseAll_of_notMem entries h.2).trans ?_
    by_cases hk : key = k
    · have hfails : fails = true := by
        by_contra hne
        exact h.1 (by rw [hk, eq_false_of_ne_true hne])
      rw [hfails]
      exact congrFun erase_failed key
    · exact erase_of_ne hk

theorem eraseAll_of_mem : ∀ (entries : List (κ × Bool)) {t : κ → Option ν},
    (key, false) ∈ entries → eraseAll entries t key = none
  | e :: entries, t, h => by
    rcases List.mem_cons.mp h with rfl | h
    · exact eraseAll_of_none entries erase_self
    · exact eraseAll_of_mem entries h

/-- All that is put in and taken back: a key that was free is taken back, and one that was not is
left. -/
theorem eraseAll_insertAll_iff (entries : List (κ × ν)) (removals : List (κ × Bool))
    (hkeys : ∀ r ∈ removals, r.1 ∈ entries.map Prod.fst) :
    eraseAll removals (insertAll entries t) = t
      ↔ ∀ e ∈ entries, t e.1 = none ↔ (e.1, false) ∈ removals := by
  constructor
  · intro heq e he
    have hin := insertAll_isSome (t := t) entries (List.mem_map_of_mem he)
    rw [← congrFun heq e.1]
    constructor
    · intro hnone
      by_contra hmem
      rw [eraseAll_of_notMem removals hmem, Option.eq_none_iff_forall_ne_some] at hnone
      obtain ⟨v, hv⟩ := Option.isSome_iff_exists.mp hin
      exact hnone v hv
    · exact fun hmem => eraseAll_of_mem removals hmem
  · intro hall
    funext key
    by_cases hkey : key ∈ entries.map Prod.fst
    · obtain ⟨e, he, rfl⟩ := List.mem_map.mp hkey
      rcases h : t e.1 with _ | v
      · exact eraseAll_of_mem removals ((hall e he).mp h)
      · have hmem : (e.1, false) ∉ removals := fun hmem => by
          rw [(hall e he).mpr hmem] at h
          cases h
        rw [eraseAll_of_notMem removals hmem, insertAll_of_isSome entries (by rw [h]; rfl), h]
    · rw [eraseAll_of_notMem removals fun hmem => hkey (hkeys _ hmem),
        insertAll_of_notMem entries hkey]

end FallibleTable
