import Onegram.IndexSet

/-!
# The insertions describe the edit

The indices kept with the objects are those of a batch, which every call extends. So carried out
on the array as it was they give the array as it is.
-/

namespace Onegram.IndexSet

open BatchInsert TGIndexSet TGMutableArrayWithIndices

variable {α : Type*}

/-- The index of an entry as the vector holds it. -/
def index (entry : ℕ × α) : ℤ := entry.1

theorem makeRoom_of_le {k : ℕ} : ∀ {batch : List (ℕ × α)}, (∀ entry ∈ batch, k ≤ entry.1) →
    makeRoom k (batch.map index) = (batch.map shift).map index
  | [], _ => rfl
  | entry :: batch, h => by
    have hentry : index entry ≥ k := Int.ofNat_le.mpr (h entry List.mem_cons_self)
    have hrest := makeRoom_of_le fun e he => h e (List.mem_cons_of_mem entry he)
    unfold makeRoom at hrest ⊢
    rw [List.map_cons, List.map_cons, if_pos hentry, hrest]
    rfl

/-- What the two loops and the two insertions come to. -/
theorem insert_record {k : ℕ} (x : α) : ∀ {batch : List (ℕ × α)}, batch.Pairwise (·.1 < ·.1) →
    (makeRoom k (batch.map index)).insertIdx
        (insertLocation k (makeRoom k (batch.map index))) (k : ℤ) = (record k x batch).map index
      ∧ (batch.map (·.2)).insertIdx (insertLocation k (makeRoom k (batch.map index))) x
        = (record k x batch).map (·.2)
      ∧ insertLocation k (makeRoom k (batch.map index)) ≤ batch.length
  | [], _ => ⟨rfl, rfl, le_rfl⟩
  | entry :: batch, h => by
    rw [List.pairwise_cons] at h
    rw [record]
    split_ifs with hlt
    · -- The first index stays, and the place is behind it.
      obtain ⟨hindices, hobjects, hle⟩ := insert_record x h.2
      have hfirst : ¬index entry ≥ k := not_le.mpr (Int.ofNat_lt.mpr hlt)
      have hroom : makeRoom k ((entry :: batch).map index)
          = index entry :: makeRoom k (batch.map index) := by
        unfold makeRoom
        rw [List.map_cons, List.map_cons, if_neg hfirst]
      have hlocation : insertLocation k (index entry :: makeRoom k (batch.map index))
          = insertLocation k (makeRoom k (batch.map index)) + 1 := by
        unfold insertLocation
        rw [List.findIdx_cons, decide_eq_false hfirst]
        rfl
      rw [hroom, hlocation]
      refine ⟨?_, ?_, Nat.succ_le_succ hle⟩
      · rw [List.insertIdx_succ_cons, hindices]
        rfl
      · rw [List.map_cons, List.insertIdx_succ_cons, hobjects]
        rfl
    · have hall : ∀ e ∈ entry :: batch, k ≤ e.1 := by
        intro e he
        rcases List.mem_cons.mp he with rfl | he
        · exact not_lt.mp hlt
        · exact (not_lt.mp hlt).trans (h.1 e he).le
      have hfirst : index (shift entry) ≥ k :=
        Int.ofNat_le.mpr ((not_lt.mp hlt).trans (Nat.le_succ _))
      have hlocation : insertLocation k (makeRoom k ((entry :: batch).map index)) = 0 := by
        rw [makeRoom_of_le hall]
        unfold insertLocation
        rw [List.map_cons, List.map_cons, List.findIdx_cons, decide_eq_true hfirst]
        rfl
      rw [hlocation, makeRoom_of_le hall]
      refine ⟨rfl, ?_, Nat.zero_le _⟩
      rw [List.insertIdx_zero, List.map_cons, List.map_cons, List.map_cons, List.map_map]
      rfl

/-- What is kept is the batch that leads from the array at the start to the one there is. -/
structure Recorded (initial : List α) (m : TGMutableArrayWithIndices α)
    (batch : List (ℕ × α)) : Prop where
  sorted : batch.Pairwise (·.1 < ·.1)
  indices : m.insertIndexSet.indices = batch.map index
  objects : m.insertArray = batch.map (·.2)
  array : insertAll initial batch = some m.array

namespace Recorded

variable {initial : List α} {m : TGMutableArrayWithIndices α} {batch : List (ℕ × α)}

theorem init (initial : List α) : Recorded initial (initWithArray initial) [] :=
  ⟨.nil, rfl, rfl, rfl⟩

/-- A call extends the batch. -/
theorem insertObject (h : Recorded initial m batch) (x : α) {k : ℕ} (hk : k ≤ m.array.length) :
    ∃ m', m.insertObject x k = some m' ∧ m'.array = m.array.insertIdx k x
      ∧ Recorded initial m' (record k x batch) := by
  obtain ⟨hindices, hobjects, hle⟩ := @insert_record α k x batch h.sorted
  rw [← h.indices] at hindices hobjects hle
  rw [← h.objects] at hobjects
  obtain ⟨location, hlocation⟩ :
    ∃ n, insertLocation k (makeRoom k m.insertIndexSet.indices) = n := ⟨_, rfl⟩
  rw [hlocation] at hindices hobjects hle
  have hinsert : m.insertIndexSet.insertIndex k
      = (TGIndexSet.mk ((makeRoom k m.insertIndexSet.indices).insertIdx location k),
        (location : ℤ)) := by
    unfold insertIndex
    rw [if_neg (by omega), ← hlocation]
  have hlength : location ≤ m.insertArray.length := by
    rw [h.objects, List.length_map]
    exact hle
  have heq : m.insertObject x k = some
      ⟨⟨(makeRoom k m.insertIndexSet.indices).insertIdx location k⟩,
        m.insertArray.insertIdx location x, m.array.insertIdx k x⟩ := by
    unfold TGMutableArrayWithIndices.insertObject insertObjectAtIndex
    rw [if_pos hk, hinsert]
    simp only [Option.bind_some, ge_iff_le, Int.natCast_nonneg, if_true, Int.toNat_natCast,
      if_pos hlength, Option.map_some]
  exact ⟨_, heq, rfl, record_sorted h.sorted, hindices, hobjects,
    insertAll_record h.sorted h.array hk⟩

theorem foldl_insert (indices : List ℤ) : ∀ s : Finset ℕ,
    indices.foldl (fun result it => insert it.toNat result) s
      = s ∪ (indices.map Int.toNat).toFinset := by
  induction indices with
  | nil => simp
  | cons it indices ih =>
    intro s
    rw [List.foldl_cons, ih, List.map_cons, List.toFinset_cons, Finset.insert_union,
      Finset.union_insert]

/-- The index set holds the indices of the batch, in order. -/
theorem indexSet_sort (h : Recorded initial m batch) :
    m.insertIndexSet.indexSet.sort (· ≤ ·) = batch.map (·.1) := by
  have hset : m.insertIndexSet.indexSet = (batch.map (·.1)).toFinset := by
    unfold indexSet
    rw [foldl_insert, h.indices, List.map_map, Finset.empty_union]
    rfl
  have hlt : (batch.map (·.1)).Pairwise (· < ·) := List.pairwise_map.mpr h.sorted
  rw [hset]
  exact (List.toFinset_sort (· ≤ ·) (hlt.imp fun h => h.ne)).mpr (hlt.imp fun h => h.le)

end Recorded

/-- Each index is at most the count of the array at the call. -/
def Insertable : ℕ → List (α × ℕ) → Prop
  | _, [] => True
  | count, call :: calls => call.2 ≤ count ∧ Insertable (count + 1) calls

/-- The object set of the calls, their index set, and what the batch makes of the array. -/
structure Describes (initial : List α) (m : TGMutableArrayWithIndices α) : Prop where
  rising : m.insertIndexSet.indices.Pairwise (· < ·)
  card : m.objectsForInsertOperations.2.card = m.insertIndexSet.indices.length
  size : m.objectsForInsertOperations.2.card = m.objectsForInsertOperations.1.length
  batch : insertObjectsAtIndexes initial m.objectsForInsertOperations.1
    m.objectsForInsertOperations.2 = some m.array

theorem Recorded.describes {initial : List α} {m : TGMutableArrayWithIndices α}
    {batch : List (ℕ × α)} (h : Recorded initial m batch) : Describes initial m := by
  have hsort := h.indexSet_sort
  have hcard : m.insertIndexSet.indexSet.card = batch.length := by
    rw [← Finset.length_sort (· ≤ ·), hsort, List.length_map]
  have hsize : m.insertIndexSet.indexSet.card = m.insertArray.length := by
    rw [hcard, h.objects, List.length_map]
  refine ⟨?_, ?_, hsize, ?_⟩
  · rw [h.indices]
    exact List.pairwise_map.mpr (h.sorted.imp fun hlt => Int.ofNat_lt.mpr hlt)
  · rw [h.indices, List.length_map]
    exact hcard
  · unfold insertObjectsAtIndexes objectsForInsertOperations
    rw [if_pos hsize, hsort, h.objects, List.zip_map']
    exact (congrArg _ (List.map_id batch)).trans h.array

theorem Recorded.insertObjects {initial : List α} : ∀ {calls : List (α × ℕ)}
    {m : TGMutableArrayWithIndices α} {batch : List (ℕ × α)}, Recorded initial m batch →
    Insertable m.array.length calls → ∃ m' batch', m.insertObjects calls = some m'
      ∧ m'.array = calls.foldl (fun array call => array.insertIdx call.2 call.1) m.array
      ∧ Recorded initial m' batch'
  | [], m, batch, h, _ => ⟨m, batch, rfl, rfl, h⟩
  | (x, k) :: calls, m, batch, h, hcalls => by
    obtain ⟨m₁, hm₁, harray, hrecorded⟩ := h.insertObject x hcalls.1
    have hlength : m₁.array.length = m.array.length + 1 := by
      rw [harray, List.length_insertIdx_of_le_length hcalls.1]
    obtain ⟨m', batch', hm', harray', hrecorded'⟩ :=
      Recorded.insertObjects hrecorded (hlength ▸ hcalls.2)
    refine ⟨m', batch', ?_, ?_, hrecorded'⟩
    · rw [TGMutableArrayWithIndices.insertObjects, hm₁]
      exact hm'
    · rw [harray', harray]
      rfl

/-- The recorded batch makes the final array of the initial one. -/
theorem insertObjects_describes (initial : List α) (calls : List (α × ℕ))
    (h : Insertable initial.length calls) :
    ∃ m, (initWithArray initial).insertObjects calls = some m
      ∧ m.array = calls.foldl (fun array call => array.insertIdx call.2 call.1) initial
      ∧ Describes initial m := by
  obtain ⟨m, batch, hm, harray, hrecorded⟩ := (Recorded.init initial).insertObjects h
  exact ⟨m, hm, harray, hrecorded.describes⟩

/-- Two insertions at the same place. -/
theorem insertObjects_describes_front :
    ∃ m, (initWithArray [10, 20]).insertObjects [(1, 0), (2, 0), (3, 4)] = some m
      ∧ m.array = [(1, 0), (2, 0), (3, 4)].foldl
        (fun array call => array.insertIdx call.2 call.1) [10, 20]
      ∧ Describes [10, 20] m :=
  insertObjects_describes [10, 20] [(1, 0), (2, 0), (3, 4)]
    ⟨by decide, by decide, by decide, trivial⟩

end Onegram.IndexSet
