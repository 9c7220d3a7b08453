import Mathlib.Data.Finset.Sort
import Onegram.Lib.BatchInsert

/-!
# The array with indices

`TGMutableArrayWithIndices` inserts objects into an array that a table view shows, and keeps them
with the indices they have by now. At the end the view gets all insertions as one batch.

Arrays are shorter than `2 ^ 31`, so that an index is the same number as an `int`.
-/

namespace Onegram.IndexSet

variable {α : Type*}

/-- The vector of indices. -/
structure TGIndexSet where
  indices : List ℤ := []

namespace TGIndexSet

/-- The first loop of `insertIndex:`, which makes room at the index. -/
def makeRoom (index : ℤ) (indices : List ℤ) : List ℤ :=
  indices.map fun it => if it ≥ index then it + 1 else it

/-- The second loop: the first place with an index that is not below, or the end. -/
def insertLocation (index : ℤ) (indices : List ℤ) : ℕ := indices.findIdx fun it => it ≥ index

def insertIndex (s : TGIndexSet) (index : ℤ) : TGIndexSet × ℤ :=
  if index < 0 then (s, -1)
  else
    let indices := makeRoom index s.indices
    let indexLocation := insertLocation index indices
    ({ indices := indices.insertIdx indexLocation index }, indexLocation)

def indexSet (s : TGIndexSet) : Finset ℕ :=
  s.indices.foldl (fun result it => insert it.toNat result) ∅

end TGIndexSet

/-- `insertObject:atIndex:` of an array, which raises an exception behind the end. -/
def insertObjectAtIndex (array : List α) (object : α) (index : ℕ) : Option (List α) :=
  if index ≤ array.length then some (array.insertIdx index object) else none

/-- `insertObjects:atIndexes:` of an array: as many objects as indexes, in the order of the
indexes. -/
def insertObjectsAtIndexes (array : List α) (objects : List α) (indexes : Finset ℕ) :
    Option (List α) :=
  if indexes.card = objects.length then
    BatchInsert.insertAll array ((indexes.sort (· ≤ ·)).zip objects)
  else none

structure TGMutableArrayWithIndices (α : Type*) where
  insertIndexSet : TGIndexSet := {}
  insertArray : List α := []
  array : List α

namespace TGMutableArrayWithIndices

def initWithArray (array : List α) : TGMutableArrayWithIndices α := { array }

/-- `insertObject:atIndex:`; `none` where it raises an exception. -/
def insertObject (m : TGMutableArrayWithIndices α) (object : α) (index : ℕ) :
    Option (TGMutableArrayWithIndices α) :=
  (insertObjectAtIndex m.array object index).bind fun array =>
    let (insertIndexSet, insertIndex) := m.insertIndexSet.insertIndex index
    if insertIndex ≥ 0 then
      (insertObjectAtIndex m.insertArray object insertIndex.toNat).map fun insertArray =>
        { insertIndexSet, insertArray, array }
    else some { m with insertIndexSet, array }

def objectsForInsertOperations (m : TGMutableArrayWithIndices α) : List α × Finset ℕ :=
  (m.insertArray, m.insertIndexSet.indexSet)

/-- A sequence of calls of `insertObject:atIndex:`. -/
def insertObjects : TGMutableArrayWithIndices α → List (α × ℕ) →
    Option (TGMutableArrayWithIndices α)
  | m, [] => some m
  | m, (object, index) :: calls => (m.insertObject object index).bind (insertObjects · calls)

end TGMutableArrayWithIndices

end Onegram.IndexSet
