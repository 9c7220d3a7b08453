import Mathlib.Data.List.DropRight
import Mathlib.Tactic

/-!
# Changes of a row, in order and grouped by kind

A row is inserted where there is none, changed where there is one, and deleted. A batch of such
changes may be made in order, or grouped: the edits first, then the deletions, then the insertions,
where no row was there before. The contents of a change need not be the same in both.
-/

inductive Change (α : Type*)
  | new (a : α)
  | edit (a : α)
  | delete

namespace Change

variable {α β : Type*} {s : Option α} {c : Change α} {cs : List (Change α)}

def isDelete : Change α → Bool
  | delete => true
  | _ => false

def map (f : α → β) : Change α → Change β
  | new a => new (f a)
  | edit a => edit (f a)
  | delete => delete

def new? : Change α → Option α
  | new a => some a
  | _ => none

def edit? : Change α → Option α
  | edit a => some a
  | _ => none

def news (cs : List (Change α)) : List α := cs.filterMap new?

def edits (cs : List (Change α)) : List α := cs.filterMap edit?

def step (s : Option α) : Change α → Option α
  | new a => s.or (some a)
  | edit a => s.map fun _ => a
  | delete => none

/-- One change after another. -/
def inOrder (s : Option α) (cs : List (Change α)) : Option α := cs.foldl step s

/-- The content a row ends with that is first inserted in the list. -/
def added : List (Change α) → Option α
  | [] => none
  | new a :: cs => some ((edits cs).getLast?.getD a)
  | _ :: cs => added cs

@[simp] theorem isDelete_new (a : α) : (new a).isDelete = false := rfl

@[simp] theorem isDelete_edit (a : α) : (edit a).isDelete = false := rfl

@[simp] theorem isDelete_delete : (delete : Change α).isDelete = true := rfl

@[simp] theorem news_nil : news ([] : List (Change α)) = [] := rfl

@[simp] theorem news_new (a : α) : news (new a :: cs) = a :: news cs := rfl

@[simp] theorem news_edit (a : α) : news (edit a :: cs) = news cs := rfl

@[simp] theorem news_delete : news (delete :: cs) = news cs := rfl

@[simp] theorem edits_nil : edits ([] : List (Change α)) = [] := rfl

@[simp] theorem edits_new (a : α) : edits (new a :: cs) = edits cs := rfl

@[simp] theorem edits_edit (a : α) : edits (edit a :: cs) = a :: edits cs := rfl

@[simp] theorem edits_delete : edits (delete :: cs) = edits cs := rfl

end Change
