import Mathlib.Data.List.Basic
import Mathlib.Tactic

/-!
# Items in turn

Each item ends at a number. A gate goes over items from a stored number on: an item that ends no
later than that is expired, and of the others those are in turn that follow the one before, up to the
first that does not.
-/

namespace Gate

variable {ι : Type*}

structure Scan (ι : Type*) where
  inOrder : List ι
  expired : List ι
  gap : Bool

variable (stop : ι → ℤ) (follows : ℤ → ι → Bool) (stored : ℤ)

def scan : ℤ → List ι → Scan ι
  | _, [] => ⟨[], [], false⟩
  | current, item :: items =>
    if stop item ≤ stored then
      { scan current items with expired := item :: (scan current items).expired }
    else if follows current item then
      { scan (stop item) items with inOrder := item :: (scan (stop item) items).inOrder }
    else ⟨[], [], true⟩

/-- Each item follows the one before it. -/
def Chain : ℤ → List ι → Prop
  | _, [] => True
  | current, item :: items => follows current item ∧ Chain (stop item) items

variable {stop follows stored}

theorem scan_chain : ∀ (items : List ι) (current : ℤ),
    Chain stop follows current (scan stop follows stored current items).inOrder
  | [], _ => trivial
  | item :: items, current => by
    unfold scan
    split_ifs with hexpired hfollows
    · exact scan_chain items current
    · exact ⟨hfollows, scan_chain items (stop item)⟩
    · trivial

theorem scan_inOrder_sublist : ∀ (items : List ι) (current : ℤ),
    (scan stop follows stored current items).inOrder.Sublist items
  | [], _ => List.Sublist.slnil
  | item :: items, current => by
    unfold scan
    split_ifs with hexpired hfollows
    · exact (scan_inOrder_sublist items current).cons item
    · exact (scan_inOrder_sublist items (stop item)).cons_cons item
    · exact List.nil_sublist _

end Gate
