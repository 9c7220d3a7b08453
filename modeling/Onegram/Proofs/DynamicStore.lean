import Onegram.DynamicStore

/-!
# What the dynamic store gets back

The service order is edited back, so it comes back where there was one. The entry of the interface
is never taken back, and an order that was made up stays.
-/

namespace Onegram

namespace NekroWarp

section Scope

variable {store : SCStore} {ifname addr router : String}

/-- The keys of the program's own services, and what it writes of others. -/
def touched (ifname : String) : List SCKey :=
  [.serviceIPv4 .State NW_LEGACY_ID, .serviceIPv4 .State NW_SERVICE_ID,
    .serviceIPv4 .Setup NW_SERVICE_ID, .interfaceIPv4 ifname, .globalIPv4 .Setup]

/-- A store that does not mention the program's services. -/
structure Unmentioned (store : SCStore) : Prop where
  state : store (.serviceIPv4 .State NW_SERVICE_ID) = none
  setup : store (.serviceIPv4 .Setup NW_SERVICE_ID) = none
  legacy : store (.serviceIPv4 .State NW_LEGACY_ID) = none
  order : ∀ d order, store (.globalIPv4 .Setup) = some d → d.ServiceOrder = some order →
    NW_SERVICE_ID ∉ order ∧ NW_LEGACY_ID ∉ order

/-! ## Stripping the order -/

theorem array_remove_all_of_notMem {arr : List String} {val : String} (h : val ∉ arr) :
    array_remove_all arr val = arr := by
  unfold array_remove_all
  rw [List.filter_eq_self]
  rintro x hx
  exact bne_iff_ne.mpr fun he => h (he ▸ hx)

theorem stripped_of_notMem {order : List String}
    (h : NW_SERVICE_ID ∉ order ∧ NW_LEGACY_ID ∉ order) : stripped order = order := by
  unfold stripped
  rw [array_remove_all_of_notMem h.1, array_remove_all_of_notMem h.2]

theorem notMem_stripped (order : List String) :
    NW_SERVICE_ID ∉ stripped order ∧ NW_LEGACY_ID ∉ stripped order := by
  unfold stripped array_remove_all
  constructor <;> intro h <;> simp [List.mem_filter] at h

theorem stripped_cons (order : List String) :
    stripped (NW_SERVICE_ID :: order) = stripped order := by
  unfold stripped array_remove_all
  rw [List.filter_cons_of_neg (by simp)]

/-! ## Key by key -/

theorem set_primary_setup : nw_scope_set_primary ifname addr router store (.globalIPv4 .Setup)
    = some { (store (.globalIPv4 .Setup)).getD .empty with
        ServiceOrder := some (NW_SERVICE_ID ::
          stripped (((store (.globalIPv4 .Setup)).bind (·.ServiceOrder)).getD [])) } := by
  unfold nw_scope_set_primary SCStore.setValue SCStore.removeValue
  simp [Function.update]

theorem set_primary_interface :
    nw_scope_set_primary ifname addr router store (.interfaceIPv4 ifname) = some .empty := by
  unfold nw_scope_set_primary SCStore.setValue SCStore.removeValue
  simp [Function.update]

theorem set_primary_other {key : SCKey} (h : key ∉ touched ifname) :
    nw_scope_set_primary ifname addr router store key = store key := by
  simp only [touched, List.mem_cons, List.not_mem_nil, or_false, not_or] at h
  unfold nw_scope_set_primary SCStore.setValue SCStore.removeValue
  simp [Function.update, h]

theorem restore_setup : nw_scope_restore store (.globalIPv4 .Setup)
    = (store (.globalIPv4 .Setup)).map fun d =>
        { d with ServiceOrder := d.ServiceOrder.map stripped } := by
  unfold nw_scope_restore SCStore.setValue SCStore.removeValue
  rcases h : store (.globalIPv4 .Setup) with _ | d <;> simp [Function.update, h]

theorem restore_own {key : SCKey}
    (h : key ∈ [.serviceIPv4 .State NW_LEGACY_ID, .serviceIPv4 .State NW_SERVICE_ID,
      .serviceIPv4 .Setup NW_SERVICE_ID]) : nw_scope_restore store key = none := by
  simp only [List.mem_cons, List.not_mem_nil, or_false] at h
  unfold nw_scope_restore SCStore.setValue SCStore.removeValue
  rcases hsetup : store (.globalIPv4 .Setup) with _ | d <;>
    rcases h with rfl | rfl | rfl <;> simp [Function.update, hsetup]

theorem restore_other {key : SCKey}
    (h : key ∉ [.serviceIPv4 .State NW_LEGACY_ID, .serviceIPv4 .State NW_SERVICE_ID,
      .serviceIPv4 .Setup NW_SERVICE_ID, SCKey.globalIPv4 .Setup]) :
    nw_scope_restore store key = store key := by
  simp only [List.mem_cons, List.not_mem_nil, or_false, not_or] at h
  unfold nw_scope_restore SCStore.setValue SCStore.removeValue
  rcases hsetup : store (.globalIPv4 .Setup) with _ | d <;> simp [Function.update, hsetup, h]

/-! ## There and back -/

theorem restored_setup : nw_scope_restore (nw_scope_set_primary ifname addr router store)
    (.globalIPv4 .Setup)
    = some { (store (.globalIPv4 .Setup)).getD .empty with
        ServiceOrder :=
          some (stripped (((store (.globalIPv4 .Setup)).bind (·.ServiceOrder)).getD [])) } := by
  rw [restore_setup, set_primary_setup, Option.map_some]
  simp only [Option.map_some]
  rw [stripped_cons, stripped_of_notMem (notMem_stripped _)]

theorem restored_interface : nw_scope_restore (nw_scope_set_primary ifname addr router store)
    (.interfaceIPv4 ifname) = some .empty := by
  rw [restore_other (by simp), set_primary_interface]

/-- The order is the same again exactly where there was one. -/
theorem restored_setup_iff (h : Unmentioned store) :
    nw_scope_restore (nw_scope_set_primary ifname addr router store) (.globalIPv4 .Setup)
        = store (.globalIPv4 .Setup)
      ↔ ∃ d order, store (.globalIPv4 .Setup) = some d ∧ d.ServiceOrder = some order := by
  rw [restored_setup]
  constructor
  · intro heq
    exact ⟨_, _, heq.symm, rfl⟩
  · rintro ⟨d, order, hd, horder⟩
    rw [hd, Option.getD_some, Option.bind_some, horder, Option.getD_some,
      stripped_of_notMem (h.order d order hd horder), ← horder]

/-- Setting the primary service and restoring are inverse where the interface was already marked
and there was a service order. -/
theorem scope_restored_iff (h : Unmentioned store) :
    (∀ key, nw_scope_restore (nw_scope_set_primary ifname addr router store) key = store key)
      ↔ store (.interfaceIPv4 ifname) = some .empty
        ∧ ∃ d order, store (.globalIPv4 .Setup) = some d ∧ d.ServiceOrder = some order := by
  constructor
  · intro hall
    exact ⟨(hall _).symm.trans restored_interface, (restored_setup_iff h).mp (hall _)⟩
  · rintro ⟨hinterface, horder⟩ key
    by_cases hown : key ∈ [.serviceIPv4 .State NW_LEGACY_ID, .serviceIPv4 .State NW_SERVICE_ID,
      .serviceIPv4 .Setup NW_SERVICE_ID]
    · rw [restore_own hown]
      simp only [List.mem_cons, List.not_mem_nil, or_false] at hown
      rcases hown with rfl | rfl | rfl
      · exact h.legacy.symm
      · exact h.state.symm
      · exact h.setup.symm
    by_cases hsetup : key = .globalIPv4 .Setup
    · rw [hsetup]
      exact (restored_setup_iff h).mpr horder
    by_cases hif : key = .interfaceIPv4 ifname
    · rw [hif, restored_interface, hinterface]
    simp only [List.mem_cons, List.not_mem_nil, or_false, not_or] at hown
    rw [restore_other (by simp [hown, hsetup]), set_primary_other (by simp [touched, hown, hsetup, hif])]

end Scope

/-- A store with a service order, and the interface marked. -/
def markedStore : SCStore
  | .globalIPv4 .Setup => some { ServiceOrder := some ["15A2A2BD-DFCE-49D4-8F90-BC49E2397041"] }
  | .interfaceIPv4 "utun1" => some .empty
  | _ => none

theorem markedStore_unmentioned : Unmentioned markedStore where
  state := rfl
  setup := rfl
  legacy := rfl
  order := fun d order hd horder => by
    cases hd
    cases horder
    decide

theorem markedStore_restored :
    nw_scope_restore (nw_scope_set_primary "utun1" "172.16.0.2" "172.16.0.1" markedStore)
      = markedStore :=
  funext ((scope_restored_iff markedStore_unmentioned).mpr ⟨rfl, _, _, rfl, rfl⟩)

/-- A store with a service order and no entry for the interface that comes up. -/
def orderedStore : SCStore
  | .globalIPv4 .Setup => some { ServiceOrder := some ["15A2A2BD-DFCE-49D4-8F90-BC49E2397041"] }
  | _ => none

theorem orderedStore_unmentioned : Unmentioned orderedStore where
  state := rfl
  setup := rfl
  legacy := rfl
  order := fun d order hd horder => by
    cases hd
    cases horder
    decide

/-- The mark of the interface stays in the store. -/
theorem orderedStore_not_restored : Unmentioned orderedStore
    ∧ orderedStore (.interfaceIPv4 "utun1") = none
    ∧ nw_scope_restore (nw_scope_set_primary "utun1" "172.16.0.2" "172.16.0.1" orderedStore)
        (.interfaceIPv4 "utun1") = some .empty :=
  ⟨orderedStore_unmentioned, rfl, by decide⟩

end NekroWarp

end Onegram
