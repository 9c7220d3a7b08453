import Onegram.PinnedDialogs
import Onegram.Lib.MoveToFront

/-!
# The merged list against one update after the other

Without a whole order what is collected says which dialogs end up pinned and in which order, but
they are put in front of the stored list without being taken out of it. With a whole order nothing
that came after it is merged.
-/

namespace Onegram.PinnedDialogs

open MoveToFront

/-! ## One update after the other -/

/-- What a single update does to the list. -/
def pinEdit (flags : BitVec 32) (peer : DialogPeer) : Edit ℤ :=
  if flags.getLsbD 0 then .front peer.peerId else .remove peer.peerId

@[simp] theorem key_pinEdit (flags : BitVec 32) (peer : DialogPeer) :
    (pinEdit flags peer).key = peer.peerId := by
  unfold pinEdit
  split_ifs <;> rfl

/-- A whole order replaces the list, a pin moves the peer to the front, an unpin removes it. -/
def PinnedUpdate.apply (pinned : List ℤ) : PinnedUpdate → List ℤ
  | .updatePinnedDialogs (some order) => order.filterMap DialogPeer.orderPeerId
  | .updatePinnedDialogs none => pinned
  | .updateDialogPinned flags peer => (pinEdit flags peer).apply pinned

def oneByOne (pinned : List ℤ) (updates : List PinnedUpdate) : List ℤ :=
  updates.foldl PinnedUpdate.apply pinned

/-- The last whole order, and the single updates since. -/
structure Since where
  order : Option (List ℤ)
  edits : List (Edit ℤ)

def Since.read (s : Since) : PinnedUpdate → Since
  | .updatePinnedDialogs (some order) => ⟨some (order.filterMap DialogPeer.orderPeerId), []⟩
  | .updatePinnedDialogs none => s
  | .updateDialogPinned flags peer => { s with edits := s.edits ++ [pinEdit flags peer] }

def since (updates : List PinnedUpdate) : Since := updates.foldl Since.read ⟨none, []⟩

/-- A whole order is given, and the update is about known conversations. -/
def PinnedUpdate.Known (containsConversationWithId : ℤ → Bool) : PinnedUpdate → Prop
  | .updatePinnedDialogs none => False
  | .updatePinnedDialogs (some order) => ∀ peerId ∈ order.filterMap DialogPeer.orderPeerId,
    containsConversationWithId peerId = true
  | .updateDialogPinned _ peer => containsConversationWithId peer.peerId = true

variable {contains : ℤ → Bool} {pinned : List ℤ} {updates : List PinnedUpdate}
  {update : PinnedUpdate} {c : Collected} {edits : List (Edit ℤ)} {p : ℤ}

/-! ## What is collected -/

/-- The table and the key order stand for single updates, the list of which they compress. -/
structure Collected.Compresses (c : Collected) (edits : List (Edit ℤ)) : Prop where
  named : ∀ p, c.updatedPinnedDialogs.lookup p ≠ none ↔ p ∈ edits.map Edit.key
  pinned : ∀ p, c.updatedPinnedDialogs.lookup p = some true ↔ p ∈ applyAll [] edits
  order : (c.updatedPinnedDialogsKeyOrder.filter
    (c.updatedPinnedDialogs.lookup · = some true)).reverse = applyAll [] edits

/-- A dialog named last stands in front of the others that are pinned, or not at all. -/
theorem filter_pinned_snoc (t : KeyedTable Bool) (keyOrder : List ℤ) (p : ℤ) (isPinned : Bool) :
    ((keyOrder.filter (· ≠ p) ++ [p]).filter
        ((t.insertOrReplace p isPinned).lookup · = some true)).reverse =
      (if isPinned then Edit.front p else Edit.remove p).apply
        (keyOrder.filter (t.lookup · = some true)).reverse := by
  have hrest : (keyOrder.filter (· ≠ p)).filter
      ((t.insertOrReplace p isPinned).lookup · = some true) =
      (keyOrder.filter (t.lookup · = some true)).filter (· ≠ p) := by
    rw [List.filter_filter, List.filter_filter]
    refine List.filter_congr fun q _ => ?_
    rw [KeyedTable.lookup_insertOrReplace]
    split_ifs with hq <;> simp [hq]
  have hlast : [p].filter ((t.insertOrReplace p isPinned).lookup · = some true) =
      if isPinned then [p] else [] := by
    cases isPinned <;> simp [KeyedTable.lookup_insertOrReplace]
  rw [List.filter_append, hrest, hlast, List.reverse_append, ← List.filter_reverse]
  cases isPinned <;> rfl

theorem Collected.Compresses.collect (h : c.Compresses edits) (flags : BitVec 32)
    (peer : DialogPeer) : (c.collect (.updateDialogPinned flags peer)).Compresses
      (edits ++ [pinEdit flags peer]) where
  named p := by
    simp only [Collected.collect, KeyedTable.lookup_insertOrReplace, List.map_append, List.map_cons,
      List.map_nil, key_pinEdit, List.mem_append, List.mem_singleton]
    split_ifs with hp
    · simp [hp]
    · rw [h.named p]
      simp [hp]
  pinned p := by
    simp only [Collected.collect, KeyedTable.lookup_insertOrReplace, applyAll_snoc, mem_apply,
      key_pinEdit]
    split_ifs with hp
    · simp only [hp, Option.some_inj, ne_eq, not_true_eq_false, and_false, or_false, true_and,
        pinEdit]
      cases flags.getLsbD 0 <;> simp
    · rw [h.pinned p]
      simp [hp]
  order := by
    rw [applyAll_snoc, ← h.order]
    exact filter_pinned_snoc _ _ _ _

theorem insertPinned_eq (t : KeyedTable Bool) (keyOrder peerIds : List ℤ) :
    insertPinned t keyOrder peerIds =
      (keyOrder.filter (t.lookup · = some true)).reverse ++ peerIds := by
  unfold insertPinned
  induction keyOrder generalizing peerIds with
  | nil => rfl
  | cons p keyOrder ih =>
    rw [List.foldl_cons, ih, List.filter_cons]
    split_ifs with hp <;> simp_all

/-- What is collected of a batch, and what the updates make of the list one after the other. -/
structure Reads (contains : ℤ → Bool) (pinned : List ℤ) (c : Collected) (s : Since)
    (l : List ℤ) : Prop where
  given : c.requestPinnedDialogs = false
  replaced : c.replacedPinnedDialogs = s.order
  list : l = applyAll (s.order.getD pinned) s.edits
  compresses : s.order = none → c.Compresses s.edits
  knownOrder : ∀ p ∈ s.order.getD [], contains p = true
  knownSingle : ∀ r ∈ c.updatedPinnedDialogs.rows, contains r.1 = true

theorem Reads.step {s : Since} {l : List ℤ} (h : Reads contains pinned c s l)
    (hknown : update.Known contains) :
    Reads contains pinned (c.collect update) (s.read update) (update.apply l) := by
  rcases update with (_ | order) | ⟨flags, peer⟩
  · exact absurd hknown id
  · exact ⟨h.given, rfl, rfl, (fun hnone => by cases hnone), hknown,
      h.knownSingle⟩
  · refine ⟨h.given, h.replaced, ?_, fun hnone => (h.compresses hnone).collect flags peer,
      h.knownOrder, fun r hr => ?_⟩
    · rw [Since.read, applyAll_snoc, PinnedUpdate.apply, h.list]
    · rcases KeyedTable.mem_insertOrReplace.mp hr with rfl | hr
      · exact hknown
      · exact h.knownSingle r hr.1

theorem reads_batch (hknown : ∀ update ∈ updates, update.Known contains) (pinned : List ℤ) :
    Reads contains pinned (updates.foldl Collected.collect .empty) (since updates)
      (oneByOne pinned updates) := by
  induction updates using List.reverseRecOn with
  | nil =>
    have hempty : Collected.empty.Compresses [] :=
      ⟨fun p => by simp [Collected.empty, KeyedTable.lookup],
        fun p => by simp [Collected.empty, KeyedTable.lookup], rfl⟩
    exact ⟨rfl, rfl, rfl, fun _ => hempty, (fun p hp => by cases hp), fun r hr => by
      cases hr⟩
  | append_singleton updates update ih =>
    have h := ih fun update hupdate => hknown update (List.mem_append_left _ hupdate)
    simp only [since, oneByOne, List.foldl_append, List.foldl_cons, List.foldl_nil]
    exact h.step (hknown update (List.mem_append_right _ List.mem_cons_self))

/-! ## The merged list -/

/-- The list the stored one is replaced with, or the stored one where nothing is replaced. -/
def Outcome.list (pinned : List ℤ) : Outcome → Option (List ℤ)
  | .pull => none
  | .transaction peerIds => some peerIds
  | .nothing => some pinned

/-- The batch leaves a list without repetitions, the one its updates make one after the other. -/
def Sequential (contains : ℤ → Bool) (pinned : List ℤ) (updates : List PinnedUpdate) : Prop :=
  ∃ peerIds, (applyUpdates contains pinned updates).list pinned = some peerIds ∧ peerIds.Nodup ∧
    peerIds = oneByOne pinned updates

/-- Without a whole order, no peer that is pinned in the end is in the stored list. With one, it has
no peer twice, and the peers pinned after it are its first ones already and it has none of those
unpinned after it. -/
def Mergeable (pinned : List ℤ) (updates : List PinnedUpdate) : Prop :=
  match (since updates).order with
  | none => ∀ p ∈ applyAll [] (since updates).edits, p ∉ pinned
  | some order => order.Nodup ∧ applyAll [] (since updates).edits <+: order ∧
    ∀ p ∈ order, p ∈ (since updates).edits.map Edit.key → p ∈ applyAll [] (since updates).edits

/-- What is known is not pulled. -/
theorem Reads.merge_eq {s : Since} {l : List ℤ} (h : Reads contains pinned c s l) :
    c.merge contains pinned =
      if s.order = none then
        if c.updatedPinnedDialogs.rows ≠ [] then
          .transaction (insertPinned c.updatedPinnedDialogs c.updatedPinnedDialogsKeyOrder
            (pinned.filter fun p => !(c.updatedPinnedDialogs.lookup p = some false)))
        else .nothing
      else .transaction (s.order.getD []) := by
  have horder : (s.order.getD []).any (fun p => !contains p) = false :=
    List.any_eq_false.mpr fun p hp => by simp [h.knownOrder p hp]
  have hsingle : (c.updatedPinnedDialogs.rows.map (·.1)).any (fun p => !contains p) = false := by
    refine List.any_eq_false.mpr fun p hp => ?_
    obtain ⟨r, hr, rfl⟩ := List.mem_map.mp hp
    simp [h.knownSingle r hr]
  simp only [Collected.merge, h.given, h.replaced, horder, hsingle, Bool.or_self,
    Bool.false_eq_true, if_false]
  rcases s.order with _ | order <;> rfl

/-- The stored list behind what is put in front of it. -/
theorem Collected.Compresses.insertPinned_eq (h : c.Compresses edits) (pinned : List ℤ) :
    insertPinned c.updatedPinnedDialogs c.updatedPinnedDialogsKeyOrder
        (pinned.filter fun p => !(c.updatedPinnedDialogs.lookup p = some false)) =
      applyAll [] edits ++
        pinned.filter fun p => p ∉ edits.map Edit.key ∨ p ∈ applyAll [] edits := by
  rw [PinnedDialogs.insertPinned_eq, h.order]
  congr 1
  refine List.filter_congr fun p _ => ?_
  rw [Bool.eq_iff_iff, decide_eq_true_eq, ← h.pinned, ← h.named]
  rcases c.updatedPinnedDialogs.lookup p with _ | _ | _ <;> simp

theorem Collected.Compresses.rows_eq_nil_iff (h : c.Compresses edits) :
    c.updatedPinnedDialogs.rows = [] ↔ edits = [] := by
  constructor
  · intro hrows
    have hkeys : edits.map Edit.key = [] := by
      refine List.eq_nil_iff_forall_not_mem.mpr fun p hp => (h.named p).mpr hp ?_
      rw [KeyedTable.lookup, hrows]
      rfl
    exact List.map_eq_nil_iff.mp hkeys
  · rintro rfl
    refine List.eq_nil_iff_forall_not_mem.mpr fun r hr => ?_
    have hlookup := KeyedTable.lookup_eq_some.mpr hr
    have hnamed := (h.named r.1).mp (by rw [hlookup]; exact Option.some_ne_none _)
    exact List.not_mem_nil hnamed

/-- A whole order is the list, whatever came after it. -/
theorem Reads.sequential_order {s : Since} {l order : List ℤ} (h : Reads contains pinned c s l)
    (horder : s.order = some order) :
    (∃ peerIds, (c.merge contains pinned).list pinned = some peerIds ∧ peerIds.Nodup ∧
        peerIds = l) ↔
      order.Nodup ∧ applyAll [] s.edits <+: order ∧
        ∀ p ∈ order, p ∈ s.edits.map Edit.key → p ∈ applyAll [] s.edits := by
  have hmerge : (c.merge contains pinned).list pinned = some order := by
    rw [h.merge_eq, horder]
    rfl
  have hlist : l = applyAll order s.edits := by rw [h.list, horder, Option.getD_some]
  rw [hmerge, hlist]
  constructor
  · rintro ⟨peerIds, hsome, hnodup, heq⟩
    obtain rfl := Option.some_inj.mp hsome
    exact ⟨hnodup, (applyAll_eq_self_iff hnodup s.edits).mp heq.symm⟩
  · rintro ⟨hnodup, hself⟩
    exact ⟨order, rfl, hnodup, ((applyAll_eq_self_iff hnodup s.edits).mpr hself).symm⟩

/-- Single updates are merged as they should be where no pinned peer was there before. -/
theorem Reads.sequential_single {s : Since} {l : List ℤ} (h : Reads contains pinned c s l)
    (hpinned : pinned.Nodup) (horder : s.order = none) :
    (∃ peerIds, (c.merge contains pinned).list pinned = some peerIds ∧ peerIds.Nodup ∧
        peerIds = l) ↔
      ∀ p ∈ applyAll [] s.edits, p ∉ pinned := by
  have hc := h.compresses horder
  have hlist : l = applyAll pinned s.edits := by rw [h.list, horder, Option.getD_none]
  have hmerge : (c.merge contains pinned).list pinned = some (applyAll [] s.edits ++
      pinned.filter fun p => p ∉ s.edits.map Edit.key ∨ p ∈ applyAll [] s.edits) := by
    rw [h.merge_eq, if_pos horder, ← hc.insertPinned_eq]
    split_ifs with hrows
    · rfl
    · have hedits := hc.rows_eq_nil_iff.mp (not_not.mp hrows)
      rw [hc.insertPinned_eq, hedits]
      simp [Outcome.list]
  rw [hmerge, hlist]
  constructor
  · rintro ⟨peerIds, hsome, hnodup, -⟩ p hp hmem
    obtain rfl := Option.some_inj.mp hsome
    refine List.disjoint_of_nodup_append hnodup hp (List.mem_filter.mpr ⟨hmem, ?_⟩)
    exact decide_eq_true (.inr hp)
  · intro hall
    refine ⟨_, rfl, ?_, ?_⟩
    · refine List.Nodup.append (nodup_applyAll List.nodup_nil _) (hpinned.filter _) ?_
      exact fun p hp hmem => hall p hp (List.mem_of_mem_filter hmem)
    · rw [applyAll_eq pinned]
      congr 1
      refine List.filter_congr fun p hmem => ?_
      have hp : p ∉ applyAll [] s.edits := fun hp => hall p hp hmem
      simp [hp]

/-- The batch leaves the list of its updates, each once, just where it is mergeable. -/
theorem applyUpdates_sequential_iff (contains : ℤ → Bool) (pinned : List ℤ)
    (updates : List PinnedUpdate) (hpinned : pinned.Nodup)
    (hknown : ∀ update ∈ updates, update.Known contains) :
    Sequential contains pinned updates ↔ Mergeable pinned updates := by
  have h := reads_batch hknown pinned
  unfold Sequential Mergeable applyUpdates
  rcases horder : (since updates).order with _ | order
  · exact h.sequential_single hpinned horder
  · exact h.sequential_order horder

/-- User 1 is unpinned and pinned again, user 5 is pinned, and the list is the one it should be. -/
theorem applyUpdates_sequential_sample :
    Sequential (fun _ => true) [2, 3]
      [.updateDialogPinned 0 (.dialogPeer (.peerUser 1)),
        .updateDialogPinned 1 (.tlPeer (.peerUser 1)),
        .updateDialogPinned 0 (.dialogPeer (.peerUser 3)),
        .updateDialogPinned 1 (.dialogPeer (.peerUser 5))] := by
  refine (applyUpdates_sequential_iff _ _ _ (by decide) ?_).mpr ?_
  · simp [PinnedUpdate.Known]
  · change ∀ p ∈ [(5 : ℤ), 1], p ∉ [(2 : ℤ), 3]
    decide

/-- User 1, at the front of the list, is pinned once more and is in it twice. After a whole order a
pin is lost. -/
theorem applyUpdates_not_sequential :
    applyUpdates (fun _ => true) [1, 2] [.updateDialogPinned 1 (.dialogPeer (.peerUser 1))] =
        .transaction [1, 1, 2] ∧
      applyUpdates (fun _ => true) [] [.updatePinnedDialogs (some [.dialogPeer (.peerUser 2)]),
          .updateDialogPinned 1 (.dialogPeer (.peerUser 1))] = .transaction [2] ∧
      ¬ Sequential (fun _ => true) [1, 2]
        [.updateDialogPinned 1 (.dialogPeer (.peerUser 1))] ∧
      ¬ Sequential (fun _ => true) [] [.updatePinnedDialogs (some [.dialogPeer (.peerUser 2)]),
          .updateDialogPinned 1 (.dialogPeer (.peerUser 1))] := by
  refine ⟨by decide +kernel, by decide +kernel, ?_, ?_⟩
  · rintro ⟨peerIds, hsome, hnodup, -⟩
    have htwice : peerIds = [1, 1, 2] := (Option.some_inj.mp hsome).symm
    subst htwice
    exact absurd hnodup (by decide)
  · rintro ⟨peerIds, hsome, -, heq⟩
    have horder : peerIds = [2] := (Option.some_inj.mp hsome).symm
    subst horder
    exact absurd heq (by decide)

end Onegram.PinnedDialogs
