import Onegram.Lib.Gap
import Onegram.SecretIncoming

/-!
# What a poll selects

Messages before the first one of a layer with numbers are processed as they are. From there on
the messages stand in the order of their numbers, so the scan passes what is stale or in turn
first; where the numbers have a gap the turn ends, and what lies past the gap waits, except that a
request to resend is processed at once.
-/

namespace Onegram

open Gap

/-! ## The numbered messages -/

/-- The messages processed without a look at their number. -/
def unnumbered (peerLayer : ℕ) (merged : List SeqAction) : List SeqAction :=
  if 17 ≤ peerLayer then [] else merged.takeWhile (·.action.layer < 17)

/-- The messages whose number counts. -/
def numbered (peerLayer : ℕ) (merged : List SeqAction) : List SeqAction :=
  if 17 ≤ peerLayer then merged else merged.dropWhile (·.action.layer < 17)

/-- The layer the poll ends with. -/
def pollLayer (peerLayer : ℕ) (merged : List SeqAction) : ℕ :=
  if 17 ≤ peerLayer then peerLayer
  else ((merged.dropWhile (·.action.layer < 17)).head?.map (·.action.layer)).getD peerLayer

def seqOuts (l : List SeqAction) : List Int := l.map (·.seqOut)

theorem unnumbered_append_numbered (peerLayer : ℕ) (merged : List SeqAction) :
    unnumbered peerLayer merged ++ numbered peerLayer merged = merged := by
  unfold unnumbered numbered
  split_ifs
  · rfl
  · exact List.takeWhile_append_dropWhile

theorem numbered_sublist (peerLayer : ℕ) (merged : List SeqAction) :
    (numbered peerLayer merged).Sublist merged := by
  unfold numbered
  split_ifs
  · exact List.Sublist.refl _
  · exact List.dropWhile_sublist _

@[simp] theorem selectNumbered_layer (sel : Selection) (a : SeqAction) :
    (selectNumbered sel a).currentPeerLayer = sel.currentPeerLayer := by
  unfold selectNumbered Selection.remove Selection.process
  dsimp only
  split_ifs
  · rfl
  · split <;> rfl
  · rfl
  · rfl

theorem foldl_selectNumbered_layer : ∀ (l : List SeqAction) (sel : Selection),
    (l.foldl selectNumbered sel).currentPeerLayer = sel.currentPeerLayer
  | [], _ => rfl
  | a :: l, sel => by
    rw [List.foldl_cons, foldl_selectNumbered_layer l, selectNumbered_layer]

theorem foldl_selectAction_numbered : ∀ (l : List SeqAction) {sel : Selection},
    17 ≤ sel.currentPeerLayer → l.foldl selectAction sel = l.foldl selectNumbered sel
  | [], _, _ => rfl
  | a :: l, sel, h => by
    have ha : selectAction sel a = selectNumbered sel a := by rw [selectAction, if_pos h]
    rw [List.foldl_cons, List.foldl_cons, ha, foldl_selectAction_numbered l (by simpa using h)]

/-- Until the first message of a layer with numbers every message is processed. -/
theorem foldl_selectAction_unnumbered : ∀ (l : List SeqAction) {sel : Selection},
    sel.currentPeerLayer < 17 →
    l.foldl selectAction sel = (l.dropWhile (·.action.layer < 17)).foldl selectNumbered
      { sel with
        currentPeerLayer :=
          ((l.dropWhile (·.action.layer < 17)).head?.map (·.action.layer)).getD
            sel.currentPeerLayer
        actionsToProcess := sel.actionsToProcess ++ l.takeWhile (·.action.layer < 17) }
  | [], sel, _ => by simp
  | a :: l, sel, h => by
    by_cases ha : a.action.layer < 17
    · have hstep : selectAction sel a = sel.process a := by
        rw [selectAction, if_neg (by omega), if_neg (by omega)]
      have hlayer : (sel.process a).currentPeerLayer < 17 := h
      rw [List.foldl_cons, hstep, foldl_selectAction_unnumbered l hlayer,
        List.dropWhile_cons_of_pos (by simpa using ha),
        List.takeWhile_cons_of_pos (by simpa using ha)]
      simp [Selection.process]
    · have hstep : selectAction sel a
          = selectNumbered { sel with currentPeerLayer := a.action.layer } a := by
        rw [selectAction, if_neg (by omega), if_pos (by omega)]
      rw [List.foldl_cons, hstep,
        foldl_selectAction_numbered l (by rw [selectNumbered_layer]; simp only; omega),
        List.dropWhile_cons_of_neg (by simpa using ha),
        List.takeWhile_cons_of_neg (by simpa using ha)]
      simp

/-- The selection when the first numbered message is looked at. -/
def scanStart (peerLayer : ℕ) (next : Int) (merged : List SeqAction) : Selection :=
  ⟨next, pollLayer peerLayer merged, INT32_MAX, -1, unnumbered peerLayer merged, [], []⟩

/-- A selection is the scan of the numbered messages, after the others. -/
theorem selectActions_eq (peerLayer : ℕ) (next : Int) (merged : List SeqAction) :
    selectActions peerLayer next merged
      = (numbered peerLayer merged).foldl selectNumbered (scanStart peerLayer next merged) := by
  unfold selectActions numbered scanStart pollLayer unnumbered
  split_ifs with h
  · exact foldl_selectAction_numbered merged h
  · rw [foldl_selectAction_unnumbered merged (by simp only [selectStart]; omega)]
    simp [selectStart]

/-! ## The scan -/

/-- Past the gap, and no request to resend. -/
def Waits (m : Int) (a : SeqAction) : Prop := m < a.seqOut ∧ isResendAction a.action = false

instance (m : Int) : DecidablePred (Waits m) := fun _ => inferInstanceAs (Decidable (_ ∧ _))

/-- The messages in turn: the first one for each number from `m` up to the gap. -/
def inTurn : Int → List SeqAction → List SeqAction
  | _, [] => []
  | m, a :: l => if a.seqOut = m then a :: inTurn (m + 1) l else inTurn m l

/-- The ids of the messages that stand in the table of `type`. -/
def idsOf (type : ActionIdType) (l : List SeqAction) : List ℕ :=
  (l.filter (·.actionId.type = type)).map (·.actionId.value)

def Selection.removed (sel : Selection) : ActionIdType → List ℕ
  | .generic => sel.removeActionIds
  | .encrypted => sel.removeEncryptedActionIds

/-- The ids that will have been removed once what is selected so far is processed. -/
def Selection.gone (sel : Selection) (type : ActionIdType) : List ℕ :=
  sel.removed type ++ idsOf type sel.actionsToProcess

section Scan

variable {m : Int} {a : SeqAction} {l : List SeqAction} {sel : Selection}

theorem selectNumbered_of_eq (h : a.seqOut = sel.nextExpectedSeqOut) :
    selectNumbered sel a = { sel with
      minLocalSeqOut := min sel.minLocalSeqOut a.seqOut
      actionsToProcess := sel.actionsToProcess ++ [a]
      nextExpectedSeqOut := sel.nextExpectedSeqOut + 1
      maxSeqIn := max sel.maxSeqIn a.seqIn } := by
  rw [selectNumbered, if_pos h]
  rfl

theorem selectNumbered_of_lt (h : a.seqOut < sel.nextExpectedSeqOut) :
    selectNumbered sel a
      = { sel with minLocalSeqOut := min sel.minLocalSeqOut a.seqOut }.remove a := by
  rw [selectNumbered, if_neg (ne_of_lt h), if_pos h]

theorem selectNumbered_of_early (h : sel.nextExpectedSeqOut < a.seqOut)
    (hr : isResendAction a.action = true) :
    selectNumbered sel a = { sel with
      minLocalSeqOut := min sel.minLocalSeqOut a.seqOut
      actionsToProcess := sel.actionsToProcess ++ [a] } := by
  rw [selectNumbered, if_neg (ne_of_gt h), if_neg (not_lt_of_gt h), if_pos hr]
  rfl

theorem selectNumbered_of_waits (h : Waits sel.nextExpectedSeqOut a) :
    selectNumbered sel a = { sel with
      minLocalSeqOut := min sel.minLocalSeqOut a.seqOut } := by
  rw [selectNumbered, if_neg (ne_of_gt h.1), if_neg (not_lt_of_gt h.1), if_neg (by simp [h.2])]

/-- What one message does to the number, the minimum and the maximum. -/
theorem selectNumbered_numbers (sel : Selection) (a : SeqAction) :
    (selectNumbered sel a).nextExpectedSeqOut
        = (if a.seqOut = sel.nextExpectedSeqOut then sel.nextExpectedSeqOut + 1
          else sel.nextExpectedSeqOut)
      ∧ (selectNumbered sel a).minLocalSeqOut = min sel.minLocalSeqOut a.seqOut
      ∧ (selectNumbered sel a).maxSeqIn
        = (if a.seqOut = sel.nextExpectedSeqOut then max sel.maxSeqIn a.seqIn
          else sel.maxSeqIn) := by
  unfold selectNumbered Selection.process Selection.remove
  dsimp only
  split_ifs
  · exact ⟨rfl, rfl, rfl⟩
  · split <;> exact ⟨rfl, rfl, rfl⟩
  · exact ⟨rfl, rfl, rfl⟩
  · exact ⟨rfl, rfl, rfl⟩

theorem scan_next : ∀ (l : List SeqAction) (sel : Selection),
    (l.foldl selectNumbered sel).nextExpectedSeqOut
      = advance sel.nextExpectedSeqOut (seqOuts l)
  | [], _ => rfl
  | a :: l, sel => by
    rw [List.foldl_cons, scan_next l, (selectNumbered_numbers sel a).1]
    rfl

theorem scan_min : ∀ (l : List SeqAction) (sel : Selection),
    (l.foldl selectNumbered sel).minLocalSeqOut = (seqOuts l).foldl min sel.minLocalSeqOut
  | [], _ => rfl
  | a :: l, sel => by
    rw [List.foldl_cons, scan_min l, (selectNumbered_numbers sel a).2.1]
    rfl

theorem scan_max : ∀ (l : List SeqAction) (sel : Selection),
    (l.foldl selectNumbered sel).maxSeqIn
      = (inTurn sel.nextExpectedSeqOut l).foldl (fun x a => max x a.seqIn) sel.maxSeqIn
  | [], _ => rfl
  | a :: l, sel => by
    obtain ⟨hnext, -, hmax⟩ := selectNumbered_numbers sel a
    rw [List.foldl_cons, scan_max l, hnext, hmax, inTurn]
    split_ifs <;> rfl

/-- In a sorted list the first message waits at the end if and only if it is past the gap when it
is looked at. -/
theorem waits_head (hsorted : (seqOuts (a :: l)).Pairwise (· ≤ ·)) :
    Waits (advance m (seqOuts (a :: l))) a ↔ Waits m a := by
  have hcons : seqOuts (a :: l) = a.seqOut :: seqOuts l := rfl
  rw [hcons] at hsorted ⊢
  rcases lt_trichotomy a.seqOut m with hlt | heq | hgt
  · have hle := le_advance (a.seqOut :: seqOuts l) m
    refine ⟨fun h => absurd h.1 (by omega), fun h => absurd h.1 (by omega)⟩
  · have hle := le_advance (seqOuts l) (m + 1)
    rw [advance_cons, if_pos heq]
    refine ⟨fun h => absurd h.1 (by omega), fun h => absurd h.1 (by omega)⟩
  · have hpast : advance m (a.seqOut :: seqOuts l) = m := by
      refine advance_of_lt _ fun x hx => ?_
      rcases List.mem_cons.mp hx with rfl | hx
      · exact hgt
      · exact lt_of_lt_of_le hgt ((List.pairwise_cons.mp hsorted).1 x hx)
    rw [hpast]

@[simp] theorem idsOf_append (type : ActionIdType) (l l' : List SeqAction) :
    idsOf type (l ++ l') = idsOf type l ++ idsOf type l' := by
  simp [idsOf]

theorem removed_remove (sel : Selection) (a : SeqAction) (type : ActionIdType) :
    (sel.remove a).removed type = sel.removed type ++ idsOf type [a] := by
  unfold Selection.remove
  split <;> rename_i h <;> cases type <;> simp [Selection.removed, idsOf, h]

@[simp] theorem remove_rest (sel : Selection) (a : SeqAction) :
    (sel.remove a).nextExpectedSeqOut = sel.nextExpectedSeqOut
      ∧ (sel.remove a).currentPeerLayer = sel.currentPeerLayer
      ∧ (sel.remove a).minLocalSeqOut = sel.minLocalSeqOut
      ∧ (sel.remove a).maxSeqIn = sel.maxSeqIn
      ∧ (sel.remove a).actionsToProcess = sel.actionsToProcess := by
  unfold Selection.remove
  split <;> simp

theorem foldl_remove : ∀ (l : List SeqAction) (sel : Selection),
    (∀ type, (l.foldl Selection.remove sel).removed type = sel.removed type ++ idsOf type l)
      ∧ (l.foldl Selection.remove sel).nextExpectedSeqOut = sel.nextExpectedSeqOut
      ∧ (l.foldl Selection.remove sel).currentPeerLayer = sel.currentPeerLayer
      ∧ (l.foldl Selection.remove sel).minLocalSeqOut = sel.minLocalSeqOut
      ∧ (l.foldl Selection.remove sel).maxSeqIn = sel.maxSeqIn
      ∧ (l.foldl Selection.remove sel).actionsToProcess = sel.actionsToProcess
  | [], sel => by simp [idsOf]
  | a :: l, sel => by
    obtain ⟨hids, hrest⟩ := foldl_remove l (sel.remove a)
    obtain ⟨h₁, h₂, h₃, h₄, h₅⟩ := remove_rest sel a
    rw [List.foldl_cons]
    refine ⟨fun type => ?_, ?_⟩
    · rw [hids, removed_remove, List.append_assoc, ← idsOf_append, List.singleton_append]
    · rw [h₁, h₂, h₃, h₄, h₅] at hrest
      exact hrest

theorem gone_remove (sel : Selection) (a : SeqAction) (type : ActionIdType) :
    ((sel.remove a).gone type).Perm (sel.gone type ++ idsOf type [a]) := by
  rw [Selection.gone, Selection.gone, removed_remove, (remove_rest sel a).2.2.2.2,
    List.append_assoc, List.append_assoc]
  exact List.perm_append_comm.append_left _

/-- One message is gone after it was looked at, unless it waits. -/
theorem gone_selectNumbered (sel : Selection) (a : SeqAction) (type : ActionIdType) :
    ((selectNumbered sel a).gone type).Perm
      (sel.gone type ++ idsOf type ([a].filter (¬ Waits sel.nextExpectedSeqOut ·))) := by
  rcases lt_trichotomy a.seqOut sel.nextExpectedSeqOut with hlt | heq | hgt
  · have hw : ¬ Waits sel.nextExpectedSeqOut a := fun h => absurd h.1 (not_lt_of_gt hlt)
    rw [selectNumbered_of_lt hlt, List.filter_cons_of_pos (by simpa using hw), List.filter_nil]
    exact gone_remove _ a type
  · have hw : ¬ Waits sel.nextExpectedSeqOut a := fun h => absurd h.1 (by omega)
    rw [selectNumbered_of_eq heq, List.filter_cons_of_pos (by simpa using hw), List.filter_nil]
    simp only [Selection.gone, idsOf_append, List.append_assoc]
    exact List.Perm.refl _
  · rcases hr : isResendAction a.action with _ | _
    · have hw : Waits sel.nextExpectedSeqOut a := ⟨hgt, hr⟩
      rw [selectNumbered_of_waits hw, List.filter_cons_of_neg (by simpa using hw),
        List.filter_nil]
      simp [Selection.gone, Selection.removed, idsOf]
    · have hw : ¬ Waits sel.nextExpectedSeqOut a := fun h => absurd h.2 (by simp [hr])
      rw [selectNumbered_of_early hgt hr, List.filter_cons_of_pos (by simpa using hw),
        List.filter_nil]
      simp only [Selection.gone, idsOf_append, List.append_assoc]
      exact List.Perm.refl _

/-- After the scan everything is gone but what waits. -/
theorem gone_scan (type : ActionIdType) : ∀ (l : List SeqAction) (sel : Selection),
    (seqOuts l).Pairwise (· ≤ ·) →
    ((l.foldl selectNumbered sel).gone type).Perm
      (sel.gone type
        ++ idsOf type (l.filter (¬ Waits (advance sel.nextExpectedSeqOut (seqOuts l)) ·)))
  | [], sel, _ => by simp [idsOf]
  | a :: l, sel, h => by
    have ih := gone_scan type l (selectNumbered sel a) (List.pairwise_cons.mp h).2
    have hnext : advance (selectNumbered sel a).nextExpectedSeqOut (seqOuts l)
        = advance sel.nextExpectedSeqOut (seqOuts (a :: l)) := by
      rw [(selectNumbered_numbers sel a).1]
      rfl
    have hhead : [a].filter (¬ Waits sel.nextExpectedSeqOut ·)
        = [a].filter (¬ Waits (advance sel.nextExpectedSeqOut (seqOuts (a :: l))) ·) := by
      simp only [List.filter_cons, List.filter_nil, waits_head h]
    rw [List.foldl_cons]
    refine ih.trans ?_
    rw [hnext, ← List.singleton_append, List.filter_append, idsOf_append, ← List.append_assoc,
      List.singleton_append, ← hhead]
    exact (gone_selectNumbered sel a type).append_right _

end Scan

end Onegram
