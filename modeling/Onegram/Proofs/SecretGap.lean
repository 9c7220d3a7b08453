import Onegram.Proofs.SecretSelection

/-!
# The request for what is missing

A poll asks for a resend when a message of the plain table is left over, from the number it then
expects up to the number before the smallest it looked at. The claim on the numbers is met where
the smallest it looked at is the smallest that waits: nothing was in turn, nothing stale, and no
early request to resend lies below (`gapRequestRight_iff`).
-/

namespace Onegram

open Gap

instance : Std.Total actionLe where
  total a b := by
    unfold actionLe
    omega

instance : IsTrans SeqAction actionLe where
  trans a b c hab hbc := by
    unfold actionLe at *
    omega

/-! ## The selection of a poll -/

/-- The selection of a poll after processing. -/
def pollSelection (db : ChatDb) (snap : IncomingSnapshot) : Selection :=
  (selectActions db.peerLayer snap.nextExpectedSeqOut (mergedActions db snap)).processed

/-- The numbered messages of a poll. -/
def pollNumbered (db : ChatDb) (snap : IncomingSnapshot) : List SeqAction :=
  numbered db.peerLayer (mergedActions db snap)

section Poll

variable (db : ChatDb) (snap : IncomingSnapshot)

theorem seqOuts_pollNumbered_sorted : (seqOuts (pollNumbered db snap)).Pairwise (· ≤ ·) := by
  have hsorted : (mergedActions db snap).Pairwise actionLe := List.pairwise_insertionSort _ _
  refine List.pairwise_map.mpr ?_
  refine (hsorted.sublist (numbered_sublist db.peerLayer _)).imp fun h => ?_
  unfold actionLe at h
  omega

theorem pollSelection_rest :
    (pollSelection db snap).nextExpectedSeqOut
        = advance snap.nextExpectedSeqOut (seqOuts (pollNumbered db snap))
      ∧ (pollSelection db snap).currentPeerLayer = pollLayer db.peerLayer (mergedActions db snap)
      ∧ (pollSelection db snap).minLocalSeqOut
        = (seqOuts (pollNumbered db snap)).foldl min INT32_MAX
      ∧ (pollSelection db snap).maxSeqIn
        = (inTurn snap.nextExpectedSeqOut (pollNumbered db snap)).foldl
            (fun x a => max x a.seqIn) (-1) := by
  unfold pollSelection Selection.processed
  obtain ⟨-, h₁, h₂, h₃, h₄, -⟩ := foldl_remove
    (selectActions db.peerLayer snap.nextExpectedSeqOut (mergedActions db snap)).actionsToProcess
    (selectActions db.peerLayer snap.nextExpectedSeqOut (mergedActions db snap))
  rw [h₁, h₂, h₃, h₄, selectActions_eq]
  exact ⟨scan_next _ _, foldl_selectNumbered_layer _ _, scan_min _ _, scan_max _ _⟩

theorem pollSelection_frontier :
    Frontier snap.nextExpectedSeqOut (seqOuts (pollNumbered db snap))
      (pollSelection db snap).nextExpectedSeqOut := by
  rw [(pollSelection_rest db snap).1]
  exact advance_frontier _ _ (seqOuts_pollNumbered_sorted db snap)

/-- Everything a poll dequeued is removed but what waits. -/
theorem pollSelection_removed (type : ActionIdType) :
    ((pollSelection db snap).removed type).Perm
      (idsOf type (unnumbered db.peerLayer (mergedActions db snap))
        ++ idsOf type ((pollNumbered db snap).filter
          (¬ Waits (pollSelection db snap).nextExpectedSeqOut ·))) := by
  have hscan := gone_scan type (pollNumbered db snap)
    (scanStart db.peerLayer snap.nextExpectedSeqOut (mergedActions db snap))
    (seqOuts_pollNumbered_sorted db snap)
  have hstart : (scanStart db.peerLayer snap.nextExpectedSeqOut (mergedActions db snap)).gone type
      = idsOf type (unnumbered db.peerLayer (mergedActions db snap)) := by
    cases type <;> rfl
  rw [hstart] at hscan
  rw [(pollSelection_rest db snap).1, pollSelection, Selection.processed, (foldl_remove _ _).1,
    selectActions_eq]
  exact hscan

end Poll

/-! ## When the request is right -/

/-- `fromSeq` and `toSeq` of the request a poll enqueues, if it does. -/
def pollRequest (db : ChatDb) (snap : IncomingSnapshot) : Option (Int × Int) :=
  resendRequest db.isCreator snap.actions (pollSelection db snap)

def seqParity (isCreator : Bool) : Int := if isCreator then 0 else 1

/-- `w` is the smallest number that waits. -/
structure FirstWaiting (m : Int) (l : List SeqAction) (w : Int) : Prop where
  waits : ∃ a ∈ l, Waits m a ∧ a.seqOut = w
  least : ∀ a ∈ l, Waits m a → w ≤ a.seqOut

/-- The request covers the numbers from the one now expected, `m`, to the one before the smallest
that waits, and there is none where nothing waits. -/
structure GapRequestRight (db : ChatDb) (snap : IncomingSnapshot) : Prop where
  asks : ∀ m w, Frontier snap.nextExpectedSeqOut (seqOuts (pollNumbered db snap)) m →
    FirstWaiting m (pollNumbered db snap) w →
    pollRequest db snap
        = some (m * 2 + seqParity db.isCreator, (w - 1) * 2 + seqParity db.isCreator)
      ∧ m ≤ w - 1
  silent : ∀ m, Frontier snap.nextExpectedSeqOut (seqOuts (pollNumbered db snap)) m →
    (∀ a ∈ pollNumbered db snap, ¬ Waits m a) → pollRequest db snap = none

/-- Where something waits: a message of the plain table waits, the layer has a serializer for the
request, and no numbered message lies below the smallest that waits. -/
def GapCondition (db : ChatDb) (snap : IncomingSnapshot) : Prop :=
  ∀ m w, Frontier snap.nextExpectedSeqOut (seqOuts (pollNumbered db snap)) m →
    FirstWaiting m (pollNumbered db snap) w →
    (∃ a ∈ pollNumbered db snap, a.actionId.type = .generic ∧ Waits m a)
      ∧ min (pollLayer db.peerLayer (mergedActions db snap)) currentLayer ∈ resendLayers
      ∧ ∀ a ∈ pollNumbered db snap, w ≤ a.seqOut

section Request

variable {db : ChatDb} {snap : IncomingSnapshot}

theorem foldl_min_spec : ∀ (l : List Int) (b : Int),
    (l.foldl min b = b ∨ l.foldl min b ∈ l) ∧ l.foldl min b ≤ b ∧ ∀ x ∈ l, l.foldl min b ≤ x
  | [], b => by simp
  | y :: l, b => by
    obtain ⟨hmem, hle, hall⟩ := foldl_min_spec l (min b y)
    rw [List.foldl_cons]
    refine ⟨?_, by omega, fun x hx => ?_⟩
    · rcases hmem with hmem | hmem
      · rw [hmem]
        rcases le_total b y with h | h
        · left; omega
        · right; rw [min_eq_right h]; exact List.mem_cons_self
      · exact Or.inr (List.mem_cons_of_mem _ hmem)
    · rcases List.mem_cons.mp hx with rfl | hx
      · omega
      · exact hall x hx

/-- The smallest number the poll looked at, when it looked at one. -/
theorem pollSelection_min {a : SeqAction} (ha : a ∈ pollNumbered db snap) :
    (pollSelection db snap).minLocalSeqOut ≠ INT32_MAX
      ∧ (∃ b ∈ pollNumbered db snap, b.seqOut = (pollSelection db snap).minLocalSeqOut)
      ∧ ∀ b ∈ pollNumbered db snap, (pollSelection db snap).minLocalSeqOut ≤ b.seqOut := by
  rw [(pollSelection_rest db snap).2.2.1]
  obtain ⟨hmem, -, hall⟩ := foldl_min_spec (seqOuts (pollNumbered db snap)) INT32_MAX
  have hle : ∀ b ∈ pollNumbered db snap,
      (seqOuts (pollNumbered db snap)).foldl min INT32_MAX ≤ b.seqOut :=
    fun b hb => hall b.seqOut (List.mem_map_of_mem hb)
  have hne : (seqOuts (pollNumbered db snap)).foldl min INT32_MAX ≠ INT32_MAX := by
    have h₁ := hle a ha
    have h₂ := a.seqOut_lt
    omega
  refine ⟨hne, ?_, hle⟩
  obtain ⟨b, hb, hbm⟩ := List.mem_map.mp (hmem.resolve_left hne)
  exact ⟨b, hb, hbm⟩

theorem length_idsOf_filter (type : ActionIdType) (p : SeqAction → Bool) (l : List SeqAction) :
    (idsOf type l).length
      = (idsOf type (l.filter p)).length + (idsOf type (l.filter fun a => ¬ p a)).length := by
  induction l with
  | nil => rfl
  | cons a l ih =>
    simp only [idsOf, List.filter_cons, List.length_map] at ih ⊢
    split_ifs <;> simp_all <;> omega

theorem idsOf_generic_merged (db : ChatDb)
    (hsnap : ∀ a ∈ snap.actions, a.actionId.type = .generic) :
    (idsOf .generic (mergedActions db snap)).length = snap.actions.length := by
  have hperm := (List.perm_insertionSort actionLe
    (snap.actions ++ decryptedActions db snap.encryptedActions)).filter
      (·.actionId.type = .generic)
  have hplain : snap.actions.filter (·.actionId.type = .generic) = snap.actions :=
    List.filter_eq_self.mpr fun a ha => by simp [hsnap a ha]
  have hdecrypted : (decryptedActions db snap.encryptedActions).filter
      (·.actionId.type = .generic) = [] := by
    rw [List.filter_eq_nil_iff]
    intro a ha
    obtain ⟨r, -, hr⟩ := List.mem_filterMap.mp ha
    obtain ⟨p, -, rfl⟩ := Option.map_eq_some_iff.mp hr
    simp [encryptedAction]
  unfold idsOf mergedActions
  rw [List.length_map, hperm.length_eq, List.filter_append, hplain, hdecrypted,
    List.append_nil]

/-- A request is due when a message of the plain table waits. -/
theorem removed_lt_iff (hsnap : ∀ a ∈ snap.actions, a.actionId.type = .generic) :
    (pollSelection db snap).removeActionIds.length < snap.actions.length
      ↔ ∃ a ∈ pollNumbered db snap, a.actionId.type = .generic
          ∧ Waits (pollSelection db snap).nextExpectedSeqOut a := by
  set m := (pollSelection db snap).nextExpectedSeqOut with hm
  have hremoved := (pollSelection_removed db snap .generic).length_eq
  have hsplit := length_idsOf_filter .generic (Waits m ·) (pollNumbered db snap)
  have hparts : (idsOf .generic (unnumbered db.peerLayer (mergedActions db snap))).length
      + (idsOf .generic (pollNumbered db snap)).length = snap.actions.length := by
    rw [← idsOf_generic_merged db hsnap, ← List.length_append, pollNumbered,
      ← idsOf_append, unnumbered_append_numbered]
  have hwaiting : 0 < (idsOf .generic ((pollNumbered db snap).filter (Waits m ·))).length
      ↔ ∃ a ∈ pollNumbered db snap, a.actionId.type = .generic ∧ Waits m a := by
    simp only [idsOf, List.length_map, List.length_pos_iff_exists_mem, List.mem_filter,
      decide_eq_true_eq]
    constructor
    · rintro ⟨a, ⟨h₁, h₂⟩, h₃⟩
      exact ⟨a, h₁, h₃, h₂⟩
    · rintro ⟨a, h₁, h₃, h₂⟩
      exact ⟨a, ⟨h₁, h₂⟩, h₃⟩
  rw [← hwaiting]
  simp only [decide_eq_true_eq] at hsplit
  rw [List.length_append, ← hm] at hremoved
  change (pollSelection db snap).removeActionIds.length = _ at hremoved
  omega

theorem pollRequest_of_waiting (hsnap : ∀ a ∈ snap.actions, a.actionId.type = .generic)
    {a : SeqAction} (ha : a ∈ pollNumbered db snap) (htype : a.actionId.type = .generic)
    (hw : Waits (pollSelection db snap).nextExpectedSeqOut a) :
    pollRequest db snap
      = if min (pollLayer db.peerLayer (mergedActions db snap)) currentLayer ∈ resendLayers then
          some ((pollSelection db snap).nextExpectedSeqOut * 2 + seqParity db.isCreator,
            ((pollSelection db snap).minLocalSeqOut - 1) * 2 + seqParity db.isCreator)
        else none := by
  have hlt := (removed_lt_iff hsnap).mpr ⟨a, ha, htype, hw⟩
  unfold pollRequest resendRequest
  rw [if_pos hlt, if_neg (pollSelection_min ha).1, (pollSelection_rest db snap).2.1]
  rfl

theorem pollRequest_of_none (hsnap : ∀ a ∈ snap.actions, a.actionId.type = .generic)
    (h : ¬ ∃ a ∈ pollNumbered db snap, a.actionId.type = .generic
      ∧ Waits (pollSelection db snap).nextExpectedSeqOut a) :
    pollRequest db snap = none := by
  unfold pollRequest resendRequest
  rw [if_neg fun hlt => h ((removed_lt_iff hsnap).mp hlt)]

/-- The request is right exactly where the condition holds, for every state `db` in which the block
of a poll runs and every state `db₀` it dequeued from. -/
theorem gapRequestRight_iff (db₀ db : ChatDb) :
    GapRequestRight db (dequeuePeerIncomingActions db₀)
      ↔ GapCondition db (dequeuePeerIncomingActions db₀) := by
  set snap := dequeuePeerIncomingActions db₀ with hsnapdef
  have hsnap : ∀ a ∈ snap.actions, a.actionId.type = .generic := by
    intro a ha
    obtain ⟨r, -, rfl⟩ := List.mem_map.mp ((List.mem_insertionSort _).mp ha)
    rfl
  have hfrontier := pollSelection_frontier db snap
  constructor
  · intro h m w hm hw
    obtain rfl := hm.unique hfrontier
    obtain ⟨hask, -⟩ := h.asks _ w hm hw
    by_cases hplain : ∃ a ∈ pollNumbered db snap, a.actionId.type = .generic
        ∧ Waits (pollSelection db snap).nextExpectedSeqOut a
    · obtain ⟨a, ha, htype, hwa⟩ := hplain
      rw [pollRequest_of_waiting hsnap ha htype hwa] at hask
      split_ifs at hask with hlayer
      · have hmin : (pollSelection db snap).minLocalSeqOut = w := by
          simp only [Option.some.injEq, Prod.mk.injEq] at hask
          omega
        exact ⟨⟨a, ha, htype, hwa⟩, hlayer, hmin ▸ (pollSelection_min ha).2.2⟩
    · rw [pollRequest_of_none hsnap hplain] at hask
      exact absurd hask (by simp)
  · intro h
    refine ⟨fun m w hm hw => ?_, fun m hm hnone => ?_⟩
    · obtain rfl := hm.unique hfrontier
      obtain ⟨⟨a, ha, htype, hwa⟩, hlayer, hlow⟩ := h _ w hm hw
      obtain ⟨b, hb, hwb, rfl⟩ := hw.waits
      obtain ⟨-, ⟨c, hc, hcmin⟩, hmin⟩ := pollSelection_min ha
      have hle := hlow c hc
      have hge := hmin b hb
      have hgt := hwb.1
      rw [pollRequest_of_waiting hsnap ha htype hwa, if_pos hlayer,
        show (pollSelection db snap).minLocalSeqOut = b.seqOut by omega]
      exact ⟨rfl, by omega⟩
    · obtain rfl := hm.unique hfrontier
      exact pollRequest_of_none hsnap fun ⟨a, ha, _, hwa⟩ => hnone a ha hwa

/-- Messages 0 and 2 are stored: 0 is in turn, 2 waits for 1, and the request is for the numbers
from 1 to -1. -/
theorem gapRequest_inverted :
    let db := enqueuePeerIncomingActions (.fresh 46 true [])
      [⟨0, 0, ⟨46, .message 10⟩, by decide⟩, ⟨0, 2, ⟨46, .message 12⟩, by decide⟩]
    pollRequest db (dequeuePeerIncomingActions db) = some (2, -2)
      ∧ ¬ GapRequestRight db (dequeuePeerIncomingActions db) := by
  intro db
  have hrequest : pollRequest db (dequeuePeerIncomingActions db) = some (2, -2) := by decide
  refine ⟨hrequest, fun h => ?_⟩
  have hfrontier : Frontier 0 (seqOuts (pollNumbered db (dequeuePeerIncomingActions db))) 1 := by
    refine ⟨by decide, fun j h₀ h₁ => ?_, by decide⟩
    obtain rfl : j = 0 := by omega
    decide
  have hwaiting : FirstWaiting 1 (pollNumbered db (dequeuePeerIncomingActions db)) 2 :=
    ⟨by decide, by decide⟩
  obtain ⟨hask, -⟩ := h.asks 1 2 hfrontier hwaiting
  rw [hrequest] at hask
  exact absurd hask (by decide)

end Request

end Onegram

/-!
## What a peer can confirm

A poll takes the largest `seqIn` of the messages in turn, deletes every outgoing row below it and
discards the keys before it, whatever was sent. So a row is safe from a number the peer made up
exactly where a number that does not exceed what was sent takes it as well
(`confirmSafe_iff`).
-/

namespace Onegram

open Gap

/-- The messages a poll takes in turn. -/
def pollTurn (db : ChatDb) (snap : IncomingSnapshot) : List SeqAction :=
  inTurn snap.nextExpectedSeqOut (pollNumbered db snap)

/-- The chat with the request for missing messages, if there is one, before anything is
deleted. -/
def asked (db : ChatDb) (snap : IncomingSnapshot) (resendId : Int) : ChatDb :=
  (askOps db.isCreator snap.actions (pollSelection db snap) resendId).foldl DbOp.apply db

/-- The chat once everything the block of a poll dispatched has run. -/
def afterPoll (db : ChatDb) (snap : IncomingSnapshot) (resendId layerId : Int) : ChatDb :=
  (pollBlock db snap resendId layerId).2.foldl DbOp.apply db

/-- The key a row is encrypted with. -/
def rowKey (keys : List EncryptionKeyData) (r : OutgoingRow) : Option Bytes × Int :=
  encryptionKeyForConversationId keys r.action.keyId

section Confirm

variable (db : ChatDb) (snap : IncomingSnapshot) (resendId layerId : Int)

/-- A row goes, or loses its key, only by a `seqIn` that does not exceed the number of messages
sent. -/
structure ConfirmSafe : Prop where
  rows : ∀ r ∈ (asked db snap resendId).outgoing.rows,
    r ∉ (afterPoll db snap resendId layerId).outgoing.rows →
    r.2.seq_out ≤ currentPeerSentSeqOut db
      ∧ ∃ a ∈ pollTurn db snap, a.seqIn ≤ currentPeerSentSeqOut db + 1 ∧ r.2.seq_out < a.seqIn
  keys : ∀ r ∈ (asked db snap resendId).outgoing.rows,
    rowKey (afterPoll db snap resendId layerId).encryptionKeys r.2
        ≠ rowKey db.encryptionKeys r.2 →
    ∃ a ∈ pollTurn db snap, a.seqIn ≤ currentPeerSentSeqOut db + 1
      ∧ rowKey (discardEncryptionKeys db.encryptionKeys a.seqIn) r.2
        ≠ rowKey db.encryptionKeys r.2

/-- What a message in turn that confirms more than was sent would delete, or leave without a key,
one that does not takes as well. -/
def ConfirmCondition : Prop :=
  ∀ a ∈ pollTurn db snap, currentPeerSentSeqOut db + 1 < a.seqIn → 0 < a.seqIn →
    ∀ r ∈ (asked db snap resendId).outgoing.rows,
      (r.2.seq_out < a.seqIn → ∃ b ∈ pollTurn db snap,
        b.seqIn ≤ currentPeerSentSeqOut db + 1 ∧ r.2.seq_out < b.seqIn)
      ∧ (rowKey (discardEncryptionKeys db.encryptionKeys a.seqIn) r.2
            ≠ rowKey db.encryptionKeys r.2 →
          ∃ b ∈ pollTurn db snap, b.seqIn ≤ currentPeerSentSeqOut db + 1
            ∧ rowKey (discardEncryptionKeys db.encryptionKeys b.seqIn) r.2
              ≠ rowKey db.encryptionKeys r.2)

/-! ## What the operations do to the outgoing table and the keys -/

theorem foldl_max_spec : ∀ (l : List SeqAction) (b : Int),
    (l.foldl (fun x a => max x a.seqIn) b = b
        ∨ ∃ a ∈ l, a.seqIn = l.foldl (fun x a => max x a.seqIn) b)
      ∧ b ≤ l.foldl (fun x a => max x a.seqIn) b
      ∧ ∀ a ∈ l, a.seqIn ≤ l.foldl (fun x a => max x a.seqIn) b
  | [], b => by simp
  | c :: l, b => by
    obtain ⟨hmem, hle, hall⟩ := foldl_max_spec l (max b c.seqIn)
    rw [List.foldl_cons]
    refine ⟨?_, by omega, fun a ha => ?_⟩
    · rcases hmem with hmem | ⟨a, ha, heq⟩
      · rw [hmem]
        rcases le_total c.seqIn b with h | h
        · exact Or.inl (max_eq_left h)
        · exact Or.inr ⟨c, List.mem_cons_self, (max_eq_right h).symm⟩
      · exact Or.inr ⟨a, List.mem_cons_of_mem _ ha, heq⟩
    · rcases List.mem_cons.mp ha with rfl | ha
      · omega
      · exact hall a ha

theorem asked_keys : (asked db snap resendId).encryptionKeys = db.encryptionKeys := by
  unfold asked askOps
  split_ifs
  · rw [List.foldl_cons]
    split <;> rfl
  · rfl

theorem foldl_writeOps (sel : Selection) (db : ChatDb) :
    (∀ r, r ∈ ((writeOps sel).foldl DbOp.apply db).outgoing.rows
        ↔ r ∈ db.outgoing.rows ∧ (0 < sel.maxSeqIn → sel.maxSeqIn ≤ r.2.seq_out))
      ∧ ((writeOps sel).foldl DbOp.apply db).outgoing.seq = db.outgoing.seq
      ∧ ((writeOps sel).foldl DbOp.apply db).encryptionKeys
        = (if 0 < sel.maxSeqIn then discardEncryptionKeys db.encryptionKeys sel.maxSeqIn
          else db.encryptionKeys) := by
  unfold writeOps
  split_ifs with h
  · refine ⟨fun r => ?_, rfl, rfl⟩
    simp only [List.foldl_append, List.foldl_cons, List.foldl_nil, DbOp.apply, confirmPeerSeqOut,
      deletePeerIncomingActions, deletePeerIncomingEncryptedActions, applyPeerSeqIn,
      Table.mem_filter, decide_eq_true_eq]
    refine and_congr_right fun _ => ⟨fun hlt _ => by omega, fun hle => ?_⟩
    have hmax := hle h
    omega
  · refine ⟨fun r => ?_, rfl, rfl⟩
    exact ⟨fun hr => ⟨hr, fun h' => absurd h' h⟩, fun hr => hr.1⟩

theorem foldl_enqueueResend : ∀ (ops : List DbOp) (db : ChatDb),
    (∀ op ∈ ops, ∃ f t, op = .enqueueResend f t) →
    (ops.foldl DbOp.apply db).outgoing = db.outgoing
      ∧ (ops.foldl DbOp.apply db).encryptionKeys = db.encryptionKeys
  | [], _, _ => ⟨rfl, rfl⟩
  | op :: ops, db, h => by
    obtain ⟨f, t, rfl⟩ := h op List.mem_cons_self
    exact foldl_enqueueResend ops _ fun op hop => h op (List.mem_cons_of_mem _ hop)

theorem foldl_resendOps (l : List SeqAction) (db : ChatDb) :
    ((resendOps l).foldl DbOp.apply db).outgoing = db.outgoing
      ∧ ((resendOps l).foldl DbOp.apply db).encryptionKeys = db.encryptionKeys := by
  refine foldl_enqueueResend _ db fun op hop => ?_
  obtain ⟨a, -, ha⟩ := List.mem_filterMap.mp hop
  split_ifs at ha
  split at ha
  · exact ⟨_, _, (Option.some.inj ha).symm⟩
  · cases ha

theorem foldl_layerOps (peerLayer : ℕ) (l : List SeqAction) (db : ChatDb) :
    (∃ new : List (ℕ × OutgoingRow),
        ((layerOps peerLayer l layerId).foldl DbOp.apply db).outgoing.rows
          = db.outgoing.rows ++ new ∧ ∀ r ∈ new, db.outgoing.seq < r.1)
      ∧ ((layerOps peerLayer l layerId).foldl DbOp.apply db).encryptionKeys
        = db.encryptionKeys := by
  unfold layerOps
  dsimp only
  split_ifs
  · refine ⟨⟨[_], rfl, fun r hr => ?_⟩, rfl⟩
    rw [List.mem_singleton] at hr
    exact hr ▸ Nat.lt_succ_self _
  · exact ⟨⟨[], (List.append_nil _).symm, by simp⟩, rfl⟩
  · exact ⟨⟨[], (List.append_nil _).symm, by simp⟩, rfl⟩

/-- A row is left if and only if the confirmed number does not reach it; the keys are those left by
the discard. -/
theorem afterPoll_spec :
    (∀ r ∈ (asked db snap resendId).outgoing.rows,
        r ∈ (afterPoll db snap resendId layerId).outgoing.rows
          ↔ (0 < (pollSelection db snap).maxSeqIn
            → (pollSelection db snap).maxSeqIn ≤ r.2.seq_out))
      ∧ (afterPoll db snap resendId layerId).encryptionKeys
        = (if 0 < (pollSelection db snap).maxSeqIn then
            discardEncryptionKeys db.encryptionKeys (pollSelection db snap).maxSeqIn
          else db.encryptionKeys) := by
  obtain ⟨hrows, hseq, hkeys⟩ :=
    foldl_writeOps (pollSelection db snap) (asked db snap resendId)
  rw [asked_keys] at hkeys
  have hafter : afterPoll db snap resendId layerId
      = (layerOps db.peerLayer (pollSelection db snap).actionsToProcess layerId).foldl DbOp.apply
          ((resendOps (pollSelection db snap).actionsToProcess).foldl DbOp.apply
            ((writeOps (pollSelection db snap)).foldl DbOp.apply (asked db snap resendId))) := by
    simp only [afterPoll, pollBlock, asked, List.foldl_append]
    rfl
  obtain ⟨hresend, hresendKeys⟩ := foldl_resendOps (pollSelection db snap).actionsToProcess
    ((writeOps (pollSelection db snap)).foldl DbOp.apply (asked db snap resendId))
  obtain ⟨⟨new, hnew, hid⟩, hlayerKeys⟩ := foldl_layerOps layerId db.peerLayer
    (pollSelection db snap).actionsToProcess
    ((resendOps (pollSelection db snap).actionsToProcess).foldl DbOp.apply
      ((writeOps (pollSelection db snap)).foldl DbOp.apply (asked db snap resendId)))
  rw [hafter]
  refine ⟨fun r hr => ?_, by rw [hlayerKeys, hresendKeys, hkeys]⟩
  rw [hnew, List.mem_append, hresend, hrows]
  -- The rows a poll adds later have ids of their own.
  have hold : r ∉ new := by
    intro hmem
    have hlt := hid r hmem
    have hle := (asked db snap resendId).outgoing.bounded r hr
    rw [hresend, hseq] at hlt
    omega
  exact ⟨fun h => (h.resolve_right hold).2, fun h => Or.inl ⟨hr, h⟩⟩

theorem discard_eq_of_le (keys : List EncryptionKeyData) {n m : Int} (hle : n ≤ m)
    (h : discardEncryptionKeys keys n ≠ keys) :
    discardEncryptionKeys keys m = discardEncryptionKeys keys n := by
  by_cases hn : n > maxKeySeqOut keys
  · rw [discardEncryptionKeys, discardEncryptionKeys, if_pos hn, if_pos (by omega)]
  · exact absurd (by rw [discardEncryptionKeys, if_neg hn]) h

/-- The block of a poll lets the peer confirm only what was sent exactly where the condition
holds. -/
theorem confirmSafe_iff :
    ConfirmSafe db snap resendId layerId ↔ ConfirmCondition db snap resendId := by
  obtain ⟨hrows, hkeys⟩ := afterPoll_spec db snap resendId layerId
  obtain ⟨hmem, -, hle⟩ := foldl_max_spec (pollTurn db snap) (-1)
  have hmax : (pollSelection db snap).maxSeqIn
      = (pollTurn db snap).foldl (fun x a => max x a.seqIn) (-1) :=
    (pollSelection_rest db snap).2.2.2
  rw [← hmax] at hmem hle
  constructor
  · intro h a ha _ hpos r hr
    have ham := hle a ha
    refine ⟨fun hlt => ?_, fun hkey => ?_⟩
    · have hgone : r ∉ (afterPoll db snap resendId layerId).outgoing.rows := by
        rw [hrows r hr]
        intro hkept
        have hM := hkept (by omega)
        omega
      exact (h.rows r hr hgone).2
    · have hdiscard := discard_eq_of_le db.encryptionKeys ham fun heq => hkey (by rw [heq])
      refine h.keys r hr ?_
      rw [hkeys, if_pos (by omega), hdiscard]
      exact hkey
  · intro h
    -- A positive maximum is that of one of the messages in turn.
    have hattained : 0 < (pollSelection db snap).maxSeqIn → ∃ a ∈ pollTurn db snap,
        a.seqIn = (pollSelection db snap).maxSeqIn := by
      intro hpos
      rcases hmem with hmem | hmem
      · omega
      · exact hmem
    refine ⟨fun r hr hgone => ?_, fun r hr hkey => ?_⟩
    · rw [hrows r hr, Classical.not_imp, not_le] at hgone
      obtain ⟨hpos, hlt⟩ := hgone
      obtain ⟨a, ha, haM⟩ := hattained hpos
      have hconfirmed : ∃ b ∈ pollTurn db snap,
          b.seqIn ≤ currentPeerSentSeqOut db + 1 ∧ r.2.seq_out < b.seqIn := by
        by_cases hsent : a.seqIn ≤ currentPeerSentSeqOut db + 1
        · exact ⟨a, ha, hsent, by omega⟩
        · exact (h a ha (by omega) (by omega) r hr).1 (by omega)
      obtain ⟨b, hb, hbsent, hbr⟩ := hconfirmed
      exact ⟨by omega, b, hb, hbsent, hbr⟩
    · rw [hkeys] at hkey
      split_ifs at hkey with hpos
      · obtain ⟨a, ha, haM⟩ := hattained hpos
        rw [← haM] at hkey
        by_cases hsent : a.seqIn ≤ currentPeerSentSeqOut db + 1
        · exact ⟨a, ha, hsent, hkey⟩
        · exact (h a ha (by omega) (by omega) r hr).2 hkey
      · exact absurd rfl hkey

end Confirm

/-- Two messages are enqueued and none is sent. The peer's first message says it has received five:
both are deleted. -/
theorem confirm_deletes_unsent :
    let db₀ := (enqueuePeerOutgoingAction (.fresh 46 true [])
      (.message 1 46 0 (.content []) none) true).1
    let db₁ := (enqueuePeerOutgoingAction db₀ (.message 2 46 0 (.content []) none) true).1
    let db := enqueuePeerIncomingActions db₁ [⟨5, 0, ⟨46, .message 10⟩, by decide⟩]
    db.outgoing.rows.map (·.2.seq_out) = [0, 1] ∧ currentPeerSentSeqOut db = -1
      ∧ (afterPoll db (dequeuePeerIncomingActions db) 0 0).outgoing.rows = []
      ∧ ¬ ConfirmSafe db (dequeuePeerIncomingActions db) 0 0 := by
  intro db₀ db₁ db
  have hafter : (afterPoll db (dequeuePeerIncomingActions db) 0 0).outgoing.rows = [] := by decide
  refine ⟨by decide, by decide, hafter, fun h => ?_⟩
  have hrow : (1, ⟨0, 0, .message 1 46 0 (.content []) none⟩)
      ∈ (asked db (dequeuePeerIncomingActions db) 0).outgoing.rows := by decide
  obtain ⟨hsent, -⟩ := h.rows _ hrow (by rw [hafter]; exact List.not_mem_nil)
  exact absurd hsent (by decide)

end Onegram
