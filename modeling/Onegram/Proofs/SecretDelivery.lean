import Onegram.Proofs.SecretGap

/-!
# Delivery in order

The numbers of the messages handed to `_processIncomingMessage` are 0, 1, 2, … in every run in which
a poll starts only after the writes of the one before it, and never meets a request to resend past
a gap (`handed_in_order`). A request past a gap is processed and deleted out of turn, so its number
is missing when its turn comes; a poll that starts too early processes what the one before it did
(`handed_out_of_order`).

The invariant is that everything stored is handed, or in its table and not about to be deleted.
-/

namespace Onegram

open Gap Run

/-! ## A poll that meets no request past the gap -/

/-- Every request to resend has the numbers before it at hand. -/
def NoEarlyResend (db : ChatDb) (snap : IncomingSnapshot) : Prop :=
  ∀ a ∈ mergedActions db snap, isResendAction a.action = true →
    ∀ j, snap.nextExpectedSeqOut ≤ j → j < a.seqOut → j ∈ seqOuts (mergedActions db snap)

theorem noEarlyResend_of_plain {db : ChatDb} {snap : IncomingSnapshot}
    (h : ∀ a ∈ mergedActions db snap, isResendAction a.action = false) : NoEarlyResend db snap := by
  intro a ha hr
  rw [h a ha] at hr
  cases hr

theorem seqOuts_inTurn : ∀ (l : List SeqAction) (m : Int),
    seqOuts (inTurn m l)
      = (List.range (advance m (seqOuts l) - m).toNat).map fun i : ℕ => m + (i : Int)
  | [], m => by simp [seqOuts, inTurn]
  | a :: l, m => by
    have hcons : seqOuts (a :: l) = a.seqOut :: seqOuts l := rfl
    rw [hcons, advance_cons, inTurn]
    split_ifs with h
    · have hle := le_advance (seqOuts l) (m + 1)
      have hlen : (advance (m + 1) (seqOuts l) - m).toNat
          = (advance (m + 1) (seqOuts l) - (m + 1)).toNat + 1 := by omega
      have htail : seqOuts (a :: inTurn (m + 1) l) = a.seqOut :: seqOuts (inTurn (m + 1) l) := rfl
      rw [htail, seqOuts_inTurn l (m + 1), hlen, List.range_succ_eq_map, List.map_cons,
        List.map_map, h]
      refine congr_arg₂ _ (by simp) (List.map_congr_left fun i _ => ?_)
      simp only [Function.comp_apply, Nat.succ_eq_add_one, Nat.cast_add, Nat.cast_one]
      omega
    · exact seqOuts_inTurn l m

theorem scan_process : ∀ (l : List SeqAction) (sel : Selection),
    (seqOuts l).Pairwise (· ≤ ·) →
    (∀ a ∈ l, isResendAction a.action = true →
      a.seqOut ≤ advance sel.nextExpectedSeqOut (seqOuts l)) →
    (l.foldl selectNumbered sel).actionsToProcess
      = sel.actionsToProcess ++ inTurn sel.nextExpectedSeqOut l
  | [], sel, _, _ => by simp [inTurn]
  | a :: l, sel, hsorted, hresend => by
    have hcons : seqOuts (a :: l) = a.seqOut :: seqOuts l := rfl
    have hnext : advance (selectNumbered sel a).nextExpectedSeqOut (seqOuts l)
        = advance sel.nextExpectedSeqOut (seqOuts (a :: l)) := by
      rw [(selectNumbered_numbers sel a).1]
      rfl
    have ih := scan_process l (selectNumbered sel a) (List.pairwise_cons.mp hsorted).2
      fun b hb hr => hnext ▸ hresend b (List.mem_cons_of_mem _ hb) hr
    rw [List.foldl_cons, ih, (selectNumbered_numbers sel a).1, inTurn]
    split_ifs with heq
    · rw [selectNumbered_of_eq heq, List.append_assoc, List.singleton_append]
    · congr 1
      rcases lt_or_gt_of_ne heq with hlt | hgt
      · rw [selectNumbered_of_lt hlt, (remove_rest _ a).2.2.2.2]
      · -- A request to resend would lie past the gap.
        have hpast : advance sel.nextExpectedSeqOut (seqOuts (a :: l)) = sel.nextExpectedSeqOut := by
          refine advance_of_lt _ fun x hx => ?_
          rcases List.mem_cons.mp (hcons ▸ hx) with rfl | hx
          · exact hgt
          · exact lt_of_lt_of_le hgt ((List.pairwise_cons.mp (hcons ▸ hsorted)).1 x hx)
        have hplain : isResendAction a.action = false := by
          by_contra hr
          have hle := hresend a List.mem_cons_self (by simpa using hr)
          omega
        rw [selectNumbered_of_waits ⟨hgt, hplain⟩]

section Poll

variable {db : ChatDb} {snap : IncomingSnapshot}

theorem unnumbered_eq_nil (h : ∀ a ∈ mergedActions db snap, 17 ≤ a.action.layer) :
    unnumbered db.peerLayer (mergedActions db snap) = [] := by
  unfold unnumbered
  split_ifs
  · rfl
  · rcases hm : mergedActions db snap with _ | ⟨a, l⟩
    · rfl
    · have ha := h a (hm ▸ List.mem_cons_self)
      rw [List.takeWhile_cons_of_neg (by simpa using ha)]

theorem pollNumbered_eq (h : ∀ a ∈ mergedActions db snap, 17 ≤ a.action.layer) :
    pollNumbered db snap = mergedActions db snap := by
  have happend := unnumbered_append_numbered db.peerLayer (mergedActions db snap)
  rw [unnumbered_eq_nil h] at happend
  exact happend

/-- A poll of numbered messages processes those in turn, and removes those below the number it
then expects. -/
theorem pollSelection_inTurn (hlayer : ∀ a ∈ mergedActions db snap, 17 ≤ a.action.layer)
    (hearly : NoEarlyResend db snap) :
    (pollSelection db snap).actionsToProcess
        = inTurn snap.nextExpectedSeqOut (mergedActions db snap)
      ∧ ∀ type, ∀ id ∈ (pollSelection db snap).removed type, ∃ a ∈ mergedActions db snap,
        a.actionId = ⟨type, id⟩ ∧ a.seqOut < (pollSelection db snap).nextExpectedSeqOut := by
  have hnumbered := pollNumbered_eq hlayer
  have hfrontier := pollSelection_frontier db snap
  rw [hnumbered] at hfrontier
  have hresend : ∀ a ∈ mergedActions db snap, isResendAction a.action = true →
      a.seqOut ≤ (pollSelection db snap).nextExpectedSeqOut := by
    intro a ha hr
    by_contra hlt
    exact hfrontier.notMem (hearly a ha hr _ hfrontier.le (by omega))
  refine ⟨?_, fun type id hid => ?_⟩
  · have hsorted := seqOuts_pollNumbered_sorted db snap
    rw [(pollSelection_rest db snap).1, hnumbered] at hresend
    rw [hnumbered] at hsorted
    have hscan := scan_process (mergedActions db snap)
      (scanStart db.peerLayer snap.nextExpectedSeqOut (mergedActions db snap)) hsorted hresend
    have hselect : selectActions db.peerLayer snap.nextExpectedSeqOut (mergedActions db snap)
        = (mergedActions db snap).foldl selectNumbered
          (scanStart db.peerLayer snap.nextExpectedSeqOut (mergedActions db snap)) := by
      rw [selectActions_eq]
      exact congr_arg _ hnumbered
    rw [pollSelection, Selection.processed, (foldl_remove _ _).2.2.2.2.2, hselect, hscan]
    simp [scanStart, unnumbered_eq_nil hlayer]
  · have hmem := (pollSelection_removed db snap type).mem_iff.mp hid
    rw [unnumbered_eq_nil hlayer, hnumbered] at hmem
    simp only [idsOf, List.filter_nil, List.map_nil, List.nil_append, List.mem_map,
      List.mem_filter, decide_eq_true_eq] at hmem
    obtain ⟨a, ⟨⟨ha, hw⟩, htype⟩, hvalue⟩ := hmem
    refine ⟨a, ha, by rw [← htype, ← hvalue], ?_⟩
    have hne : a.seqOut ≠ (pollSelection db snap).nextExpectedSeqOut := fun heq =>
      hfrontier.notMem (heq ▸ List.mem_map_of_mem ha)
    rcases hr : isResendAction a.action with _ | _
    · have hle : ¬ (pollSelection db snap).nextExpectedSeqOut < a.seqOut := fun hlt => hw ⟨hlt, hr⟩
      omega
    · have hle := hresend a ha hr
      omega

end Poll

/-! ## What is under way -/

/-- The ids of a table that a block on the database queue will delete. -/
def DbOp.deletes : ActionIdType → DbOp → List ℕ
  | .generic, .deleteIncoming actionIds => actionIds
  | .encrypted, .deleteIncomingEncrypted actionIds => actionIds
  | _, _ => []

def pendingIds (type : ActionIdType) (ops : List DbOp) : List ℕ := ops.flatMap (·.deletes type)

/-- A deletion of messages or the new number: the writes of a poll. -/
def DbOp.isWrite : DbOp → Bool
  | .deleteIncoming _ => true
  | .deleteIncomingEncrypted _ => true
  | .applySeqIn _ => true
  | _ => false

/-- Messages of layers with numbers. -/
def DbOp.InSequence : DbOp → Prop
  | .enqueueIncoming actions => ∀ r ∈ actions, 17 ≤ r.action.layer
  | .enqueueIncomingEncrypted actions =>
    ∀ m ∈ actions, ∀ p, m.payload = some p → 17 ≤ p.layer
  | _ => True

/-- What touches neither the incoming tables nor the next number. -/
def DbOp.isQuiet : DbOp → Bool
  | .setResendSeqIn _ => true
  | .enqueueService _ _ _ => true
  | .confirmSeqOut _ => true
  | .discardKeys _ => true
  | .enqueueResend _ _ => true
  | .setPeerLayer _ => true
  | _ => false

section Quiet

variable {op : DbOp}

theorem apply_quiet (h : op.isQuiet = true) (db : ChatDb) :
    (op.apply db).incoming = db.incoming ∧ (op.apply db).incomingEncrypted = db.incomingEncrypted
      ∧ (op.apply db).seq_in = db.seq_in := by
  cases op <;> first | exact ⟨rfl, rfl, rfl⟩ | cases h

theorem runDbOp_quiet (h : op.isQuiet = true) (s : IncomingQueue) :
    runDbOp s op = { s with db := op.apply s.db } := by
  cases op <;> first | rfl | cases h

theorem quiet_spec (h : op.isQuiet = true) :
    (∀ type, op.deletes type = []) ∧ op.isWrite = false ∧ op.InSequence := by
  cases op <;> first | exact ⟨fun type => by cases type <;> rfl, rfl, trivial⟩ | cases h

theorem pendingIds_quiet (type : ActionIdType) {ops : List DbOp} (h : ∀ op ∈ ops, op.isQuiet = true) :
    pendingIds type ops = [] := by
  rw [pendingIds, List.flatMap_eq_nil_iff]
  exact fun op hop => (quiet_spec (h op hop)).1 type

/-- No write is under way, so no deletion is. -/
theorem pendingIds_of_no_write (type : ActionIdType) {ops : List DbOp}
    (h : ∀ op ∈ ops, op.isWrite = false) : pendingIds type ops = [] := by
  rw [pendingIds, List.flatMap_eq_nil_iff]
  intro op hop
  have hw := h op hop
  cases op <;> cases type <;> first | rfl | cases hw

end Quiet

/-- What a poll dispatches: its writes, among operations that do not matter here. -/
theorem pollBlock_ops (db : ChatDb) (snap : IncomingSnapshot) (resendId layerId : Int) :
    ∃ before after, (∀ op ∈ before, op.isQuiet = true) ∧ (∀ op ∈ after, op.isQuiet = true)
      ∧ (pollBlock db snap resendId layerId).2 = before
        ++ [.deleteIncoming (pollSelection db snap).removeActionIds,
          .deleteIncomingEncrypted (pollSelection db snap).removeEncryptedActionIds,
          .applySeqIn (pollSelection db snap).nextExpectedSeqOut] ++ after := by
  refine ⟨askOps db.isCreator snap.actions (pollSelection db snap) resendId,
    (if (pollSelection db snap).maxSeqIn > 0 then
        [.confirmSeqOut ((pollSelection db snap).maxSeqIn - 1),
          .discardKeys (pollSelection db snap).maxSeqIn] else [])
      ++ resendOps (pollSelection db snap).actionsToProcess
      ++ layerOps db.peerLayer (pollSelection db snap).actionsToProcess layerId, ?_, ?_, ?_⟩
  · intro op hop
    unfold askOps at hop
    split_ifs at hop
    · rcases List.mem_cons.mp hop with rfl | hop
      · rfl
      · split at hop
        · rw [List.mem_singleton.mp hop]; rfl
        · cases hop
    · rw [List.mem_singleton.mp hop]; rfl
  · intro op hop
    simp only [List.mem_append] at hop
    rcases hop with (hop | hop) | hop
    · split_ifs at hop
      · simp only [List.mem_cons, List.not_mem_nil, or_false] at hop
        rcases hop with rfl | rfl <;> rfl
      · cases hop
    · obtain ⟨a, -, ha⟩ := List.mem_filterMap.mp hop
      split_ifs at ha
      split at ha
      · rw [← Option.some.inj ha]; rfl
      · cases ha
    · unfold layerOps at hop
      dsimp only at hop
      split_ifs at hop
      · simp only [List.mem_cons, List.not_mem_nil, or_false] at hop
        rcases hop with rfl | rfl <;> rfl
      · rw [List.mem_singleton.mp hop]; rfl
      · cases hop
  · simp only [pollBlock, writeOps, pollSelection, List.append_assoc]
    rfl

/-! ## The invariant -/

/-- The next number is that of messages handed so far. -/
def handedCount (s : IncomingQueue) : Int := s.handed.length

/-- A message handed on is one that was stored, plain or encrypted. -/
def StoredAs (s : IncomingQueue) (a : SeqAction) : Prop :=
  (∃ r ∈ s.stored, a.action = r.action ∧ a.seqIn = r.seqIn ∧ a.seqOut = r.seqOut)
    ∨ ∃ m ∈ s.storedEncrypted, ∃ p, m.payload = some p ∧ ∃ id, a = encryptedAction id p

/-- A snapshot is of the tables as they still are. -/
structure Staged (s : IncomingQueue) (snap : IncomingSnapshot) : Prop where
  next : snap.nextExpectedSeqOut = handedCount s
  actions : ∀ a ∈ snap.actions, ∃ r ∈ s.db.incoming.rows, a = genericAction r
  encrypted : ∀ r ∈ snap.encryptedActions, r ∈ s.db.incomingEncrypted.rows
  noWrite : ∀ op ∈ s.dbQueue, op.isWrite = false

structure Delivering (s : IncomingQueue) : Prop where
  handed : s.handed.map (·.seqOut) = (List.range s.handed.length).map fun i : ℕ => (i : Int)
  storedAs : ∀ a ∈ s.handed, StoredAs s a
  plain : s.db.incoming.Keeps (pendingIds .generic s.dbQueue) s.stored
    fun r => r.seqOut < handedCount s
  encrypted : s.db.incomingEncrypted.Keeps (pendingIds .encrypted s.dbQueue) s.storedEncrypted
    fun m => ∃ p, m.payload = some p ∧ halfSeq p.seqOut < handedCount s
  layers : ∀ r ∈ s.stored, 17 ≤ r.action.layer
  encryptedLayers : ∀ m ∈ s.storedEncrypted, ∀ p, m.payload = some p → 17 ≤ p.layer
  inSequence : ∀ op ∈ s.dbQueue, op.InSequence
  applies : ∀ n, .applySeqIn n ∈ s.dbQueue → n = handedCount s
  applied : (∀ n, .applySeqIn n ∉ s.dbQueue) → s.db.seq_in.getD 0 = handedCount s
  staged : s.stageQueue = [] ∨ ∃ snap, s.stageQueue = [snap] ∧ Staged s snap

theorem StoredAs.mono {s s' : IncomingQueue} {a : SeqAction} (hplain : s.stored ⊆ s'.stored)
    (hencrypted : s.storedEncrypted ⊆ s'.storedEncrypted) (h : StoredAs s a) : StoredAs s' a := by
  rcases h with ⟨r, hr, h⟩ | ⟨m, hm, h⟩
  · exact Or.inl ⟨r, hplain hr, h⟩
  · exact Or.inr ⟨m, hencrypted hm, h⟩

theorem pendingIds_append (type : ActionIdType) (ops ops' : List DbOp) :
    pendingIds type (ops ++ ops') = pendingIds type ops ++ pendingIds type ops' :=
  List.flatMap_append

theorem Table.insertAll_subset {α : Type*} (t : Table α) (as : List α) :
    t.rows ⊆ (t.insertAll as).rows := by
  obtain ⟨new, hrows, -⟩ := Table.insertAll_rows as t
  exact hrows ▸ List.subset_append_left _ _

theorem payload_of_decrypt {db : ChatDb} {m : EncryptedMessage} {p : Payload}
    (h : decryptEncryptedMessageData db m = some p) : m.payload = some p := by
  unfold decryptEncryptedMessageData at h
  dsimp only at h
  split_ifs at h
  split at h
  · cases h
  · split_ifs at h
    rw [← h]
    assumption

theorem mem_mergedActions {db : ChatDb} {snap : IncomingSnapshot} {a : SeqAction} :
    a ∈ mergedActions db snap ↔ a ∈ snap.actions ∨ ∃ r ∈ snap.encryptedActions, ∃ p,
      decryptEncryptedMessageData db r.2 = some p ∧ a = encryptedAction r.1 p := by
  simp only [mergedActions, List.mem_insertionSort, List.mem_append, decryptedActions,
    List.mem_filterMap, Option.map_eq_some_iff, eq_comm]

theorem mem_of_mem_inTurn {a : SeqAction} : ∀ {l : List SeqAction} {m : Int},
    a ∈ inTurn m l → a ∈ l
  | b :: l, m, h => by
    rw [inTurn] at h
    split_ifs at h
    · rcases List.mem_cons.mp h with rfl | h
      · exact List.mem_cons_self
      · exact List.mem_cons_of_mem _ (mem_of_mem_inTurn h)
    · exact List.mem_cons_of_mem _ (mem_of_mem_inTurn h)

namespace Delivering

variable {s : IncomingQueue} {op : DbOp} {rest : List DbOp}

/-- The invariant reads nothing of the chat but the incoming tables and the next number. -/
theorem congr_db (h : Delivering s) {db : ChatDb} (hin : db.incoming = s.db.incoming)
    (henc : db.incomingEncrypted = s.db.incomingEncrypted) (hseq : db.seq_in = s.db.seq_in) :
    Delivering { s with db := db } where
  handed := h.handed
  storedAs := h.storedAs
  plain := by rw [hin]; exact h.plain
  encrypted := by rw [henc]; exact h.encrypted
  layers := h.layers
  encryptedLayers := h.encryptedLayers
  inSequence := h.inSequence
  applies := h.applies
  applied := by rw [hseq]; exact h.applied
  staged := by
    refine h.staged.imp_right fun ⟨snap, hstage, hs⟩ => ⟨snap, hstage, hs.next, ?_, ?_, hs.noWrite⟩
    · rw [hin]; exact hs.actions
    · rw [henc]; exact hs.encrypted

theorem dispatch (h : Delivering s) (hwrite : op.isWrite = false) (hop : op.InSequence) :
    Delivering { s with dbQueue := s.dbQueue ++ [op] } := by
  have hpending : ∀ type, pendingIds type (s.dbQueue ++ [op]) = pendingIds type s.dbQueue := by
    intro type
    have hone : ∀ o ∈ [op], o.isWrite = false := by simpa using hwrite
    rw [pendingIds_append, pendingIds_of_no_write type hone, List.append_nil]
  have hnot : ∀ n, op ≠ .applySeqIn n := fun n heq => by rw [heq] at hwrite; cases hwrite
  refine ⟨h.handed, h.storedAs, by rw [hpending]; exact h.plain, by rw [hpending]; exact h.encrypted,
    h.layers, h.encryptedLayers, fun op' hop' => ?_, fun n hn => ?_, fun hn => ?_, ?_⟩
  · rcases List.mem_append.mp hop' with hop' | hop'
    · exact h.inSequence op' hop'
    · exact List.mem_singleton.mp hop' ▸ hop
  · rcases List.mem_append.mp hn with hn | hn
    · exact h.applies n hn
    · exact absurd (List.mem_singleton.mp hn).symm (hnot n)
  · exact h.applied fun n hmem => hn n (List.mem_append_left _ hmem)
  · refine h.staged.imp_right fun ⟨snap, hstage, hs⟩ =>
      ⟨snap, hstage, hs.next, hs.actions, hs.encrypted, fun op' hop' => ?_⟩
    rcases List.mem_append.mp hop' with hop' | hop'
    · exact hs.noWrite op' hop'
    · exact List.mem_singleton.mp hop' ▸ hwrite

/-! ### A block of the database queue -/

/-- The block taken off the queue, before it has run. -/
theorem taken (h : Delivering s) (hq : s.dbQueue = op :: rest) :
    (∀ op' ∈ rest, op'.InSequence) ∧ (∀ n, .applySeqIn n ∈ rest → n = handedCount s)
      ∧ (s.stageQueue = [] ∨ ∃ snap, s.stageQueue = [snap] ∧ Staged { s with dbQueue := rest } snap
        ∧ op.isWrite = false) := by
  have hsub : rest ⊆ s.dbQueue := hq ▸ List.subset_cons_self _ _
  refine ⟨fun op' hop' => h.inSequence op' (hsub hop'), fun n hn => h.applies n (hsub hn), ?_⟩
  refine h.staged.imp_right fun ⟨snap, hstage, hs⟩ => ⟨snap, hstage, ?_, ?_⟩
  · exact ⟨hs.next, hs.actions, hs.encrypted, fun op' hop' => hs.noWrite op' (hsub hop')⟩
  · exact hs.noWrite op (hq ▸ List.mem_cons_self)

theorem applied_of_rest (h : Delivering s) (hq : s.dbQueue = op :: rest)
    (hnot : ∀ n, op ≠ .applySeqIn n) (hn : ∀ n, .applySeqIn n ∉ rest) :
    s.db.seq_in.getD 0 = handedCount s := by
  refine h.applied fun n hmem => ?_
  rw [hq] at hmem
  rcases List.mem_cons.mp hmem with heq | hmem
  · exact hnot n heq.symm
  · exact hn n hmem

/-- A block that is no write leaves the deletions under way as they are. -/
theorem pending_of_rest (hq : s.dbQueue = op :: rest) (hdel : ∀ type, op.deletes type = [])
    (type : ActionIdType) : pendingIds type s.dbQueue = pendingIds type rest := by
  rw [hq, pendingIds, List.flatMap_cons, hdel, List.nil_append]
  rfl

theorem runDbOp_of_quiet (h : Delivering s) (hq : s.dbQueue = op :: rest)
    (hquiet : op.isQuiet = true) : Delivering (runDbOp { s with dbQueue := rest } op) := by
  obtain ⟨hdel, hwrite, -⟩ := quiet_spec hquiet
  obtain ⟨hseq, happlies, hstaged⟩ := h.taken hq
  obtain ⟨hin, henc, hnext⟩ := apply_quiet hquiet s.db
  have hnot : ∀ n, op ≠ .applySeqIn n := fun n heq => by rw [heq] at hwrite; cases hwrite
  have hrest : Delivering { s with dbQueue := rest } :=
    ⟨h.handed, h.storedAs, pending_of_rest hq hdel .generic ▸ h.plain,
      pending_of_rest hq hdel .encrypted ▸ h.encrypted, h.layers, h.encryptedLayers, hseq, happlies,
      h.applied_of_rest hq hnot, hstaged.imp_right fun ⟨snap, hs, hs', _⟩ => ⟨snap, hs, hs'⟩⟩
  rw [runDbOp_quiet hquiet]
  exact hrest.congr_db hin henc hnext

theorem runDbOp_enqueue (h : Delivering s) {actions : List IncomingRow}
    (hq : s.dbQueue = .enqueueIncoming actions :: rest) :
    Delivering (runDbOp { s with dbQueue := rest } (.enqueueIncoming actions)) := by
  obtain ⟨hseq, happlies, hstaged⟩ := h.taken hq
  have hdel : ∀ type, (DbOp.enqueueIncoming actions).deletes type = [] := by
    intro type; cases type <;> rfl
  refine ⟨h.handed, fun a ha => ?_, ?_, ?_, fun r hr => ?_, h.encryptedLayers, hseq, happlies,
    h.applied_of_rest hq (by simp), ?_⟩
  · exact (h.storedAs a ha).mono (List.subset_append_left _ _) (List.Subset.refl _)
  · exact (pending_of_rest hq hdel .generic ▸ h.plain).insertAll actions
  · exact pending_of_rest hq hdel .encrypted ▸ h.encrypted
  · rcases List.mem_append.mp hr with hr | hr
    · exact h.layers r hr
    · exact h.inSequence (.enqueueIncoming actions) (hq ▸ List.mem_cons_self) r hr
  · refine hstaged.imp_right fun ⟨snap, hstage, hs, _⟩ =>
      ⟨snap, hstage, hs.next, fun a ha => ?_, hs.encrypted, hs.noWrite⟩
    obtain ⟨r, hr, rfl⟩ := hs.actions a ha
    exact ⟨r, Table.insertAll_subset _ actions hr, rfl⟩

theorem runDbOp_enqueueEncrypted (h : Delivering s) {actions : List EncryptedMessage}
    (hq : s.dbQueue = .enqueueIncomingEncrypted actions :: rest) :
    Delivering (runDbOp { s with dbQueue := rest } (.enqueueIncomingEncrypted actions)) := by
  obtain ⟨hseq, happlies, hstaged⟩ := h.taken hq
  have hdel : ∀ type, (DbOp.enqueueIncomingEncrypted actions).deletes type = [] := by
    intro type; cases type <;> rfl
  refine ⟨h.handed, fun a ha => ?_, ?_, ?_, h.layers, fun m hm => ?_, hseq, happlies,
    h.applied_of_rest hq (by simp), ?_⟩
  · exact StoredAs.mono (s := s) (fun _ hr => hr) (List.subset_append_left _ _) (h.storedAs a ha)
  · exact pending_of_rest hq hdel .generic ▸ h.plain
  · exact (pending_of_rest hq hdel .encrypted ▸ h.encrypted).insertAll actions
  · rcases List.mem_append.mp hm with hm | hm
    · exact h.encryptedLayers m hm
    · exact h.inSequence (.enqueueIncomingEncrypted actions) (hq ▸ List.mem_cons_self) m hm
  · refine hstaged.imp_right fun ⟨snap, hstage, hs, _⟩ =>
      ⟨snap, hstage, hs.next, hs.actions, fun r hr => ?_, hs.noWrite⟩
    exact Table.insertAll_subset _ actions (hs.encrypted r hr)

theorem runDbOp_dequeue (h : Delivering s) (hq : s.dbQueue = .dequeueIncoming :: rest)
    (hstage : s.stageQueue = []) (hwrite : ∀ op ∈ rest, op.isWrite = false) :
    Delivering (runDbOp { s with dbQueue := rest } .dequeueIncoming) := by
  obtain ⟨hseq, happlies, -⟩ := h.taken hq
  have hdel : ∀ type, DbOp.dequeueIncoming.deletes type = [] := by intro type; cases type <;> rfl
  have happlied := h.applied_of_rest hq (by simp) fun n hn => by cases hwrite _ hn
  refine ⟨h.handed, h.storedAs, pending_of_rest hq hdel .generic ▸ h.plain,
    pending_of_rest hq hdel .encrypted ▸ h.encrypted, h.layers, h.encryptedLayers, hseq, happlies,
    fun _ => happlied, Or.inr ⟨dequeuePeerIncomingActions s.db, ?_, happlied, fun a ha => ?_,
      fun r hr => hr, hwrite⟩⟩
  · change s.stageQueue ++ _ = _
    rw [hstage, List.nil_append]
  · obtain ⟨r, hr, rfl⟩ := List.mem_map.mp ((List.mem_insertionSort _).mp ha)
    exact ⟨r, hr, rfl⟩

theorem runDbOp_write (h : Delivering s) (hq : s.dbQueue = op :: rest) (hwrite : op.isWrite = true) :
    Delivering (runDbOp { s with dbQueue := rest } op) := by
  obtain ⟨hseq, happlies, hstaged⟩ := h.taken hq
  have hnone : s.stageQueue = [] := by
    rcases hstaged with hnone | ⟨_, _, _, hno⟩
    · exact hnone
    · rw [hwrite] at hno; cases hno
  have hplain := h.plain
  have hencrypted := h.encrypted
  rw [hq] at hplain hencrypted
  cases op with
  | deleteIncoming ids =>
    exact ⟨h.handed, h.storedAs, hplain.deleteIds, hencrypted, h.layers, h.encryptedLayers, hseq,
      happlies, h.applied_of_rest hq (by simp), Or.inl hnone⟩
  | deleteIncomingEncrypted ids =>
    exact ⟨h.handed, h.storedAs, hplain, hencrypted.deleteIds, h.layers, h.encryptedLayers, hseq,
      happlies, h.applied_of_rest hq (by simp), Or.inl hnone⟩
  | applySeqIn n =>
    have hn : n = handedCount s := h.applies n (hq ▸ List.mem_cons_self)
    exact ⟨h.handed, h.storedAs, hplain, hencrypted, h.layers, h.encryptedLayers, hseq,
      happlies, fun _ => hn, Or.inl hnone⟩
  | _ => cases hwrite

/-! ### The block of a poll -/

theorem merged_layers (h : Delivering s) {snap : IncomingSnapshot} (hs : Staged s snap) :
    ∀ a ∈ mergedActions s.db snap, 17 ≤ a.action.layer := by
  intro a ha
  rcases mem_mergedActions.mp ha with ha | ⟨r, hr, p, hp, rfl⟩
  · obtain ⟨r, hr, rfl⟩ := hs.actions a ha
    exact h.layers r.2 (h.plain.stored_of_mem r hr)
  · exact h.encryptedLayers r.2 (h.encrypted.stored_of_mem r (hs.encrypted r hr)) p
      (payload_of_decrypt hp)

theorem merged_storedAs (h : Delivering s) {snap : IncomingSnapshot} (hs : Staged s snap) :
    ∀ a ∈ mergedActions s.db snap, StoredAs s a := by
  intro a ha
  rcases mem_mergedActions.mp ha with ha | ⟨r, hr, p, hp, rfl⟩
  · obtain ⟨r, hr, rfl⟩ := hs.actions a ha
    exact Or.inl ⟨r.2, h.plain.stored_of_mem r hr, rfl, rfl, rfl⟩
  · exact Or.inr ⟨r.2, h.encrypted.stored_of_mem r (hs.encrypted r hr), p, payload_of_decrypt hp,
      r.1, rfl⟩

theorem length_turn (h : Delivering s) {snap : IncomingSnapshot} (hs : Staged s snap) :
    handedCount s + (inTurn snap.nextExpectedSeqOut (mergedActions s.db snap)).length
      = (pollSelection s.db snap).nextExpectedSeqOut := by
  have hlen := congr_arg List.length
    (seqOuts_inTurn (mergedActions s.db snap) snap.nextExpectedSeqOut)
  have hrest := (pollSelection_rest s.db snap).1
  rw [pollNumbered_eq (h.merged_layers hs)] at hrest
  have hle := le_advance (seqOuts (mergedActions s.db snap)) snap.nextExpectedSeqOut
  have hnext := hs.next
  simp only [seqOuts, List.length_map, List.length_range] at hlen hrest hle
  omega

theorem stage (h : Delivering s) {snap : IncomingSnapshot} (hs : Staged s snap)
    (hearly : NoEarlyResend s.db snap) (resendId layerId : Int) :
    Delivering { s with
      stageQueue := []
      handed := s.handed ++ (pollBlock s.db snap resendId layerId).1
      dbQueue := s.dbQueue ++ (pollBlock s.db snap resendId layerId).2 } := by
  obtain ⟨before, after, hbefore, hafter, hops⟩ := pollBlock_ops s.db snap resendId layerId
  obtain ⟨hturn, hremoved⟩ := pollSelection_inTurn (h.merged_layers hs) hearly
  have hnext := h.length_turn hs
  have hblock : (pollBlock s.db snap resendId layerId).1
      = inTurn snap.nextExpectedSeqOut (mergedActions s.db snap) := hturn
  have hcount : handedCount s ≤ (pollSelection s.db snap).nextExpectedSeqOut :=
    hs.next ▸ (pollSelection_frontier s.db snap).le
  have hpending : ∀ type, pendingIds type (s.dbQueue ++ (pollBlock s.db snap resendId layerId).2)
      = pendingIds type s.dbQueue ++ (pollSelection s.db snap).removed type := by
    intro type
    rw [hops, pendingIds_append, pendingIds_append, pendingIds_append,
      pendingIds_quiet type hbefore, pendingIds_quiet type hafter]
    cases type <;> simp [pendingIds, DbOp.deletes, Selection.removed]
  have hcount' : ∀ (stage : List IncomingSnapshot) (ops : List DbOp), handedCount { s with
      stageQueue := stage
      handed := s.handed ++ inTurn snap.nextExpectedSeqOut (mergedActions s.db snap)
      dbQueue := ops } = (pollSelection s.db snap).nextExpectedSeqOut := by
    intro stage ops
    rw [← hnext]
    simp [handedCount]
  rw [hblock]
  refine ⟨?_, fun a ha => ?_, ?_, ?_, h.layers, h.encryptedLayers, fun op hop => ?_, fun n hn => ?_,
    fun hn => ?_, Or.inl rfl⟩
  · have hseq := seqOuts_inTurn (mergedActions s.db snap) snap.nextExpectedSeqOut
    have hlen := congr_arg List.length hseq
    simp only [seqOuts, List.length_map, List.length_range] at hseq hlen
    rw [List.map_append, h.handed, hseq, ← hlen, List.length_append, List.range_add,
      List.map_append, List.map_map, hs.next]
    simp [handedCount, Function.comp_def]
  · rcases List.mem_append.mp ha with ha | ha
    · exact h.storedAs a ha
    · exact h.merged_storedAs hs a (mem_of_mem_inTurn ha)
  · rw [hpending, hcount']
    refine h.plain.decide (fun r hr => lt_of_lt_of_le hr hcount) fun id hid => ?_
    obtain ⟨a, ha, hid, hlt⟩ := hremoved .generic id hid
    rcases mem_mergedActions.mp ha with ha | ⟨r, -, p, -, rfl⟩
    · obtain ⟨r, hr, rfl⟩ := hs.actions a ha
      cases hid
      exact ⟨r.2, hr, hlt⟩
    · cases hid
  · rw [hpending, hcount']
    refine h.encrypted.decide ?_ fun id hid => ?_
    · rintro m ⟨p, hp, hlt⟩
      exact ⟨p, hp, lt_of_lt_of_le hlt hcount⟩
    · obtain ⟨a, ha, hid, hlt⟩ := hremoved .encrypted id hid
      rcases mem_mergedActions.mp ha with ha | ⟨r, hr, p, hp, rfl⟩
      · obtain ⟨r, hr, rfl⟩ := hs.actions a ha
        cases hid
      · cases hid
        exact ⟨r.2, hs.encrypted r hr, p, payload_of_decrypt hp, hlt⟩
  · rw [hops] at hop
    simp only [List.mem_append, List.mem_cons, List.not_mem_nil, or_false] at hop
    rcases hop with hop | (hop | rfl | rfl | rfl) | hop
    · exact h.inSequence op hop
    · exact (quiet_spec (hbefore op hop)).2.2
    · trivial
    · trivial
    · trivial
    · exact (quiet_spec (hafter op hop)).2.2
  · rw [hcount']
    rw [hops] at hn
    simp only [List.mem_append, List.mem_cons, List.not_mem_nil, or_false] at hn
    rcases hn with hn | (hn | hn | hn | hn) | hn
    · cases hs.noWrite _ hn
    · cases hbefore _ hn
    · cases hn
    · cases hn
    · exact DbOp.applySeqIn.inj hn
    · cases hafter _ hn
  · refine absurd ?_ (hn (pollSelection s.db snap).nextExpectedSeqOut)
    simp [hops]

end Delivering

/-! ## Every run -/

def IncomingQueue.start (peerLayer : ℕ) (isCreator : Bool) (keys : List EncryptionKeyData) :
    IncomingQueue :=
  ⟨.fresh peerLayer isCreator keys, [], [], [], [], []⟩

/-- What arrives is of a layer with numbers, a dequeue runs only where no poll is under way, and
the block of a poll meets no request past a gap. -/
def Orderly (s : IncomingQueue) : QueueEvent → Prop
  | .enqueue actions => ∀ r ∈ actions, 17 ≤ r.action.layer
  | .enqueueEncrypted actions => ∀ m ∈ actions, ∀ p, m.payload = some p → 17 ≤ p.layer
  | .poll => True
  | .db =>
    match s.dbQueue with
    | .dequeueIncoming :: rest => s.stageQueue = [] ∧ ∀ op ∈ rest, op.isWrite = false
    | _ => True
  | .stage _ _ =>
    match s.stageQueue with
    | snap :: _ => NoEarlyResend s.db snap
    | [] => True
  | .storeKey _ _ _ => True

def QueueEvent.isStage : QueueEvent → Bool
  | .stage _ _ => true
  | _ => false

theorem delivering_start (peerLayer : ℕ) (isCreator : Bool) (keys : List EncryptionKeyData) :
    Delivering (.start peerLayer isCreator keys) := by
  refine ⟨rfl, ?_, ⟨?_, ?_, ?_⟩, ⟨?_, ?_, ?_⟩, ?_, ?_, ?_, ?_, fun _ => rfl, Or.inl rfl⟩
  all_goals simp [IncomingQueue.start, ChatDb.fresh, pendingIds]

theorem delivering_db {s : IncomingQueue} (h : Delivering s) (hok : Orderly s .db) :
    Delivering (queueStep s .db) := by
  rcases hq : s.dbQueue with _ | ⟨op, rest⟩
  · simpa only [queueStep, hq] using h
  · simp only [queueStep, hq]
    simp only [Orderly, hq] at hok
    cases op with
    | enqueueIncoming actions => exact h.runDbOp_enqueue hq
    | enqueueIncomingEncrypted actions => exact h.runDbOp_enqueueEncrypted hq
    | dequeueIncoming => exact h.runDbOp_dequeue hq hok.1 hok.2
    | deleteIncoming ids => exact h.runDbOp_write hq rfl
    | deleteIncomingEncrypted ids => exact h.runDbOp_write hq rfl
    | applySeqIn n => exact h.runDbOp_write hq rfl
    | _ => exact h.runDbOp_of_quiet hq rfl

theorem delivering_step (s : IncomingQueue) (e : QueueEvent) (h : Delivering s)
    (hok : Orderly s e) : Delivering (queueStep s e) := by
  cases e with
  | enqueue actions => exact h.dispatch rfl hok
  | enqueueEncrypted actions => exact h.dispatch rfl hok
  | poll => exact h.dispatch rfl trivial
  | db => exact delivering_db h hok
  | stage resendId layerId =>
    rcases h.staged with hnone | ⟨snap, hsnap, hs⟩
    · simpa only [queueStep, hnone] using h
    · simp only [Orderly, hsnap] at hok
      simp only [queueStep, hsnap]
      exact h.stage hs hok resendId layerId
  | storeKey key keyFingerprint firstSeqOut => exact h.congr_db rfl rfl rfl

theorem delivering_run {peerLayer : ℕ} {isCreator : Bool} {keys : List EncryptionKeyData}
    {es : List QueueEvent}
    (hok : AllSteps queueStep Orderly (.start peerLayer isCreator keys) es) :
    Delivering (run queueStep (.start peerLayer isCreator keys) es) :=
  invariant delivering_step es (delivering_start peerLayer isCreator keys) hok

/-- Until the block of the poll runs, its snapshot waits and nothing is handed on. -/
theorem run_waiting {snap : IncomingSnapshot} : ∀ (es : List QueueEvent) {s : IncomingQueue},
    s.stageQueue = [snap] → AllSteps queueStep Orderly s es → (∀ e ∈ es, e.isStage = false) →
    (run queueStep s es).stageQueue = [snap] ∧ (run queueStep s es).handed = s.handed
  | [], _, hs, _, _ => ⟨hs, rfl⟩
  | e :: es, s, hs, hok, hno => by
    have hstep : (queueStep s e).stageQueue = [snap] ∧ (queueStep s e).handed = s.handed := by
      cases e with
      | stage resendId layerId => cases hno _ List.mem_cons_self
      | db =>
        rcases hq : s.dbQueue with _ | ⟨op, rest⟩
        · simpa only [queueStep, hq] using ⟨hs, trivial⟩
        · have hop := hok.1
          simp only [Orderly, hq] at hop
          simp only [queueStep, hq]
          cases op with
          | dequeueIncoming => rw [hs] at hop; cases hop.1
          | _ => exact ⟨hs, rfl⟩
      | _ => exact ⟨hs, rfl⟩
    have ih := run_waiting es hstep.1 hok.2 fun e he => hno e (List.mem_cons_of_mem _ he)
    exact ⟨ih.1, ih.2.trans hstep.2⟩

/-- The numbers there is a message for: one handed on, one stored plain, or one stored encrypted
that opens with the keys of `db`. -/
def available (s : IncomingQueue) (db : ChatDb) : List Int :=
  seqOuts s.handed ++ s.stored.map (·.seqOut)
    ++ s.storedEncrypted.filterMap fun m =>
      (decryptEncryptedMessageData db m).map (halfSeq ·.seqOut)

/-- What a poll has handed on in the end is as much as was there to hand on when it dequeued. -/
theorem stage_frontier {s₁ s₂ : IncomingQueue} (h₁ : Delivering s₁) (h₂ : Delivering s₂)
    (hhanded : s₂.handed = s₁.handed)
    (hs : Staged s₂ (dequeuePeerIncomingActions s₁.db)) :
    Frontier 0 (available s₁ s₂.db)
      (pollSelection s₂.db (dequeuePeerIncomingActions s₁.db)).nextExpectedSeqOut := by
  have hfrontier := pollSelection_frontier s₂.db (dequeuePeerIncomingActions s₁.db)
  rw [pollNumbered_eq (h₂.merged_layers hs), hs.next] at hfrontier
  have hcount : handedCount s₂ = handedCount s₁ := by rw [handedCount, hhanded]; rfl
  have hpos : 0 ≤ handedCount s₁ := Int.natCast_nonneg _
  have hbelow : ∀ j, j ∈ seqOuts s₁.handed ↔ 0 ≤ j ∧ j < handedCount s₁ := by
    intro j
    rw [seqOuts, h₁.handed, List.mem_map]
    constructor
    · rintro ⟨i, hi, rfl⟩
      exact ⟨Int.natCast_nonneg _, by simpa [handedCount] using hi⟩
    · rintro ⟨h₀, hlt⟩
      refine ⟨j.toNat, ?_, Int.toNat_of_nonneg h₀⟩
      rw [List.mem_range]
      unfold handedCount at hlt
      omega
  have hle := hfrontier.le
  refine ⟨by omega, fun j hj hlt => ?_, fun hmem => ?_⟩
  · unfold available
    rw [List.mem_append, List.mem_append]
    by_cases hold : j < handedCount s₁
    · exact Or.inl (Or.inl ((hbelow j).mpr ⟨hj, hold⟩))
    · obtain ⟨a, ha, rfl⟩ := List.mem_map.mp (hfrontier.below j (by omega) hlt)
      rcases mem_mergedActions.mp ha with ha | ⟨r, hr, p, hp, rfl⟩
      · obtain ⟨r, hr, rfl⟩ := List.mem_map.mp ((List.mem_insertionSort _).mp ha)
        exact Or.inl (Or.inr (List.mem_map_of_mem (h₁.plain.stored_of_mem r hr)))
      · refine Or.inr (List.mem_filterMap.mpr ⟨r.2, h₁.encrypted.stored_of_mem r hr, ?_⟩)
        rw [hp]
        rfl
  · unfold available at hmem
    rw [List.mem_append, List.mem_append] at hmem
    have hplain := h₁.plain.kept
    have hencrypted := h₁.encrypted.kept
    rcases hmem with (hmem | hmem) | hmem
    · have hlt := ((hbelow _).mp hmem).2
      omega
    · obtain ⟨r, hr, heq⟩ := List.mem_map.mp hmem
      rcases hplain r hr with hlt | ⟨id, hid, -⟩
      · omega
      · refine hfrontier.notMem (List.mem_map.mpr ⟨genericAction (id, r), ?_, heq⟩)
        refine mem_mergedActions.mpr (Or.inl ((List.mem_insertionSort _).mpr ?_))
        exact List.mem_map_of_mem hid
    · obtain ⟨m, hm, heq⟩ := List.mem_filterMap.mp hmem
      obtain ⟨p, hp, heq⟩ := Option.map_eq_some_iff.mp heq
      rcases hencrypted m hm with ⟨q, hq, hlt⟩ | ⟨id, hid, -⟩
      · rw [payload_of_decrypt hp] at hq
        cases hq
        omega
      · refine hfrontier.notMem (List.mem_map.mpr ⟨encryptedAction id p, ?_, heq⟩)
        exact mem_mergedActions.mpr (Or.inr ⟨(id, m), hid, p, hp, rfl⟩)

/-- Messages are handed on in the order of their numbers from 0 on, each once and only if it was
stored; with no write of a poll under way the next number is the first not handed on. -/
structure InOrder (s : IncomingQueue) : Prop where
  handed : s.handed.map (·.seqOut) = (List.range s.handed.length).map fun i : ℕ => (i : Int)
  stored : ∀ a ∈ s.handed, StoredAs s a
  next : (∀ op ∈ s.dbQueue, op.isWrite = false) → s.db.seq_in.getD 0 = s.handed.length

section Run

variable (peerLayer : ℕ) (isCreator : Bool) (keys : List EncryptionKeyData)

/-- In every orderly run messages are handed on in order; and once the poll that dequeued in `s₁`
has run its block in `s₂`, as many are as there are without a gap among what was available. -/
theorem handed_in_order (es : List QueueEvent)
    (hok : AllSteps queueStep Orderly (.start peerLayer isCreator keys) es) :
    InOrder (run queueStep (.start peerLayer isCreator keys) es)
      ∧ ∀ es₁ es₂ rest resendId layerId, es = es₁ ++ .db :: (es₂ ++ [.stage resendId layerId]) →
        let s₁ := run queueStep (.start peerLayer isCreator keys) es₁
        let s₂ := run queueStep (.start peerLayer isCreator keys) (es₁ ++ .db :: es₂)
        s₁.dbQueue = .dequeueIncoming :: rest → (∀ e ∈ es₂, e.isStage = false) →
        Frontier 0 (available s₁ s₂.db)
            (run queueStep (.start peerLayer isCreator keys) es).handed.length
          ∧ ∀ n : ℕ, (∀ j, j ∈ available s₁ s₂.db ↔ 0 ≤ j ∧ j ≤ n) →
            (run queueStep (.start peerLayer isCreator keys) es).handed.length = n + 1 := by
  have h := delivering_run hok
  refine ⟨⟨h.handed, h.storedAs, fun hno => h.applied fun n hn => by cases hno _ hn⟩, ?_⟩
  intro es₁ es₂ rest resendId layerId hes s₁ s₂ hq hno
  subst hes
  have hsplit : es₁ ++ QueueEvent.db :: (es₂ ++ [.stage resendId layerId])
      = (es₁ ++ .db :: es₂) ++ [.stage resendId layerId] := by simp
  rw [hsplit] at hok ⊢
  obtain ⟨hok₂, hstage⟩ := (allSteps_append _ _ _ _ _).mp hok
  obtain ⟨hok₁, hdb, hwait⟩ := (allSteps_append _ _ _ _ _).mp hok₂
  have h₁ : Delivering s₁ := delivering_run hok₁
  have h₂ : Delivering s₂ := delivering_run hok₂
  have hdb' : Orderly s₁ .db := hdb
  simp only [Orderly, hq] at hdb'
  obtain ⟨hnone, -⟩ := hdb'
  have hdequeued : (queueStep s₁ .db).stageQueue = [dequeuePeerIncomingActions s₁.db]
      ∧ (queueStep s₁ .db).handed = s₁.handed := by
    simp [queueStep, hq, runDbOp, hnone]
  have hs₂ : s₂ = run queueStep (queueStep s₁ .db) es₂ := run_append _ _ _ _
  obtain ⟨hqueue, hhanded⟩ := run_waiting es₂ hdequeued.1 hwait hno
  rw [← hs₂] at hqueue hhanded
  have hstaged : Staged s₂ (dequeuePeerIncomingActions s₁.db) := by
    rcases h₂.staged with hnil | ⟨snap, hsnap, hs⟩
    · rw [hqueue] at hnil; cases hnil
    · rw [hqueue] at hsnap; cases hsnap; exact hs
  have hearly : NoEarlyResend s₂.db (dequeuePeerIncomingActions s₁.db) := by
    have hearly := hstage.1
    change Orderly s₂ _ at hearly
    simpa only [Orderly, hqueue] using hearly
  have hfrontier := stage_frontier h₁ h₂ (hhanded.trans hdequeued.2) hstaged
  have hlength : ((run queueStep (.start peerLayer isCreator keys)
      ((es₁ ++ .db :: es₂) ++ [.stage resendId layerId])).handed.length : Int)
      = (pollSelection s₂.db (dequeuePeerIncomingActions s₁.db)).nextExpectedSeqOut := by
    rw [run_append, ← h₂.length_turn hstaged,
      ← (pollSelection_inTurn (h₂.merged_layers hstaged) hearly).1]
    change ((queueStep s₂ (.stage resendId layerId)).handed.length : Int) = _
    simp only [queueStep, hqueue, List.length_append, Nat.cast_add]
    rfl
  rw [← hlength] at hfrontier
  refine ⟨hfrontier, fun n hn => ?_⟩
  have hfull : Frontier 0 (available s₁ s₂.db) (n + 1) :=
    ⟨by omega, fun j h₀ hlt => (hn j).mpr ⟨h₀, by omega⟩, fun hmem => by
      have hle := ((hn _).mp hmem).2
      omega⟩
  have heq := hfrontier.unique hfull
  omega

end Run

/-- A message of layer 46 that confirms nothing. -/
def plainMessage (seqOut : Int) (action : IncomingAction) (h : seqOut < INT32_MAX := by decide) :
    IncomingRow :=
  ⟨0, seqOut, ⟨46, action⟩, h⟩

/-- Message 1 is stored and polled before message 0. -/
def swappedRun (first : IncomingAction) : List QueueEvent :=
  [.enqueue [plainMessage 1 first], .poll, .db, .db, .stage 0 0, .db, .db, .db, .db, .db,
    .enqueue [plainMessage 0 (.message 10)], .poll, .db, .db, .stage 0 0]

theorem handed_in_order_swapped :
    InOrder (run queueStep (.start 46 true []) (swappedRun (.message 11)))
      ∧ (run queueStep (.start 46 true []) (swappedRun (.message 11))).handed.map (·.seqOut)
        = [0, 1] := by
  refine ⟨(handed_in_order 46 true [] (swappedRun (.message 11)) ?_).1, by decide⟩
  exact ⟨by simp [Orderly, plainMessage], trivial, trivial, ⟨rfl, by decide⟩,
    noEarlyResend_of_plain (by decide), trivial, trivial, trivial, trivial, trivial,
    by simp [Orderly, plainMessage], trivial, trivial, ⟨rfl, by decide⟩,
    noEarlyResend_of_plain (by decide), trivial⟩

/-- Message 1 is a request to resend: it is handed on first and deleted, so that after message 0
the number 1 is expected, with nothing left in the tables. -/
theorem handed_out_of_order :
    let s := run queueStep (.start 46 true [])
      (swappedRun (.resendActions 0 0) ++ [.db, .db, .db, .db, .db, .db])
    s.handed.map (·.seqOut) = [1, 0] ∧ s.dbQueue.length = 0 ∧ s.db.seq_in = some 1
      ∧ s.db.incoming.rows = [] ∧ ¬ InOrder s := by
  intro s
  have hhanded : s.handed.map (·.seqOut) = [1, 0] := by decide
  refine ⟨hhanded, by decide, by decide, by decide, fun h => ?_⟩
  have hrange := h.handed
  rw [hhanded] at hrange
  exact absurd hrange (by decide)

end Onegram
