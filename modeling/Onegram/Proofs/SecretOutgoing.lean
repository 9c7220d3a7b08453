import Onegram.SecretOutgoing

/-!
# No outgoing action is stranded

An id in the set of executing ids keeps every row with that number, of either table, from being
requested, and the number of the last request that succeeded hides the rows below it. Where the
two tables never give a row of the chat the same id, and numbered requests succeed in the order of
their numbers, neither touches a row that still has to be sent (`outgoing_not_stranded`); else both
do (`resend_stranded`).
-/

namespace Onegram

open Run

/-! ## Rows and requests -/

def ChatDb.table (db : ChatDb) : Bool → Table OutgoingRow
  | false => db.outgoing
  | true => db.outgoingResend

def OutgoingSnapshot.rows (snap : OutgoingSnapshot) : Bool → List (ℕ × OutgoingRow)
  | false => snap.actions
  | true => snap.resendActions

/-- The row a request is for: its table and its id. -/
def OutgoingRequest.key (q : OutgoingRequest) : Bool × ℕ := (q.isResend, q.actionId)

def InFlight (s : OutgoingQueue) (k : Bool × ℕ) : Prop := ∃ q ∈ s.inFlight, q.key = k

def Completed (s : OutgoingQueue) (k : Bool × ℕ) : Prop := ∃ q ∈ s.completed, q.key = k

theorem mem_pollRequests {db : ChatDb} {waiting executing : List ℕ} {snap : OutgoingSnapshot}
    {q : OutgoingRequest} :
    q ∈ pollRequests db waiting executing snap
      ↔ ∃ b, ∃ r ∈ snap.rows b, r.1 ∉ executing ∧ q = requestForRow db waiting b r := by
  simp only [pollRequests, List.mem_append, List.mem_map, List.mem_filter, decide_eq_true_eq,
    Bool.exists_bool, OutgoingSnapshot.rows]
  constructor
  · rintro (⟨r, ⟨hr, hid⟩, rfl⟩ | ⟨r, ⟨hr, hid⟩, rfl⟩)
    · exact Or.inl ⟨r, hr, hid, rfl⟩
    · exact Or.inr ⟨r, hr, hid, rfl⟩
  · rintro (⟨r, hr, hid, rfl⟩ | ⟨r, hr, hid, rfl⟩)
    · exact Or.inl ⟨r, ⟨hr, hid⟩, rfl⟩
    · exact Or.inr ⟨r, ⟨hr, hid⟩, rfl⟩

theorem requestForRow_spec (db : ChatDb) (waiting : List ℕ) (b : Bool) (r : ℕ × OutgoingRow) :
    (requestForRow db waiting b r).key = (b, r.1)
      ∧ (requestForRow db waiting b r).layer = r.2.action.layer
      ∧ (17 ≤ r.2.action.layer → (requestForRow db waiting b r).seqOut = r.2.seq_out) := by
  refine ⟨rfl, rfl, fun h => ?_⟩
  simp [requestForRow, requestForAction, h]

/-! ## The ids -/

/-- What the set of executing ids has to do with the rows. -/
structure IdsApart (s : OutgoingQueue) : Prop where
  disjoint : ∀ id, (false, id) ∈ s.given → (true, id) ∉ s.given
  given_le : ∀ b id, (b, id) ∈ s.given → id ≤ (s.db.table b).seq
  rows : ∀ b, ∀ r ∈ (s.db.table b).rows, (b, r.1) ∈ s.given
  staged : ∀ snap ∈ s.stageQueue, ∀ b, ∀ r ∈ snap.rows b, (b, r.1) ∈ s.given
  flying : ∀ q ∈ s.inFlight, q.key ∈ s.given
  done : ∀ q ∈ s.completed, q.key ∈ s.given
  requested : ∀ b id, (b, id) ∈ s.given → id ∈ s.executing →
    InFlight s (b, id) ∨ Completed s (b, id)
  executing_given : ∀ id ∈ s.executing, ∃ b, (b, id) ∈ s.given
  flying_executing : ∀ q ∈ s.inFlight, q.actionId ∈ s.executing
  done_executing : ∀ q ∈ s.completed, q.actionId ∈ s.executing
  flying_open : ∀ q ∈ s.inFlight, ¬ Completed s q.key
  nodup : (s.inFlight.map (·.key)).Nodup
  distinct : ∀ snap ∈ s.stageQueue, ∀ b, (snap.rows b).Pairwise (·.1 < ·.1)

namespace IdsApart

variable {s : OutgoingQueue}

/-- An id tells the table. -/
theorem table_eq (h : IdsApart s) {b b' : Bool} {id : ℕ} (hb : (b, id) ∈ s.given)
    (hb' : (b', id) ∈ s.given) : b = b' := by
  cases b <;> cases b'
  · rfl
  · exact absurd hb' (h.disjoint id hb)
  · exact absurd hb (h.disjoint id hb')
  · rfl

/-- The invariant reads nothing of the database but the ids of the rows. -/
theorem congr_db (h : IdsApart s) {db : ChatDb} (ops : List OutgoingOp)
    (hseq : ∀ b, (s.db.table b).seq ≤ (db.table b).seq)
    (hrows : ∀ b, ∀ r ∈ (db.table b).rows, r ∈ (s.db.table b).rows) :
    IdsApart { s with db := db, dbQueue := ops } where
  disjoint := h.disjoint
  given_le := fun b id hid => (h.given_le b id hid).trans (hseq b)
  rows := fun b r hr => h.rows b r (hrows b r hr)
  staged := h.staged
  flying := h.flying
  done := h.done
  requested := h.requested
  executing_given := h.executing_given
  flying_executing := h.flying_executing
  done_executing := h.done_executing
  flying_open := h.flying_open
  nodup := h.nodup
  distinct := h.distinct

/-- Rows with new ids are stored. -/
theorem give (h : IdsApart s) {db : ChatDb} (ops : List OutgoingOp) (new : List (Bool × ℕ))
    (hseq : ∀ b, (s.db.table b).seq ≤ (db.table b).seq)
    (hle : ∀ b id, (b, id) ∈ new → id ≤ (db.table b).seq)
    (hlt : ∀ b id, (b, id) ∈ new → (s.db.table b).seq < id)
    (hother : ∀ b id, (b, id) ∈ new → (!b, id) ∉ s.given)
    (hone : ∀ b id, (b, id) ∈ new → (!b, id) ∉ new)
    (hrows : ∀ b, ∀ r ∈ (db.table b).rows, r ∈ (s.db.table b).rows ∨ (b, r.1) ∈ new) :
    IdsApart { s with db := db, dbQueue := ops, given := s.given ++ new } where
  disjoint := by
    intro id hf ht
    rcases List.mem_append.mp hf with hf | hf <;> rcases List.mem_append.mp ht with ht | ht
    · exact h.disjoint id hf ht
    · exact hother true id ht hf
    · exact hother false id hf ht
    · exact hone true id ht hf
  given_le := by
    intro b id hid
    rcases List.mem_append.mp hid with hid | hid
    · exact (h.given_le b id hid).trans (hseq b)
    · exact hle b id hid
  rows := by
    intro b r hr
    rcases hrows b r hr with hr | hr
    · exact List.mem_append_left _ (h.rows b r hr)
    · exact List.mem_append_right _ hr
  staged := fun snap hs b r hr => List.mem_append_left _ (h.staged snap hs b r hr)
  flying := fun q hq => List.mem_append_left _ (h.flying q hq)
  done := fun q hq => List.mem_append_left _ (h.done q hq)
  requested := by
    intro b id hid hex
    rcases List.mem_append.mp hid with hid | hid
    · exact h.requested b id hid hex
    · -- An executing id was given before, but this one is new in its table and not of the other.
      obtain ⟨b', hb'⟩ := h.executing_given id hex
      by_cases heq : b' = b
      · have hle := h.given_le b id (heq ▸ hb')
        have hgt := hlt b id hid
        omega
      · rw [Bool.eq_not_of_ne heq] at hb'
        exact absurd hb' (hother b id hid)
  executing_given := fun id hid => (h.executing_given id hid).imp fun _ => List.mem_append_left _
  flying_executing := h.flying_executing
  done_executing := h.done_executing
  flying_open := h.flying_open
  nodup := h.nodup
  distinct := h.distinct

/-- A poll that has dequeued is on the stage queue. -/
theorem dequeue (h : IdsApart s) (ops : List OutgoingOp) :
    IdsApart { s with dbQueue := ops, stageQueue := s.stageQueue ++ [dequeueOutgoing s.db] } := by
  have hsub : ∀ b, ((dequeueOutgoing s.db).rows b).Sublist (s.db.table b).rows := by
    intro b
    cases b
    · exact List.filter_sublist
    · exact List.Sublist.refl _
  refine { h with staged := fun snap hsnap b r hr => ?_, distinct := fun snap hsnap b => ?_ }
  · rcases List.mem_append.mp hsnap with hsnap | hsnap
    · exact h.staged snap hsnap b r hr
    · rw [List.mem_singleton.mp hsnap] at hr
      exact h.rows b r ((hsub b).subset hr)
  · rcases List.mem_append.mp hsnap with hsnap | hsnap
    · exact h.distinct snap hsnap b
    · rw [List.mem_singleton.mp hsnap]
      exact (s.db.table b).increasing.sublist (hsub b)

theorem nodup_pollRequests {snap : OutgoingSnapshot} (hd : ∀ b, (snap.rows b).Pairwise (·.1 < ·.1))
    (db : ChatDb) (waiting executing : List ℕ) :
    ((pollRequests db waiting executing snap).map (·.key)).Nodup := by
  have hpart : ∀ b, ((((snap.rows b).filter (·.1 ∉ executing)).map
      (requestForRow db waiting b)).map (·.key)).Nodup := by
    intro b
    rw [List.map_map, List.nodup_iff_pairwise_ne, List.pairwise_map]
    refine ((hd b).filter _).imp fun hlt heq => ?_
    have hid := congr_arg Prod.snd heq
    simp only [Function.comp_apply, (requestForRow_spec db waiting b _).1] at hid
    omega
  rw [pollRequests, List.map_append, List.nodup_append]
  refine ⟨hpart false, hpart true, fun k hk k' hk' heq => ?_⟩
  obtain ⟨q, hq, rfl⟩ := List.mem_map.mp hk
  obtain ⟨q', hq', rfl⟩ := List.mem_map.mp hk'
  obtain ⟨r, -, rfl⟩ := List.mem_map.mp hq
  obtain ⟨r', -, rfl⟩ := List.mem_map.mp hq'
  cases congr_arg Prod.fst heq

theorem stage (h : IdsApart s) {snap : OutgoingSnapshot} {rest : List OutgoingSnapshot}
    (hq : s.stageQueue = snap :: rest) (waiting : List ℕ) :
    IdsApart { s with
      stageQueue := rest
      inFlight := s.inFlight ++ pollRequests s.db waiting s.executing snap
      executing := s.executing
        ++ (pollRequests s.db waiting s.executing snap).map (·.actionId) } := by
  have hsnap : snap ∈ s.stageQueue := hq ▸ List.mem_cons_self
  have hrest : rest ⊆ s.stageQueue := hq ▸ List.subset_cons_self _ _
  have hnew : ∀ q ∈ pollRequests s.db waiting s.executing snap,
      q.key ∈ s.given ∧ q.actionId ∉ s.executing := by
    intro q hq
    obtain ⟨b, r, hr, hid, rfl⟩ := mem_pollRequests.mp hq
    exact ⟨h.staged snap hsnap b r hr, hid⟩
  refine { h with
    staged := fun snap hs => h.staged snap (hrest hs)
    distinct := fun snap hs => h.distinct snap (hrest hs)
    flying := fun q hq => ?_
    requested := fun b id hid hex => ?_
    executing_given := fun id hex => ?_
    flying_executing := fun q hq => ?_
    done_executing := fun q hq => List.mem_append_left _ (h.done_executing q hq)
    flying_open := fun q hq hdone => ?_
    nodup := ?_ }
  · rcases List.mem_append.mp hq with hq | hq
    · exact h.flying q hq
    · exact (hnew q hq).1
  · rcases List.mem_append.mp hex with hex | hex
    · rcases h.requested b id hid hex with ⟨q, hq, hkey⟩ | hdone
      · exact Or.inl ⟨q, List.mem_append_left _ hq, hkey⟩
      · exact Or.inr hdone
    · obtain ⟨q, hq, rfl⟩ := List.mem_map.mp hex
      have hb := h.table_eq hid (hnew q hq).1
      exact Or.inl ⟨q, List.mem_append_right _ hq, hb ▸ rfl⟩
  · rcases List.mem_append.mp hex with hex | hex
    · exact h.executing_given id hex
    · obtain ⟨q, hq, rfl⟩ := List.mem_map.mp hex
      exact ⟨q.isResend, (hnew q hq).1⟩
  · rcases List.mem_append.mp hq with hq | hq
    · exact List.mem_append_left _ (h.flying_executing q hq)
    · exact List.mem_append_right _ (List.mem_map_of_mem hq)
  · rcases List.mem_append.mp hq with hq | hq
    · exact h.flying_open q hq hdone
    · obtain ⟨q', hq', hkey⟩ := hdone
      have hid : q'.actionId = q.actionId := congr_arg Prod.snd hkey
      exact (hnew q hq).2 (hid ▸ h.done_executing q' hq')
  · rw [List.map_append, List.nodup_append]
    refine ⟨h.nodup, nodup_pollRequests (h.distinct snap hsnap) _ _ _, fun k hk k' hk' heq => ?_⟩
    obtain ⟨q, hq, rfl⟩ := List.mem_map.mp hk
    obtain ⟨q', hq', rfl⟩ := List.mem_map.mp hk'
    have hid : q.actionId = q'.actionId := congr_arg Prod.snd heq
    exact (hnew q' hq').2 (hid ▸ h.flying_executing q hq)

/-- A request that is answered is no longer in flight, and no other for its row is. -/
theorem erase_flying (h : IdsApart s) {i : ℕ} {q : OutgoingRequest} (hi : s.inFlight[i]? = some q) :
    ∀ q', q' ∈ s.inFlight.eraseIdx i ↔ q' ∈ s.inFlight ∧ q'.key ≠ q.key := by
  have hinj : ∀ {j : ℕ} {q' : OutgoingRequest}, s.inFlight[j]? = some q' → q'.key = q.key →
      j = i := by
    intro j q' hj hkey
    obtain ⟨hlt, -⟩ := List.getElem?_eq_some_iff.mp hj
    refine (List.getElem?_inj (by simpa using hlt) h.nodup).mp ?_
    rw [List.getElem?_map, List.getElem?_map, hi, hj, Option.map_some, Option.map_some, hkey]
  intro q'
  rw [List.mem_eraseIdx_iff_getElem?]
  constructor
  · rintro ⟨j, hne, hj⟩
    exact ⟨List.mem_of_getElem? hj, fun hkey => hne (hinj hj hkey)⟩
  · rintro ⟨hq', hne⟩
    obtain ⟨j, hj⟩ := List.mem_iff_getElem?.mp hq'
    refine ⟨j, fun heq => hne ?_, hj⟩
    rw [heq, hi] at hj
    rw [Option.some.inj hj]

theorem complete (h : IdsApart s) {i : ℕ} {q : OutgoingRequest} (hi : s.inFlight[i]? = some q)
    (success : Bool) :
    IdsApart (completeRequest { s with inFlight := s.inFlight.eraseIdx i } q success) := by
  have hflying := h.erase_flying hi
  have hmem : q ∈ s.inFlight := List.mem_of_getElem? hi
  have hsub : (s.inFlight.eraseIdx i).Sublist s.inFlight := List.eraseIdx_sublist _ _
  have hnodup : ((s.inFlight.eraseIdx i).map (·.key)).Nodup := h.nodup.sublist (hsub.map _)
  unfold completeRequest
  split_ifs
  · refine { h with
      flying := fun q' hq' => h.flying q' (hsub.subset hq')
      done := fun q' hq' => ?_
      requested := fun b id hid hex => ?_
      flying_executing := fun q' hq' => h.flying_executing q' (hsub.subset hq')
      done_executing := fun q' hq' => ?_
      flying_open := fun q' hq' hdone => ?_
      nodup := hnodup }
    · rcases List.mem_append.mp hq' with hq' | hq'
      · exact h.done q' hq'
      · exact List.mem_singleton.mp hq' ▸ h.flying q hmem
    · rcases h.requested b id hid hex with ⟨q', hq', hkey⟩ | ⟨q', hq', hkey⟩
      · by_cases heq : q'.key = q.key
        · exact Or.inr ⟨q, List.mem_append_right _ (List.mem_singleton.mpr rfl), heq ▸ hkey⟩
        · exact Or.inl ⟨q', (hflying q').mpr ⟨hq', heq⟩, hkey⟩
      · exact Or.inr ⟨q', List.mem_append_left _ hq', hkey⟩
    · rcases List.mem_append.mp hq' with hq' | hq'
      · exact h.done_executing q' hq'
      · exact List.mem_singleton.mp hq' ▸ h.flying_executing q hmem
    · obtain ⟨hold, hne⟩ := (hflying q').mp hq'
      obtain ⟨q'', hq'', hkey⟩ := hdone
      rcases List.mem_append.mp hq'' with hq'' | hq''
      · exact h.flying_open q' hold ⟨q'', hq'', hkey⟩
      · rw [List.mem_singleton.mp hq''] at hkey
        exact hne hkey.symm
  · -- Only the row of the failed request leaves the set.
    have hkey : ∀ q' : OutgoingRequest, q'.key ∈ s.given → q'.key ≠ q.key → q'.actionId ≠ q.actionId := by
      intro q' hq' hne heq
      have hid : (q'.isResend, q.actionId) ∈ s.given := heq ▸ hq'
      exact hne (Prod.ext (h.table_eq hid (h.flying q hmem)) heq)
    refine { h with
      flying := fun q' hq' => h.flying q' (hsub.subset hq')
      requested := fun b id hid hex => ?_
      executing_given := fun id hex => h.executing_given id (List.mem_of_mem_filter hex)
      flying_executing := fun q' hq' => ?_
      done_executing := fun q' hq' => ?_
      flying_open := fun q' hq' => h.flying_open q' (hsub.subset hq')
      nodup := hnodup }
    · obtain ⟨hex, hne⟩ := List.mem_filter.mp hex
      rcases h.requested b id hid hex with ⟨q', hq', heq⟩ | hdone
      · refine Or.inl ⟨q', (hflying q').mpr ⟨hq', fun hk => ?_⟩, heq⟩
        have hid : id = q.actionId := congr_arg Prod.snd (heq.symm.trans hk)
        exact absurd hid (by simpa using hne)
      · exact Or.inr hdone
    · obtain ⟨hold, hne⟩ := (hflying q').mp hq'
      refine List.mem_filter.mpr ⟨h.flying_executing q' hold, ?_⟩
      simpa using hkey q' (h.flying q' hold) hne
    · refine List.mem_filter.mpr ⟨h.done_executing q' hq', ?_⟩
      have hne : q'.key ≠ q.key := fun heq => h.flying_open q hmem ⟨q', hq', heq⟩
      simpa using hkey q' (h.done q' hq') hne

end IdsApart

/-! ## The numbers -/

/-- `r` is, or was, the row of the outgoing table with its id; a numbered one is still there. -/
structure RowOf (db : ChatDb) (r : ℕ × OutgoingRow) : Prop where
  mem : 17 ≤ r.2.action.layer → r ∈ db.outgoing.rows
  unique : ∀ r' ∈ db.outgoing.rows, r'.1 = r.1 → r' = r

def OutgoingOp.sentSeqOut : OutgoingOp → Option Int
  | .applySeqOut seqOut => some seqOut
  | _ => none

/-- The number of the last request recorded as sent, and those about to be recorded. -/
def sentChain (s : OutgoingQueue) : List Int :=
  currentPeerSentSeqOut s.db :: s.dbQueue.filterMap OutgoingOp.sentSeqOut

/-- What the recorded numbers have to do with the rows. -/
structure NumbersInOrder (s : OutgoingQueue) : Prop where
  staged : ∀ snap ∈ s.stageQueue, ∀ r ∈ snap.actions, RowOf s.db r
  flying : ∀ q ∈ s.inFlight, q.isResend = false → ∃ row, RowOf s.db (q.actionId, row)
    ∧ q.layer = row.action.layer ∧ (17 ≤ q.layer → q.seqOut = row.seq_out)
  nonneg : ∀ r ∈ s.db.outgoing.rows, 0 ≤ r.2.seq_out
  next_nonneg : 0 ≤ peerNextSeqOut s.db
  below : ∀ r ∈ s.db.outgoing.rows, 17 ≤ r.2.action.layer → r.2.seq_out < peerNextSeqOut s.db
  layer : 17 ≤ s.db.peerLayer → ∀ r ∈ s.db.outgoing.rows, 17 ≤ r.2.action.layer
  chain : (sentChain s).Pairwise (· < ·)
  sent_below : ∀ n ∈ sentChain s, n < peerNextSeqOut s.db
  sent_done : ∀ n ∈ sentChain s, ∀ r ∈ s.db.outgoing.rows, 17 ≤ r.2.action.layer →
    r.2.seq_out ≤ n → Completed s (false, r.1)
  deletes : ∀ id, .deleteOutgoing id ∈ s.dbQueue → Completed s (false, id)
    ∧ ∀ r ∈ s.db.outgoing.rows, r.1 = id → r.2.action.layer < 17
  deletesResend : ∀ id, .deleteOutgoingResend id ∈ s.dbQueue → Completed s (true, id)

/-- What is stored stays stored until it is completed, and the recorded number does not fall. -/
structure Progress (s s' : OutgoingQueue) : Prop where
  completed : ∀ k, Completed s k → Completed s' k
  rows : ∀ b, ∀ r ∈ (s.db.table b).rows, r ∈ (s'.db.table b).rows ∨ Completed s' (b, r.1)
  sent : currentPeerSentSeqOut s.db ≤ currentPeerSentSeqOut s'.db

theorem Progress.refl (s : OutgoingQueue) : Progress s s :=
  ⟨fun _ => id, fun _ _ => Or.inl, le_rfl⟩

theorem Progress.trans {s s' s'' : OutgoingQueue} (h : Progress s s') (h' : Progress s' s'') :
    Progress s s'' := by
  refine ⟨fun k hk => h'.completed k (h.completed k hk), fun b r hr => ?_, h.sent.trans h'.sent⟩
  rcases h.rows b r hr with hr | hdone
  · exact h'.rows b r hr
  · exact Or.inr (h'.completed _ hdone)

/-- No id is in both tables, an action stored for a chat of layer 17 or more is of such a layer,
and a numbered request succeeds after those for all other numbers up to its own. -/
def Undisturbed (s : OutgoingQueue) : OutgoingEvent → Prop
  | .db =>
    match s.dbQueue with
    | .enqueueAction action :: _ =>
      (true, s.db.outgoing.seq + 1) ∉ s.given ∧ (17 ≤ s.db.peerLayer → 17 ≤ action.layer)
    | .enqueueResend fromSeq toSeq :: _ =>
      ∀ id, s.db.outgoingResend.seq < id →
        id ≤ s.db.outgoingResend.seq + (s.db.outgoing.rows.filter
          fun r => fromSeq ≤ r.2.seq_out ∧ r.2.seq_out ≤ toSeq).length →
        (false, id) ∉ s.given
    | .setPeerLayer layer :: _ => 17 ≤ layer → ∀ r ∈ s.db.outgoing.rows, 17 ≤ r.2.action.layer
    | _ => True
  | .complete i true =>
    ∀ q, s.inFlight[i]? = some q → q.isResend = false → 17 ≤ q.layer →
      ∀ r ∈ s.db.outgoing.rows, 17 ≤ r.2.action.layer → r.2.seq_out ≤ q.seqOut →
        r.1 ≠ q.actionId → Completed s (false, r.1)
  | _ => True

/-! ## One step -/

/-- What an enqueued action adds. -/
theorem enqueue_spec (db : ChatDb) (action : OutgoingAction) (hnext : 0 ≤ peerNextSeqOut db) :
    ∃ row : OutgoingRow, row.action = action ∧ 0 ≤ row.seq_out
      ∧ (enqueuePeerOutgoingAction db action (17 ≤ action.layer)).1.outgoing = db.outgoing.insert row
      ∧ peerNextSeqOut db ≤ peerNextSeqOut (enqueuePeerOutgoingAction db action (17 ≤ action.layer)).1
      ∧ (17 ≤ action.layer → row.seq_out = peerNextSeqOut db
        ∧ row.seq_out < peerNextSeqOut (enqueuePeerOutgoingAction db action (17 ≤ action.layer)).1) := by
  unfold enqueuePeerOutgoingAction
  by_cases h : 17 ≤ action.layer
  · simp only [h, decide_true, if_true]
    refine ⟨⟨peerNextSeqOut db, db.seq_in.getD 0, action⟩, rfl, hnext, rfl, ?_, fun _ => ⟨rfl, ?_⟩⟩
    · simp [peerNextSeqOut]
    · simp [peerNextSeqOut]
  · simp only [h, decide_false, if_false, Bool.false_eq_true]
    exact ⟨⟨0, 0, action⟩, rfl, le_rfl, rfl, le_rfl, fun h' => h'.elim⟩

theorem sentChain_append (s : OutgoingQueue) (op : OutgoingOp) :
    sentChain { s with dbQueue := s.dbQueue ++ [op] } = sentChain s ++ op.sentSeqOut.toList := by
  unfold sentChain
  rw [List.filterMap_append, List.cons_append]
  cases op <;> rfl

namespace NumbersInOrder

variable {s : OutgoingQueue} {op : OutgoingOp} {rest : List OutgoingOp}

theorem dispatch (h : NumbersInOrder s)
    (hsent : ∀ n, op.sentSeqOut = some n → (∀ m ∈ sentChain s, m < n) ∧ n < peerNextSeqOut s.db
      ∧ ∀ r ∈ s.db.outgoing.rows, 17 ≤ r.2.action.layer → r.2.seq_out ≤ n → Completed s (false, r.1))
    (hdel : ∀ id, op = .deleteOutgoing id → Completed s (false, id)
      ∧ ∀ r ∈ s.db.outgoing.rows, r.1 = id → r.2.action.layer < 17)
    (hdelr : ∀ id, op = .deleteOutgoingResend id → Completed s (true, id)) :
    NumbersInOrder { s with dbQueue := s.dbQueue ++ [op] } := by
  have hmem : ∀ n, n ∈ sentChain { s with dbQueue := s.dbQueue ++ [op] }
      ↔ n ∈ sentChain s ∨ op.sentSeqOut = some n := by
    intro n
    rw [sentChain_append, List.mem_append, Option.mem_toList]
  refine { h with
    chain := ?_
    sent_below := fun n hn => ?_
    sent_done := fun n hn => ?_
    deletes := fun id hid => ?_
    deletesResend := fun id hid => ?_ }
  · rw [sentChain_append, List.pairwise_append]
    refine ⟨h.chain, ?_, fun m hm n hn => (hsent n (Option.mem_toList.mp hn)).1 m hm⟩
    cases op.sentSeqOut
    · exact List.Pairwise.nil
    · exact List.pairwise_singleton _ _
  · rcases (hmem n).mp hn with hn | hn
    · exact h.sent_below n hn
    · exact (hsent n hn).2.1
  · rcases (hmem n).mp hn with hn | hn
    · exact h.sent_done n hn
    · exact (hsent n hn).2.2
  · rcases List.mem_append.mp hid with hid | hid
    · exact h.deletes id hid
    · exact hdel id (List.mem_singleton.mp hid).symm
  · rcases List.mem_append.mp hid with hid | hid
    · exact h.deletesResend id hid
    · exact hdelr id (List.mem_singleton.mp hid).symm

/-- A block that leaves the outgoing rows and the recorded numbers alone. -/
theorem congr (h : NumbersInOrder s) (hq : s.dbQueue = op :: rest) (hop : op.sentSeqOut = none)
    (db : ChatDb) (hrows : db.outgoing.rows = s.db.outgoing.rows)
    (hnext : db.seq_out = s.db.seq_out) (hsent : db.sent_seq_out = s.db.sent_seq_out)
    (hlayer : 17 ≤ db.peerLayer → ∀ r ∈ s.db.outgoing.rows, 17 ≤ r.2.action.layer)
    (given : List (Bool × ℕ)) :
    NumbersInOrder { s with db := db, dbQueue := rest, given := given } := by
  have hchain : sentChain { s with db := db, dbQueue := rest, given := given } = sentChain s := by
    simp only [sentChain, currentPeerSentSeqOut, hsent, hq, List.filterMap_cons, hop]
  have hpeer : peerNextSeqOut db = peerNextSeqOut s.db := by rw [peerNextSeqOut, hnext]; rfl
  have hrow : ∀ r, RowOf s.db r → RowOf db r := fun r hr => by
    refine ⟨?_, ?_⟩
    · rw [hrows]; exact hr.mem
    · rw [hrows]; exact hr.unique
  have hsub : rest ⊆ s.dbQueue := hq ▸ List.subset_cons_self _ _
  refine ⟨fun snap hsnap r hr => hrow r (h.staged snap hsnap r hr), fun q hq' hres => ?_,
    hrows ▸ h.nonneg, hpeer ▸ h.next_nonneg, ?_, ?_, hchain ▸ h.chain, ?_, ?_, fun id hid => ?_,
    fun id hid => h.deletesResend id (hsub hid)⟩
  · obtain ⟨row, hrow', hrest⟩ := h.flying q hq' hres
    exact ⟨row, hrow _ hrow', hrest⟩
  · rw [hrows, hpeer]; exact h.below
  · rw [hrows]; exact hlayer
  · rw [hchain, hpeer]; exact h.sent_below
  · rw [hchain, hrows]; exact h.sent_done
  · rw [hrows]; exact h.deletes id (hsub hid)

theorem dequeue (h : NumbersInOrder s) (hq : s.dbQueue = .dequeueOutgoing :: rest) :
    NumbersInOrder { s with
      dbQueue := rest
      stageQueue := s.stageQueue ++ [dequeueOutgoing s.db] } := by
  have hrest := h.congr hq rfl s.db rfl rfl rfl h.layer s.given
  refine { hrest with staged := fun snap hsnap r hr => ?_ }
  rcases List.mem_append.mp hsnap with hsnap | hsnap
  · exact h.staged snap hsnap r hr
  · rw [List.mem_singleton.mp hsnap] at hr
    have hmem : r ∈ s.db.outgoing.rows := List.mem_of_mem_filter hr
    exact ⟨fun _ => hmem, fun r' hr' hid => Table.eq_of_id hr' hmem hid⟩

theorem enqueue (h : NumbersInOrder s) (hids : IdsApart s) {action : OutgoingAction}
    (hq : s.dbQueue = .enqueueAction action :: rest)
    (hlayer : 17 ≤ s.db.peerLayer → 17 ≤ action.layer) (given : List (Bool × ℕ)) :
    NumbersInOrder { s with
      db := (enqueuePeerOutgoingAction s.db action (17 ≤ action.layer)).1
      dbQueue := rest
      given := given } := by
  have hrest := h.congr hq rfl s.db rfl rfl rfl h.layer given
  obtain ⟨row, haction, hpos, hout, hle, hnum⟩ := enqueue_spec s.db action h.next_nonneg
  set db := (enqueuePeerOutgoingAction s.db action (17 ≤ action.layer)).1 with hdb
  have hrows : db.outgoing.rows = s.db.outgoing.rows ++ [(s.db.outgoing.seq + 1, row)] := by
    rw [hout]; rfl
  have hmem : ∀ r, r ∈ db.outgoing.rows ↔ r ∈ s.db.outgoing.rows
      ∨ r = (s.db.outgoing.seq + 1, row) := by
    intro r
    rw [hrows, List.mem_append, List.mem_singleton]
  have hrow : ∀ r, r.1 ≤ s.db.outgoing.seq → RowOf s.db r → RowOf db r := by
    intro r hid hr
    refine ⟨fun hl => (hmem r).mpr (Or.inl (hr.mem hl)), fun r' hr' heq => ?_⟩
    rcases (hmem r').mp hr' with hr' | rfl
    · exact hr.unique r' hr' heq
    · simp only at heq
      omega
  have hsent : currentPeerSentSeqOut db = currentPeerSentSeqOut s.db := rfl
  have hchain : sentChain { s with db := db, dbQueue := rest, given := given } = sentChain s := by
    simp only [sentChain, hsent, hq, List.filterMap_cons, OutgoingOp.sentSeqOut]
  refine ⟨fun snap hsnap r hr => ?_, fun q hq' hres => ?_, fun r hr => ?_, h.next_nonneg.trans hle,
    fun r hr hl => ?_, fun hl r hr => ?_, hchain ▸ h.chain, fun n hn => ?_, fun n hn r hr hl hle' => ?_,
    fun id hid => ?_, hrest.deletesResend⟩
  · exact hrow r (hids.given_le false r.1 (hids.staged snap hsnap false r hr))
      (h.staged snap hsnap r hr)
  · obtain ⟨row', hrow', hrest'⟩ := h.flying q hq' hres
    have hgiven : (false, q.actionId) ∈ s.given := hres ▸ hids.flying q hq'
    exact ⟨row', hrow _ (hids.given_le false _ hgiven) hrow', hrest'⟩
  · rcases (hmem r).mp hr with hr | rfl
    · exact h.nonneg r hr
    · exact hpos
  · rcases (hmem r).mp hr with hr | rfl
    · exact (h.below r hr hl).trans_le hle
    · exact (hnum (haction ▸ hl)).2
  · rcases (hmem r).mp hr with hr | rfl
    · exact h.layer hl r hr
    · exact haction ▸ hlayer hl
  · rw [hchain] at hn
    exact (h.sent_below n hn).trans_le hle
  · rw [hchain] at hn
    rcases (hmem r).mp hr with hr | rfl
    · exact h.sent_done n hn r hr hl hle'
    · -- The new number is above every recorded one.
      have hlt := h.sent_below n hn
      have heq := (hnum (haction ▸ hl)).1
      simp only at hle'
      omega
  · obtain ⟨hdone, hdel⟩ := hrest.deletes id hid
    refine ⟨hdone, fun r hr heq => ?_⟩
    rcases (hmem r).mp hr with hr | rfl
    · exact hdel r hr heq
    · have hgiven : (false, id) ∈ s.given := by
        obtain ⟨q, hq', hkey⟩ := hdone
        exact hkey ▸ hids.done q hq'
      have hle := hids.given_le false id hgiven
      simp only [ChatDb.table] at hle heq
      omega

theorem delete (h : NumbersInOrder s) {id : ℕ} (hq : s.dbQueue = .deleteOutgoing id :: rest) :
    NumbersInOrder { s with db := deletePeerOutgoingActions s.db [id], dbQueue := rest } := by
  have hrest := h.congr hq rfl s.db rfl rfl rfl h.layer s.given
  have hmem : ∀ r, r ∈ (deletePeerOutgoingActions s.db [id]).outgoing.rows
      ↔ r ∈ s.db.outgoing.rows ∧ r.1 ≠ id := by
    intro r
    change r ∈ (s.db.outgoing.deleteIds [id]).rows ↔ _
    rw [Table.mem_deleteIds, List.mem_singleton]
  have hplain := (h.deletes id (hq ▸ List.mem_cons_self)).2
  have hrow : ∀ r, RowOf s.db r → RowOf (deletePeerOutgoingActions s.db [id]) r := by
    refine fun r hr => ⟨fun hl => (hmem r).mpr ⟨hr.mem hl, fun heq => ?_⟩,
      fun r' hr' => hr.unique r' ((hmem r').mp hr').1⟩
    have hlt := hplain r (hr.mem hl) heq
    omega
  refine ⟨fun snap hsnap r hr => hrow r (h.staged snap hsnap r hr), fun q hq' hres => ?_,
    fun r hr => h.nonneg r ((hmem r).mp hr).1, h.next_nonneg,
    fun r hr => h.below r ((hmem r).mp hr).1, fun hl r hr => h.layer hl r ((hmem r).mp hr).1,
    hrest.chain, hrest.sent_below, fun n hn r hr => hrest.sent_done n hn r ((hmem r).mp hr).1,
    fun id' hid => ?_, hrest.deletesResend⟩
  · obtain ⟨row, hrow', hrest'⟩ := h.flying q hq' hres
    exact ⟨row, hrow _ hrow', hrest'⟩
  · obtain ⟨hdone, hdel⟩ := hrest.deletes id' hid
    exact ⟨hdone, fun r hr => hdel r ((hmem r).mp hr).1⟩

/-- A number is recorded; those still to be recorded are above it. -/
theorem record (h : NumbersInOrder s) {n : Int} (hq : s.dbQueue = .applySeqOut n :: rest) :
    NumbersInOrder { s with db := applyPeerSeqOut s.db n, dbQueue := rest }
      ∧ currentPeerSentSeqOut s.db ≤ n := by
  have hold : sentChain s = currentPeerSentSeqOut s.db
      :: sentChain { s with db := applyPeerSeqOut s.db n, dbQueue := rest } := by
    simp [sentChain, hq, OutgoingOp.sentSeqOut, applyPeerSeqOut, currentPeerSentSeqOut]
  have hsub : rest ⊆ s.dbQueue := hq ▸ List.subset_cons_self _ _
  have hchain := h.chain
  have hbelow := h.sent_below
  have hdone := h.sent_done
  rw [hold] at hchain hbelow hdone
  refine ⟨⟨fun snap hsnap r hr => ?_, fun q hq' hres => ?_, h.nonneg, h.next_nonneg, h.below,
    h.layer, (List.pairwise_cons.mp hchain).2, fun m hm => hbelow m (List.mem_cons_of_mem _ hm),
    fun m hm => hdone m (List.mem_cons_of_mem _ hm), fun id hid => h.deletes id (hsub hid),
    fun id hid => h.deletesResend id (hsub hid)⟩, ?_⟩
  · exact ⟨(h.staged snap hsnap r hr).mem, (h.staged snap hsnap r hr).unique⟩
  · obtain ⟨row, hrow, hrest⟩ := h.flying q hq' hres
    exact ⟨row, ⟨hrow.mem, hrow.unique⟩, hrest⟩
  · exact le_of_lt ((List.pairwise_cons.mp hchain).1 n List.mem_cons_self)

theorem stage (h : NumbersInOrder s) {snap : OutgoingSnapshot} {rest : List OutgoingSnapshot}
    (hq : s.stageQueue = snap :: rest) (waiting executing : List ℕ) :
    NumbersInOrder { s with
      stageQueue := rest
      inFlight := s.inFlight ++ pollRequests s.db waiting s.executing snap
      executing := executing } := by
  have hrest : rest ⊆ s.stageQueue := hq ▸ List.subset_cons_self _ _
  refine { h with
    staged := fun snap hsnap => h.staged snap (hrest hsnap)
    flying := fun q hq' hres => ?_ }
  rcases List.mem_append.mp hq' with hq' | hq'
  · exact h.flying q hq' hres
  · obtain ⟨b, r, hr, -, rfl⟩ := mem_pollRequests.mp hq'
    cases hres
    obtain ⟨-, hlayer, hseq⟩ := requestForRow_spec s.db waiting false r
    exact ⟨r.2, h.staged snap (hq ▸ List.mem_cons_self) r hr, hlayer, hseq⟩

theorem fail (h : NumbersInOrder s) (i : ℕ) (executing : List ℕ) :
    NumbersInOrder { s with inFlight := s.inFlight.eraseIdx i, executing := executing } :=
  { h with flying := fun q hq => h.flying q ((List.eraseIdx_sublist _ _).subset hq) }

/-- What a success does apart from recording a number or deleting a row. -/
theorem succeed (h : NumbersInOrder s) (i : ℕ) (q : OutgoingRequest) :
    NumbersInOrder { s with
      inFlight := s.inFlight.eraseIdx i
      completed := s.completed ++ [q] } := by
  have hmono : ∀ {k}, Completed s k → ∃ q' ∈ s.completed ++ [q], q'.key = k :=
    fun ⟨q', hq', hkey⟩ => ⟨q', List.mem_append_left _ hq', hkey⟩
  exact { h with
    flying := fun q hq => h.flying q ((List.eraseIdx_sublist _ _).subset hq)
    sent_done := fun n hn r hr hl hle => hmono (h.sent_done n hn r hr hl hle)
    deletes := fun id hid => ⟨hmono (h.deletes id hid).1, (h.deletes id hid).2⟩
    deletesResend := fun id hid => hmono (h.deletesResend id hid) }

theorem complete (h : NumbersInOrder s) (hids : IdsApart s) {i : ℕ} {q : OutgoingRequest}
    (hi : s.inFlight[i]? = some q) (success : Bool) (hok : Undisturbed s (.complete i success)) :
    NumbersInOrder (completeRequest { s with inFlight := s.inFlight.eraseIdx i } q success) := by
  have hmem : q ∈ s.inFlight := List.mem_of_getElem? hi
  unfold completeRequest
  split_ifs with hsuccess
  swap
  · exact h.fail i _
  have hbase := h.succeed i q
  have hmono : ∀ {k}, Completed s k → ∃ q' ∈ s.completed ++ [q], q'.key = k :=
    fun ⟨q', hq', hkey⟩ => ⟨q', List.mem_append_left _ hq', hkey⟩
  have hdone : ∃ q' ∈ s.completed ++ [q], q'.key = (q.isResend, q.actionId) :=
    ⟨q, List.mem_append_right _ (List.mem_singleton.mpr rfl), rfl⟩
  rw [hsuccess] at hok
  by_cases hres : q.isResend = true
  · rw [hres] at hdone
    rw [actionCompletedOp, if_pos hres]
    exact hbase.dispatch (by simp [OutgoingOp.sentSeqOut]) (by simp)
      fun id hid => OutgoingOp.deleteOutgoingResend.inj hid ▸ hdone
  · have hres' : q.isResend = false := by simpa using hres
    rw [hres'] at hdone
    obtain ⟨row, hrow, hlayer, hseq⟩ := h.flying q hmem hres'
    rw [actionCompletedOp, if_neg hres]
    split_ifs with hnum
    · -- The row of the request is still open, so every recorded number is below its own.
      have hmem' := hrow.mem (hlayer ▸ hnum.2)
      have hopen : ¬ Completed s (false, q.actionId) := by
        have hopen := hids.flying_open q hmem
        rwa [OutgoingRequest.key, hres'] at hopen
      refine hbase.dispatch (fun n hn => ?_) (by simp) (by simp)
      obtain rfl : q.seqOut = n := Option.some.inj hn
      refine ⟨fun m hm => ?_, ?_, fun r hr hl hle => ?_⟩
      · by_contra hge
        refine hopen (h.sent_done m hm _ hmem' (hlayer ▸ hnum.2) ?_)
        rw [← hseq hnum.2]
        omega
      · rw [hseq hnum.2]
        exact h.below _ hmem' (hlayer ▸ hnum.2)
      · by_cases hid : r.1 = q.actionId
        · rw [hid]; exact hdone
        · exact hmono (hok q hi hres' hnum.2 r hr hl hle hid)
    · have hplain : q.layer < 17 := by
        by_contra hge
        refine hnum ⟨?_, by omega⟩
        rw [hseq (by omega)]
        exact h.nonneg _ (hrow.mem (show 17 ≤ row.action.layer by omega))
      refine hbase.dispatch (by simp [OutgoingOp.sentSeqOut]) (fun id hid => ?_) (by simp)
      cases hid
      refine ⟨hdone, fun r hr hid => ?_⟩
      rw [hrow.unique r hr hid, ← hlayer]
      exact hplain

end NumbersInOrder

/-! ## Every run -/

/-- Both invariants. -/
def Flowing (s : OutgoingQueue) : Prop := IdsApart s ∧ NumbersInOrder s

theorem flowing_start (peerLayer : ℕ) (isCreator : Bool) (keys : List EncryptionKeyData) :
    Flowing (.start peerLayer isCreator keys) := by
  have hrows : ∀ b, ((OutgoingQueue.start peerLayer isCreator keys).db.table b).rows = [] := by
    intro b; cases b <;> rfl
  refine ⟨⟨?_, ?_, fun b r hr => ?_, ?_, ?_, ?_, ?_, ?_, ?_, ?_, ?_, ?_, ?_⟩,
    ⟨?_, ?_, fun r hr => ?_, le_rfl, fun r hr => ?_, fun _ r hr => ?_, List.pairwise_singleton _ _,
      fun n hn => ?_, fun n _ r hr => ?_, ?_, ?_⟩⟩
  case refine_3 => rw [hrows] at hr; cases hr
  case refine_16 => cases (hrows false ▸ hr : r ∈ [])
  case refine_17 => cases (hrows false ▸ hr : r ∈ [])
  case refine_18 => cases (hrows false ▸ hr : r ∈ [])
  case refine_19 =>
    rw [List.mem_singleton.mp hn]
    exact (by decide : (-1 : Int) < 0)
  case refine_20 => cases (hrows false ▸ hr : r ∈ [])
  all_goals simp [OutgoingQueue.start]

theorem progress_of_completed {s s' : OutgoingQueue} (hdb : s'.db = s.db)
    (hdone : s.completed ⊆ s'.completed) : Progress s s' := by
  refine ⟨fun k ⟨q, hq, hkey⟩ => ⟨q, hdone hq, hkey⟩, fun b r hr => Or.inl ?_, ?_⟩
  · rw [hdb]; exact hr
  · rw [hdb]

theorem flowing_enqueueAction {s : OutgoingQueue} (h : Flowing s) {action : OutgoingAction}
    {rest : List OutgoingOp} (hq : s.dbQueue = .enqueueAction action :: rest)
    (hid : (true, s.db.outgoing.seq + 1) ∉ s.given)
    (hlayer : 17 ≤ s.db.peerLayer → 17 ≤ action.layer) :
    Flowing (runOutgoingOp { s with dbQueue := rest } (.enqueueAction action))
      ∧ Progress s (runOutgoingOp { s with dbQueue := rest } (.enqueueAction action)) := by
  obtain ⟨hids, hnum⟩ := h
  obtain ⟨row, -, -, hout, -⟩ := enqueue_spec s.db action hnum.next_nonneg
  have hnew : (enqueuePeerOutgoingAction s.db action (17 ≤ action.layer)).2.2
      = s.db.outgoing.seq + 1 := congr_arg Table.seq hout
  have hrows : (enqueuePeerOutgoingAction s.db action (17 ≤ action.layer)).1.outgoing.rows
      = s.db.outgoing.rows ++ [(s.db.outgoing.seq + 1, row)] := congr_arg Table.rows hout
  refine ⟨⟨?_, hnum.enqueue hids hq hlayer _⟩, ⟨fun _ => id, fun b r hr => Or.inl ?_, le_rfl⟩⟩
  · refine hids.give rest [(false, _)] (fun b => ?_) ?_ ?_ ?_ ?_ fun b r hr => ?_
    · cases b
      · exact (Nat.le_succ _).trans hnew.ge
      · exact le_rfl
    · simp only [List.mem_singleton, Prod.mk.injEq]
      rintro b id ⟨rfl, rfl⟩
      exact le_rfl
    · simp only [List.mem_singleton, Prod.mk.injEq]
      rintro b id ⟨rfl, rfl⟩
      exact (Nat.lt_succ_self _).trans_eq hnew.symm
    · simp only [List.mem_singleton, Prod.mk.injEq]
      rintro b id ⟨rfl, rfl⟩
      exact hnew ▸ hid
    · simp only [List.mem_singleton, Prod.mk.injEq]
      rintro b id ⟨rfl, rfl⟩
      simp
    · cases b
      · have hr' := hrows ▸ hr
        rcases List.mem_append.mp hr' with hr' | hr'
        · exact Or.inl hr'
        · rw [List.mem_singleton.mp hr', hnew]
          exact Or.inr (List.mem_singleton.mpr rfl)
      · exact Or.inl hr
  · cases b
    · exact hrows ▸ List.mem_append_left _ hr
    · exact hr

theorem flowing_enqueueResend {s : OutgoingQueue} (h : Flowing s) {fromSeq toSeq : Int}
    {rest : List OutgoingOp} (hq : s.dbQueue = .enqueueResend fromSeq toSeq :: rest)
    (hid : ∀ id, s.db.outgoingResend.seq < id →
      id ≤ s.db.outgoingResend.seq + (s.db.outgoing.rows.filter
        fun r => fromSeq ≤ r.2.seq_out ∧ r.2.seq_out ≤ toSeq).length → (false, id) ∉ s.given) :
    Flowing (runOutgoingOp { s with dbQueue := rest } (.enqueueResend fromSeq toSeq))
      ∧ Progress s (runOutgoingOp { s with dbQueue := rest } (.enqueueResend fromSeq toSeq)) := by
  obtain ⟨hids, hnum⟩ := h
  set copies := ((s.db.outgoing.rows.filter fun r => fromSeq ≤ r.2.seq_out ∧ r.2.seq_out ≤ toSeq)
    |>.insertionSort fun r q => r.2.seq_out ≤ q.2.seq_out).map (·.2) with hcopies
  obtain ⟨new, hrows, -, hnew, hle⟩ := Table.insertAll_rows copies s.db.outgoingResend
  have hseq := Table.insertAll_seq copies s.db.outgoingResend
  have hlen : copies.length = (s.db.outgoing.rows.filter
      fun r => fromSeq ≤ r.2.seq_out ∧ r.2.seq_out ≤ toSeq).length := by
    rw [hcopies, List.length_map, List.length_insertionSort]
  have hbound : ∀ r ∈ new, r.1 ≤ (s.db.outgoingResend.insertAll copies).seq := fun r hr =>
    (s.db.outgoingResend.insertAll copies).bounded r (hrows ▸ List.mem_append_right _ hr)
  have hdrop : (s.db.outgoingResend.insertAll copies).rows.drop s.db.outgoingResend.rows.length
      = new := by
    rw [hrows, List.drop_left]
  have hgiven : ∀ b id, (b, id) ∈ ((s.db.outgoingResend.insertAll copies).rows.drop
      s.db.outgoingResend.rows.length).map (true, ·.1) → b = true ∧ ∃ r ∈ new, r.1 = id := by
    intro b id hmem
    rw [hdrop] at hmem
    obtain ⟨r, hr, heq⟩ := List.mem_map.mp hmem
    cases heq
    exact ⟨rfl, r, hr, rfl⟩
  refine ⟨⟨?_, hnum.congr hq rfl (enqueuePeerOutgoingResendActions s.db fromSeq toSeq).1 rfl
      rfl rfl hnum.layer _⟩,
    ⟨fun _ => id, fun b r hr => Or.inl ?_, le_rfl⟩⟩
  · refine hids.give rest _ (fun b => ?_) (fun b id hmem => ?_) (fun b id hmem => ?_)
      (fun b id hmem => ?_) (fun b id hmem hmem' => ?_) fun b r hr => ?_
    · cases b
      · exact le_rfl
      · exact hle
    · obtain ⟨rfl, r, hr, rfl⟩ := hgiven b id hmem
      exact hbound r hr
    · obtain ⟨rfl, r, hr, rfl⟩ := hgiven b id hmem
      exact hnew r hr
    · obtain ⟨rfl, r, hr, rfl⟩ := hgiven b id hmem
      exact hid r.1 (hnew r hr) (by rw [← hlen, ← hseq]; exact hbound r hr)
    · obtain ⟨rfl, -⟩ := hgiven b id hmem
      obtain ⟨hfalse, -⟩ := hgiven _ id hmem'
      cases hfalse
    · cases b
      · exact Or.inl hr
      · have hr' : r ∈ (s.db.outgoingResend.insertAll copies).rows := hr
        rw [hrows] at hr'
        rcases List.mem_append.mp hr' with hr' | hr'
        · exact Or.inl hr'
        · refine Or.inr (List.mem_map.mpr ⟨r, ?_, rfl⟩)
          exact hdrop ▸ hr'
  · cases b
    · exact hr
    · change r ∈ (s.db.outgoingResend.insertAll copies).rows
      exact hrows ▸ List.mem_append_left _ hr

theorem flowing_congr {s : OutgoingQueue} (h : Flowing s) {op : OutgoingOp}
    {rest : List OutgoingOp} (hq : s.dbQueue = op :: rest) (hop : op.sentSeqOut = none) (db : ChatDb)
    (hrows : ∀ b, (db.table b).rows = (s.db.table b).rows)
    (hseq : ∀ b, (s.db.table b).seq ≤ (db.table b).seq) (hnext : db.seq_out = s.db.seq_out)
    (hsent : db.sent_seq_out = s.db.sent_seq_out)
    (hlayer : 17 ≤ db.peerLayer → ∀ r ∈ s.db.outgoing.rows, 17 ≤ r.2.action.layer) :
    Flowing { s with db := db, dbQueue := rest }
      ∧ Progress s { s with db := db, dbQueue := rest } := by
  refine ⟨⟨h.1.congr_db rest hseq fun b r hr => hrows b ▸ hr,
    h.2.congr hq hop db (hrows false) hnext hsent hlayer s.given⟩,
    ⟨fun _ hk => hk, fun b r hr => Or.inl (hrows b ▸ hr), ?_⟩⟩
  exact le_of_eq (by rw [currentPeerSentSeqOut, currentPeerSentSeqOut, hsent])

theorem flowing_db {s : OutgoingQueue} (h : Flowing s) (hok : Undisturbed s .db) :
    Flowing (outgoingStep s .db) ∧ Progress s (outgoingStep s .db) := by
  rcases hq : s.dbQueue with _ | ⟨op, rest⟩
  · simpa only [outgoingStep, hq] using ⟨h, Progress.refl s⟩
  have ⟨hids, hnum⟩ := h
  simp only [outgoingStep, hq]
  simp only [Undisturbed, hq] at hok
  cases op with
  | enqueueAction action => exact flowing_enqueueAction h hq hok.1 hok.2
  | enqueueResend fromSeq toSeq => exact flowing_enqueueResend h hq hok
  | dequeueOutgoing =>
    exact ⟨⟨hids.dequeue rest, hnum.dequeue hq⟩, progress_of_completed rfl fun _ hq => hq⟩
  | deleteOutgoing id =>
    have hdone := (hnum.deletes id (hq ▸ List.mem_cons_self)).1
    have hmem : ∀ r, r ∈ (s.db.outgoing.deleteIds [id]).rows ↔ r ∈ s.db.outgoing.rows ∧ r.1 ≠ id :=
      fun r => by rw [Table.mem_deleteIds, List.mem_singleton]
    refine ⟨⟨hids.congr_db rest (fun b => ?_) fun b r hr => ?_, hnum.delete hq⟩,
      ⟨fun _ hk => hk, fun b r hr => ?_, le_rfl⟩⟩
    · cases b <;> exact le_rfl
    · cases b
      · exact ((hmem r).mp hr).1
      · exact hr
    · cases b
      · by_cases hid : r.1 = id
        · exact Or.inr (hid ▸ hdone)
        · exact Or.inl ((hmem r).mpr ⟨hr, hid⟩)
      · exact Or.inl hr
  | deleteOutgoingResend id =>
    have hdone := hnum.deletesResend id (hq ▸ List.mem_cons_self)
    have hmem : ∀ r, r ∈ (s.db.outgoingResend.deleteIds [id]).rows
        ↔ r ∈ s.db.outgoingResend.rows ∧ r.1 ≠ id :=
      fun r => by rw [Table.mem_deleteIds, List.mem_singleton]
    refine ⟨⟨hids.congr_db rest (fun b => ?_) fun b r hr => ?_,
      hnum.congr hq rfl (deletePeerOutgoingResendActions s.db [id]) rfl rfl rfl hnum.layer s.given⟩,
      ⟨fun _ hk => hk, fun b r hr => ?_, le_rfl⟩⟩
    · cases b <;> exact le_rfl
    · cases b
      · exact hr
      · exact ((hmem r).mp hr).1
    · cases b
      · exact Or.inl hr
      · by_cases hid : r.1 = id
        · exact Or.inr (hid ▸ hdone)
        · exact Or.inl ((hmem r).mpr ⟨hr, hid⟩)
  | applySeqOut n =>
    obtain ⟨hnum', hle⟩ := hnum.record hq
    refine ⟨⟨hids.congr_db rest (fun b => ?_) fun b r hr => ?_, hnum'⟩,
      ⟨fun _ hk => hk, fun b r hr => Or.inl ?_, hle⟩⟩
    all_goals cases b
    all_goals first | exact le_rfl | exact hr
  | otherRow isResend =>
    cases isResend with
    | false =>
      exact flowing_congr h hq rfl { s.db with outgoing := s.db.outgoing.skip 1 }
        (fun b => by cases b <;> rfl) (fun b => by cases b <;> simp [ChatDb.table, Table.skip])
        rfl rfl hnum.layer
    | true =>
      exact flowing_congr h hq rfl { s.db with outgoingResend := s.db.outgoingResend.skip 1 }
        (fun b => by cases b <;> rfl) (fun b => by cases b <;> simp [ChatDb.table, Table.skip])
        rfl rfl hnum.layer
  | setPeerLayer layer =>
    exact flowing_congr h hq rfl { s.db with peerLayer := layer } (fun b => by cases b <;> rfl)
      (fun b => by cases b <;> exact le_rfl) rfl rfl hok

theorem flowing_step (s : OutgoingQueue) (e : OutgoingEvent) (h : Flowing s)
    (hok : Undisturbed s e) : Flowing (outgoingStep s e) ∧ Progress s (outgoingStep s e) := by
  have hdispatch : ∀ op : OutgoingOp, op.sentSeqOut = none → (∀ id, op ≠ .deleteOutgoing id) →
      (∀ id, op ≠ .deleteOutgoingResend id) →
      Flowing { s with dbQueue := s.dbQueue ++ [op] }
        ∧ Progress s { s with dbQueue := s.dbQueue ++ [op] } := by
    intro op hsent hdel hdelr
    refine ⟨⟨h.1.congr_db _ (fun _ => le_rfl) fun _ _ hr => hr, ?_⟩,
      progress_of_completed rfl fun _ hq => hq⟩
    exact h.2.dispatch (by simp [hsent]) (fun id hid => absurd hid (hdel id))
      fun id hid => absurd hid (hdelr id)
  cases e with
  | enqueueAction action => exact hdispatch _ rfl (by simp) (by simp)
  | enqueueResend fromSeq toSeq => exact hdispatch _ rfl (by simp) (by simp)
  | otherRow isResend => exact hdispatch _ rfl (by simp) (by simp)
  | setPeerLayer layer => exact hdispatch _ rfl (by simp) (by simp)
  | poll => exact hdispatch _ rfl (by simp) (by simp)
  | db => exact flowing_db h hok
  | stage waiting =>
    rcases hq : s.stageQueue with _ | ⟨snap, rest⟩
    · simpa only [outgoingStep, hq] using ⟨h, Progress.refl s⟩
    · simp only [outgoingStep, hq]
      exact ⟨⟨h.1.stage hq waiting, h.2.stage hq waiting _⟩, progress_of_completed rfl fun _ hq => hq⟩
  | complete i success =>
    rcases hi : s.inFlight[i]? with _ | q
    · simpa only [outgoingStep, hi] using ⟨h, Progress.refl s⟩
    · simp only [outgoingStep, hi]
      refine ⟨⟨h.1.complete hi success, h.2.complete h.1 hi success hok⟩, ?_⟩
      unfold completeRequest
      split_ifs
      · exact progress_of_completed rfl (List.subset_append_left _ _)
      · exact progress_of_completed rfl fun _ hq => hq

/-- In this state nothing that still has to be sent is out of reach: a poll that dequeues now sees
it, the block of one that runs now requests it unless it is in flight, and the recorded number
hides nothing. -/
structure NotStranded (s : OutgoingQueue) : Prop where
  seen : ∀ b, ∀ r ∈ (s.db.table b).rows, ¬ Completed s (b, r.1) →
    r ∈ (dequeueOutgoing s.db).rows b
  free : ∀ b, ∀ r ∈ (s.db.table b).rows, ¬ Completed s (b, r.1) →
    InFlight s (b, r.1) ∨ r.1 ∉ s.executing
  sent : ∀ r ∈ s.db.outgoing.rows, 17 ≤ r.2.action.layer →
    r.2.seq_out ≤ currentPeerSentSeqOut s.db → Completed s (false, r.1)

theorem notStranded_of_flowing {s : OutgoingQueue} (h : Flowing s) : NotStranded s := by
  obtain ⟨hids, hnum⟩ := h
  have hsent : ∀ r ∈ s.db.outgoing.rows, 17 ≤ r.2.action.layer →
      r.2.seq_out ≤ currentPeerSentSeqOut s.db → Completed s (false, r.1) :=
    hnum.sent_done _ List.mem_cons_self
  refine ⟨fun b r hr hopen => ?_, fun b r hr hopen => ?_, hsent⟩
  · cases b
    · refine List.mem_filter.mpr ⟨hr, ?_⟩
      rw [decide_eq_true_eq]
      split_ifs with hl
      · have hpos := hnum.nonneg r hr
        omega
      · by_contra hge
        exact hopen (hsent r hr (hnum.layer (by omega) r hr) (by omega))
    · exact hr
  · by_cases hex : r.1 ∈ s.executing
    · exact Or.inl ((hids.requested b r.1 (hids.rows b r hr) hex).resolve_right hopen)
    · exact Or.inr hex

section Run

variable (peerLayer : ℕ) (isCreator : Bool) (keys : List EncryptionKeyData)

/-- In every undisturbed run nothing is stranded, the recorded number does not fall, and when the
block of a poll that dequeued in `s₁` has run, every row of `s₁` is completed or in flight. -/
theorem outgoing_not_stranded (es : List OutgoingEvent)
    (hok : AllSteps outgoingStep Undisturbed (.start peerLayer isCreator keys) es) :
    NotStranded (run outgoingStep (.start peerLayer isCreator keys) es)
      ∧ ∀ es₁ es₂, es = es₁ ++ es₂ →
        let s₁ := run outgoingStep (.start peerLayer isCreator keys) es₁
        let s := run outgoingStep (.start peerLayer isCreator keys) es
        currentPeerSentSeqOut s₁.db ≤ currentPeerSentSeqOut s.db
          ∧ ∀ rest waiting, s.stageQueue = dequeueOutgoing s₁.db :: rest →
            ∀ b, ∀ r ∈ (s₁.db.table b).rows,
              Completed (outgoingStep s (.stage waiting)) (b, r.1)
                ∨ InFlight (outgoingStep s (.stage waiting)) (b, r.1) := by
  have hstep : ∀ s e, Flowing s → Undisturbed s e → Flowing (outgoingStep s e) :=
    fun s e hs he => (flowing_step s e hs he).1
  have hstart := flowing_start peerLayer isCreator keys
  have h := invariant hstep es hstart hok
  refine ⟨notStranded_of_flowing h, ?_⟩
  intro es₁ es₂ hes s₁ s
  rw [hes] at hok
  obtain ⟨hok₁, hok₂⟩ := (allSteps_append _ _ _ _ _).mp hok
  have h₁ : Flowing s₁ := invariant hstep es₁ hstart hok₁
  have hs : s = run outgoingStep s₁ es₂ := by
    change run outgoingStep _ es = _
    rw [hes, run_append]
  have hprogress : Progress s₁ s :=
    hs ▸ relates Progress.refl Progress.trans flowing_step es₂ h₁ hok₂
  refine ⟨hprogress.sent, fun rest waiting hq b r hr => ?_⟩
  simp only [outgoingStep, hq]
  by_cases hdone : Completed s (b, r.1)
  · exact Or.inl hdone
  · right
    have hseen := (notStranded_of_flowing h₁).seen b r hr fun hc => hdone (hprogress.completed _ hc)
    have hrow := (hprogress.rows b r hr).resolve_right hdone
    rcases (notStranded_of_flowing h).free b r hrow hdone with ⟨q, hq', hkey⟩ | hfree
    · exact ⟨q, List.mem_append_left _ hq', hkey⟩
    · exact ⟨requestForRow s.db waiting b r, List.mem_append_right _
        (mem_pollRequests.mpr ⟨b, r, hseen, hfree, rfl⟩), rfl⟩

end Run

/-- A message of layer 46. -/
def sentMessage : OutgoingAction := .message 5 46 7 (.content [1]) none

/-- A message is sent and accepted, and the peer asks for it again. -/
def resendRun : List OutgoingEvent :=
  [.enqueueAction sentMessage, .poll, .db, .db, .stage [1], .complete 0 true, .db,
    .enqueueResend 0 0, .poll, .db, .db, .stage []]

/-- A row of another chat keeps the ids of the two tables apart. -/
theorem outgoing_not_stranded_resend :
    NotStranded (run outgoingStep (.start 46 true []) (.otherRow true :: .db :: resendRun))
      ∧ (run outgoingStep (.start 46 true []) (.otherRow true :: .db :: resendRun)).inFlight.map
        (·.key) = [(true, 2)] := by
  refine ⟨(outgoing_not_stranded 46 true [] (.otherRow true :: .db :: resendRun) ?_).1, by decide⟩
  obtain ⟨s, hs⟩ : ∃ s, run outgoingStep (.start 46 true [])
    [.otherRow true, .db, .enqueueAction sentMessage, .poll, .db, .db, .stage [1]] = s := ⟨_, rfl⟩
  have hrows : s.db.outgoing.rows.map (·.1) = [1] := by rw [← hs]; decide
  have hflying : s.inFlight.map (·.actionId) = [1] := by rw [← hs]; decide
  -- The only row is that of the only request.
  have hcomplete : Undisturbed s (.complete 0 true) := by
    intro q hq _ _ r hr _ _ hne
    have hr' := List.mem_map_of_mem (f := Prod.fst) hr
    have hq' := List.mem_map_of_mem (f := OutgoingRequest.actionId) (List.mem_of_getElem? hq)
    change r.1 ∈ s.db.outgoing.rows.map (·.1) at hr'
    change q.actionId ∈ s.inFlight.map (·.actionId) at hq'
    rw [hrows, List.mem_singleton] at hr'
    rw [hflying, List.mem_singleton] at hq'
    exact absurd (hr'.trans hq'.symm) hne
  rw [← hs] at hcomplete
  refine ⟨trivial, trivial, trivial, trivial, ⟨by decide, fun _ => by decide⟩, trivial, trivial,
    hcomplete, trivial, trivial, trivial, fun id hlt hle hmem => ?_, trivial, trivial, trivial⟩
  have hgiven : (false, id) ∈ [(false, 1)] := hmem
  have hid : id = 1 := by simpa using hgiven
  have hlt' : 1 < id := hlt
  omega

/-- Both tables give the id 1: the row to resend is not requested, now or by a later poll, because
the id of the message is still in the set. -/
theorem resend_stranded :
    let s := run outgoingStep (.start 46 true []) resendRun
    s.db.outgoingResend.rows = [(1, ⟨0, 0, sentMessage⟩)] ∧ s.inFlight = [] ∧ s.executing = [1]
      ∧ ¬ NotStranded s := by
  intro s
  have hrows : s.db.outgoingResend.rows = [(1, ⟨0, 0, sentMessage⟩)] := by decide
  have hflying : s.inFlight = [] := by decide
  have hexec : s.executing = [1] := by decide
  have hdone : ¬ Completed s (true, 1) := by
    have hkeys : s.completed.map OutgoingRequest.key = [(false, 1)] := by decide
    rintro ⟨q, hq, hkey⟩
    have hmem := List.mem_map_of_mem (f := OutgoingRequest.key) hq
    rw [hkeys, hkey] at hmem
    exact absurd hmem (by decide)
  refine ⟨hrows, hflying, hexec, fun h => ?_⟩
  rcases h.free true (1, ⟨0, 0, sentMessage⟩) (by
    change _ ∈ s.db.outgoingResend.rows
    rw [hrows]
    exact List.mem_cons_self) hdone with ⟨q, hq, -⟩ | hfree
  · rw [hflying] at hq
    cases hq
  · rw [hexec] at hfree
    exact hfree List.mem_cons_self

end Onegram
