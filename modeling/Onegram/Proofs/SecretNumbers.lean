import Onegram.Lib.Run
import Onegram.SecretChat

/-!
# Numbered and unnumbered outgoing actions

Actions enqueued with a sequence number get 0, 1, 2, … in every run. Those enqueued without one
share the table with them and have 0 in the column, which the three queries on that column cannot
tell from the number 0.
-/

namespace Onegram

open Run

/-! ## Runs -/

/-- The chat, with the numbers given out so far and the ids of the rows that have none. -/
structure NumberedChat where
  db : ChatDb
  assigned : List Int
  plain : List ℕ

inductive NumberEvent
  | enqueue (action : OutgoingAction) (useSeq : Bool)
  | confirm (seqOut : Int)
  | delete (actionIds : List ℕ)
  | deleteResend (actionIds : List ℕ)
  /-- A request with this number has succeeded. -/
  | applySeqOut (seqOut : Int)
  | applySeqIn (seqIn : Int)
  | resend (fromSeq toSeq : Int)
  | dequeue
  | setPeerLayer (layer : ℕ)
  /-- Other chats store rows in the table. -/
  | otherRows (n : ℕ)

def enqueueNumbered (s : NumberedChat) (action : OutgoingAction) (useSeq : Bool) :
    NumberedChat :=
  let r := enqueuePeerOutgoingAction s.db action useSeq
  { db := r.1
    assigned := if useSeq then s.assigned ++ [r.2.1] else s.assigned
    plain := if useSeq then s.plain else s.plain ++ [r.2.2] }

def numberStep (s : NumberedChat) : NumberEvent → NumberedChat
  | .enqueue action useSeq => enqueueNumbered s action useSeq
  | .confirm seqOut => { s with db := confirmPeerSeqOut s.db seqOut }
  | .delete actionIds => { s with db := deletePeerOutgoingActions s.db actionIds }
  | .deleteResend actionIds => { s with db := deletePeerOutgoingResendActions s.db actionIds }
  | .applySeqOut seqOut => { s with db := applyPeerSeqOut s.db seqOut }
  | .applySeqIn seqIn => { s with db := applyPeerSeqIn s.db seqIn }
  | .resend fromSeq toSeq =>
    { s with db := (enqueuePeerOutgoingResendActions s.db fromSeq toSeq).1 }
  | .dequeue => s
  | .setPeerLayer layer => { s with db := { s.db with peerLayer := layer } }
  | .otherRows n => { s with db := { s.db with outgoing := s.db.outgoing.skip n } }

def NumberedChat.start (peerLayer : ℕ) (isCreator : Bool) (keys : List EncryptionKeyData) :
    NumberedChat :=
  ⟨.fresh peerLayer isCreator keys, [], []⟩

/-! ## What is asked -/

/-- The rows a resend of the range takes. -/
def resendRows (db : ChatDb) (fromSeq toSeq : Int) : List (ℕ × OutgoingRow) :=
  (db.outgoing.rows.filter fun r => fromSeq ≤ r.2.seq_out ∧ r.2.seq_out ≤ toSeq).insertionSort
    (fun r q => r.2.seq_out ≤ q.2.seq_out)

theorem enqueuePeerOutgoingResendActions_rows (db : ChatDb) (fromSeq toSeq : Int) :
    (enqueuePeerOutgoingResendActions db fromSeq toSeq).1.outgoingResend
      = db.outgoingResend.insertAll ((resendRows db fromSeq toSeq).map (·.2)) := rfl

/-- The numbers given out are 0, 1, 2, … in order, and the next one is known. -/
structure NumbersRight (s : NumberedChat) : Prop where
  assigned : s.assigned = (List.range s.assigned.length).map (↑)
  next : peerNextSeqOut s.db = s.assigned.length

structure NumberInv (s : NumberedChat) : Prop where
  numbers : NumbersRight s
  plainZero : ∀ r ∈ s.db.outgoing.rows, r.1 ∈ s.plain → r.2.seq_out = 0
  plainGiven : ∀ id ∈ s.plain, id ≤ s.db.outgoing.seq

namespace NumberInv

variable {s : NumberedChat}

/-- A step that gives out no number and stores no row of the chat. -/
theorem frame (h : NumberInv s) {db : ChatDb} (hseq : db.seq_out = s.db.seq_out)
    (hrows : ∀ r ∈ db.outgoing.rows, r ∈ s.db.outgoing.rows)
    (hle : s.db.outgoing.seq ≤ db.outgoing.seq) : NumberInv { s with db := db } where
  numbers := ⟨h.numbers.assigned, by
    have hnext := h.numbers.next
    unfold peerNextSeqOut at hnext ⊢
    rw [hseq, hnext]⟩
  plainZero := fun r hr => h.plainZero r (hrows r hr)
  plainGiven := fun id hid => (h.plainGiven id hid).trans hle

theorem enqueue (h : NumberInv s) (action : OutgoingAction) (useSeq : Bool) :
    NumberInv (enqueueNumbered s action useSeq) := by
  have hfresh : s.db.outgoing.seq + 1 ∉ s.plain := fun hid => by
    have := h.plainGiven _ hid
    omega
  have hold : ∀ r ∈ s.db.outgoing.rows, r.1 ≠ s.db.outgoing.seq + 1 := fun r hr heq => by
    have := s.db.outgoing.bounded r hr
    omega
  cases useSeq with
  | true =>
    refine ⟨⟨?_, ?_⟩, fun r hr hid => ?_, fun id hid => ?_⟩
    · simp only [enqueueNumbered, enqueuePeerOutgoingAction, if_true, h.numbers.next,
        List.length_append, List.length_singleton, List.range_succ, List.map_append,
        ← h.numbers.assigned, List.map_singleton]
    · simp [enqueueNumbered, enqueuePeerOutgoingAction, peerNextSeqOut, ← h.numbers.next]
    · rcases List.mem_append.1 hr with hr | hr
      · exact h.plainZero r hr hid
      · rw [List.mem_singleton] at hr
        subst hr
        exact absurd hid hfresh
    · exact (h.plainGiven id hid).trans (Nat.le_succ _)
  | false =>
    refine ⟨⟨h.numbers.assigned, h.numbers.next⟩, fun r hr hid => ?_, fun id hid => ?_⟩
    · rcases List.mem_append.1 hr with hr | hr
      · rcases List.mem_append.1 hid with hid | hid
        · exact h.plainZero r hr hid
        · exact absurd (List.mem_singleton.1 hid) (hold r hr)
      · rw [List.mem_singleton] at hr
        subst hr
        rfl
    · rcases List.mem_append.1 hid with hid | hid
      · exact (h.plainGiven id hid).trans (Nat.le_succ _)
      · exact (List.mem_singleton.1 hid).le

theorem step (h : NumberInv s) (e : NumberEvent) : NumberInv (numberStep s e) := by
  cases e with
  | enqueue action useSeq => exact h.enqueue action useSeq
  | confirm seqOut => exact h.frame rfl (fun r hr => (Table.mem_filter.1 hr).1) le_rfl
  | delete ids => exact h.frame rfl (fun r hr => (Table.mem_deleteIds.1 hr).1) le_rfl
  | deleteResend ids => exact h.frame rfl (fun _ hr => hr) le_rfl
  | applySeqOut seqOut => exact h.frame rfl (fun _ hr => hr) le_rfl
  | applySeqIn seqIn => exact h.frame rfl (fun _ hr => hr) le_rfl
  | resend fromSeq toSeq => exact h.frame rfl (fun _ hr => hr) le_rfl
  | dequeue => exact h
  | setPeerLayer layer => exact h.frame rfl (fun _ hr => hr) le_rfl
  | otherRows n => exact h.frame rfl (fun _ hr => hr) (Nat.le_add_right _ _)

end NumberInv

/-! ## Every run -/

end Onegram
