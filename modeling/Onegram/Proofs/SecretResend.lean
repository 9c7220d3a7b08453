import Onegram.SecretChat
import Onegram.SecretOutgoing

/-!
# What a resend repeats

A row is copied to the resend table with its numbers and its action, under a new id. The request
for it is built like the first one, but what it says depends on the send actors waiting for that
id and on the keys there are at the time (`resend_same_iff`).
-/

namespace Onegram

/-- The key a row is encrypted with, and its id, if there is one. -/
def usableKey (db : ChatDb) (row : OutgoingRow) : Option (Bytes × Int) :=
  match encryptionKeyForConversationId db.encryptionKeys row.action.keyId with
  | (some key, keyId) => if key = [] then none else some (key, keyId)
  | (none, _) => none

/-- The numbers, the key id, the random id and the content are the same. -/
def SameRequest (q q' : OutgoingRequest) : Prop :=
  q.seqOut = q'.seqOut ∧ q.layer = q'.layer ∧ q.body = q'.body

/-- A message is asked for by a send actor both times or neither time, unless it is the deletion
that stands in for it anyway. -/
def SameContent (waiting waiting' : List ℕ) (action : OutgoingAction) (id id' : ℕ) : Prop :=
  match action with
  | .message randomId layer _ data _ =>
    (id ∈ waiting ↔ id' ∈ waiting') ∨ deleteMessagesData layer [randomId] = some data
  | .service _ _ _ _ => True

theorem requestData_eq_iff (waiting waiting' : List ℕ) (action : OutgoingAction) (id id' : ℕ) :
    requestData waiting action id = requestData waiting' action id'
      ↔ SameContent waiting waiting' action id id' := by
  cases action with
  | message randomId layer keyId data fileInfo =>
    simp only [requestData, SameContent]
    by_cases h : id ∈ waiting <;> by_cases h' : id' ∈ waiting'
    · simp [h, h']
    · simp [h, h', eq_comm]
    · simp [h, h']
    · simp [h, h']
  | service => simp [requestData, SameContent]

/-- From layer 17 on there is always something to encrypt, so only the key decides whether there
is a ciphertext. -/
theorem encryptMessage_some (db : ChatDb) (row : OutgoingRow) (plaintext : Plaintext) (v2 : Bool) :
    encryptMessage (some plaintext)
        (encryptionKeyForConversationId db.encryptionKeys row.action.keyId).1
        (encryptionKeyForConversationId db.encryptionKeys row.action.keyId).2 v2
      = (usableKey db row).map fun k => ⟨k.2, k.1, v2, plaintext⟩ := by
  unfold usableKey encryptMessage
  rcases encryptionKeyForConversationId db.encryptionKeys row.action.keyId with ⟨_ | key, keyId⟩
  · rfl
  · dsimp only
    split_ifs <;> rfl

/-- The body is that of its kind, around the ciphertext. -/
theorem body_eq_iff (db db' : ChatDb) (waiting waiting' : List ℕ) (b b' : Bool) (id id' : ℕ)
    (row : OutgoingRow) (hlayer : 17 ≤ row.action.layer) :
    (requestForRow db waiting b (id, row)).body = (requestForRow db' waiting' b' (id', row)).body
      ↔ ((usableKey db row).map fun k => Ciphertext.mk k.2 k.1 (73 ≤ row.action.layer)
          (.numbered row.action.layer (row.seq_in * 2 + if db.isCreator then 0 else 1)
            (row.seq_out * 2 + if db.isCreator then 1 else 0)
            (requestData waiting row.action id)))
        = (usableKey db' row).map fun k => Ciphertext.mk k.2 k.1 (73 ≤ row.action.layer)
          (.numbered row.action.layer (row.seq_in * 2 + if db'.isCreator then 0 else 1)
            (row.seq_out * 2 + if db'.isCreator then 1 else 0)
            (requestData waiting' row.action id')) := by
  rw [← encryptMessage_some, ← encryptMessage_some]
  unfold requestForRow requestForAction serializedMessage
  simp only [if_pos hlayer]
  split <;> simp

/-- The resend repeats the original exactly where the same key is there both times and, if there
is one, the content is the same. -/
theorem resend_same_iff (db : ChatDb) {r : ℕ × OutgoingRow} (hr : r ∈ db.outgoing.rows)
    (hlayer : 17 ≤ r.2.action.layer) (fromSeq toSeq : Int) (hfrom : fromSeq ≤ r.2.seq_out)
    (hto : r.2.seq_out ≤ toSeq) :
    ∃ id', db.outgoingResend.seq < id'
      ∧ (id', r.2) ∈ (enqueuePeerOutgoingResendActions db fromSeq toSeq).1.outgoingResend.rows
      ∧ ∀ (db₁ db₂ : ChatDb) (waiting₁ waiting₂ : List ℕ), db₁.isCreator = db₂.isCreator →
        (SameRequest (requestForRow db₁ waiting₁ false r)
            (requestForRow db₂ waiting₂ true (id', r.2))
          ↔ usableKey db₁ r.2 = usableKey db₂ r.2
            ∧ (usableKey db₁ r.2 = none
              ∨ SameContent waiting₁ waiting₂ r.2.action r.1 id')) := by
  obtain ⟨new, hrows, hmap, hnew, -⟩ := Table.insertAll_rows
    (((db.outgoing.rows.filter fun r => fromSeq ≤ r.2.seq_out ∧ r.2.seq_out ≤ toSeq).insertionSort
      fun r q => r.2.seq_out ≤ q.2.seq_out).map (·.2)) db.outgoingResend
  have hcopy : r.2 ∈ new.map Prod.snd := by
    rw [hmap]
    refine List.mem_map_of_mem ((List.mem_insertionSort _).mpr (List.mem_filter.mpr ⟨hr, ?_⟩))
    simp [hfrom, hto]
  obtain ⟨⟨id', row⟩, hmem, rfl⟩ := List.mem_map.mp hcopy
  refine ⟨id', hnew _ hmem, ?_, fun db₁ db₂ waiting₁ waiting₂ hcreator => ?_⟩
  · change _ ∈ (db.outgoingResend.insertAll _).rows
    rw [hrows]
    exact List.mem_append_right _ hmem
  · have hbody := body_eq_iff db₁ db₂ waiting₁ waiting₂ false true r.1 id' r.2 hlayer
    rw [hcreator] at hbody
    rw [← requestData_eq_iff]
    refine ⟨fun h => ?_, fun ⟨hkey, hdata⟩ => ⟨rfl, rfl, hbody.mpr ?_⟩⟩
    · have hmaps := hbody.mp h.2.2
      rcases h₁ : usableKey db₁ r.2 with _ | k₁ <;> rcases h₂ : usableKey db₂ r.2 with _ | k₂
      · exact ⟨rfl, Or.inl rfl⟩
      · simp [h₁, h₂] at hmaps
      · simp [h₁, h₂] at hmaps
      · simp only [h₁, h₂, Option.map_some, Option.some.injEq, Ciphertext.mk.injEq,
          Plaintext.numbered.injEq, true_and] at hmaps
        obtain ⟨hid, hkey, hdata⟩ := hmaps
        exact ⟨congr_arg some (Prod.ext hkey hid), Or.inr hdata⟩
    · rcases hdata with hnone | hdata
      · rw [← hkey, hnone]
        rfl
      · rw [hkey, hdata]

/-- A message is sent while its actor waits, and the peer asks for it again. -/
theorem resend_same_waiting :
    let row : OutgoingRow := ⟨0, 0, .message 5 46 7 (.content [1]) none⟩
    let db : ChatDb :=
      (enqueuePeerOutgoingAction (.fresh 46 true [⟨7, [1], 0⟩]) row.action true).1
    ∃ id', 0 < id' ∧ (id', row) ∈ (enqueuePeerOutgoingResendActions db 0 0).1.outgoingResend.rows
      ∧ SameRequest (requestForRow db [1] false (1, row)) (requestForRow db [id'] true (id', row)) := by
  intro row db
  obtain ⟨id', hlt, hmem, hiff⟩ := resend_same_iff db (r := (1, row)) (by decide) (by decide) 0 0
    (by decide) (by decide)
  refine ⟨id', hlt, hmem, (hiff db db [1] [id'] rfl).mpr ⟨rfl, Or.inr (Or.inl ?_)⟩⟩
  simp

/-- The message has been sent and its actor is gone when the peer asks for it again: the resend is
the deletion of the message. -/
theorem resend_deletes_message :
    let row : OutgoingRow := ⟨0, 0, .message 5 46 7 (.content [1]) none⟩
    let db : ChatDb :=
      (enqueuePeerOutgoingAction (.fresh 46 true [⟨7, [1], 0⟩]) row.action true).1
    (enqueuePeerOutgoingResendActions db 0 0).1.outgoingResend.rows = [(1, row)]
      ∧ (requestForRow db [1] false (1, row)).body = .sendEncrypted 5
        (some ⟨7, [1], false, .numbered 46 0 1 (some (.content [1]))⟩)
      ∧ (requestForRow db [] true (1, row)).body = .sendEncrypted 5
        (some ⟨7, [1], false, .numbered 46 0 1 (some (.deleteMessages [5]))⟩)
      ∧ ¬ SameRequest (requestForRow db [1] false (1, row)) (requestForRow db [] true (1, row)) := by
  intro row db
  have hfirst : (requestForRow db [1] false (1, row)).body = .sendEncrypted 5
      (some ⟨7, [1], false, .numbered 46 0 1 (some (.content [1]))⟩) := by decide
  have hresend : (requestForRow db [] true (1, row)).body = .sendEncrypted 5
      (some ⟨7, [1], false, .numbered 46 0 1 (some (.deleteMessages [5]))⟩) := by decide
  refine ⟨by decide, hfirst, hresend, fun h => ?_⟩
  have hbody := h.2.2
  rw [hfirst, hresend] at hbody
  exact absurd hbody (by decide)

end Onegram

/-!
## What a resend request adds

The halves of 32-bit numbers end below the largest one, so the loop over them ends; up to the
largest one it would not (`rangeIndices_max`). The rows of the range are added to whatever is there:
a request that comes again adds them again. A row without a number has the number 0 in the table.
-/

namespace Onegram

/-! ## The loop -/

/-- With enough turns the set has the numbers of the range as well. -/
theorem rangeIndices_eq : ∀ (fuel : ℕ) {seq toSeq : Int} (indices : Finset Int), -2 ^ 31 ≤ seq →
    toSeq < 2 ^ 31 - 1 → (toSeq - seq + 1).toNat < fuel →
    rangeIndices fuel seq toSeq indices = some (indices ∪ Finset.Icc seq toSeq)
  | 0, _, _, _, _, _, h => absurd h (Nat.not_lt_zero _)
  | fuel + 1, seq, toSeq, indices, hseq, hto, h => by
    rw [rangeIndices]
    by_cases hle : seq ≤ toSeq
    · have hnext : nextSeq seq = seq + 1 := Int.bmod_eq_of_le (by omega) (by omega)
      rw [if_pos hle, hnext, rangeIndices_eq fuel (insert seq indices) (by omega) hto (by omega)]
      congr 1
      ext n
      simp only [Finset.mem_union, Finset.mem_insert, Finset.mem_Icc]
      by_cases hn : n ∈ indices
      · simp [hn]
      · simp only [hn, or_false, false_or]
        omega
    · rw [if_neg hle, Finset.Icc_eq_empty hle, Finset.union_empty]

/-- A loop up to the largest number goes on for ever. -/
theorem rangeIndices_max : ∀ (fuel : ℕ) {seq : Int} (indices : Finset Int), -2 ^ 31 ≤ seq →
    seq < 2 ^ 31 → rangeIndices fuel seq INT32_MAX indices = none
  | 0, _, _, _, _ => rfl
  | fuel + 1, seq, indices, hle, hlt => by
    have hnext : -2 ^ 31 ≤ nextSeq seq ∧ nextSeq seq < 2 ^ 31 := by
      unfold nextSeq
      have := Int.le_bmod (x := seq + 1) (m := 2 ^ 32) (by norm_num)
      have := Int.bmod_lt (x := seq + 1) (m := 2 ^ 32) (by norm_num)
      omega
    rw [rangeIndices, if_pos (by rw [INT32_MAX]; omega)]
    exact rangeIndices_max fuel _ hnext.1 hnext.2

theorem mem_foldl_erase {n : Int} : ∀ {rows : List (ℕ × OutgoingRow)} {indices : Finset Int},
    n ∈ rows.foldl (fun indices r => indices.erase r.2.seq_out) indices
      ↔ n ∈ indices ∧ ∀ r ∈ rows, r.2.seq_out ≠ n
  | [], _ => by simp
  | row :: rows, indices => by
    rw [List.foldl_cons, mem_foldl_erase, Finset.mem_erase, List.forall_mem_cons]
    constructor
    · rintro ⟨⟨hne, hmem⟩, hrows⟩
      exact ⟨hmem, fun h => hne h.symm, hrows⟩
    · rintro ⟨hmem, hne, hrows⟩
      exact ⟨⟨fun h => hne h.symm, hmem⟩, hrows⟩

/-! ## The rows -/

/-- The stored rows with a number of the range, in the order of the table. -/
def rowsInRange (db : ChatDb) (fromSeq toSeq : Int) : List (ℕ × OutgoingRow) :=
  db.outgoing.rows.filter fun r => fromSeq ≤ r.2.seq_out ∧ r.2.seq_out ≤ toSeq

/-- What a request makes of the chat: the rows of the range are added to the resend table, by their
numbers, and it is complete if each number of the range has a row. -/
structure Resent (db : ChatDb) (fromSeq toSeq : Int) (db' : ChatDb) (complete : Bool) : Prop where
  frame : db' = { db with outgoingResend := db'.outgoingResend }
  appended : ∃ new : List (ℕ × OutgoingRow),
    db'.outgoingResend.rows = db.outgoingResend.rows ++ new
      ∧ (new.map (·.2)).Perm ((rowsInRange db fromSeq toSeq).map (·.2))
      ∧ (new.map (·.2)).Pairwise (·.seq_out ≤ ·.seq_out)
      ∧ ∀ r ∈ new, db.outgoingResend.seq < r.1
  complete_iff : complete = true
    ↔ ∀ seq, fromSeq ≤ seq → seq ≤ toSeq → ∃ r ∈ db.outgoing.rows, r.2.seq_out = seq

theorem enqueueResendActions_resent (db : ChatDb) {fromSeq toSeq : Int} (hfrom : -2 ^ 31 ≤ fromSeq)
    (hto : toSeq < 2 ^ 31 - 1) {fuel : ℕ} (hfuel : (toSeq - fromSeq + 1).toNat < fuel) :
    ∃ db' complete, enqueueResendActions fuel db fromSeq toSeq = some (db', complete)
      ∧ Resent db fromSeq toSeq db' complete := by
  obtain ⟨result, hresult⟩ : ∃ result, (rowsInRange db fromSeq toSeq).insertionSort
      (fun r q => r.2.seq_out ≤ q.2.seq_out) = result := ⟨_, rfl⟩
  have hperm : result.Perm (rowsInRange db fromSeq toSeq) := hresult ▸ List.perm_insertionSort _ _
  have hsorted : result.Pairwise (fun r q => r.2.seq_out ≤ q.2.seq_out) := by
    have htotal : Std.Total fun r q : ℕ × OutgoingRow => r.2.seq_out ≤ q.2.seq_out :=
      ⟨fun _ _ => le_total _ _⟩
    have htrans : IsTrans (ℕ × OutgoingRow) fun r q => r.2.seq_out ≤ q.2.seq_out :=
      ⟨fun _ _ _ => le_trans⟩
    rw [← hresult]
    exact List.pairwise_insertionSort _ _
  unfold enqueueResendActions
  rw [rangeIndices_eq fuel ∅ hfrom hto hfuel, Finset.empty_union]
  simp only [rowsInRange] at hresult
  simp only [hresult]
  refine ⟨_, _, rfl, rfl, ?_, ?_⟩
  · obtain ⟨new, hrows, hmap, hnew, -⟩ := Table.insertAll_rows (result.map (·.2)) db.outgoingResend
    refine ⟨new, hrows, ?_, ?_, hnew⟩
    · rw [hmap]
      exact hperm.map _
    · rw [hmap]
      exact List.pairwise_map.mpr hsorted
  · rw [decide_eq_true_iff, Finset.card_eq_zero, Finset.eq_empty_iff_forall_notMem]
    simp only [mem_foldl_erase, Finset.mem_Icc, not_and, not_forall, not_not]
    constructor
    · intro h seq hle hge
      obtain ⟨r, hr, heq⟩ := h seq ⟨hle, hge⟩
      exact ⟨r, List.mem_of_mem_filter (hperm.mem_iff.mp hr), heq⟩
    · rintro h seq ⟨hle, hge⟩
      obtain ⟨r, hr, rfl⟩ := h seq hle hge
      exact ⟨r, hperm.mem_iff.mpr (List.mem_filter.mpr ⟨hr, by simp [hle, hge]⟩), rfl⟩

theorem enqueuePeerOutgoingResendActions_complete (db : ChatDb) (fromSeq toSeq : Int) :
    (enqueuePeerOutgoingResendActions db fromSeq toSeq).2 = true
      ↔ ∀ seq, fromSeq ≤ seq → seq ≤ toSeq → ∃ r ∈ db.outgoing.rows, r.2.seq_out = seq := by
  simp only [enqueuePeerOutgoingResendActions, List.all_eq_true, List.any_eq_true, List.mem_range,
    List.mem_insertionSort, List.mem_filter, decide_eq_true_iff]
  constructor
  · intro h seq hle hge
    obtain ⟨r, ⟨hr, -⟩, heq⟩ := h (seq - fromSeq).toNat (by omega)
    exact ⟨r, hr, by omega⟩
  · intro h i hi
    obtain ⟨r, hr, heq⟩ := h (fromSeq + i) (by omega) (by omega)
    exact ⟨r, ⟨hr, by omega⟩, heq⟩

/-- The loop does what the runs of the queues take the method to do. -/
theorem enqueueResendActions_eq (db : ChatDb) {fromSeq toSeq : Int} (hfrom : -2 ^ 31 ≤ fromSeq)
    (hto : toSeq < 2 ^ 31 - 1) {fuel : ℕ} (hfuel : (toSeq - fromSeq + 1).toNat < fuel) :
    enqueueResendActions fuel db fromSeq toSeq
      = some (enqueuePeerOutgoingResendActions db fromSeq toSeq) := by
  obtain ⟨db', complete, heq, hresent⟩ := enqueueResendActions_resent db hfrom hto hfuel
  have hchat : db' = (enqueuePeerOutgoingResendActions db fromSeq toSeq).1 := by
    unfold enqueueResendActions at heq
    rw [rangeIndices_eq fuel ∅ hfrom hto hfuel] at heq
    exact (Prod.mk.inj (Option.some.inj heq)).1.symm
  have hcomplete : complete = (enqueuePeerOutgoingResendActions db fromSeq toSeq).2 := by
    rw [Bool.eq_iff_iff, hresent.complete_iff, enqueuePeerOutgoingResendActions_complete]
  rw [heq, hchat, hcomplete]

end Onegram
