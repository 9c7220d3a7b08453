import Onegram.DatacenterAuth
import Onegram.EncryptedChat

/-!
# What the updates can do to a secret chat

A chat is in the state of its entry, where the call under way has made one, else in the stored one.
`Secure` is asked of a whole run: an update establishes a chat only with the exponent this client
has drawn for it, and a chat that is settled, established or discarded, keeps its exponent and keys
and goes back to no earlier state. Each step is asked the same of (`Good`), and what it comes to for
the step is `Meets`.
-/

namespace Onegram.EncryptedChat

variable {MTSha1 : Bytes → Bytes} {s s' s'' : State} {n m : Int}

/-! ## Keys -/

/-- The 256 bytes of a power. -/
def IsPower (key base exp p : Bytes) : Prop :=
  key.length = 256 ∧ bin2bn key = bin2bn base ^ bin2bn exp % bin2bn p

/-- The stored key of that fingerprint. -/
def State.storedKey (s : State) (n_id keyFingerprint : Int) : Option Bytes :=
  (encryptionKeyForConversationId (s.encryptionKeys n_id) keyFingerprint).1

namespace State

/-! ## The state of a chat -/

/-- The entry of the call under way, else the stored conversation. -/
def chat (s : State) (n_id : Int) : Option Conversation :=
  ((s.updatedEncryptedChats.getD fun _ => none) n_id).or (s.conversations n_id)

def handshakeState (s : State) (n_id : Int) : ℕ :=
  ((s.chat n_id).map (·.handshakeState)).getD 0

/-- The order of the states: none, asked for by either side, established, discarded. -/
def rank : ℕ → ℕ
  | 1 => 1
  | 2 => 1
  | 4 => 2
  | 3 => 3
  | _ => 0

/-- Established or discarded. -/
def Settled (s : State) (n_id : Int) : Prop :=
  s.handshakeState n_id = 4 ∨ s.handshakeState n_id = 3

instance (s : State) (n_id : Int) : Decidable (s.Settled n_id) :=
  inferInstanceAs (Decidable (_ ∨ _))

theorem two_le_rank_iff {k : ℕ} : 2 ≤ rank k ↔ k = 4 ∨ k = 3 := by
  unfold rank
  split <;> simp_all

theorem settled_iff : s.Settled n ↔ 2 ≤ rank (s.handshakeState n) := two_le_rank_iff.symm

/-- This client has stored an exponent of its own for the chat. -/
def Holds (s : State) (n_id : Int) (a : Bytes) : Prop :=
  s.a n_id = some a ∧ (n_id, a) ∈ s.drawn

@[simp] theorem handshakeState_pass (s : State) (m : Int) :
    s.pass.handshakeState m = s.handshakeState m := rfl

@[simp] theorem handshakeState_commit (s : State) (m : Int) :
    s.commit.handshakeState m = s.handshakeState m := by
  unfold commit
  split
  · rfl
  next entries h => simp [handshakeState, chat, h]

theorem handshakeState_setConversation (h : s.updatedEncryptedChats = none) (n m : Int)
    (c : Conversation) : (s.setConversation n c).handshakeState m
      = if m = n then c.handshakeState else s.handshakeState m := by
  by_cases hm : m = n
  · simp [handshakeState, chat, setConversation, hm, h]
  · simp [handshakeState, chat, setConversation, hm, h]

@[simp] theorem a_commit (s : State) : s.commit.a = s.a := by
  unfold commit
  split <;> rfl

@[simp] theorem encryptionKeys_commit (s : State) : s.commit.encryptionKeys = s.encryptionKeys := by
  unfold commit
  split <;> rfl

@[simp] theorem a_setEntry (s : State) (n : Int) (c : Conversation) : (s.setEntry n c).a = s.a := rfl

@[simp] theorem encryptionKeys_setEntry (s : State) (n : Int) (c : Conversation) :
    (s.setEntry n c).encryptionKeys = s.encryptionKeys := rfl

/-! ## What a settled chat keeps -/

/-- A settled chat has the same exponent and keys, and no earlier state. -/
def Keeps (s s' : State) (n_id : Int) : Prop :=
  s.Settled n_id → s'.a n_id = s.a n_id ∧ s'.encryptionKeys n_id = s.encryptionKeys n_id
    ∧ rank (s.handshakeState n_id) ≤ rank (s'.handshakeState n_id)

theorem Keeps.refl (s : State) (n : Int) : s.Keeps s n := fun _ => ⟨rfl, rfl, le_rfl⟩

theorem Keeps.settled (h : s.Keeps s' n) (hn : s.Settled n) : s'.Settled n :=
  settled_iff.mpr ((settled_iff.mp hn).trans (h hn).2.2)

theorem Keeps.trans (h : s.Keeps s' n) (h' : s'.Keeps s'' n) : s.Keeps s'' n := by
  intro hn
  obtain ⟨ha, hkeys, hrank⟩ := h hn
  obtain ⟨ha', hkeys', hrank'⟩ := h' (h.settled hn)
  exact ⟨ha'.trans ha, hkeys'.trans hkeys, hrank.trans hrank'⟩

theorem Keeps.of_eq (ha : s'.a n = s.a n) (hkeys : s'.encryptionKeys n = s.encryptionKeys n)
    (hstate : s'.handshakeState n = s.handshakeState n) : s.Keeps s' n :=
  fun _ => ⟨ha, hkeys, hstate ▸ le_rfl⟩

/-! ## What a step is asked -/

/-- An update that establishes a chat does it with the exponent this client holds, with a safe
`g_b`, and has stored their key under the fingerprint that was announced. -/
def Exchanges (MTSha1 : Bytes → Bytes) (s s' : State) : Event → Prop
  | .update (.encryptedChat n_id _ g_a_or_b key_fingerprint) =>
    s.handshakeState n_id ≠ 4 → s'.handshakeState n_id = 4 →
      ∃ a, s.Holds n_id a ∧ MTCheckIsSafeGAOrB g_a_or_b s.p ∧
        ∃ key, s'.storedKey n_id key_fingerprint = some key ∧ IsPower key g_a_or_b a s.p
          ∧ keyFingerprint MTSha1 key = key_fingerprint
  | _ => True

def Good (MTSha1 : Bytes → Bytes) (s : State) (e : Event) : Prop :=
  s.Exchanges MTSha1 (s.step MTSha1 e) e ∧ ∀ n, s.Keeps (s.step MTSha1 e) n

theorem rank_le_three (k : ℕ) : rank k ≤ 3 := by
  unfold rank
  split <;> omega

theorem Keeps.discardLocally (h : s.updatedEncryptedChats = none) (n m : Int) :
    s.Keeps (s.discardLocally n) m := by
  unfold State.discardLocally
  split
  · exact .refl s m
  · refine fun _ => ⟨rfl, rfl, ?_⟩
    rw [handshakeState_setConversation h]
    split_ifs
    · exact rank_le_three _
    · exact le_rfl

/-- The state after a list of events. -/
def run (MTSha1 : Bytes → Bytes) (s : State) (es : List Event) : State := Run.run (step MTSha1) s es

/-- A call of `applyUpdates:` is a run. -/
theorem run_updates (s : State) (updates : List TLEncryptedChat) :
    s.run MTSha1 (updates.map .update ++ [.commit]) = s.applyUpdates MTSha1 updates := by
  rw [run, Run.run_append, applyUpdates]
  simp only [Run.run, List.foldl_map, List.foldl_cons, List.foldl_nil]
  rfl

def sampleConfig : SafeConfig where
  g := 3
  p := DatacenterAuth.goodPrime0
  p_length := by decide +kernel
  odd := by decide +kernel

end State

end Onegram.EncryptedChat
