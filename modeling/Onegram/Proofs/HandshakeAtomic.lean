import Onegram.Proofs.WireGuard

/-!
# What a refused handshake message leaves behind

The response is opened before anything is written. Of an initiation the ephemeral key is stored
before the first ciphertext is opened and the static key before the second, so a message with a
valid mac1, which needs no secret, puts its keys in the place of those that were there.
-/

namespace Onegram

variable {hs : NwHandshake} {msg : Bytes}

/-! ## What an initiation holds -/

/-- The type and the mac1. -/
def InitiationAuthentic (hs : NwHandshake) (msg : Bytes) : Prop :=
  msg.getD 0 0 = 1 ∧ mac1_of (Bytes.slice msg 0 116).toList (mac1_key hs.static_public)
    = Bytes.slice msg 116 16

def initiation_ephemeral (msg : Bytes) : Key := Bytes.slice msg 8 32

/-- Chaining key and cipher key once the ephemeral key is mixed in. -/
def initiation_kdf (hs : NwHandshake) (msg : Bytes) : KdfOut :=
  nw_kdf (mix_chain (init_state hs.static_public).1 (initiation_ephemeral msg).toList)
    (nw_x25519 hs.static_private (initiation_ephemeral msg)).toList

def initiation_hash (hs : NwHandshake) (msg : Bytes) : Key :=
  mix_hash (init_state hs.static_public).2 (initiation_ephemeral msg).toList

/-- The static key in the first ciphertext, where it opens. -/
def initiation_static (hs : NwHandshake) (msg : Bytes) : Option Key :=
  (nw_chacha20poly1305_decrypt (Bytes.slice msg 40 48).toList (initiation_hash hs msg).toList
    (initiation_kdf hs msg).out2 ZERO_NONCE).map fun s => Bytes.slice s 0 32

/-- The timestamp in the second ciphertext, where it opens under that static key. -/
def initiation_timestamp (hs : NwHandshake) (msg : Bytes) (remote_static : Key) : Option Bytes :=
  nw_chacha20poly1305_decrypt (Bytes.slice msg 88 28).toList
    (mix_hash (initiation_hash hs msg) (Bytes.slice msg 40 48).toList).toList
    (nw_kdf (initiation_kdf hs msg).out1 (nw_x25519 hs.static_private remote_static).toList).out2
    ZERO_NONCE

/-- A message with a valid mac1 opens in full, or has just the keys that are stored. -/
def InitiationHarmless (hs : NwHandshake) (msg : Bytes) : Prop :=
  InitiationAuthentic hs msg →
    match initiation_static hs msg with
    | none => initiation_ephemeral msg = hs.remote_ephemeral
    | some remote_static => (initiation_timestamp hs msg remote_static).isSome
      ∨ initiation_ephemeral msg = hs.remote_ephemeral ∧ remote_static = hs.remote_static

/-! ## What consuming one can do -/

theorem nw_wg_consume_initiation_refused (h : ¬ InitiationAuthentic hs msg) :
    (nw_wg_consume_initiation hs msg).2 = hs := by
  unfold nw_wg_consume_initiation
  split_ifs with htype hmac
  · rfl
  · rfl
  · exact absurd ⟨not_not.mp htype, not_not.mp hmac⟩ h

theorem nw_wg_consume_initiation_closed (h : InitiationAuthentic hs msg)
    (hstatic : initiation_static hs msg = none) : nw_wg_consume_initiation hs msg
      = (-3, { hs with remote_ephemeral := initiation_ephemeral msg }) := by
  have hopen := Option.map_eq_none_iff.mp hstatic
  unfold initiation_hash initiation_kdf initiation_ephemeral at hopen
  obtain ⟨decrypt, hdecrypt⟩ : ∃ d, nw_chacha20poly1305_decrypt = d := ⟨_, rfl⟩
  rw [hdecrypt] at hopen
  unfold nw_wg_consume_initiation
  rw [if_neg (not_not.mpr h.1), if_neg (not_not.mpr h.2), hdecrypt]
  dsimp only
  rw [hopen]
  rfl

theorem nw_wg_consume_initiation_half_opened {remote_static : Key}
    (h : InitiationAuthentic hs msg) (hstatic : initiation_static hs msg = some remote_static)
    (htimestamp : initiation_timestamp hs msg remote_static = none) :
    nw_wg_consume_initiation hs msg = (-4, { hs with
      remote_ephemeral := initiation_ephemeral msg, remote_static := remote_static }) := by
  obtain ⟨s, hopen, rfl⟩ := Option.map_eq_some_iff.mp hstatic
  unfold initiation_timestamp at htimestamp
  unfold initiation_hash initiation_kdf initiation_ephemeral at hopen htimestamp
  obtain ⟨decrypt, hdecrypt⟩ : ∃ d, nw_chacha20poly1305_decrypt = d := ⟨_, rfl⟩
  rw [hdecrypt] at hopen htimestamp
  unfold nw_wg_consume_initiation
  rw [if_neg (not_not.mpr h.1), if_neg (not_not.mpr h.2), hdecrypt]
  dsimp only
  rw [hopen]
  dsimp only
  rw [htimestamp]
  rfl

theorem nw_wg_consume_initiation_opened {remote_static : Key} {ts : Bytes}
    (h : InitiationAuthentic hs msg) (hstatic : initiation_static hs msg = some remote_static)
    (htimestamp : initiation_timestamp hs msg remote_static = some ts) :
    (nw_wg_consume_initiation hs msg).1 = 0 := by
  obtain ⟨s, hopen, rfl⟩ := Option.map_eq_some_iff.mp hstatic
  unfold initiation_timestamp at htimestamp
  unfold initiation_hash initiation_kdf initiation_ephemeral at hopen htimestamp
  obtain ⟨decrypt, hdecrypt⟩ : ∃ d, nw_chacha20poly1305_decrypt = d := ⟨_, rfl⟩
  rw [hdecrypt] at hopen htimestamp
  unfold nw_wg_consume_initiation
  rw [if_neg (not_not.mpr h.1), if_neg (not_not.mpr h.2), hdecrypt]
  dsimp only
  rw [hopen]
  dsimp only
  rw [htimestamp]

/-! ## Atomicity -/

/-- A call that fails leaves the handshake, and for a response the transport, as they were. -/
def HandshakeAtomic (hs : NwHandshake) (msg : Bytes) (t : NwTransport) : Prop :=
  ((nw_wg_consume_initiation hs msg).1 ≠ 0 → (nw_wg_consume_initiation hs msg).2 = hs)
    ∧ ((nw_wg_consume_response hs msg t).1 ≠ 0 → (nw_wg_consume_response hs msg t).2 = (hs, t))

theorem nw_wg_consume_response_atomic (hs : NwHandshake) (msg : Bytes) (t : NwTransport)
    (hrc : (nw_wg_consume_response hs msg t).1 ≠ 0) :
    (nw_wg_consume_response hs msg t).2 = (hs, t) := by
  rcases nw_wg_consume_response_cases hs msg t with ⟨-, hsame⟩ | ⟨hzero, -⟩
  · exact hsame
  · exact absurd hzero hrc

theorem nw_wg_consume_initiation_atomic_iff (hs : NwHandshake) (msg : Bytes) :
    ((nw_wg_consume_initiation hs msg).1 ≠ 0 → (nw_wg_consume_initiation hs msg).2 = hs)
      ↔ InitiationHarmless hs msg := by
  unfold InitiationHarmless
  by_cases hauth : InitiationAuthentic hs msg
  swap
  · exact iff_of_true (fun _ => nw_wg_consume_initiation_refused hauth) fun h => absurd h hauth
  rw [imp_iff_right hauth]
  cases hstatic : initiation_static hs msg with
  | none =>
    rw [nw_wg_consume_initiation_closed hauth hstatic]
    dsimp only
    constructor
    · intro h
      have heph := congrArg NwHandshake.remote_ephemeral (h (by decide))
      dsimp only at heph
      exact heph
    · intro heph _
      rw [heph]
  | some remote_static =>
    cases htimestamp : initiation_timestamp hs msg remote_static with
    | some ts =>
      have hzero := nw_wg_consume_initiation_opened hauth hstatic htimestamp
      refine iff_of_true (fun h => absurd hzero h) (.inl ?_)
      rw [htimestamp]
      rfl
    | none =>
      have hcases := nw_wg_consume_initiation_half_opened hauth hstatic htimestamp
      rw [hcases]
      dsimp only
      rw [htimestamp, Option.isSome_none, Bool.false_eq_true, false_or]
      constructor
      · intro h
        have hsame := h (by decide)
        have heph := congrArg NwHandshake.remote_ephemeral hsame
        have hkey := congrArg NwHandshake.remote_static hsame
        dsimp only at heph hkey
        exact ⟨heph, hkey⟩
      · rintro ⟨heph, hkey⟩ _
        rw [heph, hkey]

theorem handshake_atomic_iff (hs : NwHandshake) (msg : Bytes) (t : NwTransport) :
    HandshakeAtomic hs msg t ↔ InitiationHarmless hs msg := by
  rw [HandshakeAtomic, and_iff_left (nw_wg_consume_response_atomic hs msg t),
    nw_wg_consume_initiation_atomic_iff]

/-! ## Two messages of which one is refused -/

def sample_responder : NwHandshake := nw_handshake_init (Bytes.zeros 32) none none

def sample_transport : NwTransport :=
  ⟨Bytes.zeros 32, Bytes.zeros 32, 0, 0, 0, 0, Bytes.zeros 3⟩

/-- Type 1, an ephemeral key of ones, a ciphertext of zeros under the tag, and more zeros. -/
def sample_body (tag : Bytes) : Bytes :=
  [1] ++ List.replicate 7 0 ++ List.replicate 32 1 ++ (List.replicate 32 0 ++ tag)
    ++ List.replicate 28 0

/-- With a valid mac1, for which the public key is enough. -/
def sample_initiation (tag : Bytes) : Bytes :=
  sample_body tag ++ (mac1_of (sample_body tag) (mac1_key sample_responder.static_public)).toList
    ++ List.replicate 16 0

section Sample

variable {tag : Bytes} (htag : tag.length = 16)

include htag

theorem length_sample_body : (sample_body tag).length = 116 := by simp [sample_body, htag]

theorem sample_initiation_authentic :
    InitiationAuthentic sample_responder (sample_initiation tag) := by
  have hlen := length_sample_body htag
  refine ⟨by simp [sample_initiation, sample_body], ?_⟩
  rw [sample_initiation, List.append_assoc, Bytes.slice_append_left _ (by omega),
    Bytes.toList_slice_self _ hlen, Bytes.slice_after _ hlen,
    Bytes.slice_append_left _ (by simp), Bytes.slice_toList]

theorem sample_initiation_ephemeral :
    (initiation_ephemeral (sample_initiation tag)).toList = List.replicate 32 1 := by
  have hlen := length_sample_body htag
  rw [initiation_ephemeral, sample_initiation, List.append_assoc,
    Bytes.slice_append_left _ (by omega), sample_body]
  iterate 2 rw [Bytes.slice_append_left _ (by simp [htag])]
  rw [Bytes.slice_after _ (by simp), Bytes.toList_slice_self _ (by simp)]

theorem sample_initiation_static : (Bytes.slice (sample_initiation tag) 40 48).toList
    = List.replicate 32 0 ++ tag := by
  have hlen := length_sample_body htag
  rw [sample_initiation, List.append_assoc, Bytes.slice_append_left _ (by omega), sample_body,
    Bytes.slice_append_left _ (by simp [htag]), Bytes.slice_after _ (by simp),
    Bytes.toList_slice_self _ (by simp [htag])]

/-- Where the call is atomic the static key must have opened: the ephemeral key is a new one. -/
theorem sample_initiation_opens {t : NwTransport}
    (h : HandshakeAtomic sample_responder (sample_initiation tag) t) :
    initiation_static sample_responder (sample_initiation tag) ≠ none := by
  intro hnone
  have hharmless := (nw_wg_consume_initiation_atomic_iff _ _).mp h.1
    (sample_initiation_authentic htag)
  rw [hnone] at hharmless
  have hones := congrArg Vector.toList hharmless
  rw [sample_initiation_ephemeral htag] at hones
  exact absurd hones (by decide)

end Sample

/-- The two messages differ in the tag of the static key alone, which is right for one of them at
most; the other one is refused with its ephemeral key stored. -/
theorem refused_initiation_stored :
    ¬ ∀ tag ∈ [List.replicate 16 0, List.replicate 16 1],
      HandshakeAtomic sample_responder (sample_initiation tag) sample_transport := by
  intro h
  have h₀ := h (List.replicate 16 0) (by simp)
  have h₁ := h (List.replicate 16 1) (by simp)
  have hlen₀ : (List.replicate 16 (0 : UInt8)).length = 16 := List.length_replicate ..
  have hlen₁ : (List.replicate 16 (1 : UInt8)).length = 16 := List.length_replicate ..
  have heph : initiation_ephemeral (sample_initiation (List.replicate 16 0))
      = initiation_ephemeral (sample_initiation (List.replicate 16 1)) := by
    rw [← Vector.toList_inj, sample_initiation_ephemeral hlen₀, sample_initiation_ephemeral hlen₁]
  have hopen₀ := sample_initiation_opens hlen₀ h₀
  have hopen₁ := sample_initiation_opens hlen₁ h₁
  rw [initiation_static, ne_eq, Option.map_eq_none_iff, sample_initiation_static hlen₀,
    initiation_hash, initiation_kdf, heph] at hopen₀
  rw [initiation_static, ne_eq, Option.map_eq_none_iff, sample_initiation_static hlen₁,
    initiation_hash, initiation_kdf] at hopen₁
  exact absurd (decrypt_tag_unique hlen₀ hlen₁ hopen₀ hopen₁) (by decide)

end Onegram
