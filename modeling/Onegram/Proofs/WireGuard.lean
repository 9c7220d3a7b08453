import Onegram.WireGuard
import Onegram.Proofs.ChaChaPoly

/-!
# The handshake agrees

Initiator and responder mix the same values in the same order: the transcript of an initiation
is a function of the responder's public key, the ephemeral key, the two shared secrets and the
two ciphertexts, and that of a response of the state before it, the ephemeral key, the two shared
secrets and the pre-shared key. Each side computes it from what it holds, and the shared secrets
are the same where X25519 commutes.
-/

namespace Onegram

/-! ## Words in a message -/

theorem ld32le_st32le (v : UInt32) : ld32le (st32le v) = v := by
  apply UInt32.toNat_inj.mp
  have h8 := Bytes.load_step v.toNat (show 8 + 8 ≤ 32 by norm_num)
  have h16 := Bytes.load_step v.toNat (show 16 + 8 ≤ 32 by norm_num)
  have h24 := Bytes.load_step v.toNat (show 24 + 8 ≤ 32 by norm_num)
  norm_num at h8 h16 h24
  simp only [ld32le, st32le]
  simp [Nat.shiftRight_eq_div_pow, Nat.shiftLeft_eq, h8, h16, h24]

theorem ld64le_st64le (v : UInt64) : ld64le (st64le v) = v := by
  apply UInt64.toNat_inj.mp
  have h8 := Bytes.load_step v.toNat (show 8 + 8 ≤ 64 by norm_num)
  have h16 := Bytes.load_step v.toNat (show 16 + 8 ≤ 64 by norm_num)
  have h24 := Bytes.load_step v.toNat (show 24 + 8 ≤ 64 by norm_num)
  have h32 := Bytes.load_step v.toNat (show 32 + 8 ≤ 64 by norm_num)
  have h40 := Bytes.load_step v.toNat (show 40 + 8 ≤ 64 by norm_num)
  have h48 := Bytes.load_step v.toNat (show 48 + 8 ≤ 64 by norm_num)
  have h56 := Bytes.load_step v.toNat (show 56 + 8 ≤ 64 by norm_num)
  norm_num at h8 h16 h24 h32 h40 h48 h56
  simp only [ld64le, st64le, List.finRange_succ, List.finRange_zero]
  simp [Nat.shiftRight_eq_div_pow, Nat.shiftLeft_eq, h8, h16, h24, h32, h40, h48, h56]

/-! ## The transcript of an initiation -/

section Initiation

/-- Chaining key and key after the first shared secret. -/
def init_kdf₁ (pub e dh : Key) : KdfOut :=
  nw_kdf (mix_chain (init_state pub).1 e.toList) dh.toList

/-- Hash after the ephemeral key. -/
def init_hash₁ (pub e : Key) : Key := mix_hash (init_state pub).2 e.toList

/-- The initiator's static key, encrypted. -/
def init_static (pub e dh s : Key) : Bytes :=
  nw_chacha20poly1305_encrypt s.toList (init_hash₁ pub e).toList (init_kdf₁ pub e dh).out2
    ZERO_NONCE

/-- Chaining key and key after the second shared secret. -/
def init_kdf₂ (pub e dh₁ dh₂ : Key) : KdfOut := nw_kdf (init_kdf₁ pub e dh₁).out1 dh₂.toList

/-- Hash after the encrypted static key. -/
def init_hash₂ (pub e dh s : Key) : Key := mix_hash (init_hash₁ pub e) (init_static pub e dh s)

/-- The timestamp, encrypted. -/
def init_ts (pub e dh₁ dh₂ s : Key) (ts : Vector UInt8 12) : Bytes :=
  nw_chacha20poly1305_encrypt ts.toList (init_hash₂ pub e dh₁ s).toList
    (init_kdf₂ pub e dh₁ dh₂).out2 ZERO_NONCE

/-- Hash after the whole message. -/
def init_hash₃ (pub e dh₁ dh₂ s : Key) (ts : Vector UInt8 12) : Key :=
  mix_hash (init_hash₂ pub e dh₁ s) (init_ts pub e dh₁ dh₂ s ts)

/-- The message up to its first mac. -/
def init_body (reserved : Vector UInt8 3) (index : UInt32) (pub e dh₁ dh₂ s : Key)
    (ts : Vector UInt8 12) : Bytes :=
  [1] ++ reserved.toList ++ (st32le index).toList ++ e.toList ++ init_static pub e dh₁ s
    ++ init_ts pub e dh₁ dh₂ s ts

variable (reserved : Vector UInt8 3) (index : UInt32) (pub e dh₁ dh₂ s : Key)
  (ts : Vector UInt8 12) (tail : Bytes)

theorem nw_wg_create_initiation_eq (hs : NwHandshake) (ephemeral : Key)
    (hdh₁ : nw_x25519 ephemeral hs.peer_static_public = dh₁)
    (hdh₂ : nw_x25519 hs.static_private hs.peer_static_public = dh₂) :
    nw_wg_create_initiation hs index ephemeral ts =
      ({ hs with
          ephemeral_private := ephemeral
          ephemeral_public := nw_x25519_base ephemeral
          local_index := index
          chaining_key :=
            (init_kdf₂ hs.peer_static_public (nw_x25519_base ephemeral) dh₁ dh₂).out1
          hash := init_hash₃ hs.peer_static_public (nw_x25519_base ephemeral) dh₁ dh₂
            hs.static_public ts },
        init_body hs.reserved index hs.peer_static_public (nw_x25519_base ephemeral) dh₁ dh₂
            hs.static_public ts
          ++ (mac1_of (init_body hs.reserved index hs.peer_static_public
              (nw_x25519_base ephemeral) dh₁ dh₂ hs.static_public ts)
            (mac1_key hs.peer_static_public)).toList
          ++ (Bytes.zeros 16).toList) := by
  subst hdh₁ hdh₂
  rfl

@[simp] theorem nw_wg_create_initiation_static_public (hs : NwHandshake) (ephemeral : Key) :
    (nw_wg_create_initiation hs index ephemeral ts).1.static_public = hs.static_public := rfl

@[simp] theorem nw_wg_create_initiation_local_index (hs : NwHandshake) (ephemeral : Key) :
    (nw_wg_create_initiation hs index ephemeral ts).1.local_index = index := rfl

@[simp] theorem nw_wg_create_initiation_reserved (hs : NwHandshake) (ephemeral : Key) :
    (nw_wg_create_initiation hs index ephemeral ts).1.reserved = hs.reserved := rfl

theorem length_init_static : (init_static pub e dh₁ s).length = 48 := by simp [init_static]

theorem length_init_ts : (init_ts pub e dh₁ dh₂ s ts).length = 28 := by simp [init_ts]

theorem length_init_body :
    (init_body reserved index pub e dh₁ dh₂ s ts).length = 116 := by
  simp [init_body, length_init_static, length_init_ts]

theorem init_body_type :
    (init_body reserved index pub e dh₁ dh₂ s ts ++ tail).getD 0 0 = 1 := by
  simp [init_body]

theorem init_body_index :
    Bytes.slice (init_body reserved index pub e dh₁ dh₂ s ts ++ tail) 4 4 = st32le index := by
  unfold init_body
  iterate 4 rw [Bytes.slice_append_left _ (by simp [length_init_static, length_init_ts])]
  rw [Bytes.slice_after _ (by simp), Bytes.slice_toList]

theorem init_body_ephemeral :
    Bytes.slice (init_body reserved index pub e dh₁ dh₂ s ts ++ tail) 8 32 = e := by
  unfold init_body
  iterate 3 rw [Bytes.slice_append_left _ (by simp [length_init_static, length_init_ts])]
  rw [Bytes.slice_after _ (by simp), Bytes.slice_toList]

theorem init_body_static :
    (Bytes.slice (init_body reserved index pub e dh₁ dh₂ s ts ++ tail) 40 48).toList
      = init_static pub e dh₁ s := by
  unfold init_body
  iterate 2 rw [Bytes.slice_append_left _ (by simp [length_init_static, length_init_ts])]
  rw [Bytes.slice_after _ (by simp), Bytes.toList_slice_self _ (length_init_static _ _ _ _)]

theorem init_body_ts :
    (Bytes.slice (init_body reserved index pub e dh₁ dh₂ s ts ++ tail) 88 28).toList
      = init_ts pub e dh₁ dh₂ s ts := by
  unfold init_body
  rw [Bytes.slice_append_left _ (by simp [length_init_static, length_init_ts]),
    Bytes.slice_after _ (by simp [length_init_static]),
    Bytes.toList_slice_self _ (length_init_ts _ _ _ _ _ _)]

/-- The responder accepts a message whose mac is its own and whose ciphertexts are those of the
transcript, and comes to the same chaining key and hash. -/
theorem nw_wg_consume_initiation_ok (hs : NwHandshake) (mac2 : Vector UInt8 16)
    (hdh₁ : nw_x25519 hs.static_private e = dh₁)
    (hdh₂ : nw_x25519 hs.static_private s = dh₂) :
    nw_wg_consume_initiation hs
        (init_body reserved index hs.static_public e dh₁ dh₂ s ts
          ++ (mac1_of (init_body reserved index hs.static_public e dh₁ dh₂ s ts)
            (mac1_key hs.static_public)).toList
          ++ mac2.toList)
      = (0, { hs with
          remote_ephemeral := e
          remote_static := s
          remote_index := index
          chaining_key := (init_kdf₂ hs.static_public e dh₁ dh₂).out1
          hash := init_hash₃ hs.static_public e dh₁ dh₂ s ts }) := by
  set body := init_body reserved index hs.static_public e dh₁ dh₂ s ts with hbody
  set mac1 := mac1_of body (mac1_key hs.static_public) with hmac1
  have hlen : body.length = 116 := length_init_body _ _ _ _ _ _ _ _
  have hfirst : (Bytes.slice (body ++ (mac1.toList ++ mac2.toList)) 0 116).toList = body := by
    rw [Bytes.slice_append_left _ (by omega), Bytes.toList_slice_self _ hlen]
  have hmac : Bytes.slice (body ++ (mac1.toList ++ mac2.toList)) 116 16 = mac1 := by
    rw [Bytes.slice_after _ hlen, Bytes.slice_append_left _ (by simp), Bytes.slice_toList]
  have hstatic := decrypt_encrypt s.toList (init_hash₁ hs.static_public e).toList
    (init_kdf₁ hs.static_public e dh₁).out2 ZERO_NONCE
  have hts := decrypt_encrypt ts.toList (init_hash₂ hs.static_public e dh₁ s).toList
    (init_kdf₂ hs.static_public e dh₁ dh₂).out2 ZERO_NONCE
  rw [List.append_assoc]
  unfold nw_wg_consume_initiation
  rw [hfirst, hmac, if_neg (by rw [hbody, init_body_type]; simp), if_neg (by simp [hmac1])]
  -- Of the cipher only these two results are used; as a variable it is never evaluated.
  generalize nw_chacha20poly1305_decrypt = decrypt at hstatic hts ⊢
  simp only [hbody, init_body_ephemeral, init_body_static, init_body_ts, init_body_index, hdh₁]
  have h₁ : decrypt (init_static hs.static_public e dh₁ s)
      (mix_hash (init_state hs.static_public).2 e.toList).toList
      (nw_kdf (mix_chain (init_state hs.static_public).1 e.toList) dh₁.toList).out2 ZERO_NONCE
      = some s.toList := hstatic
  rw [h₁]
  simp only [Bytes.slice_toList, hdh₂]
  have h₂ : decrypt (init_ts hs.static_public e dh₁ dh₂ s ts)
      (mix_hash (mix_hash (init_state hs.static_public).2 e.toList)
        (init_static hs.static_public e dh₁ s)).toList
      (nw_kdf (nw_kdf (mix_chain (init_state hs.static_public).1 e.toList) dh₁.toList).out1
        dh₂.toList).out2 ZERO_NONCE = some ts.toList := hts
  rw [h₂]
  simp only [ld32le_st32le]
  rfl

end Initiation

/-! ## The transcript of a response -/

section Response

/-- Chaining key, hash input and key after both shared secrets and the pre-shared key. -/
def resp_kdf (ck e ee se psk : Key) : KdfOut :=
  nw_kdf (mix_chain (mix_chain (mix_chain ck e.toList) ee.toList) se.toList) psk.toList

def resp_hash (ck h e ee se psk : Key) : Key :=
  mix_hash (mix_hash h e.toList) (resp_kdf ck e ee se psk).out2.toList

/-- The empty plaintext, encrypted: a tag only. -/
def resp_empty (ck h e ee se psk : Key) : Bytes :=
  nw_chacha20poly1305_encrypt [] (resp_hash ck h e ee se psk).toList
    (resp_kdf ck e ee se psk).out3 ZERO_NONCE

/-- The two transport keys: initiator to responder, and back. -/
def resp_keys (ck e ee se psk : Key) : KdfOut := nw_kdf (resp_kdf ck e ee se psk).out1 []

/-- The message up to its first mac. -/
def resp_body (reserved : Vector UInt8 3) (index remote : UInt32) (ck h e ee se psk : Key) :
    Bytes :=
  [2] ++ reserved.toList ++ (st32le index).toList ++ (st32le remote).toList ++ e.toList
    ++ resp_empty ck h e ee se psk

/-- The message: the body, its mac under the initiator's public key, and 16 bytes more. -/
def resp_msg (reserved : Vector UInt8 3) (index remote : UInt32) (ck h e ee se psk pub : Key)
    (mac2 : Vector UInt8 16) : Bytes :=
  resp_body reserved index remote ck h e ee se psk
    ++ (mac1_of (resp_body reserved index remote ck h e ee se psk) (mac1_key pub)).toList
    ++ mac2.toList

variable (reserved : Vector UInt8 3) (index remote : UInt32) (ck h e ee se psk pub : Key)
  (mac2 : Vector UInt8 16) (tail : Bytes)

theorem nw_wg_create_response_eq (hs : NwHandshake) (ephemeral : Key)
    (hee : nw_x25519 ephemeral hs.remote_ephemeral = ee)
    (hse : nw_x25519 ephemeral hs.remote_static = se) :
    nw_wg_create_response hs index ephemeral =
      ({ hs with
          ephemeral_private := ephemeral
          ephemeral_public := nw_x25519_base ephemeral
          local_index := index },
        resp_msg hs.reserved index hs.remote_index hs.chaining_key hs.hash
          (nw_x25519_base ephemeral) ee se hs.psk hs.remote_static (Bytes.zeros 16),
        { send_key := (resp_keys hs.chaining_key (nw_x25519_base ephemeral) ee se hs.psk).out2
          recv_key := (resp_keys hs.chaining_key (nw_x25519_base ephemeral) ee se hs.psk).out1
          send_counter := 0
          recv_counter := 0
          local_index := index
          remote_index := hs.remote_index
          reserved := hs.reserved }) := by
  subst hee hse
  rfl

@[simp] theorem nw_wg_create_response_local_index (hs : NwHandshake) (ephemeral : Key) :
    (nw_wg_create_response hs index ephemeral).2.2.local_index = index := rfl

@[simp] theorem nw_wg_create_response_remote_index (hs : NwHandshake) (ephemeral : Key) :
    (nw_wg_create_response hs index ephemeral).2.2.remote_index = hs.remote_index := rfl

theorem length_resp_empty : (resp_empty ck h e ee se psk).length = 16 := by simp [resp_empty]

theorem length_resp_body :
    (resp_body reserved index remote ck h e ee se psk).length = 60 := by
  simp [resp_body, length_resp_empty]

theorem length_resp_msg :
    (resp_msg reserved index remote ck h e ee se psk pub mac2).length = NW_WG_RESP_SIZE := by
  simp [resp_msg, length_resp_body, NW_WG_RESP_SIZE]

theorem resp_body_type :
    (resp_body reserved index remote ck h e ee se psk ++ tail).getD 0 0 = 2 := by
  simp [resp_body]

@[simp] theorem length_nw_wg_create_response (hs : NwHandshake) (ephemeral : Key) :
    (nw_wg_create_response hs index ephemeral).2.1.length = NW_WG_RESP_SIZE := by
  rw [nw_wg_create_response_eq index _ _ hs ephemeral rfl rfl, length_resp_msg]

theorem nw_wg_create_response_type (hs : NwHandshake) (ephemeral : Key) :
    ((nw_wg_create_response hs index ephemeral).2.1 ++ tail).getD 0 0 = 2 := by
  rw [nw_wg_create_response_eq index _ _ hs ephemeral rfl rfl]
  simp only [resp_msg, List.append_assoc]
  exact resp_body_type _ _ _ _ _ _ _ _ _ _

theorem resp_body_index :
    Bytes.slice (resp_body reserved index remote ck h e ee se psk ++ tail) 4 4
      = st32le index := by
  unfold resp_body
  iterate 4 rw [Bytes.slice_append_left _ (by simp [length_resp_empty])]
  rw [Bytes.slice_after _ (by simp), Bytes.slice_toList]

theorem resp_body_ephemeral :
    Bytes.slice (resp_body reserved index remote ck h e ee se psk ++ tail) 12 32 = e := by
  unfold resp_body
  iterate 2 rw [Bytes.slice_append_left _ (by simp [length_resp_empty])]
  rw [Bytes.slice_after _ (by simp), Bytes.slice_toList]

theorem resp_body_empty :
    (Bytes.slice (resp_body reserved index remote ck h e ee se psk ++ tail) 44 16).toList
      = resp_empty ck h e ee se psk := by
  unfold resp_body
  rw [Bytes.slice_append_left _ (by simp [length_resp_empty]), Bytes.slice_after _ (by simp),
    Bytes.toList_slice_self _ (length_resp_empty _ _ _ _ _ _)]

/-- The initiator accepts a response made for its pending handshake, whatever follows it in the
buffer, and derives the keys of the transcript. Nothing it reads is changed by accepting. -/
theorem nw_wg_consume_response_ok (hs : NwHandshake) (t : NwTransport)
    (hee : nw_x25519 hs.ephemeral_private e = ee) (hse : nw_x25519 hs.static_private e = se) :
    nw_wg_consume_response hs
        (resp_msg reserved index remote hs.chaining_key hs.hash e ee se hs.psk hs.static_public
          mac2 ++ tail) t
      = (0, { hs with remote_index := index },
          { send_key := (resp_keys hs.chaining_key e ee se hs.psk).out1
            recv_key := (resp_keys hs.chaining_key e ee se hs.psk).out2
            send_counter := 0
            recv_counter := 0
            local_index := hs.local_index
            remote_index := index
            reserved := hs.reserved }) := by
  set body := resp_body reserved index remote hs.chaining_key hs.hash e ee se hs.psk with hbody
  set mac1 := mac1_of body (mac1_key hs.static_public) with hmac1
  have hmsg : resp_msg reserved index remote hs.chaining_key hs.hash e ee se hs.psk
      hs.static_public mac2 ++ tail = body ++ (mac1.toList ++ (mac2.toList ++ tail)) := by
    simp only [resp_msg, ← hbody, ← hmac1, List.append_assoc]
  have hlen : body.length = 60 := length_resp_body _ _ _ _ _ _ _ _ _
  have hfirst : (Bytes.slice (body ++ (mac1.toList ++ (mac2.toList ++ tail))) 0 60).toList
      = body := by
    rw [Bytes.slice_append_left _ (by omega), Bytes.toList_slice_self _ hlen]
  have hmac : Bytes.slice (body ++ (mac1.toList ++ (mac2.toList ++ tail))) 60 16 = mac1 := by
    rw [Bytes.slice_after _ hlen, Bytes.slice_append_left _ (by simp), Bytes.slice_toList]
  have hempty := decrypt_encrypt [] (resp_hash hs.chaining_key hs.hash e ee se hs.psk).toList
    (resp_kdf hs.chaining_key e ee se hs.psk).out3 ZERO_NONCE
  rw [hmsg]
  unfold nw_wg_consume_response
  rw [hfirst, hmac, if_neg (by rw [hbody, resp_body_type]; simp), if_neg (by simp [hmac1])]
  generalize nw_chacha20poly1305_decrypt = decrypt at hempty ⊢
  simp only [hbody, resp_body_ephemeral, resp_body_empty, resp_body_index, hee, hse]
  have h₁ : decrypt
      (resp_empty hs.chaining_key hs.hash e ee se hs.psk)
      (mix_hash (mix_hash hs.hash e.toList) (nw_kdf (mix_chain (mix_chain (mix_chain
        hs.chaining_key e.toList) ee.toList) se.toList) hs.psk.toList).out2.toList).toList
      (nw_kdf (mix_chain (mix_chain (mix_chain hs.chaining_key e.toList) ee.toList) se.toList)
        hs.psk.toList).out3 ZERO_NONCE = some [] := hempty
  rw [h₁]
  simp only [ld32le_st32le]
  rfl

/-- What consuming a response can do: nothing, or number a new transport from 0 and take over the
responder's index. -/
theorem nw_wg_consume_response_cases (hs : NwHandshake) (msg : Bytes) (t : NwTransport) :
    ((nw_wg_consume_response hs msg t).1 ≠ 0 ∧ (nw_wg_consume_response hs msg t).2 = (hs, t))
      ∨ ((nw_wg_consume_response hs msg t).1 = 0
        ∧ (nw_wg_consume_response hs msg t).2.1
            = { hs with remote_index := ld32le (Bytes.slice msg 4 4) }
        ∧ (nw_wg_consume_response hs msg t).2.2.send_counter = 0) := by
  -- The cipher is a variable here, so that no step evaluates it.
  obtain ⟨decrypt, hdecrypt⟩ : ∃ d, nw_chacha20poly1305_decrypt = d := ⟨_, rfl⟩
  unfold nw_wg_consume_response
  rw [hdecrypt]
  split_ifs
  · exact Or.inl ⟨by simp, rfl⟩
  · exact Or.inl ⟨by simp, rfl⟩
  · dsimp only
    split
    · exact Or.inl ⟨by simp, rfl⟩
    · exact Or.inr ⟨rfl, rfl, rfl⟩

end Response

/-! ## Transport data -/

section Transport

/-- A packet decrypts to its plaintext under the key it was encrypted with, whatever else the two
transports hold. -/
theorem nw_wg_transport_decrypt_encrypt (t t' : NwTransport) (plain : Bytes)
    (h : t.send_key = t'.recv_key) :
    nw_wg_transport_decrypt t' (nw_wg_transport_encrypt t plain).2
      (nw_wg_transport_encrypt t plain).2.length = .ok plain := by
  set cipher := nw_chacha20poly1305_encrypt plain [] t.send_key (transport_nonce t.send_counter)
    with hcipher
  set hdr : Bytes := [4] ++ t.reserved.toList ++ (st32le t.remote_index).toList with hhdr
  have hpacket : (nw_wg_transport_encrypt t plain).2
      = hdr ++ (st64le t.send_counter).toList ++ cipher := rfl
  have hlen : (hdr ++ (st64le t.send_counter).toList).length = NW_WG_DATA_HDR := by
    simp [hhdr, NW_WG_DATA_HDR]
  have hcounter : Bytes.slice (hdr ++ (st64le t.send_counter).toList ++ cipher) 8 8
      = st64le t.send_counter := by
    rw [Bytes.slice_append_left _ (by rw [hlen]; decide),
      Bytes.slice_after _ (by simp [hhdr]), Bytes.slice_toList]
  have hbody : ((hdr ++ (st64le t.send_counter).toList ++ cipher).drop NW_WG_DATA_HDR).take
      ((hdr ++ (st64le t.send_counter).toList ++ cipher).length - NW_WG_DATA_HDR) = cipher := by
    rw [List.length_append, hlen, List.drop_left' hlen, List.take_of_length_le (by omega)]
  rw [hpacket]
  unfold nw_wg_transport_decrypt
  rw [if_neg]
  · simp only [hcounter, hbody, ld64le_st64le, ← h]
    rw [hcipher, decrypt_encrypt]
  · simp [hhdr, hcipher, NW_WG_DATA_HDR]
    omega

/-- Over any interleaving, both ends read what the other sent. -/
theorem converse_eq : ∀ (msgs : List (Side × Bytes)) (tA tB : NwTransport),
    tA.send_key = tB.recv_key → tB.send_key = tA.recv_key →
    converse tA tB msgs = msgs.map fun m => .ok m.2
  | [], _, _, _, _ => rfl
  | (.initiator, plain) :: rest, tA, tB, hAB, hBA => by
    have hd := nw_wg_transport_decrypt_encrypt tA tB plain hAB
    have ih := converse_eq rest (nw_wg_transport_encrypt tA plain).1 tB hAB hBA
    simp only [converse, List.map_cons]
    rw [hd, ih]
  | (.responder, plain) :: rest, tA, tB, hAB, hBA => by
    have hd := nw_wg_transport_decrypt_encrypt tB tA plain hBA
    have ih := converse_eq rest tA (nw_wg_transport_encrypt tB plain).1 hAB hBA
    simp only [converse, List.map_cons]
    rw [hd, ih]

end Transport

/-! ## Agreement -/

section Agreement

/-- Both ends of an exchange of `m` and `n` come to one point. -/
def X25519Commutes (m n : Key) : Prop :=
  nw_x25519 m (nw_x25519_base n) = nw_x25519 n (nw_x25519_base m)

/-- An initiator set up for a responder: both hold a key pair, the initiator knows the other's
public key, and the pre-shared keys are equal. Everything else is arbitrary. -/
structure Paired (A B : NwHandshake) : Prop where
  pairA : A.static_public = nw_x25519_base A.static_private
  pairB : B.static_public = nw_x25519_base B.static_private
  peer : A.peer_static_public = B.static_public
  psk : A.psk = B.psk

theorem paired_init (a b : Key) (pB psk : Option Key) :
    Paired (nw_handshake_init a (some (nw_x25519_base b)) psk) (nw_handshake_init b pB psk) :=
  ⟨rfl, rfl, rfl, rfl⟩

/-- The two ends after an accepted initiation: one transcript, and the responder knows the
initiator's keys and index. -/
structure Matched (A B : NwHandshake) : Prop where
  chaining_key : B.chaining_key = A.chaining_key
  hash : B.hash = A.hash
  psk : B.psk = A.psk
  ephemeral : B.remote_ephemeral = nw_x25519_base A.ephemeral_private
  static : B.remote_static = A.static_public
  pair : A.static_public = nw_x25519_base A.static_private
  index : B.remote_index = A.local_index

variable {A B : NwHandshake} {ephemeralA ephemeralB : Key}

/-- The responder accepts an initiation made for it. -/
theorem initiation_accepted (indexA : UInt32) (ts : Vector UInt8 12) (hAB : Paired A B)
    (hes : X25519Commutes ephemeralA B.static_private)
    (hss : X25519Commutes A.static_private B.static_private) :
    (nw_wg_consume_initiation B (nw_wg_create_initiation A indexA ephemeralA ts).2).1 = 0
      ∧ Matched (nw_wg_create_initiation A indexA ephemeralA ts).1
        (nw_wg_consume_initiation B (nw_wg_create_initiation A indexA ephemeralA ts).2).2 := by
  obtain ⟨hpairA, hpairB, hpeer, hpsk⟩ := hAB
  have hcreate := nw_wg_create_initiation_eq indexA _ _ ts A ephemeralA rfl rfl
  rw [hpeer] at hcreate
  have hconsume := nw_wg_consume_initiation_ok A.reserved indexA (nw_x25519_base ephemeralA)
    (nw_x25519 ephemeralA B.static_public) (nw_x25519 A.static_private B.static_public)
    A.static_public ts B (Bytes.zeros 16) (by rw [hpairB, hes]) (by rw [hpairA, hpairB, hss])
  rw [hcreate, hconsume]
  exact ⟨rfl, rfl, rfl, hpsk.symm, rfl, rfl, hpairA, rfl⟩

/-- The initiator accepts the response to its initiation, whatever follows it in the buffer, and
its transport is the responder's with the directions exchanged. -/
theorem response_accepted (indexB : UInt32) (t₀ : NwTransport) (tail : Bytes)
    (hAB : Matched A B) (hee : X25519Commutes ephemeralB A.ephemeral_private)
    (hse : X25519Commutes ephemeralB A.static_private) :
    nw_wg_consume_response A ((nw_wg_create_response B indexB ephemeralB).2.1 ++ tail) t₀
      = (0, { A with remote_index := indexB },
          { send_key := (nw_wg_create_response B indexB ephemeralB).2.2.recv_key
            recv_key := (nw_wg_create_response B indexB ephemeralB).2.2.send_key
            send_counter := 0
            recv_counter := 0
            local_index := A.local_index
            remote_index := indexB
            reserved := A.reserved }) := by
  obtain ⟨hck, hh, hpsk, he, hs, hpair, -⟩ := hAB
  have hcreate := nw_wg_create_response_eq indexB _ _ B ephemeralB rfl rfl
  rw [hck, hh, hpsk, he, hs] at hcreate
  have hconsume := nw_wg_consume_response_ok B.reserved indexB B.remote_index
    (nw_x25519_base ephemeralB) (nw_x25519 ephemeralB (nw_x25519_base A.ephemeral_private))
    (nw_x25519 ephemeralB A.static_public) (Bytes.zeros 16) tail A t₀ hee.symm
    (by rw [hpair, hse])
  rw [hcreate, hconsume]

/-- What the handshake leaves the initiator with: the responder's transport with the directions
exchanged, and a handshake that is as ready for the response as it was. -/
theorem handshake_run_eq (t₀ : NwTransport) (indexA indexB : UInt32) (ts : Vector UInt8 12)
    (hAB : Paired A B) (hes : X25519Commutes ephemeralA B.static_private)
    (hss : X25519Commutes A.static_private B.static_private)
    (hee : X25519Commutes ephemeralB ephemeralA)
    (hse : X25519Commutes ephemeralB A.static_private) :
    let run := handshake_run A B t₀ indexA indexB ephemeralA ephemeralB ts
    (run.consume_initiation_rc = 0 ∧ run.consume_response_rc = 0)
      ∧ run.initiator = { (nw_wg_create_initiation A indexA ephemeralA ts).1 with
          remote_index := indexB }
      ∧ run.tA = {
          send_key := run.tB.recv_key
          recv_key := run.tB.send_key
          send_counter := 0
          recv_counter := 0
          local_index := indexA
          remote_index := indexB
          reserved := A.reserved } := by
  intro run
  obtain ⟨hrc, hmatch⟩ := initiation_accepted indexA ts hAB hes hss
  have hresp := response_accepted indexB t₀ [] hmatch hee hse
  rw [List.append_nil] at hresp
  refine ⟨⟨?_, ?_⟩, ?_, ?_⟩
  · simp only [run, handshake_run, hrc]
  · simp only [run, handshake_run, hresp]
  · simp only [run, handshake_run, hresp]
  · simp only [run, handshake_run, hresp, nw_wg_create_initiation_local_index,
      nw_wg_create_initiation_reserved]

/-- After the handshake the initiator still matches the responder that answered it. -/
theorem handshake_run_matched (t₀ : NwTransport) (indexA indexB : UInt32) (ts : Vector UInt8 12)
    (hAB : Paired A B) (hes : X25519Commutes ephemeralA B.static_private)
    (hss : X25519Commutes A.static_private B.static_private)
    (hee : X25519Commutes ephemeralB ephemeralA)
    (hse : X25519Commutes ephemeralB A.static_private) :
    let run := handshake_run A B t₀ indexA indexB ephemeralA ephemeralB ts
    Matched run.initiator
        (nw_wg_consume_initiation B (nw_wg_create_initiation A indexA ephemeralA ts).2).2
      ∧ X25519Commutes ephemeralB run.initiator.ephemeral_private
      ∧ X25519Commutes ephemeralB run.initiator.static_private := by
  intro run
  obtain ⟨-, hinit, -⟩ := handshake_run_eq t₀ indexA indexB ts hAB hes hss hee hse
  obtain ⟨-, hck, hh, hpsk, he, hs, hpair, hindex⟩ := initiation_accepted indexA ts hAB hes hss
  simp only [run, hinit]
  exact ⟨⟨hck, hh, hpsk, he, hs, hpair, hindex⟩, hee, hse⟩

/-- Initiator and responder agree: each message is accepted, the responder learns who the
initiator is, the keys and the indices are crossed, and every plaintext arrives. -/
theorem handshake_run_agrees (A B : NwHandshake) (t₀ : NwTransport) (indexA indexB : UInt32)
    (ephemeralA ephemeralB : Key) (ts : Vector UInt8 12) (hAB : Paired A B)
    (hes : X25519Commutes ephemeralA B.static_private)
    (hss : X25519Commutes A.static_private B.static_private)
    (hee : X25519Commutes ephemeralB ephemeralA)
    (hse : X25519Commutes ephemeralB A.static_private) :
    let run := handshake_run A B t₀ indexA indexB ephemeralA ephemeralB ts
    (run.consume_initiation_rc = 0 ∧ run.learned = A.static_public)
      ∧ run.consume_response_rc = 0
      ∧ (run.tA.send_key = run.tB.recv_key ∧ run.tA.recv_key = run.tB.send_key)
      ∧ (run.tA.local_index = indexA ∧ run.tB.remote_index = indexA)
      ∧ (run.tB.local_index = indexB ∧ run.tA.remote_index = indexB)
      ∧ ∀ msgs : List (Side × Bytes),
          converse run.tA run.tB msgs = msgs.map fun m => .ok m.2 := by
  intro run
  obtain ⟨-, hmatch⟩ := initiation_accepted indexA ts hAB hes hss
  obtain ⟨⟨hrc₁, hrc₂⟩, -, htA⟩ := handshake_run_eq t₀ indexA indexB ts hAB hes hss hee hse
  have hstatic := hmatch.static
  have hindex := hmatch.index
  rw [nw_wg_create_initiation_static_public] at hstatic
  rw [nw_wg_create_initiation_local_index] at hindex
  have hkeys : run.tA.send_key = run.tB.recv_key ∧ run.tA.recv_key = run.tB.send_key := by
    simp only [run, htA, and_self]
  refine ⟨⟨hrc₁, ?_⟩, hrc₂, hkeys, ⟨?_, ?_⟩, ⟨?_, ?_⟩, fun msgs => ?_⟩
  · simp only [run, handshake_run, hstatic]
  · simp only [run, htA]
  · simp only [run, handshake_run, hindex, nw_wg_create_response_remote_index]
  · simp only [run, handshake_run, nw_wg_create_response_local_index]
  · simp only [run, htA]
  · exact converse_eq msgs _ _ hkeys.1 hkeys.2.symm

/-- Both sides with one private key: X25519 then commutes by definition. -/
theorem handshake_run_agrees_one_key :
    let k : Key := Bytes.zeros 32
    let A := nw_handshake_init k (some (nw_x25519_base k)) none
    let B := nw_handshake_init k none none
    let t₀ : NwTransport := ⟨k, k, 0, 0, 0, 0, Bytes.zeros 3⟩
    let run := handshake_run A B t₀ 1 2 k k (Bytes.zeros 12)
    run.consume_response_rc = 0 ∧ run.tA.send_key = run.tB.recv_key
      ∧ converse run.tA run.tB [(.initiator, [7]), (.responder, [])] = [.ok [7], .ok []] := by
  intro k A B t₀ run
  have h := handshake_run_agrees A B t₀ 1 2 k k (Bytes.zeros 12) (paired_init k k none none)
    rfl rfl rfl rfl
  exact ⟨h.2.1, h.2.2.1.1, h.2.2.2.2.2 _⟩

end Agreement

end Onegram
