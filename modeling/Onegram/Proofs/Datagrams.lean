import Onegram.Proofs.TunnelLoop

/-!
# What a datagram can do

A datagram is looked at in a buffer that still holds what earlier ones left behind its end. The
data branch reads the bytes of the datagram only. The branch of a handshake response reads 76 bytes
of the buffer, whatever the length of the datagram, so a shorter one is completed by stale bytes.
The code of the first handshake takes 92 bytes or none.
-/

namespace Onegram

/-! ## Valid responses -/

section Response

variable (hs : NwHandshake) (msg : Bytes)

/-- What the initiator mixes in for the ephemeral key in the message. -/
def response_kdf : KdfOut :=
  let er := Bytes.slice msg 12 32
  resp_kdf hs.chaining_key er (nw_x25519 hs.ephemeral_private er) (nw_x25519 hs.static_private er)
    hs.psk

def response_hash : Key :=
  let er := Bytes.slice msg 12 32
  resp_hash hs.chaining_key hs.hash er (nw_x25519 hs.ephemeral_private er)
    (nw_x25519 hs.static_private er) hs.psk

/-- The mac over the first 60 bytes, and the tag over the transcript of the handshake. -/
def ResponseValid : Prop :=
  mac1_of (Bytes.slice msg 0 60).toList (mac1_key hs.static_public) = Bytes.slice msg 60 16
    ∧ (nw_chacha20poly1305_decrypt (Bytes.slice msg 44 16).toList (response_hash hs msg).toList
      (response_kdf hs msg).out3 ZERO_NONCE).isSome = true

/-- The session of a response: its keys, and counters at 0. -/
def response_session : NwTransport where
  send_key := (nw_kdf (response_kdf hs msg).out1 []).out1
  recv_key := (nw_kdf (response_kdf hs msg).out1 []).out2
  send_counter := 0
  recv_counter := 0
  local_index := hs.local_index
  remote_index := ld32le (Bytes.slice msg 4 4)
  reserved := hs.reserved

variable {hs msg}

theorem consume_valid (t : NwTransport) (htype : msg.getD 0 0 = 2) (h : ResponseValid hs msg) :
    nw_wg_consume_response hs msg t
      = (0, { hs with remote_index := ld32le (Bytes.slice msg 4 4) }, response_session hs msg) := by
  obtain ⟨hmac, htag⟩ := h
  obtain ⟨plain, hplain⟩ := Option.isSome_iff_exists.mp htag
  obtain ⟨decrypt, hdecrypt⟩ : ∃ d, nw_chacha20poly1305_decrypt = d := ⟨_, rfl⟩
  generalize hr : nw_wg_consume_response hs msg t = r
  unfold nw_wg_consume_response at hr
  rw [hdecrypt] at hr hplain
  split_ifs at hr with h₁ h₂
  · exact absurd htype h₁
  · exact absurd hmac h₂
  · dsimp only at hr
    split at hr
    · rename_i hnone
      have hnone' : decrypt (Bytes.slice msg 44 16).toList (response_hash hs msg).toList
          (response_kdf hs msg).out3 ZERO_NONCE = none := hnone
      rw [hnone'] at hplain
      simp at hplain
    · rw [← hr]
      rfl

theorem consume_invalid (t : NwTransport) (h : ¬ (msg.getD 0 0 = 2 ∧ ResponseValid hs msg)) :
    (nw_wg_consume_response hs msg t).1 ≠ 0
      ∧ (nw_wg_consume_response hs msg t).2 = (hs, t) := by
  rcases nw_wg_consume_response_cases hs msg t with hfail | ⟨hrc, -⟩
  · exact hfail
  · refine absurd ?_ h
    obtain ⟨decrypt, hdecrypt⟩ : ∃ d, nw_chacha20poly1305_decrypt = d := ⟨_, rfl⟩
    unfold ResponseValid
    unfold nw_wg_consume_response at hrc
    rw [hdecrypt] at hrc ⊢
    split_ifs at hrc with htype hmac
    · simp at hrc
    · simp at hrc
    · refine ⟨not_not.mp htype, not_not.mp hmac, ?_⟩
      dsimp only at hrc
      split at hrc
      · simp at hrc
      · rename_i plain hplain
        have hopen : decrypt (Bytes.slice msg 44 16).toList (response_hash hs msg).toList
            (response_kdf hs msg).out3 ZERO_NONCE = some plain := hplain
        rw [hopen]
        rfl

end Response

/-! ## The receive buffer -/

section Buffer

/-- The bytes of a datagram that `recvfrom` delivers. -/
def delivered (data : Bytes) : Bytes := data.take 2048

variable {data stale : Bytes}

theorem recv_into_eq :
    recv_into stale data = delivered data ++ stale.drop (delivered data).length := rfl

theorem getD_recv_into_of_lt {i : ℕ} (h : i < (delivered data).length) :
    (recv_into stale data).getD i 0 = (delivered data).getD i 0 :=
  List.getD_append _ _ _ _ h

theorem getD_recv_into_of_le {i : ℕ} (h : (delivered data).length ≤ i) :
    (recv_into stale data).getD i 0 = stale.getD i 0 := by
  rw [recv_into_eq, List.getD_append_right _ _ _ _ h]
  simp only [List.getD_eq_getElem?_getD, List.getElem?_drop]
  congr 2
  omega

theorem length_recv_into (hstale : stale.length = 2048) : (recv_into stale data).length = 2048 := by
  have hle := List.length_take_le 2048 data
  simp only [recv_into, List.length_append, List.length_drop, hstale]
  omega

theorem slice_congr {b b' : Bytes} {off n : ℕ} (h : ∀ i < off + n, b.getD i 0 = b'.getD i 0) :
    Bytes.slice b off n = Bytes.slice b' off n := by
  apply Vector.ext
  intro i hi
  simp only [Bytes.slice, Vector.getElem_ofFn]
  exact h (off + i) (by omega)

variable {hs : NwHandshake} {msg msg' : Bytes}

theorem response_session_congr (h : ∀ i < 76, msg.getD i 0 = msg'.getD i 0) :
    response_session hs msg = response_session hs msg' := by
  have her : Bytes.slice msg 12 32 = Bytes.slice msg' 12 32 :=
    slice_congr fun i hi => h i (by omega)
  have hindex : Bytes.slice msg 4 4 = Bytes.slice msg' 4 4 := slice_congr fun i hi => h i (by omega)
  have hkdf : response_kdf hs msg = response_kdf hs msg' := by
    unfold response_kdf
    rw [her]
  unfold response_session
  rw [hkdf, hindex]

/-- A response is read up to its second mac. -/
theorem responseValid_congr (h : ∀ i < 76, msg.getD i 0 = msg'.getD i 0) :
    ResponseValid hs msg ↔ ResponseValid hs msg' := by
  have hbody : Bytes.slice msg 0 60 = Bytes.slice msg' 0 60 :=
    slice_congr fun i hi => h i (by omega)
  have hmac : Bytes.slice msg 60 16 = Bytes.slice msg' 60 16 :=
    slice_congr fun i hi => h i (by omega)
  have her : Bytes.slice msg 12 32 = Bytes.slice msg' 12 32 :=
    slice_congr fun i hi => h i (by omega)
  have htag : Bytes.slice msg 44 16 = Bytes.slice msg' 44 16 :=
    slice_congr fun i hi => h i (by omega)
  have hkdf : response_kdf hs msg = response_kdf hs msg' := by
    unfold response_kdf
    rw [her]
  have hhash : response_hash hs msg = response_hash hs msg' := by
    unfold response_hash
    rw [her]
  rw [ResponseValid, ResponseValid, hbody, hmac, htag, hkdf, hhash]

/-- A packet is decrypted from the bytes of its own datagram. -/
theorem transport_decrypt_recv_into (t : NwTransport) (stale data : Bytes) :
    nw_wg_transport_decrypt t (recv_into stale data) (delivered data).length
      = nw_wg_transport_decrypt t (delivered data) (delivered data).length := by
  obtain ⟨decrypt, hdecrypt⟩ : ∃ d, nw_chacha20poly1305_decrypt = d := ⟨_, rfl⟩
  unfold nw_wg_transport_decrypt
  rw [hdecrypt]
  by_cases hshort : (delivered data).length < NW_WG_DATA_HDR + 16
  · rw [if_pos (.inr hshort), if_pos (.inr hshort)]
  · have hlong : 32 ≤ (delivered data).length := by
      unfold NW_WG_DATA_HDR at hshort
      omega
    have hcounter : Bytes.slice (recv_into stale data) 8 8 = Bytes.slice (delivered data) 8 8 :=
      slice_congr fun i hi => getD_recv_into_of_lt (by omega)
    have hcipher : ((recv_into stale data).drop NW_WG_DATA_HDR).take
          ((delivered data).length - NW_WG_DATA_HDR)
        = ((delivered data).drop NW_WG_DATA_HDR).take
          ((delivered data).length - NW_WG_DATA_HDR) := by
      rw [recv_into_eq, List.drop_append_of_le_length (by unfold NW_WG_DATA_HDR; omega),
        List.take_append_of_le_length (by rw [List.length_drop])]
    rw [getD_recv_into_of_lt (by omega), hcounter, hcipher]

end Buffer

/-! ## Datagrams that are not authentic -/

section Inert

/-- A data packet under the transport keys, or a whole response to the handshake in force. -/
def Authenticated (s : LoopState) (data : Bytes) : Prop :=
  ((delivered data).getD 0 0 = 4 ∧ NW_WG_DATA_HDR + 16 ≤ (delivered data).length
      ∧ (nw_chacha20poly1305_decrypt ((delivered data).drop NW_WG_DATA_HDR) [] s.t.recv_key
        (transport_nonce (ld64le (Bytes.slice (delivered data) 8 8)))).isSome = true)
    ∨ ((delivered data).getD 0 0 = 2 ∧ (delivered data).length = NW_WG_RESP_SIZE
      ∧ ResponseValid s.hs (delivered data))

/-- What was written to the tun device. -/
def tun_writes (out : List Output) : List Bytes :=
  out.filterMap fun
    | .tun data => some data
    | _ => none

structure Inert (s s' : LoopState) : Prop where
  transport : s'.t = s.t
  handshake : s'.hs = s.hs
  tun : tun_writes s'.out = tun_writes s.out

theorem Inert.refl (s : LoopState) : Inert s s := ⟨rfl, rfl, rfl⟩

/-- With what the buffer holds behind it, a datagram from the peer makes a valid response, and not
the one of the session in use with nothing sent yet. -/
def CompletesResponse (env : TunnelEnv) (s : LoopState) (src : SockAddr) (data : Bytes) : Prop :=
  (delivered data).getD 0 0 = 2 ∧ src.s_addr = env.dst.s_addr ∧ src.sin_port = env.dst.sin_port
    ∧ ResponseValid s.hs (recv_into s.udp_buf data)
    ∧ ¬ (response_session s.hs (recv_into s.udp_buf data) = s.t
      ∧ ld32le (Bytes.slice (recv_into s.udp_buf data) 4 4) = s.hs.remote_index)

variable {env : TunnelEnv} {s : LoopState}

theorem decrypt_authenticated {data plain : Bytes}
    (h : nw_wg_transport_decrypt s.t (delivered data) (delivered data).length = .ok plain) :
    Authenticated s data := by
  obtain ⟨decrypt, hdecrypt⟩ : ∃ d, nw_chacha20poly1305_decrypt = d := ⟨_, rfl⟩
  unfold Authenticated
  unfold nw_wg_transport_decrypt at h
  rw [hdecrypt] at h ⊢
  split_ifs at h with hhead
  rw [not_or, not_not, Nat.not_lt] at hhead
  refine .inl ⟨hhead.1, hhead.2, ?_⟩
  rw [List.take_of_length_le (by rw [List.length_drop])] at h
  dsimp only at h
  split at h
  · simp at h
  · rename_i hopen
    rw [hopen]
    rfl

theorem on_data_inert {data : Bytes} (h : ¬ Authenticated s data) :
    on_data (received s data) (delivered data).length = received s data := by
  obtain ⟨r, hr⟩ : ∃ r, nw_wg_transport_decrypt s.t (delivered data) (delivered data).length = r :=
    ⟨_, rfl⟩
  have hbuf : nw_wg_transport_decrypt (received s data).t (received s data).udp_buf
      (delivered data).length = r := (transport_decrypt_recv_into s.t s.udp_buf data).trans hr
  unfold on_data
  rw [hbuf]
  rcases r with rc | plain
  · rfl
  · exact absurd (decrypt_authenticated hr) h

/-- A response that is valid in the buffer without being authentic is completed by stale bytes. -/
theorem on_response_cases (env : TunnelEnv) (src : SockAddr) (s : LoopState)
    (htype : s.udp_buf.getD 0 0 = 2) :
    (src.s_addr = env.dst.s_addr ∧ src.sin_port = env.dst.sin_port ∧ ResponseValid s.hs s.udp_buf
        ∧ on_response env s src = { s with
          hs := { s.hs with remote_index := ld32le (Bytes.slice s.udp_buf 4 4) }
          t := response_session s.hs s.udp_buf
          key_derived_time := s.now
          rekey_in_progress := false
          rekey_attempts := 0
          out := s.out ++ [.rotated s.hs.ephemeral_private (Bytes.slice s.udp_buf 12 32)
            (response_session s.hs s.udp_buf).send_key] })
      ∨ (¬ (src.s_addr = env.dst.s_addr ∧ src.sin_port = env.dst.sin_port
          ∧ ResponseValid s.hs s.udp_buf)
        ∧ on_response env s src = s) := by
  unfold on_response
  by_cases hsrc : src.s_addr = env.dst.s_addr ∧ src.sin_port = env.dst.sin_port
  · rw [if_neg (by rw [not_or, not_not, not_not]; exact hsrc)]
    by_cases hvalid : ResponseValid s.hs s.udp_buf
    · refine .inl ⟨hsrc.1, hsrc.2, hvalid, ?_⟩
      have hrc : response_rc s = 0 := congrArg Prod.fst (consume_valid s.t htype hvalid)
      rw [if_pos hrc, consume_valid s.t htype hvalid]
    · obtain ⟨hrc, hsame⟩ := consume_invalid s.t (fun h => hvalid h.2)
      have hrc' : response_rc s ≠ 0 := hrc
      refine .inr ⟨fun h => hvalid h.2.2, ?_⟩
      rw [if_neg hrc', hsame]
  · rw [if_pos (by rwa [not_and_or] at hsrc)]
    exact .inr ⟨fun h => hsrc ⟨h.1, h.2.1⟩, rfl⟩

/-- Where a datagram is looked at. -/
theorem on_udp_eq (env : TunnelEnv) (s : LoopState) (src : SockAddr) (data : Bytes)
    (hempty : (delivered data).length ≠ 0) :
    on_udp env s src data =
      if (delivered data).getD 0 0 = 4 then on_data (received s data) (delivered data).length
      else if (delivered data).getD 0 0 = 2 then on_response env (received s data) src
      else received s data := by
  have hhead : (received s data).udp_buf.getD 0 0 = (delivered data).getD 0 0 :=
    getD_recv_into_of_lt (by omega)
  rw [← hhead]
  exact if_neg hempty

theorem received_type {data : Bytes} {b : UInt8} (hb : b ≠ 0)
    (htype : (delivered data).getD 0 0 = b) :
    (delivered data).length ≠ 0 ∧ (received s data).udp_buf.getD 0 0 = b := by
  have hempty : (delivered data).length ≠ 0 := by
    intro hlen
    rw [List.length_eq_zero_iff.mp hlen] at htype
    exact hb htype.symm
  exact ⟨hempty, (getD_recv_into_of_lt (by omega)).trans htype⟩

theorem not_inert_of_completes {src : SockAddr} {data : Bytes}
    (h : CompletesResponse env s src data) : ¬ Inert s (on_udp env s src data) := by
  obtain ⟨htype, haddr, hport, hvalid, hnew⟩ := h
  obtain ⟨hempty, hhead⟩ := received_type (s := s) (by decide) htype
  rw [on_udp_eq env s src data hempty, htype, if_neg (by decide), if_pos rfl]
  rcases on_response_cases env src (received s data) hhead with ⟨-, -, -, heq⟩ | ⟨hinvalid, -⟩
  · rw [heq]
    rintro ⟨htransport, hhandshake, -⟩
    exact hnew ⟨htransport, congrArg NwHandshake.remote_index hhandshake⟩
  · exact absurd ⟨haddr, hport, hvalid⟩ hinvalid

theorem inert_of_not_completes {src : SockAddr} {data : Bytes} (h : ¬ Authenticated s data)
    (hc : ¬ CompletesResponse env s src data) : Inert s (on_udp env s src data) := by
  have hreceived : Inert s (received s data) := ⟨rfl, rfl, rfl⟩
  by_cases hempty : (delivered data).length = 0
  · have hsame : on_udp env s src data = s := if_pos hempty
    rw [hsame]
    exact Inert.refl s
  · rw [on_udp_eq env s src data hempty]
    split_ifs with hdata htype
    · rw [on_data_inert h]
      exact hreceived
    · rcases on_response_cases env src (received s data)
        (received_type (s := s) (by decide) htype).2 with ⟨haddr, hport, hvalid, heq⟩ | ⟨-, heq⟩
      · rw [heq]
        have hsame := not_not.mp fun hnew => hc ⟨htype, haddr, hport, hvalid, hnew⟩
        refine ⟨hsame.1, ?_, ?_⟩
        · exact congrArg (fun i => { s.hs with remote_index := i }) hsame.2
        · simp [tun_writes, received]
      · rw [heq]
        exact hreceived
    · exact hreceived

/-- A datagram that is not authentic does nothing unless it completes a response. -/
theorem inert_iff (env : TunnelEnv) (s : LoopState) (src : SockAddr) (data : Bytes)
    (h : ¬ Authenticated s data) :
    Inert s (on_udp env s src data) ↔ ¬ CompletesResponse env s src data :=
  ⟨fun hinert hc => not_inert_of_completes hc hinert, inert_of_not_completes h⟩

theorem junk_not_authenticated (s : LoopState) : ¬ Authenticated s [9] := by
  rintro (⟨htype, -⟩ | ⟨htype, -⟩)
  · exact absurd htype (by decide)
  · exact absurd htype (by decide)

/-! ## A stale response -/

/-- The handshake is as ready for the response as it was before it. -/
theorem Matched.remote_index {A B : NwHandshake} (h : Matched A B) {i : UInt32} :
    Matched { A with remote_index := i } B :=
  ⟨h.chaining_key, h.hash, h.psk, h.ephemeral, h.static, h.pair, h.index⟩

/-- One byte on top of a response that is still in the buffer makes it whole again. -/
theorem stale_valid {B : NwHandshake} {ephemeralB : Key} (indexB : UInt32) (tail : Bytes)
    (t : NwTransport) {hs : NwHandshake} (hAB : Matched hs B)
    (hee : X25519Commutes ephemeralB hs.ephemeral_private)
    (hse : X25519Commutes ephemeralB hs.static_private) :
    ResponseValid hs (recv_into ((nw_wg_create_response B indexB ephemeralB).2.1 ++ tail) [2]) := by
  have htype := nw_wg_create_response_type indexB tail B ephemeralB
  have haccept := response_accepted indexB t tail hAB hee hse
  generalize (nw_wg_create_response B indexB ephemeralB).2.1 ++ tail = buf at htype haccept ⊢
  have hbuf : recv_into buf [2] = buf := by
    rcases buf with _ | ⟨b, rest⟩
    · simp at htype
    · rw [List.getD_cons_zero] at htype
      rw [htype]
      rfl
  rw [hbuf]
  by_contra hinvalid
  exact (consume_invalid t fun h => hinvalid h.2).1 (congrArg Prod.fst haccept)

/-- The response comes once more, and a packet is sent: the buffer still holds the response. -/
theorem replay_leaves (env : TunnelEnv) {B : NwHandshake} {ephemeralB : Key} (indexB : UInt32)
    (hexit : s.exit = none) (hAB : Matched s.hs B)
    (hee : X25519Commutes ephemeralB s.hs.ephemeral_private)
    (hse : X25519Commutes ephemeralB s.hs.static_private) :
    let s' := run_tunnel_loop env s
      [.udp env.dst (nw_wg_create_response B indexB ephemeralB).2.1, .tun tun_read]
    s'.exit = none ∧ s'.hs = { s.hs with remote_index := indexB } ∧ s'.t.send_counter = 1
      ∧ s'.udp_buf = (nw_wg_create_response B indexB ephemeralB).2.1
        ++ s.udp_buf.drop NW_WG_RESP_SIZE := by
  intro s'
  have hudp := on_udp_answer env indexB hAB hee hse
  have hlen := length_nw_wg_create_response indexB B ephemeralB
  generalize hresp : (nw_wg_create_response B indexB ephemeralB).2.1 = resp at hudp hlen
  have hs' : s' = loop_step env (loop_step env s (.udp env.dst resp)) (.tun tun_read) := by
    simp only [s', hresp]
    rfl
  have hfirst : loop_step env s (.udp env.dst resp) = on_udp env s env.dst resp := by
    simp [loop_step, hexit]
  have hexit' : (on_udp env s env.dst resp).exit = none := by
    rw [hudp]
    exact hexit
  rw [hs', hfirst, loop_step_tun_read env hexit', hudp]
  refine ⟨hexit, rfl, rfl, ?_⟩
  have htake : resp.take 2048 = resp := List.take_of_length_le (by rw [hlen]; decide)
  simp only [send_packet, received, recv_into, htake, hlen]

/-- After that, one byte from the peer completes the response. -/
theorem replay_completable (env : TunnelEnv) {B : NwHandshake} {ephemeralB : Key} (indexB : UInt32)
    (hexit : s.exit = none) (hlen : s.udp_buf.length = 2048) (hAB : Matched s.hs B)
    (hee : X25519Commutes ephemeralB s.hs.ephemeral_private)
    (hse : X25519Commutes ephemeralB s.hs.static_private) :
    let s' := run_tunnel_loop env s
      [.udp env.dst (nw_wg_create_response B indexB ephemeralB).2.1, .tun tun_read]
    s'.t.send_counter = 1 ∧ s'.udp_buf.length = 2048
      ∧ ResponseValid s'.hs (recv_into s'.udp_buf [2]) := by
  intro s'
  obtain ⟨-, hhs, hcounter, hbuf⟩ := replay_leaves env indexB hexit hAB hee hse
  have hvalid := stale_valid indexB (s.udp_buf.drop NW_WG_RESP_SIZE) s.t hAB.remote_index hee hse
  refine ⟨hcounter, ?_, ?_⟩
  · change s'.udp_buf = _ at hbuf
    rw [hbuf, List.length_append, length_nw_wg_create_response, List.length_drop, hlen]
    rfl
  · change s'.udp_buf = _ at hbuf
    change s'.hs = _ at hhs
    rw [hhs, hbuf]
    exact hvalid

def sample_env : TunnelEnv := ⟨⟨0x0100007f, 2408⟩, 25⟩

/-- After a handshake its response is delivered a second time, then a packet is sent. -/
def replayed (run : HandshakeRun) : LoopState :=
  run_tunnel_loop sample_env (loop_start run.initiator run.tA (List.replicate 2048 0) 0)
    [.udp sample_env.dst run.resp, .tun tun_read]

theorem replayed_state {A B : NwHandshake} {ephemeralA ephemeralB : Key} (t : NwTransport)
    (indexA indexB : UInt32) (ts : Vector UInt8 12) (hAB : Paired A B)
    (hes : X25519Commutes ephemeralA B.static_private)
    (hss : X25519Commutes A.static_private B.static_private)
    (hee : X25519Commutes ephemeralB ephemeralA)
    (hse : X25519Commutes ephemeralB A.static_private) :
    let s := replayed (handshake_run A B t indexA indexB ephemeralA ephemeralB ts)
    s.t.send_counter = 1 ∧ s.udp_buf.length = 2048
      ∧ ResponseValid s.hs (recv_into s.udp_buf [2]) := by
  intro s
  obtain ⟨hmatch, hee', hse'⟩ := handshake_run_matched t indexA indexB ts hAB hes hss hee hse
  generalize hrun : handshake_run A B t indexA indexB ephemeralA ephemeralB ts = run
    at hmatch hee' hse'
  have hresp : run.resp = (nw_wg_create_response (nw_wg_consume_initiation B
      (nw_wg_create_initiation A indexA ephemeralA ts).2).2 indexB ephemeralB).2.1 := by
    rw [← hrun]
    rfl
  have hs : s = replayed run := congrArg replayed hrun
  have hstate := replay_completable
    (s := loop_start run.initiator run.tA (List.replicate 2048 0) 0) sample_env indexB rfl
    List.length_replicate hmatch hee' hse'
  rw [← hresp] at hstate
  rw [hs]
  exact hstate

def replayed_tunnel : LoopState :=
  replayed (handshake_run
    (nw_handshake_init (Bytes.zeros 32) (some (nw_x25519_base (Bytes.zeros 32))) none)
    (nw_handshake_init (Bytes.zeros 32) none none)
    ⟨Bytes.zeros 32, Bytes.zeros 32, 0, 0, 0, 0, Bytes.zeros 3⟩ 1 2 (Bytes.zeros 32)
    (Bytes.zeros 32) (Bytes.zeros 12))

theorem replayed_tunnel_state : replayed_tunnel.t.send_counter = 1
    ∧ replayed_tunnel.udp_buf.length = 2048
    ∧ ResponseValid replayed_tunnel.hs (recv_into replayed_tunnel.udp_buf [2]) :=
  have hk : X25519Commutes (Bytes.zeros 32) (Bytes.zeros 32) := rfl
  replayed_state _ 1 2 (Bytes.zeros 12) (paired_init (Bytes.zeros 32) (Bytes.zeros 32) none none)
    hk hk hk hk

theorem replayed_tunnel_completes :
    CompletesResponse sample_env replayed_tunnel sample_env.dst [2] := by
  obtain ⟨hcounter, -, hvalid⟩ := replayed_tunnel_state
  refine ⟨rfl, rfl, rfl, hvalid, fun hsame => ?_⟩
  have hzero : (0 : UInt64) = 1 := (congrArg NwTransport.send_counter hsame.1).trans hcounter
  exact absurd hzero (by decide)

theorem inert_iff_junk :
    ¬ Authenticated replayed_tunnel [9]
      ∧ (Inert replayed_tunnel (on_udp sample_env replayed_tunnel sample_env.dst [9])
        ↔ ¬ CompletesResponse sample_env replayed_tunnel sample_env.dst [9]) :=
  ⟨junk_not_authenticated replayed_tunnel,
    inert_iff sample_env replayed_tunnel sample_env.dst [9] (junk_not_authenticated _)⟩

/-- A datagram of one byte rotates the keys. -/
theorem one_byte_rotates : ¬ Authenticated replayed_tunnel [2]
    ∧ ¬ Inert replayed_tunnel (on_udp sample_env replayed_tunnel sample_env.dst [2]) := by
  refine ⟨?_, not_inert_of_completes replayed_tunnel_completes⟩
  rintro (⟨htype, -⟩ | ⟨-, hlength, -⟩)
  · exact absurd htype (by decide)
  · exact absurd hlength (by decide)

end Inert

/-! ## Two runs with different buffers -/

section Isolation

/-- What a datagram finds, but for the buffer. -/
def LoopState.with_buffer (s : LoopState) (b : Bytes) : LoopState := { s with udp_buf := b }

/-- Whatever lies in the buffer, the datagram has the same effect. -/
def Isolated (env : TunnelEnv) (s : LoopState) (src : SockAddr) (data : Bytes) : Prop :=
  ∀ stale stale' : Bytes, stale.length = 2048 → stale'.length = 2048 →
    (on_udp env (s.with_buffer stale) src data).with_buffer []
      = (on_udp env (s.with_buffer stale') src data).with_buffer []

/-- A datagram from the peer that is shorter than what is read of a response and that some buffer
makes a valid one. -/
def Completable (env : TunnelEnv) (s : LoopState) (src : SockAddr) (data : Bytes) : Prop :=
  (delivered data).getD 0 0 = 2 ∧ src.s_addr = env.dst.s_addr ∧ src.sin_port = env.dst.sin_port
    ∧ (delivered data).length < 76
    ∧ ∃ stale : Bytes, stale.length = 2048 ∧ ResponseValid s.hs (recv_into stale data)

variable {env : TunnelEnv} {s s' : LoopState} {src : SockAddr} {data stale stale' : Bytes}

@[simp] theorem with_buffer_hs (b : Bytes) : (s.with_buffer b).hs = s.hs := rfl

@[simp] theorem with_buffer_t (b : Bytes) : (s.with_buffer b).t = s.t := rfl

@[simp] theorem with_buffer_udp_buf (b : Bytes) : (s.with_buffer b).udp_buf = b := rfl

@[simp] theorem with_buffer_with_buffer (b b' : Bytes) :
    (s.with_buffer b).with_buffer b' = s.with_buffer b' := rfl

/-- The first 60 bytes determine the mac, and so its last byte. -/
theorem mac_last {hs : NwHandshake} {msg msg' : Bytes} (h : ResponseValid hs msg)
    (h' : ResponseValid hs msg') (hbody : Bytes.slice msg 0 60 = Bytes.slice msg' 0 60) :
    msg.getD 75 0 = msg'.getD 75 0 := by
  have hmac : Bytes.slice msg 60 16 = Bytes.slice msg' 60 16 := by
    rw [← h.1, ← h'.1, hbody]
  have hlast := Vector.ext_iff.mp hmac 15 (by decide)
  simp only [Bytes.slice, Vector.getElem_ofFn] at hlast
  exact hlast

/-- A mac that is off by one is not the mac. -/
theorem exists_invalid (hs : NwHandshake) (hshort : (delivered data).length < 76)
    (hlen : stale.length = 2048) (hvalid : ResponseValid hs (recv_into stale data)) :
    ∃ stale' : Bytes, stale'.length = 2048 ∧ ¬ ResponseValid hs (recv_into stale' data) := by
  let b := stale.getD 75 0
  have hset : ∀ i, (stale.set 75 (b + 1)).getD i 0 = if i = 75 then b + 1 else stale.getD i 0 := by
    intro i
    simp only [List.getD_eq_getElem?_getD, List.getElem?_set]
    by_cases hi : 75 = i
    · subst hi
      simp [hlen]
    · rw [if_neg hi, if_neg (Ne.symm hi)]
  have hsame : ∀ i < 75, (recv_into (stale.set 75 (b + 1)) data).getD i 0
      = (recv_into stale data).getD i 0 := by
    intro i hi
    by_cases hin : i < (delivered data).length
    · rw [getD_recv_into_of_lt hin, getD_recv_into_of_lt hin]
    · rw [getD_recv_into_of_le (by omega), getD_recv_into_of_le (by omega), hset,
        if_neg (by omega)]
  refine ⟨stale.set 75 (b + 1), by rw [List.length_set, hlen], fun hvalid' => ?_⟩
  have hbody : Bytes.slice (recv_into (stale.set 75 (b + 1)) data) 0 60
      = Bytes.slice (recv_into stale data) 0 60 := slice_congr fun i hi => hsame i (by omega)
  have hbyte := mac_last hvalid' hvalid hbody
  rw [getD_recv_into_of_le (by omega), getD_recv_into_of_le (by omega), hset, if_pos rfl] at hbyte
  have hone : b + 1 = b := hbyte
  simp at hone

/-- A short datagram of type 2 from the peer rotates the keys in one buffer and not in another. -/
theorem not_isolated_of_completable (h : Completable env s src data) :
    ¬ Isolated env s src data := by
  obtain ⟨htype, haddr, hport, hshort, stale, hlen, hvalid⟩ := h
  obtain ⟨stale', hlen', hinvalid⟩ := exists_invalid s.hs hshort hlen hvalid
  intro hisolated
  have heq := congrArg LoopState.out (hisolated stale stale' hlen hlen')
  have hout : ∀ b : Bytes, (on_udp env (s.with_buffer b) src data)
      = on_response env (received (s.with_buffer b) data) src := by
    intro b
    rw [on_udp_eq env _ src data (received_type (s := s) (by decide) htype).1, htype,
      if_neg (by decide), if_pos rfl]
  have hhead : ∀ b : Bytes, (received (s.with_buffer b) data).udp_buf.getD 0 0 = 2 := fun b =>
    (received_type (by decide) htype).2
  rw [hout, hout] at heq
  rcases on_response_cases env src (received (s.with_buffer stale) data) (hhead _) with
    ⟨-, -, -, haccept⟩ | ⟨hreject, -⟩
  · rcases on_response_cases env src (received (s.with_buffer stale') data) (hhead _) with
      ⟨-, -, hvalid', -⟩ | ⟨-, hreject⟩
    · exact hinvalid hvalid'
    · rw [haccept, hreject] at heq
      have hlength := congrArg List.length heq
      simp [received, LoopState.with_buffer] at hlength
  · exact hreject ⟨haddr, hport, hvalid⟩

theorem on_data_isolated (s : LoopState) (data stale stale' : Bytes) :
    (on_data (received (s.with_buffer stale) data) (delivered data).length).with_buffer []
      = (on_data (received (s.with_buffer stale') data) (delivered data).length).with_buffer [] := by
  obtain ⟨r, hr⟩ : ∃ r, nw_wg_transport_decrypt s.t (delivered data) (delivered data).length = r :=
    ⟨_, rfl⟩
  have hbuf : ∀ b : Bytes, nw_wg_transport_decrypt (received (s.with_buffer b) data).t
      (received (s.with_buffer b) data).udp_buf (delivered data).length = r := fun b =>
    (transport_decrypt_recv_into s.t b data).trans hr
  unfold on_data
  rw [hbuf, hbuf]
  rcases r with rc | plain
  · rfl
  · dsimp only
    split_ifs <;> rfl

/-- Two buffers that agree where a response is read. -/
theorem on_response_congr (s : LoopState) (htype : stale.getD 0 0 = 2)
    (h : ∀ i < 76, stale.getD i 0 = stale'.getD i 0) :
    (on_response env (s.with_buffer stale) src).with_buffer []
      = (on_response env (s.with_buffer stale') src).with_buffer [] := by
  have htype' : stale'.getD 0 0 = 2 := (h 0 (by omega)).symm.trans htype
  have hvalid : ResponseValid s.hs stale ↔ ResponseValid s.hs stale' := responseValid_congr h
  rcases on_response_cases env src (s.with_buffer stale) htype with
    ⟨haddr, hport, hv, heq⟩ | ⟨hreject, heq⟩
  · rcases on_response_cases env src (s.with_buffer stale') htype' with
      ⟨-, -, -, heq'⟩ | ⟨hreject', -⟩
    · have hsession : response_session s.hs stale = response_session s.hs stale' :=
        response_session_congr h
      have hindex : Bytes.slice stale 4 4 = Bytes.slice stale' 4 4 :=
        slice_congr fun i hi => h i (by omega)
      have her : Bytes.slice stale 12 32 = Bytes.slice stale' 12 32 :=
        slice_congr fun i hi => h i (by omega)
      rw [heq, heq']
      simp only [with_buffer_hs, with_buffer_udp_buf, hsession, hindex, her]
      rfl
    · exact absurd ⟨haddr, hport, hvalid.mp hv⟩ hreject'
  · rcases on_response_cases env src (s.with_buffer stale') htype' with
      ⟨haddr, hport, hv, -⟩ | ⟨-, heq'⟩
    · exact absurd ⟨haddr, hport, hvalid.mpr hv⟩ hreject
    · rw [heq, heq']
      rfl

theorem isolated_of_not_completable (h : ¬ Completable env s src data) :
    Isolated env s src data := by
  intro stale stale' hlen hlen'
  by_cases hempty : (delivered data).length = 0
  · have hsame : ∀ b : Bytes, on_udp env (s.with_buffer b) src data = s.with_buffer b := fun b =>
      if_pos hempty
    rw [hsame, hsame]
    rfl
  · rw [on_udp_eq env _ src data hempty, on_udp_eq env _ src data hempty]
    split_ifs with hdata htype
    · exact on_data_isolated s data stale stale'
    · by_cases hshort : (delivered data).length < 76
      · have hreject : ∀ b : Bytes, b.length = 2048 →
            on_response env (received (s.with_buffer b) data) src
              = received (s.with_buffer b) data := by
          intro b hb
          rcases on_response_cases env src (received (s.with_buffer b) data)
            (received_type (by decide) htype).2 with ⟨haddr, hport, hvalid, -⟩ | ⟨-, heq⟩
          · exact absurd ⟨htype, haddr, hport, hshort, b, hb, hvalid⟩ h
          · exact heq
        rw [hreject stale hlen, hreject stale' hlen']
        rfl
      · have hreceived : ∀ b : Bytes, received (s.with_buffer b) data
            = (received s data).with_buffer (recv_into b data) := fun _ => rfl
        rw [hreceived, hreceived]
        refine on_response_congr (received s data) ?_ fun i hi => ?_
        · rw [getD_recv_into_of_lt (by omega), htype]
        · rw [getD_recv_into_of_lt (by omega), getD_recv_into_of_lt (by omega)]
    · rfl

/-! ### Whole runs -/

theorem on_wake_buffer (env : TunnelEnv) (s : LoopState) (b : Bytes) (now : Int) (idx : UInt32)
    (ephemeral : Key) (ts : Vector UInt8 12) :
    on_wake env (s.with_buffer b) now idx ephemeral ts
      = (on_wake env s now idx ephemeral ts).with_buffer b := by
  have hkeepalive : ∀ s : LoopState,
      keepalive_check env (s.with_buffer b) = (keepalive_check env s).with_buffer b := by
    intro s
    unfold keepalive_check
    dsimp only
    rw [apply_ite (LoopState.with_buffer · b)]
    rfl
  have hstall : ∀ s : LoopState, stall_check (s.with_buffer b) = (stall_check s).with_buffer b := by
    intro s
    unfold stall_check
    rw [apply_ite (LoopState.with_buffer · b), apply_ite (LoopState.with_buffer · b)]
    rfl
  have hrekey : ∀ s : LoopState, rekey_check (s.with_buffer b) idx ephemeral ts
      = (rekey_check s idx ephemeral ts).with_buffer b := by
    intro s
    unfold rekey_check
    rw [apply_ite (LoopState.with_buffer · b), apply_ite (LoopState.with_buffer · b),
      apply_ite (LoopState.with_buffer · b)]
    rfl
  have hwake : stall_check (keepalive_check env { s.with_buffer b with now := now })
      = (stall_check (keepalive_check env { s with now := now })).with_buffer b := by
    rw [← hstall, ← hkeepalive]
    rfl
  unfold on_wake
  dsimp only
  rw [hwake, hrekey]
  generalize stall_check (keepalive_check env { s with now := now }) = s'
  cases hexit : s'.exit <;> simp [LoopState.with_buffer, hexit]

theorem on_tun_buffer (s : LoopState) (b : Bytes) (data : Bytes) :
    on_tun (s.with_buffer b) data = (on_tun s data).with_buffer b := by
  unfold on_tun
  dsimp only
  split_ifs <;> rfl

/-- The datagrams of a run are whole, or not responses. -/
def Whole (env : TunnelEnv) (s : LoopState) : LoopEvent → Prop
  | .udp src data => ¬ Completable env s src data
  | _ => True

theorem loop_step_buffers {e : LoopEvent} (h : Whole env s e)
    (hlen : s.udp_buf.length = 2048) (hlen' : s'.udp_buf.length = 2048)
    (heq : s.with_buffer [] = s'.with_buffer []) :
    (loop_step env s e).with_buffer [] = (loop_step env s' e).with_buffer [] := by
  have hs : s = s.with_buffer s.udp_buf := rfl
  have hs' : s' = s.with_buffer s'.udp_buf := congrArg (·.with_buffer s'.udp_buf) heq.symm
  have hexit : s'.exit = s.exit := (congrArg LoopState.exit heq).symm
  unfold loop_step
  rw [hexit]
  cases hdone : s.exit.isSome
  · cases e with
    | wake now idx ephemeral ts =>
      rw [hs']
      simp only [Bool.false_eq_true, if_false, on_wake_buffer]
      rfl
    | tun data =>
      rw [hs']
      simp only [Bool.false_eq_true, if_false, on_tun_buffer]
      rfl
    | udp src data =>
      have hisolated := isolated_of_not_completable h s.udp_buf s'.udp_buf hlen hlen'
      rw [← hs, ← hs'] at hisolated
      exact hisolated
  · cases e <;> exact heq

theorem on_udp_buffer_length (src : SockAddr) (data : Bytes) (h : s.udp_buf.length = 2048) :
    (on_udp env s src data).udp_buf.length = 2048 := by
  have hreceived : (received s data).udp_buf.length = 2048 := length_recv_into h
  unfold on_udp
  dsimp only
  split_ifs
  · exact h
  · unfold on_data
    split
    · split_ifs <;> exact hreceived
    · exact hreceived
  · unfold on_response
    dsimp only
    split_ifs <;> exact hreceived
  · exact hreceived

theorem loop_step_buffer_length (e : LoopEvent) (h : s.udp_buf.length = 2048) :
    (loop_step env s e).udp_buf.length = 2048 := by
  cases hdone : s.exit.isSome
  · cases e with
    | wake now idx ephemeral ts =>
      have hbuf := congrArg LoopState.udp_buf (on_wake_buffer env s s.udp_buf now idx ephemeral ts)
      have hstep : loop_step env s (.wake now idx ephemeral ts)
          = on_wake env s now idx ephemeral ts := if_neg (by simp [hdone])
      rw [hstep]
      exact (congrArg List.length hbuf).trans h
    | tun data =>
      have hbuf := congrArg LoopState.udp_buf (on_tun_buffer s s.udp_buf data)
      have hstep : loop_step env s (.tun data) = on_tun s data := if_neg (by simp [hdone])
      rw [hstep]
      exact (congrArg List.length hbuf).trans h
    | udp src data =>
      have hstep : loop_step env s (.udp src data) = on_udp env s src data :=
        if_neg (by simp [hdone])
      rw [hstep]
      exact on_udp_buffer_length src data h
  · have hstep : loop_step env s e = s := by cases e <;> simp [loop_step, hdone]
    rw [hstep]
    exact h

theorem runs_isolated (env : TunnelEnv) : ∀ (es : List LoopEvent) {s s' : LoopState},
    s.udp_buf.length = 2048 → s'.udp_buf.length = 2048 → s.with_buffer [] = s'.with_buffer [] →
    Run.AllSteps (loop_step env) (Whole env) s es →
    (run_tunnel_loop env s es).with_buffer [] = (run_tunnel_loop env s' es).with_buffer []
  | [], _, _, _, _, heq, _ => heq
  | e :: es, _, _, hlen, hlen', heq, hok =>
    runs_isolated env es (loop_step_buffer_length e hlen) (loop_step_buffer_length e hlen')
      (loop_step_buffers hok.1 hlen hlen' heq) hok.2

/-- Exactly the short responses depend on the buffer, and two runs without them that differ in the
buffer only do the same. -/
theorem isolated_iff (env : TunnelEnv) :
    (∀ (s : LoopState) (src : SockAddr) (data : Bytes),
        Isolated env s src data ↔ ¬ Completable env s src data)
      ∧ ∀ (es : List LoopEvent) (s s' : LoopState), s.udp_buf.length = 2048 →
        s'.udp_buf.length = 2048 → s.with_buffer [] = s'.with_buffer [] →
        Run.AllSteps (loop_step env) (Whole env) s es →
        (run_tunnel_loop env s es).with_buffer [] = (run_tunnel_loop env s' es).with_buffer [] :=
  ⟨fun _ _ _ => ⟨fun hisolated hc => not_isolated_of_completable hc hisolated,
      isolated_of_not_completable⟩,
    fun es _ _ => runs_isolated env es⟩

/-- A datagram of no known type, in the buffer of a replay and in one of zeros. -/
theorem isolated_iff_junk :
    replayed_tunnel.udp_buf.length = 2048
      ∧ Run.AllSteps (loop_step sample_env) (Whole sample_env) replayed_tunnel [.udp ⟨0, 0⟩ [9]]
      ∧ (run_tunnel_loop sample_env replayed_tunnel [.udp ⟨0, 0⟩ [9]]).with_buffer []
        = (run_tunnel_loop sample_env (replayed_tunnel.with_buffer (List.replicate 2048 0))
          [.udp ⟨0, 0⟩ [9]]).with_buffer [] := by
  have hlen := replayed_tunnel_state.2.1
  have hwhole : Run.AllSteps (loop_step sample_env) (Whole sample_env) replayed_tunnel
      [.udp ⟨0, 0⟩ [9]] := ⟨fun hc => absurd hc.1 (by decide), trivial⟩
  exact ⟨hlen, hwhole, (isolated_iff sample_env).2 _ _ _ hlen List.length_replicate
    (with_buffer_with_buffer _ _).symm hwhole⟩

/-- The byte that rotates the keys after a replay does not in another buffer. -/
theorem one_byte_not_isolated :
    ¬ Isolated sample_env replayed_tunnel sample_env.dst [2] := by
  obtain ⟨-, hlen, hvalid⟩ := replayed_tunnel_state
  exact not_isolated_of_completable
    ⟨rfl, rfl, rfl, by decide, replayed_tunnel.udp_buf, hlen, hvalid⟩

end Isolation

end Onegram
