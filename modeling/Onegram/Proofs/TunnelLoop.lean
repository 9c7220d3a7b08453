import Mathlib.Logic.Relation
import Onegram.TunnelLoop
import Onegram.Proofs.WireGuard

/-!
# Nonces of the tunnel

Packets are numbered by a counter that a rotation sets back to 0, so what keeps a pair of key and
counter from coming back is that a rotation brings a key that was never in use. The loop's part
in that is to accept no response twice for one initiation. It does not play it: a replayed
response is accepted again and brings back the key in use with its counter at 0
(`nonces_replayed`). In a run in which no such response is accepted the pairs are distinct
(`nonces_nodup`).
-/

namespace Onegram

/-! ## The trace -/

/-- Key and counter of an encrypted packet. -/
def Output.pair : Output → Option (Key × UInt64)
  | .packet k c _ => some (k, c)
  | _ => none

/-- The two ephemeral keys of a rotation, and the key it installed. -/
def Output.rotation : Output → Option ((Key × Key) × Key)
  | .rotated e er k => some ((e, er), k)
  | _ => none

/-- The pairs of the calls of `nw_wg_transport_encrypt`, in order. -/
def nonces (out : List Output) : List (Key × UInt64) := out.filterMap Output.pair

/-- The rotations, in order. -/
def rotations (out : List Output) : List ((Key × Key) × Key) := out.filterMap Output.rotation

@[simp] theorem nonces_append (l₁ l₂ : List Output) :
    nonces (l₁ ++ l₂) = nonces l₁ ++ nonces l₂ := List.filterMap_append

@[simp] theorem rotations_append (l₁ l₂ : List Output) :
    rotations (l₁ ++ l₂) = rotations l₁ ++ rotations l₂ := List.filterMap_append

/-! ## A counter under changing keys -/

/-- What the nonces depend on. -/
structure Numbering where
  send_key : Key
  send_counter : UInt64
  out : List Output

/-- One change of the numbering; `first` is the rotation that installed the first key. -/
inductive Move (first : (Key × Key) × Key) : Numbering → Numbering → Prop
  | send (v : Numbering) (d : Bytes) :
    Move first v ⟨v.send_key, v.send_counter + 1, v.out ++ [.packet v.send_key v.send_counter d]⟩
  | rotate (v : Numbering) (e er k : Key) :
    (∀ r ∈ first :: rotations v.out, r.1 ≠ (e, er)) →
    Move first v ⟨k, 0, v.out ++ [.rotated e er k]⟩
  | other (v : Numbering) (o : Output) : o.pair = none → o.rotation = none →
    Move first v ⟨v.send_key, v.send_counter, v.out ++ [o]⟩

/-- What is assumed of a run: the keys derived from different pairs of ephemeral keys are
different, and no more packets are encrypted than the counter has values. -/
structure Unbroken (first : (Key × Key) × Key) (out : List Output) : Prop where
  no_collision : ∀ r₁ ∈ first :: rotations out, ∀ r₂ ∈ first :: rotations out,
    r₁.1 ≠ r₂.1 → r₁.2 ≠ r₂.2
  bounded : (nonces out).length ≤ 2 ^ 64

/-- The pairs so far are distinct, those under the key in use lie below the counter, and every
key that was in use came from a rotation. -/
structure NumberingInv (first : (Key × Key) × Key) (v : Numbering) : Prop where
  nodup : (nonces v.out).Nodup
  below : ∀ p ∈ nonces v.out, p.1 = v.send_key →
    ∃ i : ℕ, 0 < i ∧ i ≤ (nonces v.out).length ∧ p.2 + UInt64.ofNat i = v.send_counter
  keys : ∀ p ∈ nonces v.out, ∃ r ∈ first :: rotations v.out, r.2 = p.1
  current : ∃ r ∈ first :: rotations v.out, r.2 = v.send_key

section Numbering

variable {first : (Key × Key) × Key} {v v' : Numbering}

theorem Unbroken.of_append {l₁ l₂ : List Output} (h : Unbroken first (l₁ ++ l₂)) :
    Unbroken first l₁ := by
  obtain ⟨hc, hb⟩ := h
  have hsub : ∀ r ∈ first :: rotations l₁, r ∈ first :: rotations (l₁ ++ l₂) := by
    intro r hr
    rw [rotations_append]
    rcases List.mem_cons.mp hr with rfl | hr
    · exact List.mem_cons_self
    · exact List.mem_cons_of_mem _ (List.mem_append_left _ hr)
  refine ⟨fun r₁ h₁ r₂ h₂ => hc r₁ (hsub r₁ h₁) r₂ (hsub r₂ h₂), ?_⟩
  rw [nonces_append, List.length_append] at hb
  omega

theorem Move.append (h : Move first v v') : ∃ l, v'.out = v.out ++ l := by
  cases h <;> exact ⟨_, rfl⟩

/-- A counter that has advanced less than its range is not where it was. -/
theorem counter_ne {c : UInt64} {i : ℕ} (h₀ : 0 < i) (h : i < 2 ^ 64) :
    c + UInt64.ofNat i ≠ c := by
  intro he
  have hz : UInt64.ofNat i = 0 := by
    have := congrArg (· - c) he
    simpa [UInt64.add_comm c, UInt64.add_sub_cancel] using this
  have hn := congrArg UInt64.toNat hz
  rw [UInt64.toNat_ofNat_of_lt' h] at hn
  simp at hn
  omega

theorem NumberingInv.send (hv : NumberingInv first v) (d : Bytes)
    (hb : (nonces v.out).length < 2 ^ 64) :
    NumberingInv first
      ⟨v.send_key, v.send_counter + 1, v.out ++ [.packet v.send_key v.send_counter d]⟩ := by
  have hn : nonces (v.out ++ [.packet v.send_key v.send_counter d])
      = nonces v.out ++ [(v.send_key, v.send_counter)] := by simp [nonces, Output.pair]
  have hr : rotations (v.out ++ [.packet v.send_key v.send_counter d]) = rotations v.out := by
    simp [rotations, Output.rotation]
  obtain ⟨hnodup, hbelow, hkeys, hcurrent⟩ := hv
  refine ⟨?_, ?_, ?_, ?_⟩
  · rw [hn, List.nodup_append]
    refine ⟨hnodup, List.nodup_singleton _, ?_⟩
    rintro p hp q hq rfl
    rw [List.mem_singleton] at hq
    subst hq
    obtain ⟨i, hi₀, hi, hc⟩ := hbelow _ hp rfl
    exact counter_ne hi₀ (by omega) hc
  · intro p hp hk
    rw [hn] at hp
    simp only [hn, List.length_append, List.length_singleton]
    rcases List.mem_append.mp hp with hp | hp
    · obtain ⟨i, hi₀, hi, hc⟩ := hbelow p hp hk
      refine ⟨i + 1, by omega, by omega, ?_⟩
      rw [UInt64.ofNat_add, ← UInt64.add_assoc, hc]
      rfl
    · rw [List.mem_singleton] at hp
      subst hp
      exact ⟨1, by omega, by omega, rfl⟩
  · intro p hp
    rw [hr]
    rw [hn] at hp
    rcases List.mem_append.mp hp with hp | hp
    · exact hkeys p hp
    · rw [List.mem_singleton] at hp
      subst hp
      exact hcurrent
  · rw [hr]
    exact hcurrent

theorem NumberingInv.rotate (hv : NumberingInv first v) {e er k : Key}
    (hfresh : ∀ r ∈ first :: rotations v.out, r.1 ≠ (e, er))
    (hu : Unbroken first (v.out ++ [.rotated e er k])) :
    NumberingInv first ⟨k, 0, v.out ++ [.rotated e er k]⟩ := by
  have hn : nonces (v.out ++ [.rotated e er k]) = nonces v.out := by simp [nonces, Output.pair]
  have hr : rotations (v.out ++ [.rotated e er k]) = rotations v.out ++ [((e, er), k)] := by
    simp [rotations, Output.rotation]
  have hmem : ∀ r ∈ first :: rotations v.out,
      r ∈ first :: rotations (v.out ++ [.rotated e er k]) := by
    intro r hr'
    rw [hr]
    rcases List.mem_cons.mp hr' with rfl | hr'
    · exact List.mem_cons_self
    · exact List.mem_cons_of_mem _ (List.mem_append_left _ hr')
  have hnew : ((e, er), k) ∈ first :: rotations (v.out ++ [.rotated e er k]) := by
    rw [hr]
    simp
  obtain ⟨hnodup, hbelow, hkeys, hcurrent⟩ := hv
  refine ⟨by rwa [hn], ?_, ?_, ⟨_, hnew, rfl⟩⟩
  · intro p hp hk
    rw [hn] at hp
    obtain ⟨r, hr', hrk⟩ := hkeys p hp
    exact absurd (hrk.trans hk) (hu.no_collision r (hmem r hr') _ hnew (hfresh r hr'))
  · intro p hp
    rw [hn] at hp
    obtain ⟨r, hr', hrk⟩ := hkeys p hp
    exact ⟨r, hmem r hr', hrk⟩

theorem NumberingInv.other (hv : NumberingInv first v) {o : Output} (hp : o.pair = none)
    (hr : o.rotation = none) :
    NumberingInv first ⟨v.send_key, v.send_counter, v.out ++ [o]⟩ := by
  have hn : nonces (v.out ++ [o]) = nonces v.out := by simp [nonces, hp]
  have hr : rotations (v.out ++ [o]) = rotations v.out := by simp [rotations, hr]
  obtain ⟨hnodup, hbelow, hkeys, hcurrent⟩ := hv
  exact ⟨by rwa [hn], by simpa only [hn] using hbelow, by simpa only [hn, hr] using hkeys,
    by simpa only [hr] using hcurrent⟩

theorem NumberingInv.move (hv : NumberingInv first v) (hm : Move first v v')
    (hu : Unbroken first v'.out) : NumberingInv first v' := by
  cases hm with
  | send d =>
    refine hv.send d ?_
    have hb := hu.bounded
    simp [nonces, Output.pair] at hb ⊢
    omega
  | rotate e er k hfresh => exact hv.rotate hfresh hu
  | other o hp hr => exact hv.other hp hr

/-- Over any number of moves, as long as the assumptions hold of what they leave. -/
theorem NumberingInv.moves (hv : NumberingInv first v)
    (hm : Relation.ReflTransGen (Move first) v v') (hu : Unbroken first v'.out) :
    NumberingInv first v' := by
  induction hm with
  | refl => exact hv
  | tail _ hlast ih =>
    obtain ⟨l, hl⟩ := hlast.append
    exact (ih (hl ▸ hu).of_append).move hlast hu

end Numbering

/-! ## The loop moves the numbering -/

section Loop

def numbering (s : LoopState) : Numbering := ⟨s.t.send_key, s.t.send_counter, s.out⟩

/-- The datagram is a handshake response from the peer that the loop accepts. -/
def AcceptsResponse (env : TunnelEnv) (s : LoopState) (src : SockAddr) (data : Bytes) : Prop :=
  (data.take 2048).length ≠ 0 ∧ (received s data).udp_buf.getD 0 0 = 2
    ∧ src.s_addr = env.dst.s_addr ∧ src.sin_port = env.dst.sin_port
    ∧ response_rc (received s data) = 0

/-- No response is accepted that carries an ephemeral key already accepted for the initiation in
force. -/
def Unrepeated (env : TunnelEnv) (first : (Key × Key) × Key) (s : LoopState) :
    LoopEvent → Prop
  | .udp src data => AcceptsResponse env s src data →
      ∀ r ∈ first :: rotations s.out,
        r.1 ≠ (s.hs.ephemeral_private, Bytes.slice (received s data).udp_buf 12 32)
  | _ => True

variable {env : TunnelEnv} {first : (Key × Key) × Key} {s : LoopState}

theorem send_packet_move (plain : Bytes) :
    Move first (numbering s) (numbering (send_packet s plain)) :=
  Move.send (numbering s) (nw_wg_transport_encrypt s.t plain).2

theorem keepalive_check_moves :
    Relation.ReflTransGen (Move first) (numbering s) (numbering (keepalive_check env s)) := by
  unfold keepalive_check
  dsimp only
  split_ifs
  · exact .single (send_packet_move [])
  · exact .refl
  · exact .single (send_packet_move [])
  · exact .refl

@[simp] theorem numbering_stall_check (s : LoopState) :
    numbering (stall_check s) = numbering s := by
  unfold stall_check
  split_ifs <;> rfl

theorem rekey_check_moves (idx : UInt32) (ephemeral : Key) (ts : Vector UInt8 12) :
    Relation.ReflTransGen (Move first) (numbering s)
      (numbering (rekey_check s idx ephemeral ts)) := by
  unfold rekey_check
  split_ifs
  · exact .refl
  · exact .single (Move.other (numbering s) _ rfl rfl)
  · exact .refl
  · exact .refl

theorem on_wake_moves (now : Int) (idx : UInt32) (ephemeral : Key) (ts : Vector UInt8 12) :
    Relation.ReflTransGen (Move first) (numbering s)
      (numbering (on_wake env s now idx ephemeral ts)) := by
  have hka : Relation.ReflTransGen (Move first) (numbering s)
      (numbering (stall_check (keepalive_check env { s with now := now }))) := by
    rw [numbering_stall_check]
    exact keepalive_check_moves (s := { s with now := now })
  unfold on_wake
  dsimp only
  split_ifs
  · exact hka
  · exact hka.trans (rekey_check_moves idx ephemeral ts)

theorem on_tun_moves (data : Bytes) :
    Relation.ReflTransGen (Move first) (numbering s) (numbering (on_tun s data)) := by
  unfold on_tun
  dsimp only
  split_ifs
  · exact .refl
  · exact .single (send_packet_move (s := { s with c_tun_in := s.c_tun_in + 1 }) _)
  · exact .single (send_packet_move (s := { s with c_tun_in := s.c_tun_in + 1 }) _)
  · exact .refl

theorem on_data_moves (n : ℕ) :
    Relation.ReflTransGen (Move first) (numbering s) (numbering (on_data s n)) := by
  obtain ⟨r, hr⟩ : ∃ r, nw_wg_transport_decrypt s.t s.udp_buf n = r := ⟨_, rfl⟩
  unfold on_data
  rw [hr]
  cases r with
  | error rc => exact .refl
  | ok plain =>
    dsimp only
    split_ifs
    · exact .single (Move.other (numbering s) _ rfl rfl)
    · exact .refl

theorem on_response_moves (src : SockAddr)
    (h : src.s_addr = env.dst.s_addr → src.sin_port = env.dst.sin_port → response_rc s = 0 →
      ∀ r ∈ first :: rotations s.out,
        r.1 ≠ (s.hs.ephemeral_private, Bytes.slice s.udp_buf 12 32)) :
    Relation.ReflTransGen (Move first) (numbering s) (numbering (on_response env s src)) := by
  have hcases := nw_wg_consume_response_cases s.hs s.udp_buf s.t
  unfold on_response
  split_ifs with hsrc hrc
  · exact .refl
  · rw [not_or, not_not, not_not] at hsrc
    rcases hcases with ⟨hne, -⟩ | ⟨-, -, hcounter⟩
    · exact absurd hrc hne
    · have hmove := Move.rotate (numbering s) s.hs.ephemeral_private
        (Bytes.slice s.udp_buf 12 32) (nw_wg_consume_response s.hs s.udp_buf s.t).2.2.send_key
        (h hsrc.1 hsrc.2 hrc)
      rw [← hcounter] at hmove
      exact .single hmove
  · exact .refl

theorem on_udp_moves (src : SockAddr) (data : Bytes)
    (h : Unrepeated env first s (.udp src data)) :
    Relation.ReflTransGen (Move first) (numbering s) (numbering (on_udp env s src data)) := by
  unfold on_udp
  dsimp only
  split_ifs with hn htype htype'
  · exact .refl
  · exact on_data_moves (s := received s data) _
  · exact on_response_moves (s := received s data) src
      fun ha hp hrc => h ⟨hn, htype', ha, hp, hrc⟩
  · exact .refl

/-- What an event does to the numbering. -/
theorem loop_step_moves (e : LoopEvent) (h : Unrepeated env first s e) :
    Relation.ReflTransGen (Move first) (numbering s) (numbering (loop_step env s e)) := by
  cases e with
  | wake now idx ephemeral ts =>
    simp only [loop_step]
    split_ifs
    · exact .refl
    · exact on_wake_moves now idx ephemeral ts
  | tun data =>
    simp only [loop_step]
    split_ifs
    · exact .refl
    · exact on_tun_moves data
  | udp src data =>
    simp only [loop_step]
    split_ifs
    · exact .refl
    · exact on_udp_moves src data h

theorem run_tunnel_loop_moves {es : List LoopEvent}
    (h : Run.AllSteps (loop_step env) (Unrepeated env first) s es) :
    Relation.ReflTransGen (Move first) (numbering s) (numbering (run_tunnel_loop env s es)) := by
  let Moved (s' : LoopState) := Relation.ReflTransGen (Move first) (numbering s) (numbering s')
  have hstep : ∀ s' e, Moved s' → Unrepeated env first s' e → Moved (loop_step env s' e) :=
    fun _ e hs' he => hs'.trans (loop_step_moves e he)
  have hstart : Moved s := .refl
  exact Run.invariant hstep es hstart h

@[simp] theorem nonces_send_packet (s : LoopState) (plain : Bytes) :
    nonces (send_packet s plain).out
      = nonces s.out ++ [(s.t.send_key, s.t.send_counter)] := by
  simp [send_packet, nonces, Output.pair]

/-- An IPv6 packet of one byte, as the tun device delivers it. -/
def tun_read : Bytes := [0, 0, 0, 30, 0x60]

theorem loop_step_tun_read (env : TunnelEnv) (h : s.exit = none) :
    loop_step env s (.tun tun_read)
      = send_packet { s with c_tun_in := s.c_tun_in + 1 } [0x60] := by
  simp [loop_step, h, on_tun, tun_read, be16, AF_INET, AF_INET6]

/-- No pair of key and counter encrypts two packets in a run in which no response is accepted
again for the initiation it answered. `er` is the ephemeral key of the response that was accepted
before the loop began. -/
theorem nonces_nodup (env : TunnelEnv) (hs : NwHandshake) (t : NwTransport) (udp_buf : Bytes)
    (now : Int) (er : Key) (es : List LoopEvent)
    (hfresh : Run.AllSteps (loop_step env)
      (Unrepeated env ((hs.ephemeral_private, er), t.send_key)) (loop_start hs t udp_buf now) es)
    (hunbroken : Unbroken ((hs.ephemeral_private, er), t.send_key)
      (run_tunnel_loop env (loop_start hs t udp_buf now) es).out) :
    (nonces (run_tunnel_loop env (loop_start hs t udp_buf now) es).out).Nodup := by
  have hstart : NumberingInv ((hs.ephemeral_private, er), t.send_key)
      (numbering (loop_start hs t udp_buf now)) :=
    ⟨List.nodup_nil, by simp [numbering, loop_start, nonces],
      by simp [numbering, loop_start, nonces], ⟨_, List.mem_cons_self, rfl⟩⟩
  exact (hstart.moves (run_tunnel_loop_moves hfresh) hunbroken).nodup

/-- A run of two packets and a datagram that is no message. -/
theorem nonces_nodup_two_packets :
    let k : Key := Bytes.zeros 32
    let t : NwTransport := ⟨k, k, 0, 0, 0, 0, Bytes.zeros 3⟩
    let s := loop_start (nw_handshake_init k (some k) none) t [] 0
    let es : List LoopEvent := [.tun tun_read, .udp ⟨0, 0⟩ [9], .tun tun_read]
    (nonces (run_tunnel_loop ⟨⟨0, 0⟩, 25⟩ s es).out).Nodup
      ∧ (nonces (run_tunnel_loop ⟨⟨0, 0⟩, 25⟩ s es).out).length = 2 := by
  intro k t s es
  let env : TunnelEnv := ⟨⟨0, 0⟩, 25⟩
  let s₁ := send_packet { s with c_tun_in := s.c_tun_in + 1 } [0x60]
  have htun : loop_step env s (.tun tun_read) = s₁ := loop_step_tun_read env rfl
  have hudp : loop_step env s₁ (.udp ⟨0, 0⟩ [9]) = received s₁ [9] := rfl
  have hout : (run_tunnel_loop env s es).out = (send_packet { received s₁ [9] with
      c_tun_in := s₁.c_tun_in + 1 } [0x60]).out := by
    simp only [run_tunnel_loop, es, Run.run_cons, Run.run_nil, htun, hudp]
    rw [loop_step_tun_read env rfl]
    rfl
  have hlen : (nonces (run_tunnel_loop env s es).out).length = 2 := by
    rw [hout]
    rfl
  have hrot : rotations (run_tunnel_loop env s es).out = [] := by
    rw [hout]
    rfl
  refine ⟨nonces_nodup env _ t [] 0 k es ⟨trivial, ?_, trivial, trivial⟩ ⟨?_, ?_⟩, hlen⟩
  · rintro ⟨-, htype, -⟩
    rw [htun] at htype
    exact absurd htype (by decide)
  · intro r₁ h₁ r₂ h₂ hne
    rw [hrot, List.mem_singleton] at h₁ h₂
    exact absurd (h₁.trans h₂.symm ▸ rfl) hne
  · rw [hlen]
    decide

/-! ## A replayed response -/

/-- The response to the initiation in force is accepted, whatever the buffer held, and numbers the
packets from 0. -/
theorem on_udp_answer (env : TunnelEnv) {B : NwHandshake} {ephemeralB : Key} (indexB : UInt32)
    (hAB : Matched s.hs B) (hee : X25519Commutes ephemeralB s.hs.ephemeral_private)
    (hse : X25519Commutes ephemeralB s.hs.static_private) :
    on_udp env s env.dst (nw_wg_create_response B indexB ephemeralB).2.1
      = { received s (nw_wg_create_response B indexB ephemeralB).2.1 with
          hs := { s.hs with remote_index := indexB }
          t := {
            send_key := (nw_wg_create_response B indexB ephemeralB).2.2.recv_key
            recv_key := (nw_wg_create_response B indexB ephemeralB).2.2.send_key
            send_counter := 0
            recv_counter := 0
            local_index := s.hs.local_index
            remote_index := indexB
            reserved := s.hs.reserved }
          key_derived_time := s.now
          rekey_in_progress := false
          rekey_attempts := 0
          out := s.out ++ [.rotated s.hs.ephemeral_private
            (Bytes.slice (received s (nw_wg_create_response B indexB ephemeralB).2.1).udp_buf 12 32)
            (nw_wg_create_response B indexB ephemeralB).2.2.recv_key] } := by
  have hlen := length_nw_wg_create_response indexB B ephemeralB
  have htype := nw_wg_create_response_type indexB (s.udp_buf.drop NW_WG_RESP_SIZE) B ephemeralB
  have haccept :=
    response_accepted indexB s.t (s.udp_buf.drop NW_WG_RESP_SIZE) hAB hee hse
  obtain ⟨resp, hresp⟩ : ∃ r, (nw_wg_create_response B indexB ephemeralB).2.1 = r := ⟨_, rfl⟩
  rw [hresp] at hlen htype haccept ⊢
  have htake : resp.take 2048 = resp := List.take_of_length_le (by rw [hlen]; decide)
  have hbuf : (received s resp).udp_buf = resp ++ s.udp_buf.drop NW_WG_RESP_SIZE := by
    simp only [received, recv_into, htake, hlen]
  rw [← hbuf] at htype haccept
  have hrc : response_rc (received s resp) = 0 := congrArg Prod.fst haccept
  unfold on_udp
  dsimp only
  rw [htake, if_neg (by rw [hlen]; decide), if_neg (by rw [htype]; decide), if_pos htype]
  unfold on_response
  rw [if_neg (by simp), if_pos hrc]
  have hhs : (received s resp).hs = s.hs := rfl
  have ht : (received s resp).t = s.t := rfl
  simp only [hhs, ht, haccept]
  rfl

/-- A wake-up in the second of the last packet, the last key and the last progress sends
nothing. -/
theorem on_wake_quiet (env : TunnelEnv) (idx : UInt32) (ephemeral : Key) (ts : Vector UInt8 12)
    (hexit : s.exit = none) (hka : s.last_ka = s.now) (hkey : s.key_derived_time = s.now)
    (hprogress : s.last_progress = s.now) :
    loop_step env s (.wake s.now idx ephemeral ts) = stall_check s
      ∧ (stall_check s).exit = none := by
  have hkeepalive : keepalive_check env s = s := by
    unfold keepalive_check
    dsimp only
    rw [hka, Int.sub_self, if_neg (by split_ifs <;> omega)]
  have hstall : (stall_check s).exit = none
      ∧ (stall_check s).now - (stall_check s).key_derived_time < 110 := by
    unfold stall_check
    rw [hprogress, Int.sub_self]
    split_ifs with h₁ h₂
    · exact ⟨hexit, by simp [hkey]⟩
    · exact absurd h₂.2 (by decide)
    · exact ⟨hexit, by simp [hkey]⟩
  refine ⟨?_, hstall.1⟩
  simp only [loop_step, hexit, Option.isSome_none, Bool.false_eq_true, ↓reduceIte]
  unfold on_wake
  dsimp only
  rw [hkeepalive, hstall.1, if_neg (by simp)]
  unfold rekey_check
  rw [if_neg (by omega)]

/-- From any established tunnel: a packet, the response once more, a packet. The first wake-up
finds nothing to do, the second notes the datagram. -/
theorem replay_repeats (env : TunnelEnv) {hs B : NwHandshake} {ephemeralB : Key}
    (t : NwTransport) (indexB idx : UInt32) (ts : Vector UInt8 12) (udp_buf : Bytes) (now : Int)
    (e : Key) (hAB : Matched hs B) (hee : X25519Commutes ephemeralB hs.ephemeral_private)
    (hse : X25519Commutes ephemeralB hs.static_private) :
    nonces (run_tunnel_loop env (loop_start hs t udp_buf now)
        [.wake now idx e ts, .tun tun_read,
          .udp env.dst (nw_wg_create_response B indexB ephemeralB).2.1,
          .wake now idx e ts, .tun tun_read]).out
      = [(t.send_key, t.send_counter),
          ((nw_wg_create_response B indexB ephemeralB).2.2.recv_key, 0)] := by
  let s₀ := loop_start hs t udp_buf now
  let s₁ := send_packet { s₀ with c_tun_in := s₀.c_tun_in + 1 } [0x60]
  have hwake₀ : loop_step env s₀ (.wake now idx e ts) = s₀ :=
    (on_wake_quiet (s := s₀) env idx e ts rfl rfl rfl rfl).1
  have htun₀ : loop_step env s₀ (.tun tun_read) = s₁ := loop_step_tun_read env rfl
  have hudp₁ := on_udp_answer (s := s₁) env indexB hAB hee hse
  obtain ⟨s₂, hs₂⟩ : ∃ s,
    on_udp env s₁ env.dst (nw_wg_create_response B indexB ephemeralB).2.1 = s := ⟨_, rfl⟩
  have hnow : s₂.now = now := by rw [← hs₂, hudp₁]; rfl
  have hwake₂ := on_wake_quiet (s := s₂) env idx e ts (by rw [← hs₂, hudp₁]; rfl)
    (by rw [← hs₂, hudp₁]; rfl) (by rw [← hs₂, hudp₁]; rfl) (by rw [← hs₂, hudp₁]; rfl)
  rw [hnow] at hwake₂
  have hkey : s₂.t.send_key = (nw_wg_create_response B indexB ephemeralB).2.2.recv_key := by
    rw [← hs₂, hudp₁]
  have hcounter : s₂.t.send_counter = 0 := by rw [← hs₂, hudp₁]
  have hout : nonces s₂.out = [(t.send_key, t.send_counter)] := by
    rw [← hs₂, hudp₁]
    simp [s₁, s₀, nonces, Output.pair, send_packet, loop_start]
  have hstall : (stall_check s₂).t = s₂.t ∧ (stall_check s₂).out = s₂.out := by
    unfold stall_check
    split_ifs <;> exact ⟨rfl, rfl⟩
  have hudp : loop_step env s₁
      (.udp env.dst (nw_wg_create_response B indexB ephemeralB).2.1) = s₂ := hs₂
  rw [run_tunnel_loop, Run.run_cons, Run.run_cons, Run.run_cons, Run.run_cons, Run.run_cons,
    Run.run_nil]
  change nonces (loop_step env (loop_step env (loop_step env (loop_step env (loop_step env s₀ _)
    _) _) _) _).out = _
  rw [hwake₀, htun₀, hudp, hwake₂.1, loop_step_tun_read env hwake₂.2, nonces_send_packet]
  simp only [hstall, hout, hkey, hcounter, List.singleton_append]

/-- The network delivers the response of the first handshake a second time, after a packet was
sent: the next packet has the key and the counter of the first. -/
theorem nonces_replayed :
    let k : Key := Bytes.zeros 32
    let ts : Vector UInt8 12 := Bytes.zeros 12
    let run := handshake_run (nw_handshake_init k (some (nw_x25519_base k)) none)
      (nw_handshake_init k none none) ⟨k, k, 0, 0, 0, 0, Bytes.zeros 3⟩ 1 2 k k ts
    let env : TunnelEnv := ⟨⟨0x0100007f, 2408⟩, 25⟩
    ¬ (nonces (run_tunnel_loop env (loop_start run.initiator run.tA (List.replicate 2048 0) 0)
      [.wake 0 3 k ts, .tun tun_read, .udp env.dst run.resp, .wake 0 3 k ts,
        .tun tun_read]).out).Nodup := by
  intro k ts run env
  have hpaired := paired_init k k none none
  have hk : X25519Commutes k k := rfl
  obtain ⟨hmatch, hee, hse⟩ := handshake_run_matched ⟨k, k, 0, 0, 0, 0, Bytes.zeros 3⟩ 1 2 ts
    hpaired hk hk hk hk
  obtain ⟨-, -, htA⟩ := handshake_run_eq ⟨k, k, 0, 0, 0, 0, Bytes.zeros 3⟩ 1 2 ts
    hpaired hk hk hk hk
  have hrepeat := replay_repeats env run.tA 2 3 ts (List.replicate 2048 0) 0 k hmatch hee hse
  have hcounter : run.tA.send_counter = 0 := by simp only [run, htA]
  have hkey : run.tA.send_key = run.tB.recv_key := by simp only [run, htA]
  intro hnodup
  have hpair : [(run.tA.send_key, run.tA.send_counter), (run.tB.recv_key, 0)].Nodup :=
    (congrArg List.Nodup hrepeat).mp hnodup
  rw [hcounter, hkey] at hpair
  simp at hpair

end Loop

end Onegram
