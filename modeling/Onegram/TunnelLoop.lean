import Onegram.Lib.Run
import Onegram.WireGuard

/-!
# The tunnel loop

`run_tunnel_loop` of `nekrowarp.m`. One turn of its `while` is a wake-up (keepalive, stall check,
rekey), then the reads from the tun device until it is empty, then the datagrams until the socket
is empty. Each of these is an event here, and a run is a list of events; `now` is the time of the
last wake-up, which the datagrams after it still see. The clock and the random bytes of an
initiation are arguments of the wake-up. Debug counters, the route guard, junk packets and the
result of `sendto` change nothing else the loop reads, and are left out.
-/

namespace Onegram

def NW_EXIT_STALLED : Int := 3
def NW_EXIT_REKEY_FAILED : Int := 4
def kRekeyMaxAttempts : ℕ := 6
def kStallSeconds : Int := 40

def AF_INET : ℕ := 2
def AF_INET6 : ℕ := 30

/-! ## MSS clamping -/

/-- The big-endian word at `i`. -/
def be16 (b : Bytes) (i : ℕ) : ℕ := (b.getD i 0).toNat * 256 + (b.getD (i + 1) 0).toNat

/-- The walk over the TCP options from `opt` to `optEnd`: the offset of the value of a maximum
segment size over 1200, if the walk meets that option. -/
def find_mss (b : Bytes) (opt optEnd : ℕ) : Option ℕ :=
  if optEnd ≤ opt then none else
  let kind := b.getD opt 0
  if kind = 0 then none else
  if kind = 1 then find_mss b (opt + 1) optEnd else
  if optEnd ≤ opt + 1 then none else
  let len := (b.getD (opt + 1) 0).toNat
  if len < 2 ∨ optEnd < opt + len then none else
  if kind = 2 ∧ len = 4 then (if 1200 < be16 b (opt + 2) then some (opt + 2) else none) else
  find_mss b (opt + len) optEnd
termination_by optEnd - opt
decreasing_by
  · omega
  · have hlen : len = (b.getD (opt + 1) 0).toNat := rfl
    simp only [List.getD_eq_getElem?_getD] at hlen
    omega

/-- `while (sum >> 16) sum = (sum & 0xffff) + (sum >> 16)`. -/
def fold_sum (sum : ℕ) : ℕ :=
  if sum < 65536 then sum else fold_sum (sum % 65536 + sum / 65536)
termination_by sum

/-- The sum of `count` bytes from `i` on as big-endian words, the last one padded with a zero. -/
def sum_words (b : Bytes) : ℕ → ℕ → ℕ
  | _, 0 => 0
  | i, 1 => (b.getD i 0).toNat * 256
  | i, count + 2 => be16 b i + sum_words b (i + 2) count

def clamp_tcp_mss (b : Bytes) : Bytes :=
  let ip_len := b.length
  if ip_len < 20 then b else
  if (b.getD 0 0) >>> 4 ≠ 4 then b else
  let ip_hlen := ((b.getD 0 0) &&& 0x0F).toNat * 4
  if ip_len < ip_hlen then b else
  if b.getD 9 0 ≠ 6 then b else
  let tcp_len := ip_len - ip_hlen
  if tcp_len < 20 then b else
  if (b.getD (ip_hlen + 13) 0) &&& 0x02 = 0 then b else
  let tcp_hlen := (((b.getD (ip_hlen + 12) 0) >>> 4) &&& 0x0F).toNat * 4
  if tcp_len < tcp_hlen then b else
  match find_mss b (ip_hlen + 20) (ip_hlen + tcp_hlen) with
  | none => b
  | some i =>
    let b := (b.set i 4).set (i + 1) 176
    let b := (b.set (ip_hlen + 16) 0).set (ip_hlen + 17) 0
    -- The pseudo header: both addresses, the protocol and the length.
    let pseudo := sum_words b 12 8 + 6 + tcp_len % 65536
    let final_sum := 65535 - fold_sum (pseudo + sum_words b ip_hlen tcp_len)
    (b.set (ip_hlen + 16) (final_sum / 256).toUInt8).set (ip_hlen + 17) (final_sum % 256).toUInt8

/-! ## State and events -/

structure SockAddr where
  s_addr : UInt32
  sin_port : UInt16
  deriving DecidableEq

/-- What the loop does to the outside, and when it rotates keys. -/
inductive Output
  /-- A packet encrypted under a key and a counter, and sent. -/
  | packet (send_key : Key) (counter : UInt64) (data : Bytes)
  | initiation (ephemeral : Key) (msg : Bytes)
  /-- A response with the ephemeral key `er` was accepted for the initiation of `ephemeral`. -/
  | rotated (ephemeral er send_key : Key)
  | tun (data : Bytes)

/-- The arguments of `run_tunnel_loop` that it only reads. -/
structure TunnelEnv where
  dst : SockAddr
  keepalive : Int

structure LoopState where
  hs : NwHandshake
  t : NwTransport
  /-- The receive buffer, never cleared. -/
  udp_buf : Bytes
  now : Int
  last_ka : Int
  key_derived_time : Int
  rekey_in_progress : Bool
  rekey_sent_time : Int
  rekey_attempts : ℕ
  last_progress : Int
  udp_in_at_progress : ℕ
  tun_in_at_progress : ℕ
  c_tun_in : ℕ
  c_udp_in : ℕ
  exit : Option Int
  out : List Output

inductive LoopEvent
  /-- `select` returns at `now`; the rest is what an initiation would draw. -/
  | wake (now : Int) (idx : UInt32) (ephemeral : Key) (ts : Vector UInt8 12)
  /-- `read` from the tun device. -/
  | tun (data : Bytes)
  /-- `recvfrom` the socket. -/
  | udp (src : SockAddr) (data : Bytes)

/-- The state on entry, the clock standing at `now`. -/
def loop_start (hs : NwHandshake) (t : NwTransport) (udp_buf : Bytes) (now : Int) :
    LoopState where
  hs := hs
  t := t
  udp_buf := udp_buf
  now := now
  last_ka := now
  key_derived_time := now
  rekey_in_progress := false
  rekey_sent_time := 0
  rekey_attempts := 0
  last_progress := now
  udp_in_at_progress := 0
  tun_in_at_progress := 0
  c_tun_in := 0
  c_udp_in := 0
  exit := none
  out := []

/-- `nw_wg_transport_encrypt` and `sendto`. -/
def send_packet (s : LoopState) (plain : Bytes) : LoopState :=
  { s with
    t := (nw_wg_transport_encrypt s.t plain).1
    out := s.out ++ [.packet s.t.send_key s.t.send_counter (nw_wg_transport_encrypt s.t plain).2] }

/-! ## The wake-up -/

def keepalive_check (env : TunnelEnv) (s : LoopState) : LoopState :=
  let ka := if env.keepalive > 0 then env.keepalive else 25
  if s.now - s.last_ka ≥ ka then { send_packet s [] with last_ka := s.now } else s

def stall_check (s : LoopState) : LoopState :=
  if s.c_udp_in > s.udp_in_at_progress then
    { s with
      udp_in_at_progress := s.c_udp_in
      tun_in_at_progress := s.c_tun_in
      last_progress := s.now }
  else if s.c_tun_in > s.tun_in_at_progress ∧ s.now - s.last_progress ≥ kStallSeconds then
    { s with exit := some NW_EXIT_STALLED }
  else s

def send_initiation (s : LoopState) (idx : UInt32) (ephemeral : Key) (ts : Vector UInt8 12) :
    LoopState :=
  { s with
    hs := (nw_wg_create_initiation s.hs idx ephemeral ts).1
    out := s.out ++ [.initiation ephemeral (nw_wg_create_initiation s.hs idx ephemeral ts).2]
    rekey_sent_time := s.now
    rekey_in_progress := true
    rekey_attempts := s.rekey_attempts + 1 }

def rekey_check (s : LoopState) (idx : UInt32) (ephemeral : Key) (ts : Vector UInt8 12) :
    LoopState :=
  if s.now - s.key_derived_time ≥ 110 then
    if s.rekey_in_progress ∧ s.rekey_attempts ≥ kRekeyMaxAttempts then
      { s with exit := some NW_EXIT_REKEY_FAILED }
    else if ¬ s.rekey_in_progress ∨ s.now - s.rekey_sent_time ≥ 5 then
      send_initiation s idx ephemeral ts
    else s
  else s

def on_wake (env : TunnelEnv) (s : LoopState) (now : Int) (idx : UInt32) (ephemeral : Key)
    (ts : Vector UInt8 12) : LoopState :=
  let s := stall_check (keepalive_check env { s with now := now })
  if s.exit.isSome then s else rekey_check s idx ephemeral ts

/-! ## The tun device -/

/-- One `read` into a buffer of 2048 bytes; a read of at most the four bytes of the address
family ends the drain. -/
def on_tun (s : LoopState) (data : Bytes) : LoopState :=
  let tun_buf := data.take 2048
  if tun_buf.length ≤ 4 then s else
  let family_host := be16 tun_buf 0 * 65536 + be16 tun_buf 2
  let ip_pkt := tun_buf.drop 4
  if family_host = AF_INET then
    send_packet { s with c_tun_in := s.c_tun_in + 1 } (clamp_tcp_mss ip_pkt)
  else if family_host = AF_INET6 then
    send_packet { s with c_tun_in := s.c_tun_in + 1 } ip_pkt
  else s

/-! ## The socket -/

/-- `recvfrom(udp_fd, udp_buf, 2048)`: the bytes past the datagram stay. -/
def recv_into (udp_buf data : Bytes) : Bytes :=
  data.take 2048 ++ udp_buf.drop (data.take 2048).length

/-- A decrypted packet with the address family in front of it, as it is written to the tun
device. -/
def tun_packet (plain : Bytes) : Bytes :=
  let version := (plain.getD 0 0) >>> 4
  let plain := if version = 4 then clamp_tcp_mss plain else plain
  [0, 0, 0, if version = 6 then 30 else 2] ++ plain

def on_data (s : LoopState) (n : ℕ) : LoopState :=
  match nw_wg_transport_decrypt s.t s.udp_buf n with
  | .ok plain =>
    if plain.length > 0 then { s with out := s.out ++ [.tun (tun_packet plain)] } else s
  | .error _ => s

/-- The result code `nw_wg_consume_response` gives for what is in the buffer. -/
def response_rc (s : LoopState) : Int := (nw_wg_consume_response s.hs s.udp_buf s.t).1

/-- A handshake response from `src`; the length of the datagram is not looked at. -/
def on_response (env : TunnelEnv) (s : LoopState) (src : SockAddr) : LoopState :=
  if src.s_addr ≠ env.dst.s_addr ∨ src.sin_port ≠ env.dst.sin_port then s else
  let r := nw_wg_consume_response s.hs s.udp_buf s.t
  if response_rc s = 0 then
    { s with
      hs := r.2.1
      t := r.2.2
      key_derived_time := s.now
      rekey_in_progress := false
      rekey_attempts := 0
      out := s.out ++ [.rotated s.hs.ephemeral_private (Bytes.slice s.udp_buf 12 32)
        r.2.2.send_key] }
  else { s with hs := r.2.1 }

/-- The state in which a datagram of `n` bytes is looked at: in the buffer, and counted. -/
def received (s : LoopState) (data : Bytes) : LoopState :=
  { s with udp_buf := recv_into s.udp_buf data, c_udp_in := s.c_udp_in + 1 }

def on_udp (env : TunnelEnv) (s : LoopState) (src : SockAddr) (data : Bytes) : LoopState :=
  let n := (data.take 2048).length
  if n = 0 then s else
  let s := received s data
  if s.udp_buf.getD 0 0 = 4 then on_data s n
  else if s.udp_buf.getD 0 0 = 2 then on_response env s src
  else s

/-! ## The loop -/

/-- One event; after a `return` nothing happens any more. -/
def loop_step (env : TunnelEnv) (s : LoopState) : LoopEvent → LoopState
  | .wake now idx ephemeral ts =>
    if s.exit.isSome then s else on_wake env s now idx ephemeral ts
  | .tun data => if s.exit.isSome then s else on_tun s data
  | .udp src data => if s.exit.isSome then s else on_udp env s src data

/-- `run_tunnel_loop` from `s` on. -/
def run_tunnel_loop (env : TunnelEnv) (s : LoopState) (es : List LoopEvent) : LoopState :=
  Run.run (loop_step env) s es

end Onegram
