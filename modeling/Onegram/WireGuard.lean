import Onegram.Crypto.Kdf

/-!
# The WireGuard handshake and transport

`wg/wg.c`: Noise_IKpsk2 between an initiator and a responder, and the data packets under the keys
it derives. What the C code draws from `/dev/urandom` and reads from the clock is an argument
here; a result code and the state the function leaves behind are both returned, since a failing
call has already written to the handshake.
-/

namespace Onegram

def NW_CONSTRUCTION : Bytes := "Noise_IKpsk2_25519_ChaChaPoly_BLAKE2s".toUTF8.toList
def NW_IDENTIFIER : Bytes := "WireGuard v1 zx2c4 Jason@zx2c4.com".toUTF8.toList
def NW_LABEL_MAC1 : Bytes := "mac1----".toUTF8.toList

def ZERO_NONCE : Nonce := Bytes.zeros 12

def NW_WG_INIT_SIZE : ℕ := 148
def NW_WG_RESP_SIZE : ℕ := 92
def NW_WG_DATA_HDR : ℕ := 16

/-! ## Noise helpers -/

def mix_hash (h : Key) (data : Bytes) : Key := blake2s_parts [h.toList, data]

def mix_chain (ck : Key) (data : Bytes) : Key := (nw_kdf ck data).out1

def mac1_key (peer_pub : Key) : Key := blake2s_parts [NW_LABEL_MAC1, peer_pub.toList]

/-- `nw_blake2s(mac, 16, msg, len, mk, 32)`. -/
def mac1_of (msg : Bytes) (mk : Key) : Vector UInt8 16 :=
  Bytes.slice ((nw_blake2s 16 msg mk.toList).getD []) 0 16

/-- The label of `tai64n`: seconds from the epoch of TAI64 and nanoseconds, both big-endian. -/
def tai64n (tv_sec : UInt64) (tv_usec : UInt32) : Vector UInt8 12 :=
  let secs := 0x400000000000000a + tv_sec
  let nanos := tv_usec * 1000
  Vector.ofFn fun i =>
    if i.val < 8 then (secs >>> (8 * (7 - i.val)).toUInt64).toUInt8
    else (nanos >>> (8 * (11 - i.val)).toUInt32).toUInt8

/-- `init_state`: chaining key and hash from the protocol's constants and the responder's static
key. -/
def init_state (remote_static : Key) : Key × Key :=
  let ck : Key := Bytes.slice ((nw_blake2s 32 NW_CONSTRUCTION []).getD []) 0 32
  (ck, mix_hash (mix_hash ck NW_IDENTIFIER) remote_static.toList)

/-! ## The handshake -/

structure NwHandshake where
  static_private : Key
  static_public : Key
  peer_static_public : Key
  psk : Key
  hash : Key
  chaining_key : Key
  ephemeral_private : Key
  ephemeral_public : Key
  remote_ephemeral : Key
  remote_static : Key
  local_index : UInt32
  remote_index : UInt32
  reserved : Vector UInt8 3
  deriving DecidableEq

structure NwTransport where
  send_key : Key
  recv_key : Key
  send_counter : UInt64
  recv_counter : UInt64
  local_index : UInt32
  remote_index : UInt32
  reserved : Vector UInt8 3
  deriving DecidableEq

/-- `nw_handshake_init` with a private key given; a peer or a pre-shared key of `NULL` leaves the
zeros of the `memset`. -/
def nw_handshake_init (static_private : Key) (peer_static_public psk : Option Key) :
    NwHandshake where
  static_private := static_private
  static_public := nw_x25519_base static_private
  peer_static_public := peer_static_public.getD (Bytes.zeros 32)
  psk := psk.getD (Bytes.zeros 32)
  hash := Bytes.zeros 32
  chaining_key := Bytes.zeros 32
  ephemeral_private := Bytes.zeros 32
  ephemeral_public := Bytes.zeros 32
  remote_ephemeral := Bytes.zeros 32
  remote_static := Bytes.zeros 32
  local_index := 0
  remote_index := 0
  reserved := Bytes.zeros 3

/-- `nw_wg_create_initiation`; `ephemeral` is what `nw_random` left in `ephemeral_private`. -/
def nw_wg_create_initiation (hs : NwHandshake) (local_index : UInt32) (ephemeral : Key)
    (ts : Vector UInt8 12) : NwHandshake × Bytes :=
  let ck := (init_state hs.peer_static_public).1
  let h := (init_state hs.peer_static_public).2
  let ephemeral_public := nw_x25519_base ephemeral
  let hs := { hs with
    ephemeral_private := ephemeral
    ephemeral_public := ephemeral_public
    local_index := local_index }
  let out : Bytes := [1] ++ hs.reserved.toList ++ (st32le local_index).toList
    ++ ephemeral_public.toList
  let ck := mix_chain ck ephemeral_public.toList
  let h := mix_hash h ephemeral_public.toList
  let dh := nw_x25519 ephemeral hs.peer_static_public
  let kdf := nw_kdf ck dh.toList
  let encrypted_static :=
    nw_chacha20poly1305_encrypt hs.static_public.toList h.toList kdf.out2 ZERO_NONCE
  let out := out ++ encrypted_static
  let h := mix_hash h encrypted_static
  let dh := nw_x25519 hs.static_private hs.peer_static_public
  let kdf := nw_kdf kdf.out1 dh.toList
  let encrypted_ts := nw_chacha20poly1305_encrypt ts.toList h.toList kdf.out2 ZERO_NONCE
  let out := out ++ encrypted_ts
  let h := mix_hash h encrypted_ts
  let mac1 := mac1_of out (mac1_key hs.peer_static_public)
  let out := out ++ mac1.toList ++ (Bytes.zeros 16).toList
  ({ hs with chaining_key := kdf.out1, hash := h }, out)

/-- `nw_wg_consume_initiation`: the result code and the handshake it leaves. -/
def nw_wg_consume_initiation (hs : NwHandshake) (msg : Bytes) : Int × NwHandshake :=
  if msg.getD 0 0 ≠ 1 then (-1, hs) else
  if mac1_of (Bytes.slice msg 0 116).toList (mac1_key hs.static_public)
      ≠ Bytes.slice msg 116 16 then (-2, hs) else
  let ck := (init_state hs.static_public).1
  let h := (init_state hs.static_public).2
  let remote_ephemeral := Bytes.slice msg 8 32
  let hs := { hs with remote_ephemeral := remote_ephemeral }
  let ck := mix_chain ck remote_ephemeral.toList
  let h := mix_hash h remote_ephemeral.toList
  let kdf := nw_kdf ck (nw_x25519 hs.static_private remote_ephemeral).toList
  let encrypted_static := (Bytes.slice msg 40 48).toList
  match nw_chacha20poly1305_decrypt encrypted_static h.toList kdf.out2 ZERO_NONCE with
  | none => (-3, hs)
  | some s =>
    let remote_static : Key := Bytes.slice s 0 32
    let hs := { hs with remote_static := remote_static }
    let h := mix_hash h encrypted_static
    let kdf := nw_kdf kdf.out1 (nw_x25519 hs.static_private remote_static).toList
    let encrypted_ts := (Bytes.slice msg 88 28).toList
    match nw_chacha20poly1305_decrypt encrypted_ts h.toList kdf.out2 ZERO_NONCE with
    | none => (-4, hs)
    | some _ =>
      let h := mix_hash h encrypted_ts
      (0, { hs with
        remote_index := ld32le (Bytes.slice msg 4 4)
        chaining_key := kdf.out1
        hash := h })

/-- `nw_wg_create_response`: the handshake, the message and the responder's transport. The hash it
mixes last is local to the function and never read again. -/
def nw_wg_create_response (hs : NwHandshake) (local_index : UInt32) (ephemeral : Key) :
    NwHandshake × Bytes × NwTransport :=
  let ck := hs.chaining_key
  let h := hs.hash
  let ephemeral_public := nw_x25519_base ephemeral
  let hs := { hs with
    ephemeral_private := ephemeral
    ephemeral_public := ephemeral_public
    local_index := local_index }
  let out : Bytes := [2] ++ hs.reserved.toList ++ (st32le local_index).toList
    ++ (st32le hs.remote_index).toList ++ ephemeral_public.toList
  let ck := mix_chain ck ephemeral_public.toList
  let h := mix_hash h ephemeral_public.toList
  let ck := mix_chain ck (nw_x25519 ephemeral hs.remote_ephemeral).toList
  let ck := mix_chain ck (nw_x25519 ephemeral hs.remote_static).toList
  let kdf := nw_kdf ck hs.psk.toList
  let h := mix_hash h kdf.out2.toList
  let empty := nw_chacha20poly1305_encrypt [] h.toList kdf.out3 ZERO_NONCE
  let out := out ++ empty
  let mac1 := mac1_of out (mac1_key hs.remote_static)
  let out := out ++ mac1.toList ++ (Bytes.zeros 16).toList
  let keys := nw_kdf kdf.out1 []
  (hs, out,
    { send_key := keys.out2
      recv_key := keys.out1
      send_counter := 0
      recv_counter := 0
      local_index := local_index
      remote_index := hs.remote_index
      reserved := hs.reserved })

/-- `nw_wg_consume_response`: the result code, the handshake, and the initiator's transport, which
a failing call leaves as it was. -/
def nw_wg_consume_response (hs : NwHandshake) (msg : Bytes) (t : NwTransport) :
    Int × NwHandshake × NwTransport :=
  if msg.getD 0 0 ≠ 2 then (-1, hs, t) else
  if mac1_of (Bytes.slice msg 0 60).toList (mac1_key hs.static_public)
      ≠ Bytes.slice msg 60 16 then (-2, hs, t) else
  let er := Bytes.slice msg 12 32
  let ck := mix_chain hs.chaining_key er.toList
  let h := mix_hash hs.hash er.toList
  let ck := mix_chain ck (nw_x25519 hs.ephemeral_private er).toList
  let ck := mix_chain ck (nw_x25519 hs.static_private er).toList
  let kdf := nw_kdf ck hs.psk.toList
  let h := mix_hash h kdf.out2.toList
  match nw_chacha20poly1305_decrypt (Bytes.slice msg 44 16).toList h.toList kdf.out3
      ZERO_NONCE with
  | none => (-3, hs, t)
  | some _ =>
    let remote_index := ld32le (Bytes.slice msg 4 4)
    let keys := nw_kdf kdf.out1 []
    (0, { hs with remote_index := remote_index },
      { send_key := keys.out1
        recv_key := keys.out2
        send_counter := 0
        recv_counter := 0
        local_index := hs.local_index
        remote_index := remote_index
        reserved := hs.reserved })

/-! ## Transport data -/

def transport_nonce (c : UInt64) : Nonce := Bytes.zeros 4 ++ st64le c

/-- `nw_wg_transport_encrypt`: the transport with its counter advanced, and the packet. -/
def nw_wg_transport_encrypt (t : NwTransport) (plain : Bytes) : NwTransport × Bytes :=
  let c := t.send_counter
  ({ t with send_counter := t.send_counter + 1 },
    [4] ++ t.reserved.toList ++ (st32le t.remote_index).toList ++ (st64le c).toList
      ++ nw_chacha20poly1305_encrypt plain [] t.send_key (transport_nonce c))

/-- `nw_wg_transport_decrypt` on the first `mlen` bytes of a buffer: the plaintext or a result
code. It never writes to the transport. -/
def nw_wg_transport_decrypt (t : NwTransport) (msg : Bytes) (mlen : ℕ) : Except Int Bytes :=
  if msg.getD 0 0 ≠ 4 ∨ mlen < NW_WG_DATA_HDR + 16 then .error (-1) else
  let c := ld64le (Bytes.slice msg 8 8)
  let cipher := (msg.drop NW_WG_DATA_HDR).take (mlen - NW_WG_DATA_HDR)
  match nw_chacha20poly1305_decrypt cipher [] t.recv_key (transport_nonce c) with
  | none => .error (-2)
  | some plain => .ok plain

/-! ## A whole conversation -/

/-- What the four handshake messages leave behind, as `nw_wg_selftest` looks at it. -/
structure HandshakeRun where
  init : Bytes
  resp : Bytes
  consume_initiation_rc : Int
  consume_response_rc : Int
  learned : Key
  initiator : NwHandshake
  tA : NwTransport
  tB : NwTransport

/-- The handshake of `nw_wg_selftest`, with the random bytes, the timestamp and the indices as
arguments; `t₀` is what the initiator's transport held before. -/
def handshake_run (A B : NwHandshake) (t₀ : NwTransport) (indexA indexB : UInt32)
    (ephemeralA ephemeralB : Key) (ts : Vector UInt8 12) : HandshakeRun :=
  let created := nw_wg_create_initiation A indexA ephemeralA ts
  let consumed := nw_wg_consume_initiation B created.2
  let answered := nw_wg_create_response consumed.2 indexB ephemeralB
  let finished := nw_wg_consume_response created.1 answered.2.1 t₀
  { init := created.2
    resp := answered.2.1
    consume_initiation_rc := consumed.1
    consume_response_rc := finished.1
    learned := consumed.2.remote_static
    initiator := finished.2.1
    tA := finished.2.2
    tB := answered.2.2 }

/-- The two ends of an established tunnel. -/
inductive Side
  | initiator
  | responder
  deriving DecidableEq

/-- Every plaintext of the list is encrypted by its side and decrypted by the other: what the
decryptions return. -/
def converse (tA tB : NwTransport) : List (Side × Bytes) → List (Except Int Bytes)
  | [] => []
  | (.initiator, plain) :: rest =>
    let (tA', packet) := nw_wg_transport_encrypt tA plain
    nw_wg_transport_decrypt tB packet packet.length :: converse tA' tB rest
  | (.responder, plain) :: rest =>
    let (tB', packet) := nw_wg_transport_encrypt tB plain
    nw_wg_transport_decrypt tA packet packet.length :: converse tA tB' rest

/-- `nw_wg_selftest`: the number of its checks that fail, for the private keys and the random bytes
it draws. -/
def nw_wg_selftest (a_priv b_priv ephemeralA ephemeralB : Key) (ts : Vector UInt8 12)
    (t₀ : NwTransport) : ℕ :=
  let a_pub := nw_x25519_base a_priv
  let b_pub := nw_x25519_base b_priv
  let A := nw_handshake_init a_priv (some b_pub) none
  let B := nw_handshake_init b_priv (some a_pub) none
  let run := handshake_run A B t₀ 0x11111111 0x22222222 ephemeralA ephemeralB ts
  let there : Bytes := "the quick brown fox over WireGuard".toUTF8.toList
  let back : Bytes := "and the reply travels back".toUTF8.toList
  let checks : List Bool := [
    run.consume_initiation_rc = 0,
    run.learned = a_pub,
    run.consume_response_rc = 0,
    run.tA.send_key = run.tB.recv_key ∧ run.tA.recv_key = run.tB.send_key]
  let data : List (Side × Bytes) := [(.initiator, there), (.responder, back)]
  checks.count false +
    ((converse run.tA run.tB data).zip data).countP fun m => !(m.1.toOption == some m.2.2)

end Onegram
