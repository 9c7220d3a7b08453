import Onegram.SocksRequests
import Onegram.Stun

/-!
# Asking a DNS server for an address

`nw_dns_query_a` of `nekrowarp.m`: one query for the A records of a host, and what is read out of
the reply. The query is written into a buffer of 300 bytes one byte after the other, so it is the
list of the bytes written, and it leaves the buffer when it is longer. Of the reply only the bytes
that `recvfrom` gave can be read; a read anywhere else shows as `none`. The sockets are arguments.
-/

namespace Onegram.Dns

open Bytes

/-! ## The query -/

/-- `sizeof(q)`. -/
def sizeofQ : ℕ := 300

/-- The loop over the host from `p` on, behind the bytes `q`; `none` where it refuses the host. -/
def copy_labels (q p : Bytes) : Option Bytes :=
  if p = [] ∨ q.length ≥ sizeofQ - 6 then some q
  else
    let seg := p.takeWhile (· ≠ 46)
    if seg.length = 0 ∨ seg.length > 63 then none
    else
      let q := q ++ [UInt8.ofNat seg.length] ++ seg
      match _hdot : p.dropWhile (· ≠ 46) with
      | [] => some q
      | _ :: rest => copy_labels q rest
termination_by p.length
decreasing_by
  have hlen := (List.dropWhile_sublist (l := p) (· ≠ 46)).length_le
  rw [_hdot, List.length_cons] at hlen
  omega

def query_header (id : UInt16) : Bytes := bytesBE 2 id.toNat ++ [1, 0, 0, 1, 0, 0, 0, 0, 0, 0]

def build_query (id : UInt16) (host : Bytes) : Option Bytes :=
  (copy_labels (query_header id) host).map fun q => q ++ [0, 0, 1, 0, 1]

/-! ## The reply -/

/-- The loop that skips the name of the question. -/
def skip_question (r : Bytes) (off : ℕ) : Option ℕ :=
  if off < r.length then
    match r[off]? with
    | none => none
    | some c =>
      if c = 0 then some off
      else if c &&& 0xc0 = 0xc0 then some (off + 1)
      else skip_question r (off + (c.toNat + 1))
  else some off
termination_by r.length - off

/-- The loop that skips the labels of the name of a record. -/
def skip_labels (r : Bytes) (off : ℕ) : Option ℕ :=
  if off < r.length then
    match r[off]? with
    | none => none
    | some c => if c = 0 then some off else skip_labels r (off + (c.toNat + 1))
  else some off
termination_by r.length - off

def read16 (r : Bytes) (off : ℕ) : Option ℕ := do
  let hi ← r[off]?
  let lo ← r[off + 1]?
  some (hi.toNat * 256 + lo.toNat)

/-- The name of a record at `off`, skipped. -/
def skip_name (r : Bytes) (off : ℕ) : Option ℕ := do
  let c ← r[off]?
  if c &&& 0xc0 = 0xc0 then some (off + 2) else (skip_labels r off).map (· + 1)

/-- The loop over the records: `none` for a read outside, `some none` where no address is found. -/
def read_answers (r : Bytes) : ℕ → ℕ → Option (Option (Vector UInt8 4))
  | 0, _ => some none
  | a + 1, off =>
    if off + 12 > r.length then some none else do
    let off ← skip_name r off
    if off + 10 > r.length then some none else do
    let type ← read16 r off
    let rdlen ← read16 r (off + 8)
    let off := off + 10
    if off + rdlen > r.length then some none
    else if type = 1 ∧ rdlen = 4 then do
      let b0 ← r[off]?
      let b1 ← r[off + 1]?
      let b2 ← r[off + 2]?
      let b3 ← r[off + 3]?
      some (some #v[b0, b1, b2, b3])
    else read_answers r a (off + rdlen)

def read_reply (r : Bytes) : Option (Option (Vector UInt8 4)) :=
  if r.length < 12 then some none else do
  let ancount ← read16 r 6
  if ancount < 1 then some none else do
  let off ← skip_question r 12
  read_answers r ancount (off + 1 + 4)

/-! ## The exchange -/

/-- What the sockets do: whether there is one, whether the query goes out, what comes back. -/
structure Exchange where
  socket : Bool
  sent : Bool
  reply : Option Bytes

inductive QueryResult
  | failed
  | outside
  | address (out_ip : Bytes)

/-- The result, with the query that was sent. -/
def nw_dns_query_a (x : Exchange) (id : UInt16) (host dns_ip : Bytes) (out_len : ℕ) :
    QueryResult × Option Bytes :=
  if x.socket = false then (.failed, none) else
  match Tcp.inetAton dns_ip with
  | none => (.failed, none)
  | some _ =>
    match build_query id host with
    | none => (.failed, none)
    | some q =>
      if x.sent = false then (.failed, some q) else
      match x.reply with
      | none => (.failed, some q)
      | some datagram =>
        match read_reply (datagram.take 1500) with
        | none => (.outside, some q)
        | some none => (.failed, some q)
        -- `snprintf` with "%u.%u.%u.%u"
        | some (some address) =>
          (.address ((Stun.inetNtop address).take (out_len - 1)), some q)

end Onegram.Dns
