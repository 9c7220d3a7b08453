import Onegram.Crypto.Primitives
import Onegram.Lib.Memory

/-!
# HMAC-BLAKE2s and the key derivation

`crypto/kdf.c`: HMAC with a 64-byte block and WireGuard's HKDF on top of it.
-/

namespace Onegram

/-- `nw_blake2s_init(&S, 32)`, one `nw_blake2s_update` for each part, and `nw_blake2s_final` into
a 32-byte buffer. -/
@[irreducible] def blake2s_parts (parts : List Bytes) : Key :=
  let digest := (nw_blake2s_init 32).bind fun S =>
    nw_blake2s_final (parts.foldl nw_blake2s_update S) 32
  Bytes.slice (digest.getD []) 0 32

def nw_hmac_blake2s (key data : Bytes) : Key :=
  let k : Vector UInt8 64 :=
    if 64 < key.length then Bytes.blit (Bytes.zeros 64) 0 ((nw_blake2s 32 key []).getD [])
    else Bytes.blit (Bytes.zeros 64) 0 key
  let ipad := k.map (· ^^^ 0x36)
  let opad := k.map (· ^^^ 0x5c)
  let inner := blake2s_parts [ipad.toList, data]
  blake2s_parts [opad.toList, inner.toList]

/-- The three outputs of `nw_kdf`; a caller that passes `NULL` for one reads only those before
it. -/
structure KdfOut where
  out1 : Key
  out2 : Key
  out3 : Key

@[irreducible] def nw_kdf (chaining_key : Key) (data : Bytes) : KdfOut :=
  let t0 := nw_hmac_blake2s chaining_key.toList data
  let t1 := nw_hmac_blake2s t0.toList [0x1]
  let t2 := nw_hmac_blake2s t0.toList (t1.toList ++ [0x2])
  let t3 := nw_hmac_blake2s t0.toList (t2.toList ++ [0x3])
  ⟨t1, t2, t3⟩

end Onegram

/-!
## The key derivation on its buffers

`nw_kdf` as it reads and writes through its pointers, which may be equal or overlap; `NULL` is
`none`. The arrays `t0`, `t1`, `t2`, `t3` and `in` are its own.
-/

namespace Onegram

/-- `if (out) memcpy(out, t, 32);` -/
def copy_out (mem : Memory UInt8) (out : Option ℕ) (t : Key) : Memory UInt8 :=
  match out with
  | some out => mem.write out t.toList
  | none => mem

/-- `nw_kdf` on the memory its pointers point into. -/
def nw_kdf_buffers (mem : Memory UInt8) (out1 out2 out3 : Option ℕ)
    (chaining_key data datalen : ℕ) : Memory UInt8 :=
  let t0 := nw_hmac_blake2s (mem.read chaining_key 32) (mem.read data datalen)
  let t1 := nw_hmac_blake2s t0.toList [0x1]
  let mem := copy_out mem out1 t1
  if out2 = none then mem else
  let t2 := nw_hmac_blake2s t0.toList (t1.toList ++ [0x2])
  let mem := copy_out mem out2 t2
  if out3 = none then mem else
  let t3 := nw_hmac_blake2s t0.toList (t2.toList ++ [0x3])
  copy_out mem out3 t3

end Onegram
