import Mathlib.Data.ZMod.Basic
import Onegram.Crypto.Primitives
import Onegram.Lib.Checked
import Onegram.Lib.Limbs

/-!
# X25519 where nothing may overflow, and in its standard

The routines of `crypto/x25519.c` on integers, one operation of the code after another, each with a
result only where it fits in an `int64_t`. A shift to the right rounds down, a mask of `w` bits is
what is left modulo `2 ^ w`, and a selection moves limbs without computing with them. Next to them
stands the function as RFC 7748 defines it.
-/

namespace Onegram.X25519

open Checked

abbrev Limbs := List ℤ

/-- What the limbs hold. -/
def ints (g : Gf) : Limbs := g.toList.map Int64.toInt

/-- The body of the loop of `car25519`. -/
def car25519_step (o : Limbs) (i : ℕ) : Option Limbs := do
  let raised ← int64 (o.getD i 0 + 2 ^ 16)
  let o := o.set i raised
  let c := o.getD i 0 / 2 ^ 16
  let less ← int64 (c - 1)
  let folded ← int64 (37 * less)
  let carried ← int64 (less + if i = 15 then folded else 0)
  let j := if i < 15 then i + 1 else 0
  let above ← int64 (o.getD j 0 + carried)
  let o := o.set j above
  let taken ← int64 (c * 2 ^ 16)
  let left ← int64 (o.getD i 0 - taken)
  some (o.set i left)

def car25519 (o : Limbs) : Option Limbs := (List.range 16).foldlM car25519_step o

/-- `sel25519`; only `b - 1` is computed, for a `b` of 0 or 1. -/
def sel25519 (p q : Limbs) (b : ℤ) : Limbs × Limbs := if b = 1 then (q, p) else (p, q)

/-- The body of the inner loop of `pack25519`, for the limb after `k`. -/
def pack25519_borrow (t m : Limbs) (k : ℕ) : Option Limbs := do
  let less ← int64 (t.getD (k + 1) 0 - 0xffff)
  let limb ← int64 (less - m.getD k 0 / 2 ^ 16 % 2)
  let m := m.set (k + 1) limb
  some (m.set k (m.getD k 0 % 2 ^ 16))

def pack25519_sub (t : Limbs) : Option (Limbs × ℤ) := do
  let first ← int64 (t.getD 0 0 - 0xffed)
  let m ← (List.range 14).foldlM (pack25519_borrow t) ((List.replicate 16 0).set 0 first)
  let less ← int64 (t.getD 15 0 - 0x7fff)
  let last ← int64 (less - m.getD 14 0 / 2 ^ 16 % 2)
  let m := m.set 15 last
  some (m.set 14 (m.getD 14 0 % 2 ^ 16), m.getD 15 0 / 2 ^ 16 % 2)

/-- One of the two passes of `pack25519`. -/
def pack25519_pass (t : Limbs) : Option Limbs := do
  let (m, b) ← pack25519_sub t
  let c ← int64 (1 - b)
  some (sel25519 t m c).1

def pack25519 (n : Limbs) : Option Bytes := do
  let t ← car25519 n
  let t ← car25519 t
  let t ← car25519 t
  let t ← pack25519_pass t
  let t ← pack25519_pass t
  some (t.flatMap fun limb =>
    [UInt8.ofNat (limb % 256).toNat, UInt8.ofNat (limb / 256 % 256).toNat])

def unpack25519 (n : Bytes) : Option Limbs := do
  let o ← results 16 fun i => do
    let high ← int64 ((n.getD (2 * i + 1) 0).toNat * 2 ^ 8)
    int64 ((n.getD (2 * i) 0).toNat + high)
  some (o.set 15 (o.getD 15 0 % 2 ^ 15))

def gf_A (a b : Limbs) : Option Limbs := results 16 fun i => int64 (a.getD i 0 + b.getD i 0)

def gf_Z (a b : Limbs) : Option Limbs := results 16 fun i => int64 (a.getD i 0 - b.getD i 0)

/-- What a turn of the outer loop of `M` adds to `t[k]`. -/
def gf_row (a b : Limbs) (k : ℕ) (acc : ℤ) (i : ℕ) : Option ℤ :=
  (List.range 16).foldlM (fun acc j =>
    if i + j = k then do
      let product ← int64 (a.getD i 0 * b.getD j 0)
      int64 (acc + product)
    else some acc) acc

/-- `t[k]` after the two loops. -/
def gf_prod (a b : Limbs) (k : ℕ) : Option ℤ := (List.range 16).foldlM (gf_row a b k) 0

/-- A limb of `M` before the carries. -/
def gf_fold (a b : Limbs) (i : ℕ) : Option ℤ := do
  let low ← gf_prod a b i
  if i < 15 then do
    let high ← gf_prod a b (i + 16)
    let folded ← int64 (38 * high)
    int64 (low + folded)
  else some low

def gf_M (a b : Limbs) : Option Limbs := do
  let o ← results 16 (gf_fold a b)
  let o ← car25519 o
  car25519 o

def gf_S (a : Limbs) : Option Limbs := gf_M a a

/-- The body of the loop of `inv25519`. -/
def inv25519_step (i c : Limbs) (a : ℕ) : Option Limbs := do
  let c ← gf_S c
  if a ≠ 2 ∧ a ≠ 4 then gf_M c i else some c

def inv25519 (i : Limbs) : Option Limbs := (List.range 254).reverse.foldlM (inv25519_step i) i

structure Ladder where
  a : Limbs
  b : Limbs
  c : Limbs
  d : Limbs

def ladder_step (x : Limbs) (L : Ladder) (r : ℤ) : Option Ladder := do
  let (a, b) := sel25519 L.a L.b r
  let (c, d) := sel25519 L.c L.d r
  let e ← gf_A a c
  let a ← gf_Z a c
  let c ← gf_A b d
  let b ← gf_Z b d
  let d ← gf_S e
  let f ← gf_S a
  let a ← gf_M c a
  let c ← gf_M b e
  let e ← gf_A a c
  let a ← gf_Z a c
  let b ← gf_S a
  let c ← gf_Z d f
  let a ← gf_M c (ints gf_121665)
  let a ← gf_A a d
  let c ← gf_M c a
  let a ← gf_M d f
  let d ← gf_M b x
  let b ← gf_S e
  let (a, b) := sel25519 a b r
  let (c, d) := sel25519 c d r
  some ⟨a, b, c, d⟩

/-- The bit of the scalar that a step of the ladder takes. -/
def bit (z : Bytes) (i : ℕ) : ℤ := (z.getD (i / 8) 0).toNat / 2 ^ (i % 8) % 2

def nw_x25519 (n p : Vector UInt8 32) : Option Bytes := do
  let z := (x25519_clamp n).toList
  let x ← unpack25519 p.toList
  let zero : Limbs := List.replicate 16 0
  let one := zero.set 0 1
  let L ← (List.range 255).reverse.foldlM (fun L i => ladder_step x L (bit z i))
    (⟨one, x, zero, one⟩ : Ladder)
  let c ← inv25519 L.c
  let a ← gf_M L.a c
  pack25519 a

end Onegram.X25519

/-!
## X25519 as RFC 7748 defines it

The ladder over any ring, with a swap put off to the next step, and the function on byte strings
modulo `2 ^ 255 - 19`.
-/

namespace Onegram.Rfc7748

def p : ℕ := 2 ^ 255 - 19

def a24 : ℕ := 121665

def decodeScalar25519 (k : Bytes) : ℕ :=
  let k := k.set 0 (k.getD 0 0 &&& 248)
  let k := k.set 31 (k.getD 31 0 &&& 127)
  let k := k.set 31 (k.getD 31 0 ||| 64)
  Bytes.littleEndian k

/-- The highest bit is not used. -/
def decodeUCoordinate (u : Bytes) : ℕ := Bytes.littleEndian (u.set 31 (u.getD 31 0 &&& 127))

def encodeUCoordinate (u : ZMod p) : Bytes := Bytes.bytesLE 32 u.val

variable {F : Type*}

def cswap (swap : ℕ) (x2 x3 : F) : F × F := if swap = 1 then (x3, x2) else (x2, x3)

structure Ladder (F : Type*) where
  x2 : F
  z2 : F
  x3 : F
  z3 : F
  swap : ℕ

variable [CommRing F]

/-- What the loop does for one bit of the scalar. -/
def ladderStep (x1 : F) (L : Ladder F) (kt : ℕ) : Ladder F :=
  let swap := L.swap ^^^ kt
  let (x2, x3) := cswap swap L.x2 L.x3
  let (z2, z3) := cswap swap L.z2 L.z3
  let A := x2 + z2
  let AA := A ^ 2
  let B := x2 - z2
  let BB := B ^ 2
  let E := AA - BB
  let C := x3 + z3
  let D := x3 - z3
  let DA := D * A
  let CB := C * B
  { x2 := AA * BB
    z2 := E * (AA + a24 * E)
    x3 := (DA + CB) ^ 2
    z3 := x1 * (DA - CB) ^ 2
    swap := kt }

/-- The loop, from the highest bit down, and what is returned after it. -/
def ladder (k : ℕ) (u : F) : F :=
  let L := (List.range 255).reverse.foldl (fun L t => ladderStep u L (k >>> t &&& 1))
    ⟨1, 0, u, 1, 0⟩
  (cswap L.swap L.x2 L.x3).1 * (cswap L.swap L.z2 L.z3).1 ^ (p - 2)

def X25519 (k u : Bytes) : Bytes :=
  encodeUCoordinate (ladder (decodeScalar25519 k) (decodeUCoordinate u : ZMod p))

end Onegram.Rfc7748
