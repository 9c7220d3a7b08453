import Onegram.Lib.Bytes

/-!
# Base64 of the engine

`b64decode` and `b64encode` of `nekrowarp.m`. A C string is the list of the bytes before its `NUL`;
the accumulator of the decoder is a word of 32 bits that the shifts run out of.
-/

namespace Onegram.Base64

def T : Bytes :=
  "ABCDEFGHIJKLMNOPQRSTUVWXYZabcdefghijklmnopqrstuvwxyz0123456789+/".toList.map
    fun c => UInt8.ofNat c.toNat

/-- `out[o]` for the sextets in `val`. -/
def outByte (val : BitVec 32) (valb : ℕ) : UInt8 :=
  UInt8.ofBitVec ((val.sshiftRight valb &&& 0xff#32).setWidth 8)

/-- `(int)o`. -/
def asInt (o : ℕ) : ℤ := (o : ℤ).bmod (2 ^ 32)

/-- The loop, with the bytes written so far; what it returns, and the bytes at `out` then. -/
def b64decodeLoop (outcap : ℕ) : Bytes → BitVec 32 → ℤ → Bytes → ℤ × Bytes
  | [], _, _, out => (asInt out.length, out)
  | c :: p, val, valb, out =>
    if c = 0 ∨ c = 0x3d then (asInt out.length, out)
    else match T.idxOf? c with
      | none => b64decodeLoop outcap p val valb out
      | some q =>
        let val := val <<< 6 ||| BitVec.ofNat 32 q
        let valb := valb + 6
        if 0 ≤ valb then
          if outcap ≤ out.length then (-1, out)
          else b64decodeLoop outcap p val (valb - 8) (out ++ [outByte val valb.toNat])
        else b64decodeLoop outcap p val valb out

def b64decode (text : Bytes) (outcap : ℕ) : ℤ × Bytes := b64decodeLoop outcap text 0 (-8) []

/-- `table[(val >> shift) & 63]`. -/
def sextet (val shift : ℕ) : UInt8 := T.getD (val >>> shift &&& 63) 0

/-- `val` of the encoder. -/
def group (a b c : UInt8) : ℕ := a.toNat <<< 16 ||| b.toNat <<< 8 ||| c.toNat

/-- The text before the `NUL`, with `p - out` characters of it written. -/
def b64encodeLoop (outcap : ℕ) : Bytes → ℕ → Bytes
  | [], _ => []
  | [a], p =>
    if p + 4 ≥ outcap then [] else [sextet (group a 0 0) 18, sextet (group a 0 0) 12, 0x3d, 0x3d]
  | [a, b], p =>
    if p + 4 ≥ outcap then []
    else [sextet (group a b 0) 18, sextet (group a b 0) 12, sextet (group a b 0) 6, 0x3d]
  | a :: b :: c :: rest, p =>
    if p + 4 ≥ outcap then []
    else [sextet (group a b c) 18, sextet (group a b c) 12, sextet (group a b c) 6,
      sextet (group a b c) 0] ++ b64encodeLoop outcap rest (p + 4)

def b64encode (bytes : Bytes) (outcap : ℕ) : Bytes := b64encodeLoop outcap bytes 0

end Onegram.Base64
