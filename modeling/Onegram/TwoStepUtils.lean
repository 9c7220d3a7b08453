import Onegram.DatacenterAuth

/-!
# The proof of a password

`TGTwoStepUtils` turns a password and what the server has sent, the algorithm with its salts, `g`
and `p`, and the server's public value `B`, into the client's public value `A` and a proof `M1`.
Hash functions and what is drawn at random are arguments.
-/

namespace Onegram.TwoStep

open Bytes DatacenterAuth

/-! ## Big numbers -/

/-- `BN_nnmod` of a difference; without a modulus the difference remains, and `BN_bn2bin` leaves out
its sign. -/
def MTModSub (a b modulus : Bytes) : Bytes :=
  bn2bin (((bin2bn a : ℤ) - bin2bn b) % (bin2bn modulus : ℤ)).natAbs

def MTModMul (a b modulus : Bytes) : Bytes :=
  bn2bin (if bin2bn modulus = 0 then 0 else bin2bn a * bin2bn b % bin2bn modulus)

def MTMul (a b : Bytes) : Bytes := bn2bin (bin2bn a * bin2bn b)

def MTAdd (a b : Bytes) : Bytes := bn2bin (bin2bn a + bin2bn b)

def MTIsZero (value : Bytes) : Bool := bin2bn value = 0

def MTCheckIsSafeB (b p : Bytes) : Bool := bin2bn b > 0 && bin2bn b < bin2bn p

/-! ## The password's number -/

/-- `TGPasswordKdfAlgo` and the one class of it that is known. -/
inductive TGPasswordKdfAlgo
  | unknown
  | modPow (salt1 salt2 : Bytes) (g : Int32) (p : Bytes)
  deriving DecidableEq

/-- The rounds of one block of `MTPBKDF2HMAC` after the first one: `u` and `blockResult`. -/
def pbkdf2Rounds (CCHmac : Bytes → Bytes → Bytes) (password : Bytes) :
    ℕ → Bytes → Bytes → Bytes
  | 0, _, blockResult => blockResult
  | rounds + 1, u, blockResult =>
    let u := CCHmac password u
    pbkdf2Rounds CCHmac password rounds u (List.zipWith (· ^^^ ·) blockResult u)

/-- `MTPBKDF2`, whose 64 bytes are one block. -/
def MTPBKDF2 (CCHmac : Bytes → Bytes → Bytes) (data salt : Bytes) (rounds : ℕ) : Bytes :=
  let u := CCHmac data (salt ++ [0, 0, 0, 1])
  pbkdf2Rounds CCHmac data (rounds - 1) u u

/-- The functions of the system that are used. -/
structure Hashes where
  MTSha256 : Bytes → Bytes
  CCHmacSHA512 : Bytes → Bytes → Bytes

variable (hashes : Hashes)

def PBKDF2HMACSHA512 (data salt : Bytes) : Bytes := MTPBKDF2 hashes.CCHmacSHA512 data salt 100000

/-- The bytes of `dataUsingEncoding:NSUTF8StringEncoding`. -/
def utf8 (s : String) : Bytes := s.toUTF8.data.toList

/-- `xWithPassword:algo:`. -/
def xWithPassword (password : String) : TGPasswordKdfAlgo → Option Bytes
  | .unknown => none
  | .modPow salt1 salt2 _ _ =>
    let hash1 := hashes.MTSha256 (salt1 ++ utf8 password ++ salt1)
    let hash2 := hashes.MTSha256 (salt2 ++ hash1 ++ salt2)
    some (hashes.MTSha256 (salt2 ++ PBKDF2HMACSHA512 hashes hash2 salt1 ++ salt2))

/-- `g` as four bytes. -/
def gData (g : Int32) : Bytes := bytesBE 4 g.toUInt32.toNat

/-- `vWithX:algo:`. -/
def vWithX (x : Option Bytes) : TGPasswordKdfAlgo → Option Bytes
  | .unknown => none
  | .modPow _ _ g p => x.map fun x => MTExp (gData g) x p

/-- `passwordHashWithPassword:algo:`, which the server is given for a new password. -/
def passwordHashWithPassword (password : String) (algo : TGPasswordKdfAlgo) : Option Bytes :=
  vWithX (xWithPassword hashes password algo) algo

/-! ## The proof -/

def paddedData (data : Bytes) : Bytes :=
  if data.length < 256 then List.replicate (256 - data.length) 0 ++ data else data

/-- `TLInputCheckPasswordSRP`. -/
inductive TLInputCheckPasswordSRP
  | inputCheckPasswordEmpty
  | inputCheckPasswordSRP (srp_id : Int64) (A M1 : Bytes)
  deriving DecidableEq

/-- `k`. -/
def srpK (g : Int32) (p : Bytes) : Bytes := hashes.MTSha256 (p ++ paddedData (gData g))

/-- `ABytes`, with `a` the bytes drawn. -/
def srpA (a : Vector UInt8 256) (g : Int32) (p : Bytes) : Bytes :=
  paddedData (MTExp (gData g) a.toList p)

/-- `u`. -/
def srpU (A B : Bytes) : Bytes := hashes.MTSha256 (A ++ paddedData B)

/-- `s1`. -/
def srpS1 (x : Bytes) (g : Int32) (p B : Bytes) : Bytes :=
  MTModSub B (MTModMul (srpK hashes g p) (MTExp (gData g) x p) p) p

/-- `M`, with `K` the hash of the secret. -/
def srpM (salt1 salt2 : Bytes) (g : Int32) (p A B K : Bytes) : Bytes :=
  let pH := hashes.MTSha256 p
  let gH := hashes.MTSha256 (paddedData (gData g))
  let pHgHXor := pH.mapIdx fun i pHByte => gH.getD i 0 ^^^ pHByte
  hashes.MTSha256 (pHgHXor ++ hashes.MTSha256 salt1 ++ hashes.MTSha256 salt2 ++ A ++ paddedData B
    ++ K)

/-- `srpPasswordWithX:algo:srpId:srpB:`, the keychain being the one of the primes. -/
def srpPasswordWithX (a : Vector UInt8 256) (x : Bytes) (algo : TGPasswordKdfAlgo) (srpId : Int64)
    (B : Bytes) (keychain : Keychain) : Option TLInputCheckPasswordSRP × Keychain :=
  match algo with
  | .unknown => (none, keychain)
  | .modPow salt1 salt2 g p =>
    if ¬MTCheckIsSafeG g.toUInt32.toNat then (none, keychain)
    else
      let mod := MTCheckMod p g.toUInt32.toNat keychain
      let keychain := mod.2
      if ¬mod.1 then (none, keychain)
      else if ¬MTCheckIsSafeB B p then (none, keychain)
      else
        let A := srpA a g p
        let u := srpU hashes A B
        if MTIsZero u then (none, keychain)
        else
          let s1 := srpS1 hashes x g p B
          if ¬MTCheckIsSafeGAOrB s1 p then (none, keychain)
          else
            let s2 := MTAdd a.toList (MTMul u x)
            let S := MTExp s1 s2 p
            let K := hashes.MTSha256 (paddedData S)
            (some (.inputCheckPasswordSRP srpId A (srpM hashes salt1 salt2 g p A B K)), keychain)

/-- `srpPasswordWithPassword:algo:srpId:srpB:outX:`; `outX` is left as it is for no password. -/
def srpPasswordWithPasswordOutX (a : Vector UInt8 256) (password : String)
    (algo : TGPasswordKdfAlgo) (srpId : Int64) (B : Bytes) (outX : Option Bytes)
    (keychain : Keychain) : Option TLInputCheckPasswordSRP × Option Bytes × Keychain :=
  if password = "" then (some .inputCheckPasswordEmpty, outX, keychain)
  else
    let x := xWithPassword hashes password algo
    let proof := srpPasswordWithX hashes a (x.getD []) algo srpId B keychain
    (proof.1, x, proof.2)

/-- `srpPasswordWithPassword:algo:srpId:srpB:`. -/
def srpPasswordWithPassword (a : Vector UInt8 256) (password : String) (algo : TGPasswordKdfAlgo)
    (srpId : Int64) (B : Bytes) (keychain : Keychain) :
    Option TLInputCheckPasswordSRP × Keychain :=
  let result := srpPasswordWithPasswordOutX hashes a password algo srpId B none keychain
  (result.1, result.2.2)

end Onegram.TwoStep
