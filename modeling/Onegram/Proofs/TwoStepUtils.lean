import Onegram.Lib.Srp
import Onegram.Proofs.DatacenterAuth
import Onegram.TwoStepUtils

/-!
# The server accepts the proof

What the client computes on byte strings is the protocol over the integers modulo `p`, and every
number that is hashed has 256 bytes.
-/

namespace Onegram.TwoStep

open Bytes DatacenterAuth

/-! ## The server -/

/-- A server with the verifier `v` of a password and the secret `b`, over numbers. -/
structure Server where
  salt1 : Bytes
  salt2 : Bytes
  g : ℕ
  p : ℕ
  v : ℕ
  b : ℕ

namespace Server

variable (hashes : Hashes) (s : Server)

def k : ℕ := bin2bn (hashes.MTSha256 (bytesBE 256 s.p ++ bytesBE 256 s.g))

def B : ℕ := (s.k hashes * s.v + s.g ^ s.b) % s.p

def u (A : Bytes) : ℕ := bin2bn (hashes.MTSha256 (A ++ bytesBE 256 (s.B hashes)))

def S (A : Bytes) : ℕ := (bin2bn A * s.v ^ s.u hashes A) ^ s.b % s.p

/-- The proof that the server accepts for `A`. -/
def M1 (A : Bytes) : Bytes :=
  let H := hashes.MTSha256
  let pHgHXor := (H (bytesBE 256 s.p)).mapIdx fun i x => (H (bytesBE 256 s.g)).getD i 0 ^^^ x
  H (pHgHXor ++ H s.salt1 ++ H s.salt2 ++ A ++ bytesBE 256 (s.B hashes)
    ++ H (bytesBE 256 (s.S hashes A)))

end Server

variable (hashes : Hashes) {a : Vector UInt8 256} {x salt1 salt2 p B : Bytes} {g : Int32}
  {srpId : Int64} {keychain : Keychain} {proof : TLInputCheckPasswordSRP}

/-! ## The checks that are made -/

structure SrpChecked (a : Vector UInt8 256) (x : Bytes) (g : Int32) (p B : Bytes)
    (keychain : Keychain) : Prop where
  base : MTCheckIsSafeG g.toUInt32.toNat
  mod : (MTCheckMod p g.toUInt32.toNat keychain).1
  range : MTCheckIsSafeB B p
  nonzero : ¬MTIsZero (srpU hashes (srpA a g p) B)
  unmasked : MTCheckIsSafeGAOrB (srpS1 hashes x g p B) p

/-- The secret of the client. -/
def srpS (a : Vector UInt8 256) (x : Bytes) (g : Int32) (p B : Bytes) : Bytes :=
  MTExp (srpS1 hashes x g p B)
    (MTAdd a.toList (MTMul (srpU hashes (srpA a g p) B) x)) p

def srpProof (a : Vector UInt8 256) (x salt1 salt2 : Bytes) (g : Int32) (p : Bytes) (srpId : Int64)
    (B : Bytes) : TLInputCheckPasswordSRP :=
  .inputCheckPasswordSRP srpId (srpA a g p)
    (srpM hashes salt1 salt2 g p (srpA a g p) B
      (hashes.MTSha256 (paddedData (srpS hashes a x g p B))))

theorem srpPasswordWithX_eq_some_iff :
    (srpPasswordWithX hashes a x (.modPow salt1 salt2 g p) srpId B keychain).1 = some proof
      ↔ SrpChecked hashes a x g p B keychain
        ∧ srpProof hashes a x salt1 salt2 g p srpId B = proof := by
  simp only [srpPasswordWithX]
  by_cases hbase : MTCheckIsSafeG g.toUInt32.toNat
  case neg =>
    rw [if_pos hbase]
    exact iff_of_false (by simp) fun h => hbase h.1.base
  rw [if_neg (not_not.mpr hbase)]
  by_cases hmod : (MTCheckMod p g.toUInt32.toNat keychain).1
  case neg =>
    rw [if_pos hmod]
    exact iff_of_false (by simp) fun h => hmod h.1.mod
  rw [if_neg (not_not.mpr hmod)]
  by_cases hrange : MTCheckIsSafeB B p
  case neg =>
    rw [if_pos hrange]
    exact iff_of_false (by simp) fun h => hrange h.1.range
  rw [if_neg (not_not.mpr hrange)]
  by_cases hzero : MTIsZero (srpU hashes (srpA a g p) B)
  case pos =>
    rw [if_pos hzero]
    exact iff_of_false (by simp) fun h => h.1.nonzero hzero
  rw [if_neg hzero]
  by_cases hunmasked : MTCheckIsSafeGAOrB (srpS1 hashes x g p B) p
  case neg =>
    rw [if_pos hunmasked]
    exact iff_of_false (by simp) fun h => hunmasked h.1.unmasked
  rw [if_neg (not_not.mpr hunmasked), Option.some.injEq]
  exact ⟨fun h => ⟨⟨hbase, hmod, hrange, hzero, hunmasked⟩, h⟩, fun h => h.2⟩

/-! ## Numbers of 256 bytes -/

theorem paddedData_eq {b : Bytes} (h : b.length ≤ 256) :
    paddedData b = bytesBE 256 (bin2bn b) := by
  have hpadded : paddedData b = addKeyPadding b := by
    rw [paddedData, addKeyPadding]
    split_ifs with hlt
    · rfl
    · rw [Nat.sub_eq_zero_of_le (by omega)]
      rfl
  have hbytes := bytesBE_bin2bn (addKeyPadding b)
  rw [length_addKeyPadding h, bin2bn_addKeyPadding] at hbytes
  rw [hpadded, hbytes]

theorem bin2bn_gData (g : Int32) : bin2bn (gData g) = g.toUInt32.toNat := by
  have hlt := g.toUInt32.toNat_lt
  rw [gData, bin2bn_bytesBE]
  exact Nat.mod_eq_of_lt (by norm_num; omega)

theorem paddedData_gData (g : Int32) : paddedData (gData g) = bytesBE 256 g.toUInt32.toNat := by
  have hlength : (gData g).length ≤ 256 := by rw [gData, length_bytesBE]; norm_num
  rw [paddedData_eq hlength, bin2bn_gData]

theorem paddedData_MTExp (base exp : Bytes) (hlength : p.length = 256)
    (hodd : bin2bn p % 2 = 1) :
    paddedData (MTExp base exp p) = bytesBE 256 (bin2bn base ^ bin2bn exp % bin2bn p) := by
  have hle : (MTExp base exp p).length ≤ 256 := hlength ▸ length_MTExp_le base exp p
  rw [paddedData_eq hle, bin2bn_MTExp hodd]

/-- The server of a password's number. -/
def serverOf (x salt1 salt2 : Bytes) (g : Int32) (p : Bytes) (b : ℕ) : Server where
  salt1 := salt1
  salt2 := salt2
  g := g.toUInt32.toNat
  p := bin2bn p
  v := g.toUInt32.toNat ^ bin2bn x % bin2bn p
  b := b

theorem server_p (hlength : p.length = 256) (x salt1 salt2 : Bytes) (b : ℕ) :
    bytesBE 256 (serverOf x salt1 salt2 g p b).p = p := by
  rw [serverOf, ← hlength, bytesBE_bin2bn]

theorem server_k (hlength : p.length = 256) (x salt1 salt2 : Bytes) (b : ℕ) :
    (serverOf x salt1 salt2 g p b).k hashes = bin2bn (srpK hashes g p) := by
  rw [Server.k, server_p hlength, srpK, paddedData_gData]
  rfl

/-- What is sent of a number below `p` is hashed as 256 bytes. -/
theorem paddedData_sent (hlength : p.length = 256) {n : ℕ} (hn : n < bin2bn p)
    (hB : B = bytesBE 256 n ∨ B = bn2bin n) :
    paddedData B = bytesBE 256 n ∧ bin2bn B = n := by
  have hlt : n < 256 ^ 256 := hn.trans (hlength ▸ bin2bn_lt p)
  have hnumber : bin2bn B = n := by
    rcases hB with hB | hB
    · rw [hB, bin2bn_bytesBE, Nat.mod_eq_of_lt hlt]
    · rw [hB, bin2bn_bn2bin]
  have hle : B.length ≤ 256 := by
    rcases hB with hB | hB
    · exact (hB ▸ length_bytesBE 256 n).le
    · rw [hB, bn2bin, length_bytesBE]
      exact bnNumBytes_le hlt
  rw [paddedData_eq hle, hnumber]
  exact ⟨rfl, rfl⟩

/-! ## Modulo `p` -/

theorem cast_MTExp (hodd : bin2bn p % 2 = 1) (base exp : Bytes) :
    ((bin2bn (MTExp base exp p) : ℕ) : ZMod (bin2bn p))
      = (bin2bn base : ZMod (bin2bn p)) ^ bin2bn exp := by
  rw [bin2bn_MTExp hodd, ZMod.natCast_mod, Nat.cast_pow]

theorem cast_MTModMul (hp : bin2bn p ≠ 0) (b c : Bytes) :
    ((bin2bn (MTModMul b c p) : ℕ) : ZMod (bin2bn p))
      = (bin2bn b : ZMod (bin2bn p)) * bin2bn c := by
  rw [MTModMul, if_neg hp, bin2bn_bn2bin, ZMod.natCast_mod, Nat.cast_mul]

theorem cast_MTModSub (hp : bin2bn p ≠ 0) (b c : Bytes) :
    ((bin2bn (MTModSub b c p) : ℕ) : ZMod (bin2bn p))
      = (bin2bn b : ZMod (bin2bn p)) - bin2bn c := by
  have hnonneg := Int.emod_nonneg ((bin2bn b : ℤ) - bin2bn c) (Int.natCast_ne_zero.mpr hp)
  rw [MTModSub, bin2bn_bn2bin, ← Int.cast_natCast, Int.natAbs_of_nonneg hnonneg, ZMod.intCast_mod,
    Int.cast_sub, Int.cast_natCast, Int.cast_natCast]

section Secrets

variable (hlength : p.length = 256) (hodd : bin2bn p % 2 = 1) (b : ℕ)

include hlength

theorem cast_server_B :
    (((serverOf x salt1 salt2 g p b).B hashes : ℕ) : ZMod (bin2bn p))
      = Srp.serverPublic (g.toUInt32.toNat : ZMod (bin2bn p)) (bin2bn (srpK hashes g p))
        (Srp.verifier (g.toUInt32.toNat : ZMod (bin2bn p)) (bin2bn x)) b := by
  rw [Server.B, server_k hashes hlength]
  show ((_ % bin2bn p : ℕ) : ZMod (bin2bn p)) = _
  rw [ZMod.natCast_mod, Srp.serverPublic, Srp.verifier]
  simp only [serverOf, Nat.cast_add, Nat.cast_mul, Nat.cast_pow, ZMod.natCast_mod]

include hodd

theorem bin2bn_srpA :
    bin2bn (srpA a g p) = g.toUInt32.toNat ^ bin2bn a.toList % bin2bn p := by
  have hlt : g.toUInt32.toNat ^ bin2bn a.toList % bin2bn p < 256 ^ 256 :=
    (Nat.mod_lt _ (by omega)).trans (hlength ▸ bin2bn_lt p)
  rw [srpA, paddedData_MTExp _ _ hlength hodd, bin2bn_bytesBE, bin2bn_gData, Nat.mod_eq_of_lt hlt]

/-- The server computes the other side of the protocol. -/
theorem cast_server_S :
    (((serverOf x salt1 salt2 g p b).S hashes (srpA a g p) : ℕ) : ZMod (bin2bn p))
      = Srp.serverSecret (Srp.clientPublic (g.toUInt32.toNat : ZMod (bin2bn p)) (bin2bn a.toList))
        (Srp.verifier (g.toUInt32.toNat : ZMod (bin2bn p)) (bin2bn x))
        ((serverOf x salt1 salt2 g p b).u hashes (srpA a g p)) b := by
  rw [Server.S, bin2bn_srpA hlength hodd]
  show ((_ % bin2bn p : ℕ) : ZMod (bin2bn p)) = _
  rw [ZMod.natCast_mod, Srp.serverSecret, Srp.verifier, Srp.clientPublic]
  simp only [serverOf, Nat.cast_mul, Nat.cast_pow, ZMod.natCast_mod]

/-- The client computes its side. -/
theorem cast_srpS (hB : bin2bn B = (serverOf x salt1 salt2 g p b).B hashes) :
    ((bin2bn (srpS hashes a x g p B) : ℕ) : ZMod (bin2bn p))
      = Srp.clientSecret (g.toUInt32.toNat : ZMod (bin2bn p)) (bin2bn (srpK hashes g p))
        (Srp.serverPublic (g.toUInt32.toNat : ZMod (bin2bn p)) (bin2bn (srpK hashes g p))
          (Srp.verifier (g.toUInt32.toNat : ZMod (bin2bn p)) (bin2bn x)) b)
        (bin2bn x) (bin2bn a.toList) (bin2bn (srpU hashes (srpA a g p) B)) := by
  have hp : bin2bn p ≠ 0 := by omega
  rw [srpS, cast_MTExp hodd, srpS1, cast_MTModSub hp, cast_MTModMul hp, cast_MTExp hodd,
    bin2bn_gData, hB, cast_server_B hashes hlength, MTAdd, MTMul, bin2bn_bn2bin, bin2bn_bn2bin,
    Srp.clientSecret, Srp.unmasked, Srp.verifier]

omit hlength hodd in
theorem server_u (hpadded : paddedData B = bytesBE 256 ((serverOf x salt1 salt2 g p b).B hashes)) :
    (serverOf x salt1 salt2 g p b).u hashes (srpA a g p)
      = bin2bn (srpU hashes (srpA a g p) B) := by
  rw [Server.u, srpU, hpadded]

theorem secrets_eq (hpadded : paddedData B = bytesBE 256 ((serverOf x salt1 salt2 g p b).B hashes))
    (hB : bin2bn B = (serverOf x salt1 salt2 g p b).B hashes) :
    bin2bn (srpS hashes a x g p B) = (serverOf x salt1 salt2 g p b).S hashes (srpA a g p) := by
  have hcast : ((bin2bn (srpS hashes a x g p B) : ℕ) : ZMod (bin2bn p))
      = (((serverOf x salt1 salt2 g p b).S hashes (srpA a g p) : ℕ) : ZMod (bin2bn p)) := by
    rw [cast_srpS hashes hlength hodd b hB, Srp.secrets_agree,
      cast_server_S hashes hlength hodd b, server_u hashes b hpadded]
  have hmod := (ZMod.natCast_eq_natCast_iff _ _ _).mp hcast
  have hclient : bin2bn (srpS hashes a x g p B) < bin2bn p := by
    rw [srpS, bin2bn_MTExp hodd]
    exact Nat.mod_lt _ (by omega)
  have hserver : (serverOf x salt1 salt2 g p b).S hashes (srpA a g p) < bin2bn p :=
    Nat.mod_lt _ (by show 0 < bin2bn p; omega)
  exact Nat.ModEq.eq_of_lt_of_lt hmod hclient hserver

theorem server_M1 (hpadded : paddedData B = bytesBE 256 ((serverOf x salt1 salt2 g p b).B hashes))
    (hB : bin2bn B = (serverOf x salt1 salt2 g p b).B hashes) :
    srpM hashes salt1 salt2 g p (srpA a g p) B
        (hashes.MTSha256 (paddedData (srpS hashes a x g p B)))
      = (serverOf x salt1 salt2 g p b).M1 hashes (srpA a g p) := by
  have hS : paddedData (srpS hashes a x g p B)
      = bytesBE 256 ((serverOf x salt1 salt2 g p b).S hashes (srpA a g p)) := by
    have hle : (srpS hashes a x g p B).length ≤ 256 := hlength ▸ length_MTExp_le _ _ p
    rw [paddedData_eq hle, secrets_eq hashes hlength hodd b hpadded hB]
  rw [srpM, hS, hpadded, paddedData_gData, Server.M1, server_p hlength]
  rfl

end Secrets

/-- Whenever the client answers, its `A` and its proof are those that a server with the verifier of
the password accepts, and both have computed one secret. -/
theorem srp_agreement {password : String} (hpassword : password ≠ "") (hlength : p.length = 256)
    (hodd : bin2bn p % 2 = 1) (b : ℕ) (hx : x ∈ xWithPassword hashes password
      (.modPow salt1 salt2 g p))
    (hB : B = bytesBE 256 ((serverOf x salt1 salt2 g p b).B hashes)
      ∨ B = bn2bin ((serverOf x salt1 salt2 g p b).B hashes))
    (h : (srpPasswordWithPassword hashes a password (.modPow salt1 salt2 g p) srpId B keychain).1
      = some proof) :
    let server := serverOf x salt1 salt2 g p b
    let A := bytesBE 256 (server.g ^ bin2bn a.toList % server.p)
    passwordHashWithPassword hashes password (.modPow salt1 salt2 g p) = some (bn2bin server.v)
      ∧ proof = .inputCheckPasswordSRP srpId A (server.M1 hashes A)
      ∧ ((server.B hashes : ℤ) - server.k hashes * server.g ^ bin2bn x)
          ^ (bin2bn a.toList + server.u hashes A * bin2bn x)
        ≡ (bin2bn A * server.v ^ server.u hashes A) ^ b [ZMOD server.p] := by
  intro server A
  have hx : xWithPassword hashes password (.modPow salt1 salt2 g p) = some x := hx
  have hpos : 0 < bin2bn p := by omega
  have hn : server.B hashes < bin2bn p := Nat.mod_lt _ hpos
  obtain ⟨hpadded, hnumber⟩ := paddedData_sent hlength hn hB
  have hA : srpA a g p = A := by
    rw [srpA, paddedData_MTExp _ _ hlength hodd, bin2bn_gData]
    rfl
  refine ⟨?_, ?_, ?_⟩
  · rw [passwordHashWithPassword, hx, vWithX, Option.map_some, MTExp, if_pos hodd, bin2bn_gData]
    rfl
  · simp only [srpPasswordWithPassword, srpPasswordWithPasswordOutX, if_neg hpassword, hx,
      Option.getD_some] at h
    obtain ⟨_, rfl⟩ := (srpPasswordWithX_eq_some_iff hashes).mp h
    rw [srpProof, server_M1 hashes hlength hodd b hpadded hnumber, hA]
  · have hv : (server.v : ZMod (bin2bn p))
        = Srp.verifier (g.toUInt32.toNat : ZMod (bin2bn p)) (bin2bn x) := by
      show ((g.toUInt32.toNat ^ bin2bn x % bin2bn p : ℕ) : ZMod (bin2bn p)) = _
      rw [ZMod.natCast_mod, Nat.cast_pow]
      rfl
    have hAcast : (bin2bn A : ZMod (bin2bn p))
        = Srp.clientPublic (g.toUInt32.toNat : ZMod (bin2bn p)) (bin2bn a.toList) := by
      rw [← hA, bin2bn_srpA hlength hodd, ZMod.natCast_mod, Nat.cast_pow]
      rfl
    have hBcast : (server.B hashes : ZMod (bin2bn p)) = Srp.serverPublic
        (g.toUInt32.toNat : ZMod (bin2bn p)) (bin2bn (srpK hashes g p))
        (Srp.verifier (g.toUInt32.toNat : ZMod (bin2bn p)) (bin2bn x)) b :=
      cast_server_B hashes hlength b
    have hk : server.k hashes = bin2bn (srpK hashes g p) := server_k hashes hlength _ _ _ _
    have hsecrets := Srp.secrets_agree (g.toUInt32.toNat : ZMod (bin2bn p))
      (bin2bn (srpK hashes g p)) (bin2bn x) (bin2bn a.toList) b (server.u hashes A)
    rw [Srp.clientSecret, Srp.unmasked, Srp.serverSecret, ← hBcast, ← hAcast, ← hk] at hsecrets
    show _ ≡ _ [ZMOD (bin2bn p : ℕ)]
    refine (ZMod.intCast_eq_intCast_iff _ _ _).mp ?_
    push_cast
    rw [hv]
    exact hsecrets

/-- Hashes of one byte. -/
def threes : Hashes := ⟨fun _ => [3], fun _ _ => []⟩

/-- 23 in 256 bytes. -/
def prime23 : Bytes := List.replicate 255 0 ++ [23]

theorem srp_agreement_small :
    let server := serverOf [3] [] [] 4 prime23 2
    let A := bytesBE 256 (server.g ^ bin2bn (Vector.replicate 256 (0 : UInt8)).toList % server.p)
    passwordHashWithPassword threes "a" (.modPow [] [] 4 prime23) = some (bn2bin server.v)
      ∧ TLInputCheckPasswordSRP.inputCheckPasswordSRP 7 (bytesBE 256 1) [3]
        = .inputCheckPasswordSRP 7 A (server.M1 threes A)
      ∧ ((server.B threes : ℤ) - server.k threes * server.g ^ bin2bn [3])
          ^ (bin2bn (Vector.replicate 256 (0 : UInt8)).toList + server.u threes A * bin2bn [3])
        ≡ (bin2bn A * server.v ^ server.u threes A) ^ 2 [ZMOD server.p] := by
  have h : (srpPasswordWithPassword threes (Vector.replicate 256 0) "a" (.modPow [] [] 4 prime23) 7
      [1] (fun _ => none)).1 = some (.inputCheckPasswordSRP 7 (bytesBE 256 1) [3]) := by
    decide +kernel
  exact srp_agreement threes (by decide +kernel) (by decide +kernel) (by decide +kernel) 2 rfl
    (.inr (by decide +kernel)) h

end Onegram.TwoStep

/-!
## The checks before a proof

The client makes every check of the server's parameters but one: that `p` is a safe prime.
-/

namespace Onegram.TwoStep

open Bytes DatacenterAuth

/-! ## What the keychain remembers -/

/-- The checks that write to the keychain of the primes. -/
inductive PrimeCheck
  | mod (numberBytes : Bytes) (g : ℕ)
  | safePrime (BN_is_prime_ex : ℕ → Bool) (numberBytes : Bytes)

def PrimeCheck.run (keychain : Keychain) : PrimeCheck → Keychain
  | .mod numberBytes g => (MTCheckMod numberBytes g keychain).2
  | .safePrime BN_is_prime_ex numberBytes =>
    (MTCheckIsSafePrime BN_is_prime_ex numberBytes keychain).2

def keychainAfter (checks : List PrimeCheck) : Keychain :=
  checks.foldl PrimeCheck.run fun _ => none

theorem modSound_foldl : ∀ (checks : List PrimeCheck) {keychain : Keychain},
    ModSound keychain → ModSound (checks.foldl PrimeCheck.run keychain)
  | [], _, h => h
  | .mod numberBytes g :: checks, _, h => modSound_foldl checks (checkMod_sound h numberBytes g)
  | .safePrime BN_is_prime_ex numberBytes :: checks, _, h =>
    modSound_foldl checks (checkSafePrime_sound h BN_is_prime_ex numberBytes)

theorem modSound_keychainAfter (checks : List PrimeCheck) : ModSound (keychainAfter checks) :=
  modSound_foldl checks fun _ _ _ h => nomatch h

/-! ## The parameters of a proof -/

variable (hashes : Hashes) {a : Vector UInt8 256} {x p B : Bytes} {g : Int32}
  {keychain : Keychain}

/-- What is asked of the server's parameters, the last one of `B - k * g ^ x` modulo `p`. -/
structure SrpSafe (BN_is_prime_ex : ℕ → Bool) (a : Vector UInt8 256) (x : Bytes) (g : Int32)
    (p B : Bytes) (keychain : Keychain) : Prop where
  prime : (MTCheckIsSafePrime BN_is_prime_ex p keychain).1
  base : 2 ≤ g.toInt ∧ g.toInt ≤ 7
  residue : residue (bin2bn p) g.toInt.toNat
  range : 0 < bin2bn B ∧ bin2bn B < bin2bn p
  nonzero : bin2bn (srpU hashes (srpA a g p) B) ≠ 0
  unmasked : 1 < bin2bn (srpS1 hashes x g p B) ∧ bin2bn (srpS1 hashes x g p B) < bin2bn p - 1

theorem toInt_of_toNat_le {g : Int32} (h : g.toUInt32.toNat ≤ 7) :
    g.toInt = g.toUInt32.toNat := by
  have hnat : g.toUInt32.toNat = g.toBitVec.toNat := rfl
  have hint : g.toInt = g.toBitVec.toInt := rfl
  rw [hnat] at h ⊢
  rw [hint, BitVec.toInt_eq_toNat_of_lt (by omega)]

/-- The checks that are made say all but the first. -/
theorem SrpChecked.safe (hkeychain : ModSound keychain)
    (h : SrpChecked hashes a x g p B keychain) {BN_is_prime_ex : ℕ → Bool}
    (hprime : (MTCheckIsSafePrime BN_is_prime_ex p keychain).1) :
    SrpSafe hashes BN_is_prime_ex a x g p B keychain := by
  obtain ⟨hbase, hmod, hrange, hnonzero, hunmasked⟩ := h
  simp only [MTCheckIsSafeG, Bool.and_eq_true, decide_eq_true_eq] at hbase
  simp only [MTCheckIsSafeB, Bool.and_eq_true, decide_eq_true_eq] at hrange
  simp only [MTIsZero, decide_eq_true_eq] at hnonzero
  simp only [MTCheckIsSafeGAOrB, Bool.and_eq_true, decide_eq_true_eq] at hunmasked
  rw [checkMod_result hkeychain] at hmod
  have hg := toInt_of_toNat_le hbase.2
  refine ⟨hprime, ?_, ?_, hrange, hnonzero, ?_⟩
  · omega
  · rwa [hg, Int.toNat_natCast]
  · omega

/-- With an odd `p` the value is that of the integers. -/
theorem bin2bn_srpS1 (hodd : bin2bn p % 2 = 1) : (bin2bn (srpS1 hashes x g p B) : ℤ)
    = ((bin2bn B : ℤ) - bin2bn (srpK hashes g p) * g.toUInt32.toNat ^ bin2bn x) % bin2bn p := by
  have hp : bin2bn p ≠ 0 := by omega
  have hlt : bin2bn (srpS1 hashes x g p B) < bin2bn p := by
    rw [srpS1, MTModSub, bin2bn_bn2bin]
    have hpos : (0 : ℤ) < bin2bn p := by omega
    have hmod := Int.emod_lt_of_pos ((bin2bn B : ℤ)
      - bin2bn (MTModMul (srpK hashes g p) (MTExp (gData g) x p) p)) hpos
    have hnonneg := Int.emod_nonneg ((bin2bn B : ℤ)
      - bin2bn (MTModMul (srpK hashes g p) (MTExp (gData g) x p) p)) hpos.ne'
    omega
  have hcast : ((bin2bn (srpS1 hashes x g p B) : ℤ) : ZMod (bin2bn p))
      = ((bin2bn B : ℤ) - bin2bn (srpK hashes g p) * g.toUInt32.toNat ^ bin2bn x : ℤ) := by
    rw [Int.cast_natCast, srpS1, cast_MTModSub hp, cast_MTModMul hp, cast_MTExp hodd, bin2bn_gData]
    push_cast
    rfl
  have hmod := (ZMod.intCast_eq_intCast_iff _ _ _).mp hcast
  rw [← hmod, Int.emod_eq_of_lt (by omega) (by omega)]

/-- A proof is only given for safe parameters exactly where `p` is a safe prime or a check that is
made refuses the parameters, and where they are refused there is no answer. -/
theorem srp_parameters (BN_is_prime_ex : ℕ → Bool) (a : Vector UInt8 256) (x B : Bytes)
    (srpId : Int64) (checks : List PrimeCheck) :
    let keychain := keychainAfter checks
    (srpPasswordWithX hashes a x .unknown srpId B keychain).1 = none
      ∧ ∀ salt1 salt2 g p,
        ((∀ proof, (srpPasswordWithX hashes a x (.modPow salt1 salt2 g p) srpId B keychain).1
            = some proof → SrpSafe hashes BN_is_prime_ex a x g p B keychain)
          ↔ ((MTCheckIsSafePrime BN_is_prime_ex p keychain).1
            ∨ ¬SrpChecked hashes a x g p B keychain))
        ∧ ((srpPasswordWithX hashes a x (.modPow salt1 salt2 g p) srpId B keychain).1 = none
          ↔ ¬SrpChecked hashes a x g p B keychain) := by
  intro keychain
  have hkeychain : ModSound keychain := modSound_keychainAfter checks
  refine ⟨rfl, fun salt1 salt2 g p => ⟨⟨fun h => ?_, fun h proof hproof => ?_⟩, ?_⟩⟩
  · by_cases hchecked : SrpChecked hashes a x g p B keychain
    · exact .inl (h _ ((srpPasswordWithX_eq_some_iff hashes).mpr ⟨hchecked, rfl⟩)).prime
    · exact .inr hchecked
  · obtain ⟨hchecked, _⟩ := (srpPasswordWithX_eq_some_iff hashes).mp hproof
    rcases h with hprime | hrefused
    · exact hchecked.safe hashes hkeychain hprime
    · exact absurd hchecked hrefused
  · rw [← not_iff_not, not_not, ← ne_eq, Option.ne_none_iff_exists']
    exact ⟨fun ⟨_, hproof⟩ => ((srpPasswordWithX_eq_some_iff hashes).mp hproof).1,
      fun hchecked => ⟨_, (srpPasswordWithX_eq_some_iff hashes).mpr ⟨hchecked, rfl⟩⟩⟩

/-- A proof for a `p` of one byte. -/
theorem srp_composite : ¬∀ proof, (srpPasswordWithX threes (Vector.replicate 256 0) [3]
      (.modPow [] [] 4 [16]) 7 [5] (keychainAfter [])).1 = some proof →
    SrpSafe threes (fun _ => true) (Vector.replicate 256 0) [3] 4 [16] [5] (keychainAfter []) := by
  intro h
  have hproof : (srpPasswordWithX threes (Vector.replicate 256 0) [3] (.modPow [] [] 4 [16]) 7 [5]
      (keychainAfter [])).1 = some (.inputCheckPasswordSRP 7 (bytesBE 256 0) [3]) := by
    decide +kernel
  exact absurd (h _ hproof).prime (by decide +kernel)

end Onegram.TwoStep
