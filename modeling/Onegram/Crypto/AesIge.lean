import Onegram.Lib.Bytes

/-!
# AES in infinite garble extension

`MyAesIgeEncrypt` and `MyAesIgeDecrypt` over a block cipher. Encryption is done with a cipher block
chaining of the platform: the input is xored with itself two blocks back before, and with itself one
block back after. Decryption follows the definition of the mode block by block.
-/

namespace Onegram

def xorBytes (a b : Bytes) : Bytes := List.zipWith (· ^^^ ·) a b

/-- The first `n` blocks of 16 bytes. -/
def toBlocks : ℕ → Bytes → List Bytes
  | 0, _ => []
  | n + 1, data => data.take 16 :: toBlocks n (data.drop 16)

variable (encrypt decrypt : Bytes → Bytes → Bytes)

/-- `CCCrypt(kCCEncrypt, …)` without options: cipher block chaining. -/
def cbcEncrypt (key : Bytes) : Bytes → List Bytes → List Bytes
  | _, [] => []
  | iv, block :: blocks =>
    let out := encrypt key (xorBytes block iv)
    out :: cbcEncrypt key out blocks

def igeEncrypt (key aesIv ccIv : Bytes) (blocks : List Bytes) : List Bytes :=
  let tmpBlocks := match blocks with
    | [] => []
    | block :: rest => block :: List.zipWith xorBytes rest (ccIv :: blocks)
  List.zipWith xorBytes (cbcEncrypt encrypt key aesIv tmpBlocks) (ccIv :: blocks)

def igeDecrypt (key : Bytes) : Bytes → Bytes → List Bytes → List Bytes
  | _, _, [] => []
  | ivp, iv2p, block :: blocks =>
    let out := xorBytes (decrypt key (xorBytes block iv2p)) ivp
    out :: igeDecrypt key block out blocks

def MTAesEncryptInplace (data key iv : Bytes) : Bytes :=
  (igeEncrypt encrypt key (iv.take 16) (iv.drop 16) (toBlocks (data.length / 16) data)).flatten

def MTAesDecrypt (data key iv : Bytes) : Bytes :=
  (igeDecrypt decrypt key (iv.take 16) (iv.drop 16) (toBlocks (data.length / 16) data)).flatten

/-! ## Xor and blocks -/

theorem length_xorBytes (a b : Bytes) : (xorBytes a b).length = min a.length b.length := by
  simp [xorBytes]

theorem xorBytes_comm (a b : Bytes) : xorBytes a b = xorBytes b a :=
  List.zipWith_comm_of_comm fun x y => UInt8.xor_comm x y

theorem xorBytes_assoc : ∀ a b c : Bytes,
    xorBytes (xorBytes a b) c = xorBytes a (xorBytes b c)
  | [], _, _ => by simp [xorBytes]
  | _ :: _, [], _ => by simp [xorBytes]
  | _ :: _, _ :: _, [] => by simp [xorBytes]
  | x :: a, y :: b, z :: c => by
    have ih := xorBytes_assoc a b c
    simp only [xorBytes, List.zipWith_cons_cons, List.cons.injEq] at ih ⊢
    exact ⟨UInt8.xor_assoc x y z, ih⟩

theorem xorBytes_cancel {a b : Bytes} (h : a.length = b.length) : xorBytes (xorBytes a b) b = a :=
  Bytes.zipWith_xor_cancel h.le

theorem toBlocks_length : ∀ (n : ℕ) {data : Bytes}, data.length = 16 * n →
    ∀ block ∈ toBlocks n data, block.length = 16
  | 0, _, _ => by simp [toBlocks]
  | n + 1, data, h => by
    intro block hblock
    rcases List.mem_cons.1 hblock with rfl | hblock
    · simp; omega
    · exact toBlocks_length n (by simp; omega) block hblock

theorem mem_toBlocks : ∀ (n : ℕ) {data : Bytes}, 16 * n ≤ data.length →
    ∀ block ∈ toBlocks n data, block.length = 16
  | 0, _, _ => by simp [toBlocks]
  | n + 1, data, h => by
    intro block hblock
    rcases List.mem_cons.1 hblock with rfl | hblock
    · rw [List.length_take]
      omega
    · exact mem_toBlocks n (by rw [List.length_drop]; omega) block hblock

theorem length_toBlocks : ∀ (n : ℕ) (data : Bytes), (toBlocks n data).length = n
  | 0, _ => rfl
  | n + 1, data => by rw [toBlocks, List.length_cons, length_toBlocks n]

theorem flatten_toBlocks : ∀ (n : ℕ) {data : Bytes}, data.length = 16 * n →
    (toBlocks n data).flatten = data
  | 0, data, h => by
    rw [List.length_eq_zero_iff.1 (by omega : data.length = 0)]
    rfl
  | n + 1, data, h => by
    rw [toBlocks, List.flatten_cons, flatten_toBlocks n (by simp; omega), List.take_append_drop]

theorem toBlocks_flatten : ∀ {blocks : List Bytes}, (∀ block ∈ blocks, block.length = 16) →
    toBlocks blocks.length blocks.flatten = blocks
  | [], _ => rfl
  | block :: blocks, h => by
    have hlen := h block List.mem_cons_self
    rw [List.length_cons, List.flatten_cons, toBlocks, List.take_left' hlen, List.drop_left' hlen,
      toBlocks_flatten fun b hb => h b (List.mem_cons_of_mem _ hb)]

theorem length_flatten_blocks {blocks : List Bytes} (h : ∀ block ∈ blocks, block.length = 16) :
    blocks.flatten.length = 16 * blocks.length := by
  rw [List.length_flatten, List.map_congr_left h, List.map_const', List.sum_replicate]
  simp [Nat.mul_comm]

/-! ## The round trip -/

/-- The mode as it is defined. -/
def igeSpec (key : Bytes) : Bytes → Bytes → List Bytes → List Bytes
  | _, _, [] => []
  | c, p, block :: blocks =>
    let out := xorBytes (encrypt key (xorBytes block c)) p
    out :: igeSpec key out block blocks

/-- The chaining, two blocks in: the block before the last one is `q`, the last one `p`, and `o`
came out for it before the last xor. -/
theorem cbcEncrypt_eq_igeSpec (key : Bytes) : ∀ (blocks : List Bytes) (o q p : Bytes),
    List.zipWith xorBytes
        (cbcEncrypt encrypt key o (List.zipWith xorBytes blocks (q :: p :: blocks))) (p :: blocks)
      = igeSpec encrypt key (xorBytes o q) p blocks
  | [], _, _, _ => rfl
  | block :: blocks, o, q, p => by
    have hin : xorBytes (xorBytes block q) o = xorBytes block (xorBytes o q) := by
      rw [xorBytes_assoc, xorBytes_comm q o]
    have ih := cbcEncrypt_eq_igeSpec key blocks (encrypt key (xorBytes block (xorBytes o q))) p block
    simp only [List.zipWith_cons_cons, cbcEncrypt, igeSpec, hin]
    exact congrArg _ ih

theorem igeEncrypt_eq_igeSpec (key aesIv ccIv : Bytes) (blocks : List Bytes) :
    igeEncrypt encrypt key aesIv ccIv blocks = igeSpec encrypt key aesIv ccIv blocks := by
  cases blocks with
  | nil => rfl
  | cons block blocks =>
    have h := cbcEncrypt_eq_igeSpec encrypt key blocks (encrypt key (xorBytes block aesIv)) ccIv block
    simp only [igeEncrypt, cbcEncrypt, igeSpec, List.zipWith_cons_cons]
    exact congrArg _ h

/-- What is asked of the block cipher. -/
structure BlockCipher : Prop where
  length_encrypt : ∀ key block, key.length = 32 → block.length = 16 →
    (encrypt key block).length = 16
  decrypt_encrypt : ∀ key block, key.length = 32 → block.length = 16 →
    decrypt key (encrypt key block) = block

/-- The same of the cipher under one key. -/
structure BlockInverse (key : Bytes) : Prop where
  length_encrypt : ∀ block : Bytes, block.length = 16 → (encrypt key block).length = 16
  decrypt_encrypt : ∀ block : Bytes, block.length = 16 → decrypt key (encrypt key block) = block

variable {encrypt decrypt}

theorem BlockCipher.inverse (hc : BlockCipher encrypt decrypt) {key : Bytes}
    (hkey : key.length = 32) : BlockInverse encrypt decrypt key :=
  ⟨fun block => hc.length_encrypt key block hkey, fun block => hc.decrypt_encrypt key block hkey⟩

theorem igeSpec_length {key : Bytes} (hc : BlockInverse encrypt decrypt key) :
    ∀ (blocks : List Bytes) (c p : Bytes), c.length = 16 → p.length = 16 →
      (∀ block ∈ blocks, block.length = 16) →
      ∀ out ∈ igeSpec encrypt key c p blocks, out.length = 16
  | [], _, _, _, _, _ => by simp [igeSpec]
  | block :: blocks, c, p, hc', hp, hb => by
    have hblock := hb block List.mem_cons_self
    have hout : (xorBytes (encrypt key (xorBytes block c)) p).length = 16 := by
      rw [length_xorBytes, hc.length_encrypt _ (by rw [length_xorBytes]; omega)]
      omega
    intro out hmem
    rcases List.mem_cons.1 hmem with rfl | hmem
    · exact hout
    · exact igeSpec_length hc blocks _ block hout hblock
        (fun b h => hb b (List.mem_cons_of_mem _ h)) out hmem

theorem igeDecrypt_igeSpec {key : Bytes} (hc : BlockInverse encrypt decrypt key) :
    ∀ (blocks : List Bytes) (c p : Bytes), c.length = 16 → p.length = 16 →
      (∀ block ∈ blocks, block.length = 16) →
      igeDecrypt decrypt key c p (igeSpec encrypt key c p blocks) = blocks
  | [], _, _, _, _, _ => rfl
  | block :: blocks, c, p, hc', hp, hb => by
    have hblock := hb block List.mem_cons_self
    have hin : (xorBytes block c).length = 16 := by
      rw [length_xorBytes]
      omega
    have hlen := hc.length_encrypt _ hin
    have hout : (xorBytes (encrypt key (xorBytes block c)) p).length = 16 := by
      rw [length_xorBytes]
      omega
    have hback : xorBytes (decrypt key (xorBytes (xorBytes (encrypt key (xorBytes block c)) p) p)) c
        = block := by
      rw [xorBytes_cancel (by omega), hc.decrypt_encrypt _ hin, xorBytes_cancel (by omega)]
    simp only [igeSpec, igeDecrypt, hback]
    exact congrArg _ (igeDecrypt_igeSpec hc blocks _ block hout hblock
      fun b h => hb b (List.mem_cons_of_mem _ h))

theorem length_igeDecrypt (key : Bytes) : ∀ (blocks : List Bytes) (c p : Bytes),
    (igeDecrypt decrypt key c p blocks).length = blocks.length
  | [], _, _ => rfl
  | block :: blocks, _, _ => by
    rw [igeDecrypt, List.length_cons, length_igeDecrypt key blocks, List.length_cons]

theorem mem_igeDecrypt {key : Bytes}
    (hdecrypt : ∀ block : Bytes, block.length = 16 → (decrypt key block).length = 16) :
    ∀ (blocks : List Bytes) (c p : Bytes), c.length = 16 → p.length = 16 →
      (∀ block ∈ blocks, block.length = 16) →
      ∀ out ∈ igeDecrypt decrypt key c p blocks, out.length = 16
  | [], _, _, _, _, _ => by simp [igeDecrypt]
  | block :: blocks, c, p, hc', hp, hb => by
    have hblock := hb block List.mem_cons_self
    have hin : (xorBytes block p).length = 16 := by
      rw [length_xorBytes]
      omega
    have hout : (xorBytes (decrypt key (xorBytes block p)) c).length = 16 := by
      rw [length_xorBytes, hdecrypt _ hin]
      omega
    intro out hmem
    rcases List.mem_cons.1 hmem with rfl | hmem
    · exact hout
    · exact mem_igeDecrypt hdecrypt blocks block _ hblock hout
        (fun b h => hb b (List.mem_cons_of_mem _ h)) out hmem

variable {data key iv : Bytes}

/-- As many bytes as there are in whole blocks. -/
theorem length_MTAesDecrypt
    (hdecrypt : ∀ block : Bytes, block.length = 16 → (decrypt key block).length = 16)
    (hiv : iv.length = 32) :
    (MTAesDecrypt decrypt data key iv).length = 16 * (data.length / 16) := by
  have hblocks := mem_toBlocks (data.length / 16)
    (by omega : 16 * (data.length / 16) ≤ data.length)
  have hout := mem_igeDecrypt hdecrypt _ (iv.take 16) (iv.drop 16) (by simp [hiv]) (by simp [hiv])
    hblocks
  rw [MTAesDecrypt, length_flatten_blocks hout, length_igeDecrypt, length_toBlocks]

theorem length_igeSpec (key : Bytes) : ∀ (blocks : List Bytes) (c p : Bytes),
    (igeSpec encrypt key c p blocks).length = blocks.length
  | [], _, _ => rfl
  | block :: blocks, _, _ => by
    rw [igeSpec, List.length_cons, length_igeSpec key blocks, List.length_cons]

/-- Decryption undoes encryption on whole blocks, which it does not make longer. -/
theorem MTAesDecrypt_MTAesEncryptInplace (hc : BlockCipher encrypt decrypt)
    (hkey : key.length = 32) (hiv : iv.length = 32) (hdata : data.length % 16 = 0) :
    MTAesDecrypt decrypt (MTAesEncryptInplace encrypt data key iv) key iv = data
      ∧ (MTAesEncryptInplace encrypt data key iv).length = data.length := by
  have hlen : data.length = 16 * (data.length / 16) := by omega
  have hblocks := toBlocks_length _ hlen
  have hcount : (toBlocks (data.length / 16) data).length = data.length / 16 := by
    have h := length_flatten_blocks hblocks
    rw [flatten_toBlocks _ hlen] at h
    omega
  have hiv₁ : (iv.take 16).length = 16 := by simp [hiv]
  have hiv₂ : (iv.drop 16).length = 16 := by simp [hiv]
  have hcipher := hc.inverse hkey
  have hout := igeSpec_length hcipher _ _ _ hiv₁ hiv₂ hblocks
  have hlen' : (MTAesEncryptInplace encrypt data key iv).length = data.length := by
    rw [MTAesEncryptInplace, igeEncrypt_eq_igeSpec, length_flatten_blocks hout, length_igeSpec,
      hcount]
    omega
  refine ⟨?_, hlen'⟩
  rw [MTAesDecrypt, hlen', MTAesEncryptInplace, igeEncrypt_eq_igeSpec]
  have hback := toBlocks_flatten hout
  rw [length_igeSpec, hcount] at hback
  rw [hback, igeDecrypt_igeSpec hcipher _ _ _ hiv₁ hiv₂ hblocks, flatten_toBlocks _ hlen]

end Onegram

/-!
## AES-IGE on buffers

`MyAesIgeEncrypt` and `MyAesIgeDecrypt` as they walk their buffers. A pointer to a block is a local
array or an offset into one of the buffers; a read or a write past the end of a buffer is a fault.
-/

namespace Onegram.Ige

open Onegram

def blockAt (buffer : Bytes) (offset : ℕ) : Option Bytes :=
  if offset + 16 ≤ buffer.length then some ((buffer.drop offset).take 16) else none

def storeBlock (buffer : Bytes) (offset : ℕ) (block : Bytes) : Option Bytes :=
  if offset + 16 ≤ buffer.length then
    some (buffer.take offset ++ block ++ buffer.drop (offset + 16))
  else none

/-- What an `aes_block_t *` points to. -/
inductive BlockPointer
  | localArray (block : Bytes)
  | inBytes (offset : ℕ)
  | outBytes (offset : ℕ)
  deriving DecidableEq

def BlockPointer.load (inBytes outBytes : Bytes) : BlockPointer → Option Bytes
  | .localArray block => some block
  | .inBytes offset => blockAt inBytes offset
  | .outBytes offset => blockAt outBytes offset

/-- A length as it arrives in an `int`. -/
def toInt (length : ℕ) : ℤ := (length : ℤ).bmod (2 ^ 32)

def validKeyLength (key : Bytes) : Bool :=
  key.length == 16 || key.length == 24 || key.length == 32

variable (encrypt decrypt : Bytes → Bytes → Bytes)

/-- `CCCrypt(kCCEncrypt, kCCAlgorithmAES128, 0, …)` with the status that the caller asserts. -/
def CCCrypt (key iv dataIn dataOut : Bytes) : Option Bytes :=
  if validKeyLength key ∧ dataIn.length % 16 = 0 ∧ dataIn.length ≤ dataOut.length then
    some ((cbcEncrypt encrypt key iv (toBlocks (dataIn.length / 16) dataIn)).flatten
      ++ dataOut.drop dataIn.length)
  else none

/-- The loop that fills `tmpInBytes` from its second block on. -/
def xorInput (inBytes : Bytes) : ℕ → ℕ → ℕ → ℕ → BlockPointer → Bytes → Option Bytes
  | 0, _, _, _, _, tmpInBytes => some tmpInBytes
  | len + 1, inB, outB, inBCC, iv3p, tmpInBytes => do
    let inp ← blockAt inBytes inB
    let back ← iv3p.load inBytes []
    let tmpInBytes ← storeBlock tmpInBytes outB (xorBytes inp back)
    xorInput inBytes len (inB + 16) (outB + 16) (inBCC + 16) (.inBytes inBCC) tmpInBytes

/-- The loop over `outBytes` after the cipher; it leaves `ivp` and `iv2p` on the last blocks. -/
def xorOutput (inBytes : Bytes) : ℕ → ℕ → BlockPointer → BlockPointer → Bytes →
    Option (Bytes × BlockPointer × BlockPointer)
  | 0, _, ivp, iv2p, outBytes => some (outBytes, ivp, iv2p)
  | len + 1, offset, _, iv2p, outBytes => do
    let outp ← blockAt outBytes offset
    let back ← iv2p.load inBytes outBytes
    let outBytes ← storeBlock outBytes offset (xorBytes outp back)
    xorOutput inBytes len (offset + 16) (.outBytes offset) (.inBytes offset) outBytes

/-- The output buffer and the 32 bytes left in `iv`. -/
def MyAesIgeEncrypt (inBytes : Bytes) (length : ℤ) (outBytes key iv : Bytes) :
    Option (Bytes × Bytes) := do
  -- `malloc` has no buffer of a negative length
  if length < 0 then none else
  let aesIv := iv.take 16
  let ccIv := (iv.drop 16).take 16
  let tmpInBytes := List.replicate length.toNat 0
  let blocks := length.toNat / 16
  let first ← blockAt inBytes 0
  let tmpInBytes ← storeBlock tmpInBytes 0 first
  let tmpInBytes ← xorInput inBytes (blocks - 1) 16 16 0 (.localArray ccIv) tmpInBytes
  let outBytes ← CCCrypt encrypt key aesIv tmpInBytes outBytes
  -- `ivp` starts where the first loop left `inB`
  let inB := 16 + 16 * (blocks - 1)
  let (outBytes, ivp, iv2p) ← xorOutput inBytes blocks 0 (.inBytes inB) (.localArray ccIv) outBytes
  let last ← ivp.load inBytes outBytes
  let last2 ← iv2p.load inBytes outBytes
  some (outBytes, last ++ last2)

/-- The loop of `MyAesIgeDecrypt`. -/
def decryptBlocks (inBytes key : Bytes) : ℕ → ℕ → BlockPointer → BlockPointer → Bytes →
    Option (Bytes × BlockPointer × BlockPointer)
  | 0, _, ivp, iv2p, outBytes => some (outBytes, ivp, iv2p)
  | len + 1, offset, ivp, iv2p, outBytes => do
    let inp ← blockAt inBytes offset
    let back ← iv2p.load inBytes outBytes
    let outBytes ← storeBlock outBytes offset (decrypt key (xorBytes inp back))
    let outp ← blockAt outBytes offset
    let ahead ← ivp.load inBytes outBytes
    let outBytes ← storeBlock outBytes offset (xorBytes outp ahead)
    decryptBlocks inBytes key len (offset + 16) (.inBytes offset) (.outBytes offset) outBytes

def MyAesIgeDecrypt (inBytes : Bytes) (length : ℤ) (outBytes key iv : Bytes) :
    Option (Bytes × Bytes) := do
  -- no cryptor for a key of another length: nothing is written
  if ¬validKeyLength key then some (outBytes, iv) else
  -- `while (len)` runs past the buffers when `len` starts below 0
  if length.tdiv 16 < 0 then none else
  let (outBytes, ivp, iv2p) ← decryptBlocks decrypt inBytes key (length.tdiv 16).toNat 0
    (.localArray (iv.take 16)) (.localArray ((iv.drop 16).take 16)) outBytes
  let last ← ivp.load inBytes outBytes
  let last2 ← iv2p.load inBytes outBytes
  some (outBytes, last ++ last2)

/-- The bytes of a call in place, and what `malloc` returns for them. -/
structure InPlace where
  data : Bytes
  outData : Bytes
  length_outData : outData.length = data.length

def MTAesEncryptBytesInplaceAndModifyIv (buffer : InPlace) (key iv : Bytes) :
    Option (Bytes × Bytes) :=
  MyAesIgeEncrypt encrypt buffer.data (toInt buffer.data.length) buffer.outData key iv

def MTAesDecryptBytesInplaceAndModifyIv (buffer : InPlace) (key iv : Bytes) :
    Option (Bytes × Bytes) :=
  MyAesIgeDecrypt decrypt buffer.data (toInt buffer.data.length) buffer.outData key iv

/-- A message whose chunks are handed over one after the other, with the IV carried along. -/
def inChunks (call : InPlace → Bytes → Bytes → Option (Bytes × Bytes)) (key : Bytes) :
    Bytes → List InPlace → Option (Bytes × Bytes)
  | iv, [] => some ([], iv)
  | iv, buffer :: buffers => do
    let (out, iv) ← call buffer key iv
    let (outs, iv) ← inChunks call key iv buffers
    some (out ++ outs, iv)

end Onegram.Ige
