import Onegram.Crypto.AesIge
import Onegram.Proofs.MessageCipher

/-!
# The buffers of AES-IGE agree with the mode

One lemma for each of the three loops, by induction on the blocks still ahead, with the bytes
behind them as a prefix. Each pointer is known by the block it loads. The mode itself composes, with
the last blocks as the vector carried, and the calls on chunks follow it.
-/

namespace Onegram.Ige

open Onegram

section

variable {encrypt decrypt : Bytes → Bytes → Bytes} {key : Bytes}

/-! ## Blocks of a buffer -/

theorem blockAt_append {l block : Bytes} (r : Bytes) {offset : ℕ} (hl : l.length = offset)
    (hblock : block.length = 16) : blockAt (l ++ block ++ r) offset = some block := by
  subst hl
  rw [blockAt, if_pos (by simp [hblock]), List.append_assoc, List.drop_left]
  rw [List.take_left' hblock]

theorem storeBlock_append {l block new : Bytes} (r : Bytes) {offset : ℕ} (hl : l.length = offset)
    (hblock : block.length = 16) :
    storeBlock (l ++ block ++ r) offset new = some (l ++ new ++ r) := by
  subst hl
  have hdrop : (l ++ block ++ r).drop (l.length + 16) = r :=
    List.drop_left' (by rw [List.length_append, hblock])
  rw [storeBlock, if_pos (by simp [hblock]), hdrop, List.append_assoc l block r, List.take_left]

theorem exists_last : ∀ {blocks : List Bytes} {n : ℕ}, blocks.length = n + 1 →
    ∀ c, ∃ init, blocks = init ++ [blocks.getLastD c] ∧ init.length = n := by
  intro blocks n hn c
  have hne : blocks ≠ [] := by
    rintro rfl
    simp at hn
  refine ⟨blocks.dropLast, ?_, by rw [List.length_dropLast]; omega⟩
  rw [List.getLastD_eq_getLast?, List.getLast?_eq_some_getLast hne, Option.getD_some,
    List.dropLast_append_getLast]

/-- The last block of the buffer's first part. -/
theorem blockAt_last {blocks : List Bytes} {n : ℕ} (h : ∀ block ∈ blocks, block.length = 16)
    (hn : blocks.length = n + 1) (c tail : Bytes) :
    blockAt (blocks.flatten ++ tail) (16 * n) = some (blocks.getLastD c) := by
  obtain ⟨init, hinit, hlen⟩ := exists_last hn c
  have hlast : (blocks.getLastD c).length = 16 := h _ (by rw [hinit]; simp)
  have hbefore : init.flatten.length = 16 * n := by
    rw [length_flatten_blocks fun b hb => h b (by rw [hinit]; simp [hb]), hlen]
  have hflat : blocks.flatten = init.flatten ++ blocks.getLastD c := by
    conv_lhs => rw [hinit]
    simp
  rw [hflat]
  exact blockAt_append tail hbefore hlast

/-! ## The loops -/

/-- Every block is xored with the one two places before it, the first of them with what `iv3p`
points to. -/
theorem xorInput_eq {inBytes tail : Bytes} : ∀ (rest : List Bytes) (before outs junk : Bytes)
    {last back : Bytes} {iv3p : BlockPointer},
    (∀ block ∈ rest, block.length = 16) → last.length = 16 → back.length = 16 →
    junk.length = 16 * rest.length → iv3p.load inBytes [] = some back →
    inBytes = before ++ last ++ (rest.flatten ++ tail) →
    xorInput inBytes rest.length (before.length + 16) outs.length before.length iv3p (outs ++ junk)
      = some (outs ++ (List.zipWith xorBytes rest (back :: last :: rest)).flatten)
  | [], _, _, junk, _, _, _, _, _, _, hjunk, _, _ => by
    rw [List.length_eq_zero_iff.1 (by simpa using hjunk : junk.length = 0)]
    simp [xorInput]
  | block :: rest, before, outs, junk, last, back, iv3p, hrest, hlast, hback, hjunk, hload, hin => by
    have hblock := hrest block List.mem_cons_self
    rw [List.length_cons] at hjunk
    have hin' : inBytes = (before ++ last) ++ block ++ (rest.flatten ++ tail) := by
      rw [hin, List.flatten_cons]
      simp
    have hread : blockAt inBytes (before.length + 16) = some block := by
      rw [hin', blockAt_append _ (by rw [List.length_append, hlast]) hblock]
    have hfirst : (junk.take 16).length = 16 := by
      rw [List.length_take]
      omega
    have hstore (new : Bytes) :
        storeBlock (outs ++ junk) outs.length new = some (outs ++ new ++ junk.drop 16) := by
      rw [← storeBlock_append (junk.drop 16) rfl hfirst, List.append_assoc, List.take_append_drop]
    have hxor : (xorBytes block back).length = 16 := by
      rw [length_xorBytes]
      omega
    have hnext : (BlockPointer.inBytes before.length).load inBytes [] = some last := by
      rw [BlockPointer.load, hin, blockAt_append _ rfl hlast]
    have ih := xorInput_eq rest (before ++ last) (outs ++ xorBytes block back) (junk.drop 16)
      (fun b hb => hrest b (List.mem_cons_of_mem _ hb)) hblock hlast
      (by rw [List.length_drop]; omega) hnext hin'
    rw [List.length_append, List.length_append, hlast, hxor] at ih
    rw [List.length_cons, xorInput]
    simp only [hread, hload, hstore, Option.bind_eq_bind, Option.bind_some]
    rw [ih, List.zipWith_cons_cons, List.flatten_cons, List.append_assoc]

/-- Every block that came out of the cipher is xored with the input block before it. -/
theorem xorOutput_eq {inBytes tail : Bytes} (after : Bytes) : ∀ (rest : List Bytes) (before outs : Bytes)
    (ivp : BlockPointer) {block back : Bytes} {cs : List Bytes} {iv2p : BlockPointer},
    (∀ b ∈ block :: rest, b.length = 16) → (∀ c ∈ cs, c.length = 16) →
    cs.length = rest.length + 1 → back.length = 16 → outs.length = before.length →
    (∀ out, iv2p.load inBytes out = some back) →
    inBytes = before ++ ((block :: rest).flatten ++ tail) →
    xorOutput inBytes (rest.length + 1) before.length ivp iv2p (outs ++ (cs.flatten ++ after))
      = some (outs ++ ((List.zipWith xorBytes cs (back :: block :: rest)).flatten ++ after),
          .outBytes (before.length + 16 * rest.length), .inBytes (before.length + 16 * rest.length))
  | rest, _, _, _, _, _, [], _, _, _, hlen, _, _, _, _ => by simp at hlen
  | rest, before, outs, ivp, block, back, c :: cs, iv2p, hrest, hcs, hlen, hback, houts, hload,
      hin => by
    have hc := hcs c List.mem_cons_self
    have hblock := hrest block List.mem_cons_self
    have hread : blockAt (outs ++ ((c :: cs).flatten ++ after)) before.length = some c := by
      rw [List.flatten_cons, List.append_assoc, ← List.append_assoc, blockAt_append _ houts hc]
    have hstore (new : Bytes) : storeBlock (outs ++ ((c :: cs).flatten ++ after)) before.length new
        = some (outs ++ new ++ (cs.flatten ++ after)) := by
      rw [List.flatten_cons, List.append_assoc, ← List.append_assoc,
        storeBlock_append _ houts hc]
    have hxor : (xorBytes c back).length = 16 := by
      rw [length_xorBytes]
      omega
    have hnext (out : Bytes) : (BlockPointer.inBytes before.length).load inBytes out = some block := by
      rw [BlockPointer.load, hin, List.flatten_cons, List.append_assoc, ← List.append_assoc,
        blockAt_append _ rfl hblock]
    rw [xorOutput]
    simp only [hread, hload, hstore, Option.bind_eq_bind, Option.bind_some]
    cases rest with
    | nil =>
      obtain rfl : cs = [] := List.length_eq_zero_iff.1 (by simpa using hlen)
      simp [xorOutput]
    | cons next rest =>
      have hin' : inBytes = (before ++ block) ++ ((next :: rest).flatten ++ tail) := by
        rw [hin, List.flatten_cons]
        simp
      have ih := xorOutput_eq after rest (before ++ block) (outs ++ xorBytes c back)
        (.outBytes before.length)
        (fun b hb => hrest b (List.mem_cons_of_mem _ hb))
        (fun b hb => hcs b (List.mem_cons_of_mem _ hb)) (by simpa using hlen) hblock
        (by simp [houts, hxor, hblock]) hnext hin'
      rw [List.length_append, hblock] at ih
      have hend : before.length + 16 + 16 * rest.length = before.length + 16 * (rest.length + 1) := by
        omega
      rw [List.length_cons, ih, hend, List.zipWith_cons_cons, List.flatten_cons]
      simp only [List.append_assoc]

/-- One round of the decryption: the block is written where the next one reads it back. -/
theorem decryptBlocks_step {inBytes more : Bytes} (after : Bytes) (len : ℕ)
    (hdecrypt : ∀ block : Bytes, block.length = 16 → (decrypt key block).length = 16)
    {before outs junk block c p : Bytes} {ivp iv2p : BlockPointer}
    (hblock : block.length = 16) (hp : p.length = 16) (houts : outs.length = before.length)
    (hjunk : 16 ≤ junk.length) (hivp : ∀ out, ivp.load inBytes out = some c)
    (hiv2p : iv2p.load inBytes (outs ++ (junk ++ after)) = some p)
    (hin : inBytes = before ++ block ++ more) :
    decryptBlocks decrypt inBytes key (len + 1) before.length ivp iv2p (outs ++ (junk ++ after))
      = decryptBlocks decrypt inBytes key len (before.length + 16) (.inBytes before.length)
          (.outBytes before.length)
          (outs ++ xorBytes (decrypt key (xorBytes block p)) c ++ (junk.drop 16 ++ after)) := by
  have hread : blockAt inBytes before.length = some block := by
    rw [hin, blockAt_append _ rfl hblock]
  have hfirst : (junk.take 16).length = 16 := by
    rw [List.length_take]
    omega
  have hsplit : outs ++ (junk ++ after) = outs ++ junk.take 16 ++ (junk.drop 16 ++ after) := by
    rw [List.append_assoc, ← List.append_assoc (junk.take 16), List.take_append_drop]
  have hdec : (decrypt key (xorBytes block p)).length = 16 := by
    apply hdecrypt
    rw [length_xorBytes]
    omega
  rw [hsplit] at hiv2p ⊢
  rw [decryptBlocks]
  simp only [hread, hiv2p, hivp, storeBlock_append _ houts hfirst, blockAt_append _ houts hdec,
    storeBlock_append _ houts hdec, Option.bind_eq_bind, Option.bind_some]

/-- What `ivp` points to does not change with the output; `iv2p` may point to the block written
last. -/
theorem decryptBlocks_eq {inBytes tail : Bytes} (after : Bytes)
    (hdecrypt : ∀ block : Bytes, block.length = 16 → (decrypt key block).length = 16) :
    ∀ (rest : List Bytes) (before outs junk : Bytes) {block c p : Bytes} {ivp iv2p : BlockPointer},
    (∀ b ∈ block :: rest, b.length = 16) → c.length = 16 → p.length = 16 →
    outs.length = before.length → junk.length = 16 * (rest.length + 1) →
    (∀ out, ivp.load inBytes out = some c) →
    iv2p.load inBytes (outs ++ (junk ++ after)) = some p →
    inBytes = before ++ ((block :: rest).flatten ++ tail) →
    decryptBlocks decrypt inBytes key (rest.length + 1) before.length ivp iv2p
        (outs ++ (junk ++ after))
      = some (outs ++ ((igeDecrypt decrypt key c p (block :: rest)).flatten ++ after),
          .inBytes (before.length + 16 * rest.length),
          .outBytes (before.length + 16 * rest.length)) := by
  intro rest
  induction rest with
  | nil =>
    intro before outs junk block c p ivp iv2p hrest hc hp houts hjunk hivp hiv2p hin
    have hblock := hrest block List.mem_cons_self
    rw [List.length_nil, decryptBlocks_step after 0 hdecrypt hblock hp houts (by omega) hivp hiv2p
      (by rw [hin]; simp; rfl), decryptBlocks, List.drop_of_length_le (by simpa using hjunk.le)]
    simp [igeDecrypt]
  | cons next rest ih =>
    intro before outs junk block c p ivp iv2p hrest hc hp houts hjunk hivp hiv2p hin
    have hblock := hrest block List.mem_cons_self
    have hin' : inBytes = before ++ block ++ ((next :: rest).flatten ++ tail) := by
      rw [hin, List.flatten_cons]
      simp
    rw [List.length_cons] at hjunk
    rw [List.length_cons, decryptBlocks_step after _ hdecrypt hblock hp houts (by omega) hivp hiv2p
      hin']
    have hout : (xorBytes (decrypt key (xorBytes block p)) c).length = 16 := by
      rw [length_xorBytes, hdecrypt _ (by rw [length_xorBytes]; omega)]
      omega
    have hivp' (out : Bytes) : (BlockPointer.inBytes before.length).load inBytes out = some block := by
      rw [BlockPointer.load, hin', blockAt_append _ rfl hblock]
    have hiv2p' : (BlockPointer.outBytes before.length).load inBytes
        (outs ++ xorBytes (decrypt key (xorBytes block p)) c ++ (junk.drop 16 ++ after))
          = some (xorBytes (decrypt key (xorBytes block p)) c) :=
      blockAt_append _ houts hout
    have ih' := ih (before ++ block) (outs ++ xorBytes (decrypt key (xorBytes block p)) c)
      (junk.drop 16) (fun b hb => hrest b (List.mem_cons_of_mem _ hb)) hblock hout
      (by simp [houts, hout, hblock]) (by rw [List.length_drop]; omega) hivp' hiv2p' hin'
    rw [List.length_append, hblock] at ih'
    have hend : before.length + 16 + 16 * rest.length = before.length + 16 * (rest.length + 1) := by
      omega
    rw [ih', hend]
    simp only [igeDecrypt, List.flatten_cons, List.append_assoc]

/-! ## The functions -/

variable {iv : Bytes}

theorem length_zipWith_xorBytes : ∀ {bs cs : List Bytes}, (∀ b ∈ bs, b.length = 16) →
    (∀ c ∈ cs, c.length = 16) → ∀ x ∈ List.zipWith xorBytes bs cs, x.length = 16
  | [], _, _, _ => by simp
  | _ :: _, [], _, _ => by simp
  | b :: bs, c :: cs, hb, hc => by
    intro x hx
    rw [List.zipWith_cons_cons] at hx
    rcases List.mem_cons.1 hx with rfl | hx
    · rw [length_xorBytes, hb b List.mem_cons_self, hc c List.mem_cons_self]
      rfl
    · exact length_zipWith_xorBytes (fun y hy => hb y (List.mem_cons_of_mem _ hy))
        (fun y hy => hc y (List.mem_cons_of_mem _ hy)) x hx

theorem length_cbcEncrypt (key : Bytes) : ∀ (iv : Bytes) (blocks : List Bytes),
    (cbcEncrypt encrypt key iv blocks).length = blocks.length
  | _, [] => rfl
  | iv, block :: blocks => by
    rw [cbcEncrypt, List.length_cons, length_cbcEncrypt key, List.length_cons]

theorem cbcEncrypt_length (hcipher : BlockInverse encrypt decrypt key) :
    ∀ (blocks : List Bytes) {c : Bytes}, c.length = 16 → (∀ block ∈ blocks, block.length = 16) →
      ∀ out ∈ cbcEncrypt encrypt key c blocks, out.length = 16
  | [], _, _, _ => by simp [cbcEncrypt]
  | block :: blocks, c, hc, hblocks => by
    have hout : (encrypt key (xorBytes block c)).length = 16 := by
      apply hcipher.length_encrypt
      rw [length_xorBytes, hblocks block List.mem_cons_self, hc]
      rfl
    intro out hmem
    rcases List.mem_cons.1 hmem with rfl | hmem
    · exact hout
    · exact cbcEncrypt_length hcipher blocks hout (fun b hb => hblocks b (List.mem_cons_of_mem _ hb))
        out hmem

/-- The platform's cipher on whole blocks. -/
theorem CCCrypt_flatten (hkey : validKeyLength key) {blocks : List Bytes}
    (hblocks : ∀ block ∈ blocks, block.length = 16) (c : Bytes) {outBytes : Bytes}
    (hout : 16 * blocks.length ≤ outBytes.length) :
    CCCrypt encrypt key c blocks.flatten outBytes
      = some ((cbcEncrypt encrypt key c blocks).flatten ++ outBytes.drop (16 * blocks.length)) := by
  have hlen := length_flatten_blocks hblocks
  rw [CCCrypt, if_pos ⟨hkey, by omega, by omega⟩, hlen, Nat.mul_div_cancel_left _ (by norm_num),
    toBlocks_flatten hblocks]

/-- The blocks in a buffer longer than they are. -/
theorem MyAesIgeEncrypt_eq (hkey : validKeyLength key) (hiv : iv.length = 32)
    (hcipher : BlockInverse encrypt decrypt key) {blocks : List Bytes} (hne : blocks ≠ [])
    (hblocks : ∀ block ∈ blocks, block.length = 16) (tail : Bytes) {outBytes : Bytes}
    (hout : 16 * blocks.length ≤ outBytes.length) :
    MyAesIgeEncrypt encrypt (blocks.flatten ++ tail) ((16 * blocks.length : ℕ) : ℤ) outBytes key iv
      = some ((igeSpec encrypt key (iv.take 16) (iv.drop 16) blocks).flatten
            ++ outBytes.drop (16 * blocks.length),
          (igeSpec encrypt key (iv.take 16) (iv.drop 16) blocks).getLastD (iv.take 16)
            ++ blocks.getLastD (iv.drop 16)) := by
  obtain ⟨block, rest, rfl⟩ := List.exists_cons_of_ne_nil hne
  have hblock := hblocks block List.mem_cons_self
  have hrest (b : Bytes) (hb : b ∈ rest) : b.length = 16 := hblocks b (List.mem_cons_of_mem _ hb)
  have hc : (iv.take 16).length = 16 := by simp [hiv]
  have hp : (iv.drop 16).length = 16 := by simp [hiv]
  have hccIv : (iv.drop 16).take 16 = iv.drop 16 := List.take_of_length_le hp.le
  set tmp := List.zipWith xorBytes rest (iv.drop 16 :: block :: rest) with htmp
  have htmp' : ∀ b ∈ block :: tmp, b.length = 16 := by
    intro b hb
    rcases List.mem_cons.1 hb with rfl | hb
    · exact hblock
    · refine length_zipWith_xorBytes hrest ?_ b hb
      rintro x (_ | ⟨_, hx⟩)
      · exact hp
      · exact hblocks x hx
  have hcount : (block :: tmp).length = rest.length + 1 := by
    rw [List.length_cons, htmp, List.length_zipWith, List.length_cons, List.length_cons]
    omega
  have hsplit : (block :: rest).flatten ++ tail = [] ++ block ++ (rest.flatten ++ tail) := by simp
  have hload (out : Bytes) : BlockPointer.load ((block :: rest).flatten ++ tail) out
      (.localArray (iv.drop 16)) = some (iv.drop 16) := rfl
  have hfirst : blockAt ((block :: rest).flatten ++ tail) 0 = some block := by
    rw [hsplit, blockAt_append _ List.length_nil hblock]
  have hzero : (List.replicate 16 (0 : UInt8)).length = 16 := List.length_replicate
  have hstore : storeBlock (List.replicate (16 * (rest.length + 1)) 0) 0 block
      = some (block ++ List.replicate (16 * rest.length) 0) := by
    have hzeros : List.replicate (16 * (rest.length + 1)) (0 : UInt8)
        = [] ++ List.replicate 16 0 ++ List.replicate (16 * rest.length) 0 := by
      rw [List.nil_append, ← List.replicate_add, Nat.mul_add, Nat.mul_one, Nat.add_comm]
    rw [hzeros, storeBlock_append _ List.length_nil hzero, List.nil_append]
  have hinput := xorInput_eq rest [] block (List.replicate (16 * rest.length) 0) hrest hblock hp
    List.length_replicate (hload []) hsplit
  rw [hblock] at hinput
  have hcbc := cbcEncrypt_length hcipher (block :: tmp) hc htmp'
  have hxor := xorOutput_eq (outBytes.drop (16 * (rest.length + 1))) rest [] []
    (.inBytes (16 + 16 * rest.length)) hblocks hcbc (by rw [length_cbcEncrypt, hcount]) hp rfl hload
    (List.nil_append _).symm
  have hige : List.zipWith xorBytes (cbcEncrypt encrypt key (iv.take 16) (block :: tmp))
      (iv.drop 16 :: block :: rest) = igeSpec encrypt key (iv.take 16) (iv.drop 16) (block :: rest) :=
    (igeEncrypt_eq_igeSpec encrypt key _ _ (block :: rest))
  have hspec := igeSpec_length hcipher (block :: rest) _ _ hc hp hblocks
  have hcount' : (igeSpec encrypt key (iv.take 16) (iv.drop 16) (block :: rest)).length
      = rest.length + 1 := length_igeSpec key _ _ _
  have hcrypt : CCCrypt encrypt key (iv.take 16) (block ++ tmp.flatten) outBytes = _ :=
    CCCrypt_flatten hkey htmp' (iv.take 16) (by rw [hcount]; exact hout)
  rw [hige] at hxor
  rw [hcount] at hcrypt
  have hivp := blockAt_last hspec hcount' (iv.take 16) (outBytes.drop (16 * (rest.length + 1)))
  have hiv2p := blockAt_last hblocks (List.length_cons) (iv.drop 16) tail
  have hblocksCount : 16 * (rest.length + 1) / 16 = rest.length + 1 :=
    Nat.mul_div_cancel_left _ (by norm_num)
  simp only [List.length_nil, Nat.zero_add, List.nil_append, ← htmp] at hinput hxor
  rw [List.length_cons, MyAesIgeEncrypt, if_neg (by omega)]
  simp only [Int.toNat_natCast, hblocksCount, Nat.add_sub_cancel, hccIv, hfirst, hstore, hinput,
    hcrypt, hxor, hivp, hiv2p, BlockPointer.load, Option.bind_eq_bind, Option.bind_some]

theorem MyAesIgeDecrypt_eq (hkey : validKeyLength key) (hiv : iv.length = 32)
    (hdecrypt : ∀ block : Bytes, block.length = 16 → (decrypt key block).length = 16)
    {blocks : List Bytes} (hblocks : ∀ block ∈ blocks, block.length = 16) (tail : Bytes)
    {outBytes : Bytes} (hout : 16 * blocks.length ≤ outBytes.length) :
    MyAesIgeDecrypt decrypt (blocks.flatten ++ tail) ((16 * blocks.length : ℕ) : ℤ) outBytes key iv
      = some ((igeDecrypt decrypt key (iv.take 16) (iv.drop 16) blocks).flatten
            ++ outBytes.drop (16 * blocks.length),
          blocks.getLastD (iv.take 16)
            ++ (igeDecrypt decrypt key (iv.take 16) (iv.drop 16) blocks).getLastD (iv.drop 16)) := by
  have hc : (iv.take 16).length = 16 := by simp [hiv]
  have hp : (iv.drop 16).length = 16 := by simp [hiv]
  have hccIv : (iv.drop 16).take 16 = iv.drop 16 := List.take_of_length_le hp.le
  have htdiv : ((16 * blocks.length : ℕ) : ℤ).tdiv 16 = (blocks.length : ℤ) := by
    rw [Nat.cast_mul]
    exact Int.mul_tdiv_cancel_left _ (by norm_num)
  rw [MyAesIgeDecrypt, if_neg (not_not.2 hkey), htdiv, if_neg (by omega), Int.toNat_natCast, hccIv]
  cases blocks with
  | nil => simp [decryptBlocks, BlockPointer.load, igeDecrypt]
  | cons block rest =>
    rw [List.length_cons] at hout
    have hloop := decryptBlocks_eq (outBytes.drop (16 * (rest.length + 1))) hdecrypt rest [] []
      (outBytes.take (16 * (rest.length + 1))) hblocks hc hp rfl
      (by rw [List.length_take]; omega)
      (fun out => (rfl : BlockPointer.load ((block :: rest).flatten ++ tail) out
        (.localArray (iv.take 16)) = some (iv.take 16)))
      (rfl : BlockPointer.load _ _ (.localArray (iv.drop 16)) = some (iv.drop 16))
      (List.nil_append _).symm
    have hdec := mem_igeDecrypt hdecrypt (block :: rest) _ _ hc hp hblocks
    have hcount : (igeDecrypt decrypt key (iv.take 16) (iv.drop 16) (block :: rest)).length
        = rest.length + 1 := length_igeDecrypt key _ _ _
    have hivp := blockAt_last hblocks List.length_cons (iv.take 16) tail
    have hiv2p := blockAt_last hdec hcount (iv.drop 16) (outBytes.drop (16 * (rest.length + 1)))
    simp only [List.length_nil, Nat.zero_add, List.nil_append, List.take_append_drop] at hloop
    simp only [List.length_cons, hloop, hivp, hiv2p, BlockPointer.load, Option.bind_eq_bind,
      Option.bind_some]

/-! ## The mode composes -/

theorem getLastD_append {α : Type} (ys : List α) : ∀ (xs : List α) (d : α),
    (xs ++ ys).getLastD d = ys.getLastD (xs.getLastD d)
  | [], _ => rfl
  | x :: xs, d => by
    rw [List.cons_append, List.getLastD_cons, getLastD_append ys xs, List.getLastD_cons]

theorem igeSpec_append (key : Bytes) (ys : List Bytes) : ∀ (xs : List Bytes) (c p : Bytes),
    igeSpec encrypt key c p (xs ++ ys)
      = igeSpec encrypt key c p xs
        ++ igeSpec encrypt key ((igeSpec encrypt key c p xs).getLastD c) (xs.getLastD p) ys
  | [], _, _ => rfl
  | x :: xs, c, p => by
    rw [List.cons_append, igeSpec, igeSpec, igeSpec_append key ys xs, List.getLastD_cons,
      List.getLastD_cons, List.cons_append]

theorem igeDecrypt_append (key : Bytes) (ys : List Bytes) : ∀ (xs : List Bytes) (c p : Bytes),
    igeDecrypt decrypt key c p (xs ++ ys)
      = igeDecrypt decrypt key c p xs
        ++ igeDecrypt decrypt key (xs.getLastD c) ((igeDecrypt decrypt key c p xs).getLastD p) ys
  | [], _, _ => rfl
  | x :: xs, c, p => by
    rw [List.cons_append, igeDecrypt, igeDecrypt, igeDecrypt_append key ys xs, List.getLastD_cons,
      List.getLastD_cons, List.cons_append]

theorem toBlocks_append {m : ℕ} (ys : Bytes) : ∀ (n : ℕ) {xs : Bytes}, xs.length = 16 * n →
    toBlocks (n + m) (xs ++ ys) = toBlocks n xs ++ toBlocks m ys
  | 0, xs, h => by
    rw [List.length_eq_zero_iff.1 (by omega : xs.length = 0), Nat.zero_add]
    rfl
  | n + 1, xs, h => by
    rw [Nat.add_right_comm, toBlocks, toBlocks, List.take_append_of_le_length (by omega),
      List.drop_append_of_le_length (by omega), toBlocks_append ys n (by rw [List.length_drop]; omega),
      List.cons_append]

/-- The blocks of whole-block data. -/
def blocksOf (data : Bytes) : List Bytes := toBlocks (data.length / 16) data

theorem mem_blocksOf (data : Bytes) : ∀ block ∈ blocksOf data, block.length = 16 :=
  mem_toBlocks _ (by omega)

theorem blocksOf_spec {data : Bytes} (h : data.length % 16 = 0) :
    (blocksOf data).flatten = data ∧ 16 * (blocksOf data).length = data.length := by
  rw [blocksOf, length_toBlocks]
  exact ⟨flatten_toBlocks _ (by omega), by omega⟩

theorem blocksOf_append {xs : Bytes} (ys : Bytes) (h : xs.length % 16 = 0) :
    blocksOf (xs ++ ys) = blocksOf xs ++ blocksOf ys := by
  have hdiv : (xs ++ ys).length / 16 = xs.length / 16 + ys.length / 16 := by
    rw [List.length_append]
    omega
  rw [blocksOf, hdiv, toBlocks_append ys _ (by omega)]
  rfl

theorem toInt_of_lt {n : ℕ} (h : n < 2 ^ 31) : toInt n = n :=
  Int.bmod_eq_of_le (by omega) (by norm_num; omega)

theorem toInt_lt {n : ℕ} (h : 2 ^ 31 ≤ n) : toInt n < n := by
  have hlt : toInt n < (((2 ^ 32 : ℕ) : ℤ) + 1) / 2 := Int.bmod_lt (by norm_num)
  norm_num at hlt
  omega

theorem toInt_emod {n : ℕ} (h : n % 16 = 0) : toInt n % 16 = 0 := by
  have hdiv : toInt n + ((2 ^ 32 : ℕ) : ℤ) * Int.bdiv n (2 ^ 32) = n := Int.bmod_add_bdiv _ _
  norm_num at hdiv
  omega

/-! ## The calls on chunks -/

def message (chunks : List InPlace) : Bytes := (chunks.map (·.data)).flatten

/-- The blocks of the mode's output. -/
def cipherBlocks (encrypt : Bytes → Bytes → Bytes) (key iv data : Bytes) : List Bytes :=
  igeSpec encrypt key (iv.take 16) (iv.drop 16) (blocksOf data)

def plainBlocks (decrypt : Bytes → Bytes → Bytes) (key iv data : Bytes) : List Bytes :=
  igeDecrypt decrypt key (iv.take 16) (iv.drop 16) (blocksOf data)

/-- The last ciphertext block and the last plaintext block; without blocks, those of `iv`. -/
def lastBlocks (iv : Bytes) (cipher plain : List Bytes) : Bytes :=
  cipher.getLastD (iv.take 16) ++ plain.getLastD (iv.drop 16)

theorem lastBlocks_parts (hiv : iv.length = 32) {cipher plain : List Bytes}
    (hc : ∀ c ∈ cipher, c.length = 16) (hp : ∀ p ∈ plain, p.length = 16) :
    (lastBlocks iv cipher plain).length = 32
      ∧ (lastBlocks iv cipher plain).take 16 = cipher.getLastD (iv.take 16)
      ∧ (lastBlocks iv cipher plain).drop 16 = plain.getLastD (iv.drop 16) := by
  have hlast {l : List Bytes} (hl : ∀ b ∈ l, b.length = 16) {d : Bytes} (hd : d.length = 16) :
      (l.getLastD d).length = 16 := by
    rcases List.eq_nil_or_concat l with rfl | ⟨init, b, rfl⟩
    · exact hd
    · rw [List.concat_eq_append, List.getLastD_concat]
      exact hl b (by simp)
  have hc' := hlast hc (d := iv.take 16) (by simp [hiv])
  have hp' := hlast hp (d := iv.drop 16) (by simp [hiv])
  refine ⟨?_, List.take_left' hc', List.drop_left' hc'⟩
  rw [lastBlocks, List.length_append, hc', hp']

theorem lastBlocks_append (hiv : iv.length = 32) {cipher plain : List Bytes}
    (hc : ∀ c ∈ cipher, c.length = 16) (hp : ∀ p ∈ plain, p.length = 16)
    (cipher' plain' : List Bytes) :
    lastBlocks iv (cipher ++ cipher') (plain ++ plain')
      = lastBlocks (lastBlocks iv cipher plain) cipher' plain' := by
  obtain ⟨-, htake, hdrop⟩ := lastBlocks_parts hiv hc hp
  rw [lastBlocks, lastBlocks, htake, hdrop, getLastD_append, getLastD_append]

theorem mem_cipherBlocks (hcipher : BlockInverse encrypt decrypt key) (hiv : iv.length = 32)
    (data : Bytes) : ∀ c ∈ cipherBlocks encrypt key iv data, c.length = 16 :=
  igeSpec_length hcipher _ _ _ (by simp [hiv]) (by simp [hiv]) (mem_blocksOf data)

theorem mem_plainBlocks
    (hdecrypt : ∀ block : Bytes, block.length = 16 → (decrypt key block).length = 16)
    (hiv : iv.length = 32) (data : Bytes) : ∀ p ∈ plainBlocks decrypt key iv data, p.length = 16 :=
  mem_igeDecrypt hdecrypt _ _ _ (by simp [hiv]) (by simp [hiv]) (mem_blocksOf data)

theorem cipherBlocks_append (hcipher : BlockInverse encrypt decrypt key) (hiv : iv.length = 32)
    {xs : Bytes} (ys : Bytes) (hxs : xs.length % 16 = 0) :
    cipherBlocks encrypt key iv (xs ++ ys)
      = cipherBlocks encrypt key iv xs
        ++ cipherBlocks encrypt key (lastBlocks iv (cipherBlocks encrypt key iv xs) (blocksOf xs))
            ys := by
  obtain ⟨-, htake, hdrop⟩ := lastBlocks_parts hiv (mem_cipherBlocks hcipher hiv xs) (mem_blocksOf xs)
  rw [cipherBlocks, blocksOf_append _ hxs, igeSpec_append]
  show cipherBlocks encrypt key iv xs
      ++ igeSpec encrypt key ((cipherBlocks encrypt key iv xs).getLastD (iv.take 16))
          ((blocksOf xs).getLastD (iv.drop 16)) (blocksOf ys) = _
  rw [← htake, ← hdrop]
  rfl

theorem plainBlocks_append
    (hdecrypt : ∀ block : Bytes, block.length = 16 → (decrypt key block).length = 16)
    (hiv : iv.length = 32) {xs : Bytes} (ys : Bytes) (hxs : xs.length % 16 = 0) :
    plainBlocks decrypt key iv (xs ++ ys)
      = plainBlocks decrypt key iv xs
        ++ plainBlocks decrypt key (lastBlocks iv (blocksOf xs) (plainBlocks decrypt key iv xs))
            ys := by
  obtain ⟨-, htake, hdrop⟩ := lastBlocks_parts hiv (mem_blocksOf xs) (mem_plainBlocks hdecrypt hiv xs)
  rw [plainBlocks, blocksOf_append _ hxs, igeDecrypt_append]
  show plainBlocks decrypt key iv xs
      ++ igeDecrypt decrypt key ((blocksOf xs).getLastD (iv.take 16))
          ((plainBlocks decrypt key iv xs).getLastD (iv.drop 16)) (blocksOf ys) = _
  rw [← htake, ← hdrop]
  rfl

theorem encrypt_call (hkey : validKeyLength key) (hcipher : BlockInverse encrypt decrypt key)
    (hiv : iv.length = 32) {data outBytes : Bytes} (hne : data ≠ [])
    (hdata : data.length % 16 = 0) (hlt : data.length < 2 ^ 31)
    (hout : outBytes.length = data.length) :
    MyAesIgeEncrypt encrypt data (toInt data.length) outBytes key iv
      = some ((cipherBlocks encrypt key iv data).flatten,
          lastBlocks iv (cipherBlocks encrypt key iv data) (blocksOf data)) := by
  obtain ⟨hflat, hlen⟩ := blocksOf_spec hdata
  have hblocks : blocksOf data ≠ [] := by
    intro h
    rw [h] at hflat
    exact hne hflat.symm
  have hroom : 16 * (blocksOf data).length ≤ outBytes.length := by omega
  have h := MyAesIgeEncrypt_eq hkey hiv hcipher hblocks (mem_blocksOf data) [] hroom
  rw [hflat, hlen, List.append_nil, List.drop_of_length_le hout.le, List.append_nil] at h
  rw [toInt_of_lt hlt]
  exact h

theorem decrypt_call (hkey : validKeyLength key)
    (hdecrypt : ∀ block : Bytes, block.length = 16 → (decrypt key block).length = 16)
    (hiv : iv.length = 32) {data outBytes : Bytes} (hdata : data.length % 16 = 0)
    (hlt : data.length < 2 ^ 31) (hout : outBytes.length = data.length) :
    MyAesIgeDecrypt decrypt data (toInt data.length) outBytes key iv
      = some ((plainBlocks decrypt key iv data).flatten,
          lastBlocks iv (blocksOf data) (plainBlocks decrypt key iv data)) := by
  obtain ⟨hflat, hlen⟩ := blocksOf_spec hdata
  have hroom : 16 * (blocksOf data).length ≤ outBytes.length := by omega
  have h := MyAesIgeDecrypt_eq hkey hiv hdecrypt (mem_blocksOf data) [] hroom
  rw [hflat, hlen, List.append_nil, List.drop_of_length_le hout.le, List.append_nil] at h
  rw [toInt_of_lt hlt]
  exact h

/-- An empty buffer has no first block to copy. -/
theorem encrypt_call_nil (outBytes : Bytes) :
    MyAesIgeEncrypt encrypt [] (toInt 0) outBytes key iv = none := rfl

theorem inChunks_encrypt (hkey : validKeyLength key) (hcipher : BlockInverse encrypt decrypt key) :
    ∀ (chunks : List InPlace) {iv : Bytes}, iv.length = 32 →
      (∀ c ∈ chunks, c.data.length % 16 = 0) → (∀ c ∈ chunks, c.data ≠ []) →
      (message chunks).length < 2 ^ 31 →
      inChunks (MTAesEncryptBytesInplaceAndModifyIv encrypt) key iv chunks
        = some ((cipherBlocks encrypt key iv (message chunks)).flatten,
            lastBlocks iv (cipherBlocks encrypt key iv (message chunks))
              (blocksOf (message chunks)))
  | [], iv, _, _, _, _ => by
    simp [inChunks, message, cipherBlocks, blocksOf, toBlocks, igeSpec, lastBlocks]
  | c :: chunks, iv, hiv, halign, hne, hlt => by
    have halign' := halign c List.mem_cons_self
    have hmessage : message (c :: chunks) = c.data ++ message chunks := rfl
    rw [hmessage, List.length_append] at hlt
    have hcall := encrypt_call hkey hcipher hiv (hne c List.mem_cons_self) halign' (by omega)
      c.length_outData
    have hmem := mem_cipherBlocks hcipher hiv c.data
    obtain ⟨hiv', -, -⟩ := lastBlocks_parts hiv hmem (mem_blocksOf c.data)
    have ih := inChunks_encrypt hkey hcipher chunks hiv'
      (fun b hb => halign b (List.mem_cons_of_mem _ hb))
      (fun b hb => hne b (List.mem_cons_of_mem _ hb)) (by omega)
    rw [inChunks, MTAesEncryptBytesInplaceAndModifyIv, hcall]
    simp only [Option.bind_eq_bind, Option.bind_some, ih]
    rw [hmessage, cipherBlocks_append hcipher hiv _ halign', blocksOf_append _ halign',
      lastBlocks_append hiv hmem (mem_blocksOf _),
      List.flatten_append]

theorem inChunks_decrypt (hkey : validKeyLength key)
    (hdecrypt : ∀ block : Bytes, block.length = 16 → (decrypt key block).length = 16) :
    ∀ (chunks : List InPlace) {iv : Bytes}, iv.length = 32 →
      (∀ c ∈ chunks, c.data.length % 16 = 0) → (message chunks).length < 2 ^ 31 →
      inChunks (MTAesDecryptBytesInplaceAndModifyIv decrypt) key iv chunks
        = some ((plainBlocks decrypt key iv (message chunks)).flatten,
            lastBlocks iv (blocksOf (message chunks))
              (plainBlocks decrypt key iv (message chunks)))
  | [], iv, _, _, _ => by
    simp [inChunks, message, plainBlocks, blocksOf, toBlocks, igeDecrypt, lastBlocks]
  | c :: chunks, iv, hiv, halign, hlt => by
    have halign' := halign c List.mem_cons_self
    have hmessage : message (c :: chunks) = c.data ++ message chunks := rfl
    rw [hmessage, List.length_append] at hlt
    have hcall := decrypt_call hkey hdecrypt hiv halign' (by omega) c.length_outData
    have hmem := mem_plainBlocks hdecrypt hiv c.data
    obtain ⟨hiv', -, -⟩ := lastBlocks_parts hiv (mem_blocksOf c.data) hmem
    have ih := inChunks_decrypt hkey hdecrypt chunks hiv'
      (fun b hb => halign b (List.mem_cons_of_mem _ hb)) (by omega)
    rw [inChunks, MTAesDecryptBytesInplaceAndModifyIv, hcall]
    simp only [Option.bind_eq_bind, Option.bind_some, ih]
    rw [hmessage, plainBlocks_append hdecrypt hiv _ halign', blocksOf_append _ halign',
      lastBlocks_append hiv (mem_blocksOf _) hmem,
      List.flatten_append]

theorem inChunks_nil {chunks : List InPlace} (h : ∃ c ∈ chunks, c.data = []) :
    ∀ iv, inChunks (MTAesEncryptBytesInplaceAndModifyIv encrypt) key iv chunks = none := by
  induction chunks with
  | nil => simp at h
  | cons c chunks ih =>
    intro iv
    obtain ⟨b, hb, hnil⟩ := h
    rw [inChunks]
    rcases List.mem_cons.1 hb with rfl | hb
    · rw [MTAesEncryptBytesInplaceAndModifyIv, hnil, List.length_nil, encrypt_call_nil]
      rfl
    · cases MTAesEncryptBytesInplaceAndModifyIv encrypt c key iv with
      | none => rfl
      | some out => simp [ih ⟨b, hb, hnil⟩]

/-! ## What the functions promise -/

/-- The cipher under the key permutes the blocks. -/
structure BlockPermutation (encrypt decrypt : Bytes → Bytes → Bytes) (key : Bytes) : Prop
    extends BlockInverse encrypt decrypt key where
  length_decrypt : ∀ block : Bytes, block.length = 16 → (decrypt key block).length = 16
  encrypt_decrypt : ∀ block : Bytes, block.length = 16 → encrypt key (decrypt key block) = block

/-- A message encrypted at once, decrypted again, and both of it in chunks, whatever the buffers
held before. -/
structure IgeContract (encrypt decrypt : Bytes → Bytes → Bytes) (key iv : Bytes)
    (chunks : List InPlace) : Prop where
  encrypts : ∀ outBytes : Bytes, outBytes.length = (message chunks).length →
    MyAesIgeEncrypt encrypt (message chunks) (toInt (message chunks).length) outBytes key iv
      = some ((cipherBlocks encrypt key iv (message chunks)).flatten,
          lastBlocks iv (cipherBlocks encrypt key iv (message chunks)) (blocksOf (message chunks)))
  decrypts : ∀ outBytes : Bytes, outBytes.length = (message chunks).length →
    MyAesIgeDecrypt decrypt (cipherBlocks encrypt key iv (message chunks)).flatten
        (toInt (message chunks).length) outBytes key iv
      = some (message chunks,
          lastBlocks iv (cipherBlocks encrypt key iv (message chunks)) (blocksOf (message chunks)))
  encrypts_chunks : ∀ whole : InPlace, whole.data = message chunks →
    inChunks (MTAesEncryptBytesInplaceAndModifyIv encrypt) key iv chunks
      = MTAesEncryptBytesInplaceAndModifyIv encrypt whole key iv
  decrypts_chunks : ∀ whole : InPlace, whole.data = message chunks →
    inChunks (MTAesDecryptBytesInplaceAndModifyIv decrypt) key iv chunks
      = MTAesDecryptBytesInplaceAndModifyIv decrypt whole key iv

theorem message_aligned {chunks : List InPlace} (h : ∀ c ∈ chunks, c.data.length % 16 = 0) :
    (message chunks).length % 16 = 0 := by
  induction chunks with
  | nil => rfl
  | cons c chunks ih =>
    have hc := h c List.mem_cons_self
    have hrest := ih fun b hb => h b (List.mem_cons_of_mem _ hb)
    show (c.data ++ message chunks).length % 16 = 0
    rw [List.length_append]
    omega

/-- The mode's output decrypts to the data again, with the same last blocks. -/
theorem decrypt_call_cipherBlocks (hkey : validKeyLength key)
    (hcipher : BlockPermutation encrypt decrypt key) (hiv : iv.length = 32) {data outBytes : Bytes}
    (hdata : data.length % 16 = 0) (hlt : data.length < 2 ^ 31)
    (hout : outBytes.length = data.length) :
    MyAesIgeDecrypt decrypt (cipherBlocks encrypt key iv data).flatten (toInt data.length) outBytes
        key iv
      = some (data, lastBlocks iv (cipherBlocks encrypt key iv data) (blocksOf data)) := by
  obtain ⟨hflat, hlen⟩ := blocksOf_spec hdata
  have hmem := mem_cipherBlocks hcipher.toBlockInverse hiv data
  have hcount : (cipherBlocks encrypt key iv data).length = (blocksOf data).length :=
    length_igeSpec key _ _ _
  have hlen' : (cipherBlocks encrypt key iv data).flatten.length = data.length := by
    rw [length_flatten_blocks hmem, hcount, hlen]
  have hback : blocksOf (cipherBlocks encrypt key iv data).flatten = cipherBlocks encrypt key iv data
      := by
    rw [blocksOf, length_flatten_blocks hmem, Nat.mul_div_cancel_left _ (by norm_num),
      toBlocks_flatten hmem]
  have hplain : plainBlocks decrypt key iv (cipherBlocks encrypt key iv data).flatten
      = blocksOf data := by
    rw [plainBlocks, hback]
    exact igeDecrypt_igeSpec hcipher.toBlockInverse _ _ _ (by simp [hiv]) (by simp [hiv])
      (mem_blocksOf data)
  have h := decrypt_call hkey hcipher.length_decrypt hiv (by omega) (by omega)
    (hout.trans hlen'.symm)
  rw [hplain, hback, hflat, hlen'] at h
  exact h

/-- Encryption of the buffer's first blocks leaves the rest of the output as it was. -/
theorem encrypt_prefix (hkey : validKeyLength key) (hcipher : BlockInverse encrypt decrypt key)
    (hiv : iv.length = 32) {data : Bytes} {k : ℕ} (hk : 0 < k) (hlen : 16 * k ≤ data.length) :
    ∃ cipher last, ∀ outBytes : Bytes, outBytes.length = data.length →
      MyAesIgeEncrypt encrypt data ((16 * k : ℕ) : ℤ) outBytes key iv
        = some (cipher ++ outBytes.drop (16 * k), last) := by
  have hshort : (data.take (16 * k)).length = 16 * k := by
    rw [List.length_take]
    omega
  obtain ⟨hflat, hcount⟩ :=
    blocksOf_spec (by rw [hshort]; omega : (data.take (16 * k)).length % 16 = 0)
  have hblocks : blocksOf (data.take (16 * k)) ≠ [] := by
    intro hnil
    rw [hnil, List.length_nil] at hcount
    omega
  refine ⟨(cipherBlocks encrypt key iv (data.take (16 * k))).flatten,
    lastBlocks iv (cipherBlocks encrypt key iv (data.take (16 * k))) (blocksOf (data.take (16 * k))),
    fun outBytes hout => ?_⟩
  have h := MyAesIgeEncrypt_eq hkey hiv hcipher hblocks (mem_blocksOf _) (data.drop (16 * k))
    (by omega : 16 * (blocksOf (data.take (16 * k))).length ≤ outBytes.length)
  rw [hflat, hcount, hshort, List.take_append_drop] at h
  exact h

/-- From 2 ^ 31 bytes on the output buffer is not written to its end. -/
theorem encrypt_call_long (hkey : validKeyLength key) (hcipher : BlockInverse encrypt decrypt key)
    (hiv : iv.length = 32) {data : Bytes} (hdata : data.length % 16 = 0)
    (hlong : 2 ^ 31 ≤ data.length) (r : Bytes × Bytes) :
    ¬∀ outBytes : Bytes, outBytes.length = data.length →
      MyAesIgeEncrypt encrypt data (toInt data.length) outBytes key iv = some r := by
  intro h
  have hlt := toInt_lt hlong
  have halign := toInt_emod hdata
  rcases lt_or_ge (toInt data.length) 0 with hneg | hpos
  · have hnone := h data rfl
    rw [MyAesIgeEncrypt, if_pos hneg] at hnone
    cases hnone
  obtain ⟨k, hk⟩ : ∃ k : ℕ, toInt data.length = ((16 * k : ℕ) : ℤ) :=
    ⟨(toInt data.length).toNat / 16, by omega⟩
  rw [hk] at h hlt
  rcases Nat.eq_zero_or_pos k with rfl | hk₀
  · have hnone := h data rfl
    rw [MyAesIgeEncrypt, if_neg (by omega)] at hnone
    simp [storeBlock] at hnone
  · obtain ⟨cipher, last, hrun⟩ := encrypt_prefix hkey hcipher hiv hk₀
      (by exact_mod_cast hlt.le)
    -- two contents of the output buffer, which show through behind the blocks
    have hshow (x : UInt8) : some (cipher ++ List.replicate (data.length - 16 * k) x, last)
        = some r := by
      rw [← h (List.replicate data.length x) List.length_replicate, hrun _ List.length_replicate,
        List.drop_replicate]
    have hsame := (hshow 0).trans (hshow 1).symm
    have hrest : data.length - 16 * k ≠ 0 := by omega
    simp [List.replicate_inj, hrest] at hsame

/-- Exactly for data that is there and fits the `int`, and chunks that are not empty. -/
theorem MyAesIge_contract_iff (hkey : validKeyLength key)
    (hcipher : BlockPermutation encrypt decrypt key) (hiv : iv.length = 32)
    {chunks : List InPlace} (halign : ∀ c ∈ chunks, c.data.length % 16 = 0) :
    IgeContract encrypt decrypt key iv chunks
      ↔ message chunks ≠ [] ∧ (message chunks).length < 2 ^ 31 ∧ ∀ c ∈ chunks, c.data ≠ [] := by
  have hmessage := message_aligned halign
  constructor
  · intro h
    have hlt : (message chunks).length < 2 ^ 31 := by
      by_contra hlong
      exact encrypt_call_long hkey hcipher.toBlockInverse hiv hmessage (by omega) _ h.encrypts
    have hne : message chunks ≠ [] := by
      intro hnil
      have hnone := h.encrypts [] (by rw [hnil])
      rw [hnil, List.length_nil, encrypt_call_nil] at hnone
      cases hnone
    refine ⟨hne, hlt, ?_⟩
    intro c hc hnil
    have hwhole := h.encrypts_chunks ⟨message chunks, message chunks, rfl⟩ rfl
    rw [inChunks_nil ⟨c, hc, hnil⟩, MTAesEncryptBytesInplaceAndModifyIv, h.encrypts _ rfl] at hwhole
    cases hwhole
  · rintro ⟨hne, hlt, hchunks⟩
    refine ⟨?_, ?_, ?_, ?_⟩
    · intro outBytes hout
      exact encrypt_call hkey hcipher.toBlockInverse hiv hne hmessage hlt hout
    · intro outBytes hout
      exact decrypt_call_cipherBlocks hkey hcipher hiv hmessage hlt hout
    · rintro ⟨data, outData, hout⟩ rfl
      rw [inChunks_encrypt hkey hcipher.toBlockInverse chunks hiv halign hchunks hlt,
        MTAesEncryptBytesInplaceAndModifyIv,
        encrypt_call hkey hcipher.toBlockInverse hiv hne hmessage hlt hout]
    · rintro ⟨data, outData, hout⟩ rfl
      rw [inChunks_decrypt hkey hcipher.length_decrypt chunks hiv halign hlt,
        MTAesDecryptBytesInplaceAndModifyIv,
        decrypt_call hkey hcipher.length_decrypt hiv hmessage hlt hout]

end

/-! ## A message in two chunks -/

namespace Sample

def key : Bytes :=
  [0, 1, 2, 3, 4, 5, 6, 7, 8, 9, 10, 11, 12, 13, 14, 15, 16, 17, 18, 19, 20, 21, 22, 23, 24, 25, 26,
  27, 28, 29, 30, 31]

def iv : Bytes := List.replicate 32 0

def block1 : Bytes := [0, 17, 34, 51, 68, 85, 102, 119, 136, 153, 170, 187, 204, 221, 238, 255]

def block2 : Bytes :=
  [142, 179, 149, 249, 21, 50, 35, 200, 98, 101, 227, 43, 135, 148, 142, 118]

/-- What the key makes of the first block. -/
def encrypted : Bytes :=
  [142, 162, 183, 202, 81, 103, 69, 191, 234, 252, 73, 144, 75, 73, 96, 137]

def decrypted : Bytes :=
  [234, 180, 135, 230, 142, 201, 45, 180, 172, 40, 138, 36, 117, 123, 2, 98]

/-- The second block as decryption hands it to the key, and what comes out. -/
def masked : Bytes :=
  [100, 7, 18, 31, 155, 251, 14, 124, 206, 77, 105, 15, 242, 239, 140, 20]

def unmasked : Bytes :=
  [218, 13, 62, 226, 88, 150, 180, 189, 39, 134, 234, 141, 254, 75, 143, 19]

/-- The blocks above as the key maps them; others stand for themselves. -/
def permutation : Equiv.Perm Bytes :=
  ((Equiv.swap decrypted block1).trans (Equiv.swap decrypted encrypted)).trans
    (Equiv.swap unmasked masked)

def encrypt (_ block : Bytes) : Bytes := permutation block

def decrypt (_ block : Bytes) : Bytes := permutation.symm block

theorem blockPermutation : BlockPermutation encrypt decrypt key where
  length_encrypt := by
    intro block h
    have h₁ := MessageCipher.Sample.length_swap (rfl : decrypted.length = 16)
      (rfl : block1.length = 16) h
    have h₂ := MessageCipher.Sample.length_swap (rfl : decrypted.length = 16)
      (rfl : encrypted.length = 16) h₁
    exact MessageCipher.Sample.length_swap (rfl : unmasked.length = 16)
      (rfl : masked.length = 16) h₂
  length_decrypt := by
    intro block h
    have h₁ := MessageCipher.Sample.length_swap (rfl : unmasked.length = 16)
      (rfl : masked.length = 16) h
    have h₂ := MessageCipher.Sample.length_swap (rfl : decrypted.length = 16)
      (rfl : encrypted.length = 16) h₁
    exact MessageCipher.Sample.length_swap (rfl : decrypted.length = 16)
      (rfl : block1.length = 16) h₂
  decrypt_encrypt := fun block _ => permutation.symm_apply_apply block
  encrypt_decrypt := fun block _ => permutation.apply_symm_apply block

def chunks : List InPlace := [⟨block1, block2, rfl⟩, ⟨block2, block1, rfl⟩]

end Sample

theorem two_chunks_contract :
    IgeContract Sample.encrypt Sample.decrypt Sample.key Sample.iv Sample.chunks := by
  have halign : ∀ c ∈ Sample.chunks, c.data.length % 16 = 0 := by
    simp [Sample.chunks, Sample.block1, Sample.block2]
  have hne : ∀ c ∈ Sample.chunks, c.data ≠ [] := by
    simp [Sample.chunks, Sample.block1, Sample.block2]
  exact (MyAesIge_contract_iff rfl Sample.blockPermutation rfl halign).2 ⟨by decide, by decide, hne⟩

/-- Without data there is no first block, and no vector is left behind. -/
theorem no_data_faults :
    ¬IgeContract Sample.encrypt Sample.decrypt Sample.key Sample.iv [] := by
  intro h
  have hnone : none = some _ := h.encrypts [] rfl
  cases hnone

end Onegram.Ige
