import Onegram.SecretAcceptance
import Onegram.Proofs.MessageCipher
import Onegram.Proofs.IncomingPackets

/-!
# The header of a layered message

Behind the signature the reader goes as far as a short byte string goes, whatever the first byte of
the string says. In the long form the 254 is taken for a length, and the layer and the numbers are
read at the offsets 260, 264 and 268, wherever they are. The sender always has 15 random bytes.
-/

namespace Onegram.Acceptance

open Bytes MessageCipher
open Mtp (NSException subdataWithRange subdataWithRange_inside int32Bytes length_int32Bytes)

/-! ## Ranges and numbers -/

theorem subdataWithRange_of_le {data : Bytes} {location length : ℕ}
    (h : location + length ≤ data.length) :
    subdataWithRange data location length = .ok (cut data location length) := by
  rw [subdataWithRange_inside, if_neg (by omega)]

theorem readInt32_take (data : Bytes) : readInt32 (data.take 4) = readInt32 data := by
  unfold readInt32
  simp [List.getD_eq_getElem?_getD]

theorem int32At_of_le {data : Bytes} {location : ℕ} (h : location + 4 ≤ data.length) :
    int32At data location = .ok (readInt32 (data.drop location)) := by
  unfold int32At
  rw [subdataWithRange_of_le h, cut]
  show Except.ok (readInt32 ((data.drop location).take 4)) = _
  rw [readInt32_take]

theorem readInt32_int32Bytes {value : Int} (hle : -2 ^ 31 ≤ value) (hlt : value < 2 ^ 31)
    (rest : Bytes) : readInt32 (int32Bytes value ++ rest) = value := by
  have hsize : (2 : Int) ^ 32 = ((2 ^ 32 : ℕ) : Int) := by norm_num
  have hcast : (((value % 2 ^ 32).toNat : ℕ) : Int) = value % ((2 ^ 32 : ℕ) : Int) := by
    rw [Int.toNat_of_nonneg (Int.emod_nonneg _ (by norm_num)), hsize]
  rw [int32Bytes, readInt32_bytesLE]
  unfold toInt32
  rw [hcast, Int.emod_bmod, Int.bmod_eq_of_le (by omega) (by omega)]

theorem readInt32_toInt (value : Int32) (rest : Bytes) :
    readInt32 (int32Bytes value.toInt ++ rest) = value.toInt :=
  readInt32_int32Bytes value.le_toInt value.toInt_lt rest

/-! ## What the reader does -/

/-- The header at an offset, where there is room for it. -/
def headerAt (content : Bytes) (offset : ℕ) : Header :=
  if offset + 4 + 4 + 4 ≤ content.length then
    { layer := asLayer (readInt32 (content.drop offset))
      seqIn := readInt32 (content.drop (offset + 4))
      seqOut := readInt32 (content.drop (offset + 4 + 4))
      outSeqIn := some ((readInt32 (content.drop (offset + 4))).tdiv 2)
      outSeqOut := some ((readInt32 (content.drop (offset + 4 + 4))).tdiv 2) }
  else {}

theorem readHeader_of_signature {content : Bytes} (hlength : 4 + 1 ≤ content.length)
    (hsignature : readInt32 content = layerSignature) :
    readHeader content
      = .ok (headerAt content (4 + 1 + (alignLength 4 (content.getD 4 0)).toNat)) := by
  have hbyte : (cut content 4 1).getD 0 0 = content.getD 4 0 := by
    simp [cut, List.getD_eq_getElem?_getD]
  unfold readHeader headerAt
  rw [readInt32_take, if_pos hsignature, if_pos hlength, subdataWithRange_of_le hlength]
  show (if content.length ≥ 4 + 1 + (alignLength 4 ((cut content 4 1).getD 0 0)).toNat + 4 + 4 + 4
    then _ else _) = _
  rw [hbyte]
  obtain ⟨n, hn⟩ : ∃ n, (alignLength 4 (content.getD 4 0)).toNat = n := ⟨_, rfl⟩
  rw [hn]
  by_cases hroom : 4 + 1 + n + 4 + 4 + 4 ≤ content.length
  · rw [if_pos hroom, if_pos hroom, int32At_of_le (by omega), int32At_of_le (by omega),
      int32At_of_le (by omega)]
    rfl
  · rw [if_neg hroom, if_neg hroom]
    rfl

/-- No range of the header goes past the message. -/
theorem readHeader_returns (content : Bytes) : ∃ header, readHeader content = .ok header := by
  by_cases hsignature : readInt32 content = layerSignature
  · by_cases hlength : 4 + 1 ≤ content.length
    · exact ⟨_, readHeader_of_signature hlength hsignature⟩
    · refine ⟨{}, ?_⟩
      rw [readHeader, readInt32_take, if_pos hsignature, if_neg hlength]
      rfl
  · refine ⟨{}, ?_⟩
    rw [readHeader, readInt32_take, if_neg hsignature]
    rfl

theorem headerAt_append (start message : Bytes) (layer seqIn seqOut : Int32) :
    headerAt (start ++ int32Bytes layer.toInt ++ int32Bytes seqIn.toInt ++ int32Bytes seqOut.toInt
        ++ message) start.length
      = { layer := asLayer layer.toInt
          seqIn := seqIn.toInt
          seqOut := seqOut.toInt
          outSeqIn := some (seqIn.toInt.tdiv 2)
          outSeqOut := some (seqOut.toInt.tdiv 2) } := by
  have hroom : start.length + 4 + 4 + 4 ≤ (start ++ int32Bytes layer.toInt ++ int32Bytes seqIn.toInt
      ++ int32Bytes seqOut.toInt ++ message).length := by
    simp only [List.length_append, length_int32Bytes]
    omega
  have hlayer : (start ++ int32Bytes layer.toInt ++ int32Bytes seqIn.toInt
      ++ int32Bytes seqOut.toInt ++ message).drop start.length
        = int32Bytes layer.toInt ++ (int32Bytes seqIn.toInt ++ int32Bytes seqOut.toInt ++ message) := by
    simp only [List.append_assoc, List.drop_left]
  have hseqIn : (start ++ int32Bytes layer.toInt ++ int32Bytes seqIn.toInt
      ++ int32Bytes seqOut.toInt ++ message).drop (start.length + 4)
        = int32Bytes seqIn.toInt ++ (int32Bytes seqOut.toInt ++ message) := by
    rw [← List.drop_drop, hlayer, List.drop_left' (length_int32Bytes _), List.append_assoc]
  have hseqOut : (start ++ int32Bytes layer.toInt ++ int32Bytes seqIn.toInt
      ++ int32Bytes seqOut.toInt ++ message).drop (start.length + 4 + 4)
        = int32Bytes seqOut.toInt ++ message := by
    rw [← List.drop_drop, hseqIn, List.drop_left' (length_int32Bytes _)]
  rw [headerAt, if_pos hroom, hlayer, hseqIn, hseqOut, readInt32_toInt, readInt32_toInt,
    readInt32_toInt]

/-! ## The two forms -/

theorem readInt32_layerMessage (form : Form) (randomBytes message : Bytes)
    (layer seqIn seqOut : Int32) :
    readInt32 (layerMessage form randomBytes layer seqIn seqOut message) = layerSignature := by
  simp only [layerMessage, List.append_assoc]
  exact readInt32_int32Bytes (by decide) (by decide) _

theorem getD_layerMessage (form : Form) (randomBytes message : Bytes)
    (layer seqIn seqOut : Int32) :
    (layerMessage form randomBytes layer seqIn seqOut message).getD 4 0
      = match form with
        | .short => UInt8.ofNat randomBytes.length
        | .long => 254 := by
  cases form <;> rfl

theorem length_layerMessage (form : Form) (randomBytes message : Bytes)
    (layer seqIn seqOut : Int32) :
    (layerMessage form randomBytes layer seqIn seqOut message).length
      = 4 + (tlBytes form randomBytes).length + 4 + 4 + 4 + message.length := by
  simp only [layerMessage, List.length_append, length_int32Bytes]

/-- As far as the counter goes up, the padding goes. -/
theorem alignLength_of_le : ∀ n ≤ 253,
    (alignLength 4 (UInt8.ofNat n)).toNat = n + (4 - (1 + n) % 4) % 4 := by
  decide +kernel

theorem length_tlBytes_short (data : Bytes) :
    (tlBytes .short data).length = 1 + (data.length + (4 - (1 + data.length) % 4) % 4) := by
  simp only [tlBytes, List.length_append, List.length_cons, List.length_replicate]
  omega

theorem readHeader_short {randomBytes : Bytes} (hshort : randomBytes.length ≤ 253)
    (layer seqIn seqOut : Int32) (message : Bytes) :
    readHeader (layerMessage .short randomBytes layer seqIn seqOut message)
      = .ok { layer := asLayer layer.toInt
              seqIn := seqIn.toInt
              seqOut := seqOut.toInt
              outSeqIn := some (seqIn.toInt.tdiv 2)
              outSeqOut := some (seqOut.toInt.tdiv 2) } := by
  have hlength := length_tlBytes_short randomBytes
  rw [readHeader_of_signature (by rw [length_layerMessage]; omega) (readInt32_layerMessage ..),
    getD_layerMessage]
  simp only []
  rw [alignLength_of_le _ hshort]
  have hoffset : 4 + 1 + (randomBytes.length + (4 - (1 + randomBytes.length) % 4) % 4)
      = (int32Bytes layerSignature ++ tlBytes .short randomBytes).length := by
    rw [List.length_append, length_int32Bytes, hlength]
    omega
  rw [hoffset]
  exact congrArg _ (headerAt_append _ message layer seqIn seqOut)

theorem readHeader_long (randomBytes : Bytes) (layer seqIn seqOut : Int32) (message : Bytes) :
    readHeader (layerMessage .long randomBytes layer seqIn seqOut message)
      = .ok (headerAt (layerMessage .long randomBytes layer seqIn seqOut message) 260) := by
  have hlength : (tlBytes .long randomBytes).length ≥ 1 := by
    simp [tlBytes]
  rw [readHeader_of_signature (by rw [length_layerMessage]; omega) (readInt32_layerMessage ..),
    getD_layerMessage]
  have hcounter : (alignLength 4 254).toNat = 255 := by decide
  simp only []
  rw [hcounter]

/-! ## What is recovered -/

/-- The reader stays inside the message and gets what was encoded. -/
def Recovers (form : Form) (randomBytes : Bytes) (layer seqIn seqOut : Int32) (message : Bytes) :
    Prop :=
  ∃ header, readHeader (layerMessage form randomBytes layer seqIn seqOut message) = .ok header
    ∧ (header.layer : Int) = layer.toInt ∧ header.seqIn = seqIn.toInt
    ∧ header.seqOut = seqOut.toInt ∧ header.outSeqIn = some (seqIn.toInt.tdiv 2)
    ∧ header.outSeqOut = some (seqOut.toInt.tdiv 2)

/-- The random bytes are in the short form, or the words that stand at the three offsets are just
the layer and the numbers. -/
def InPlace (form : Form) (randomBytes : Bytes) (layer seqIn seqOut : Int32) (message : Bytes) :
    Prop :=
  let content := layerMessage form randomBytes layer seqIn seqOut message
  match form with
  | .short => 1 ≤ layer.toInt
  | .long => 272 ≤ content.length ∧ (asLayer (readInt32 (content.drop 260)) : Int) = layer.toInt
    ∧ readInt32 (content.drop 264) = seqIn.toInt ∧ readInt32 (content.drop 268) = seqOut.toInt

theorem asLayer_eq_iff (layer : Int32) : (asLayer layer.toInt : Int) = layer.toInt ↔ 1 ≤ layer.toInt := by
  have hlt := layer.toInt_lt
  have hle := layer.le_toInt
  unfold asLayer
  omega

theorem recovers_short {randomBytes : Bytes} (hshort : randomBytes.length ≤ 253)
    (layer seqIn seqOut : Int32) (message : Bytes) :
    Recovers .short randomBytes layer seqIn seqOut message ↔ 1 ≤ layer.toInt := by
  unfold Recovers
  rw [readHeader_short hshort]
  constructor
  · rintro ⟨header, hheader, hlayer, -⟩
    obtain rfl := Except.ok.inj hheader
    exact (asLayer_eq_iff layer).mp hlayer
  · exact fun hlayer => ⟨_, rfl, (asLayer_eq_iff layer).mpr hlayer, rfl, rfl, rfl, rfl⟩

theorem recovers_long (randomBytes : Bytes) (layer seqIn seqOut : Int32) (message : Bytes) :
    Recovers .long randomBytes layer seqIn seqOut message
      ↔ InPlace .long randomBytes layer seqIn seqOut message := by
  unfold Recovers InPlace
  rw [readHeader_long]
  simp only []
  obtain ⟨content, hcontent⟩ : ∃ c, layerMessage .long randomBytes layer seqIn seqOut message = c :=
    ⟨_, rfl⟩
  rw [hcontent, headerAt]
  constructor
  · rintro ⟨header, hheader, hlayer, hseqIn, hseqOut, houtSeqIn, -⟩
    obtain rfl := Except.ok.inj hheader
    split_ifs at hlayer hseqIn hseqOut houtSeqIn with hroom
    exact ⟨hroom, hlayer, hseqIn, hseqOut⟩
  · rintro ⟨hroom, hlayer, hseqIn, hseqOut⟩
    rw [if_pos hroom]
    exact ⟨_, rfl, hlayer, hseqIn, hseqOut, by rw [hseqIn], by rw [hseqOut]⟩

/-! ## The sender -/

theorem toInt_ofInt_of_lt {n : Int} (hle : 0 ≤ n) (hlt : n < 2 ^ 31) : (Int32.ofInt n).toInt = n := by
  rw [Int32.toInt_ofInt]
  show Int.bmod n (2 ^ 32) = n
  rw [Int.bmod_eq_of_le (by omega) (by omega)]

/-- Halving forgets which side the number is from. -/
theorem tdiv_two (n : ℕ) (b : Bool) : ((n : Int) * 2 + if b then 0 else 1).tdiv 2 = n
    ∧ ((n : Int) * 2 + if b then 1 else 0).tdiv 2 = n := by
  constructor
  · rw [Int.tdiv_eq_ediv_of_nonneg (by split_ifs <;> omega)]
    split_ifs <;> omega
  · rw [Int.tdiv_eq_ediv_of_nonneg (by split_ifs <;> omega)]
    split_ifs <;> omega

/-- What the sender builds is the encoding, in the short form. -/
theorem layerHeader_eq (randomBytes : Vector UInt8 15) (layer : Int32) {seqIn seqOut : ℕ}
    (hseqIn : seqIn < 2 ^ 30) (hseqOut : seqOut < 2 ^ 30) (isCreator : Bool) (message : Bytes) :
    layerHeader randomBytes layer.toInt seqIn seqOut isCreator ++ message
      = layerMessage .short randomBytes.toList layer
          (Int32.ofInt (seqIn * 2 + if isCreator then 0 else 1))
          (Int32.ofInt (seqOut * 2 + if isCreator then 1 else 0)) message := by
  unfold layerHeader layerMessage tlBytes
  rw [toInt_ofInt_of_lt (by split_ifs <;> omega) (by split_ifs <;> omega),
    toInt_ofInt_of_lt (by split_ifs <;> omega) (by split_ifs <;> omega)]
  simp only [Vector.length_toList, List.append_assoc]
  rfl

/-- The peer of the sender gets both numbers, and they have the parity it asks for. -/
theorem readHeader_layerHeader (randomBytes : Vector UInt8 15) (layer : Int32) {seqIn seqOut : ℕ}
    (hseqIn : seqIn < 2 ^ 30) (hseqOut : seqOut < 2 ^ 30) (isCreator : Bool) (message : Bytes) :
    ∃ header, readHeader (layerHeader randomBytes layer.toInt seqIn seqOut isCreator ++ message)
        = .ok header
      ∧ header.layer = asLayer layer.toInt ∧ header.outSeqIn = some (seqIn : Int)
      ∧ header.outSeqOut = some (seqOut : Int) ∧ parityPasses (!isCreator) header := by
  have hin : (Int32.ofInt ((seqIn : Int) * 2 + if isCreator then 0 else 1)).toInt
      = (seqIn : Int) * 2 + if isCreator then 0 else 1 :=
    toInt_ofInt_of_lt (by split_ifs <;> omega) (by split_ifs <;> omega)
  have hout : (Int32.ofInt ((seqOut : Int) * 2 + if isCreator then 1 else 0)).toInt
      = (seqOut : Int) * 2 + if isCreator then 1 else 0 :=
    toInt_ofInt_of_lt (by split_ifs <;> omega) (by split_ifs <;> omega)
  rw [layerHeader_eq randomBytes layer hseqIn hseqOut,
    readHeader_short (by rw [Vector.length_toList]; omega), hin, hout,
    (tdiv_two seqIn isCreator).1, (tdiv_two seqOut isCreator).2]
  refine ⟨_, rfl, rfl, rfl, rfl, ?_⟩
  simp only [parityPasses]
  cases isCreator <;> simp

/-- The reader recovers what was encoded just where it is in place, and it always recovers what the
sender of the other side builds. -/
theorem readHeader_layerMessage_iff (form : Form) (randomBytes : Bytes)
    (layer seqIn seqOut : Int32) (message : Bytes) (hform : form.allows randomBytes.length) :
    (Recovers form randomBytes layer seqIn seqOut message
        ↔ InPlace form randomBytes layer seqIn seqOut message)
      ∧ ∀ (buffer : Vector UInt8 15) (sentIn sentOut : ℕ) (isCreator : Bool), sentIn < 2 ^ 30 →
        sentOut < 2 ^ 30 →
        ∃ header, readHeader (layerHeader buffer layer.toInt sentIn sentOut isCreator ++ message)
            = .ok header
          ∧ header.layer = asLayer layer.toInt ∧ header.outSeqIn = some (sentIn : Int)
          ∧ header.outSeqOut = some (sentOut : Int) ∧ parityPasses (!isCreator) header := by
  refine ⟨?_, fun buffer sentIn sentOut isCreator hsentIn hsentOut =>
    readHeader_layerHeader buffer layer hsentIn hsentOut isCreator message⟩
  cases form with
  | short => exact recovers_short hform layer seqIn seqOut message
  | long => exact recovers_long randomBytes layer seqIn seqOut message

/-- As many random bytes as the short form has room for. -/
theorem readHeader_layerMessage_most :
    Recovers .short (List.replicate 253 7) 73 3 4 [1, 2, 3, 4] :=
  (readHeader_layerMessage_iff .short (List.replicate 253 7) 73 3 4 [1, 2, 3, 4]
    List.length_replicate.le).1.mpr (by show 1 ≤ _; decide)

/-- One random byte more: the message is taken for one of layer 1, so that its numbers are not
looked at. -/
theorem long_form_misread :
    ¬Recovers .long (List.replicate 254 0) 73 3 4 []
      ∧ (readHeader (layerMessage .long (List.replicate 254 0) 73 3 4 [])).toOption.map (·.layer)
        = some 1 := by
  refine ⟨?_, by decide +kernel⟩
  rintro ⟨header, hheader, hlayer, -⟩
  have hread : (readHeader (layerMessage .long (List.replicate 254 0) 73 3 4 [])).toOption.map
      (·.layer) = some 1 := by decide +kernel
  rw [hheader] at hread
  have hone : header.layer = 1 := Option.some.inj hread
  rw [hone] at hlayer
  revert hlayer
  decide

end Onegram.Acceptance
