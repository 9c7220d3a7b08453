import Onegram.Proofs.TLSerialization
import Onegram.ProgressToken

/-!
# What unwrapping raises

The container part tests every length before it reads, and does what the reader of `parseMessage`
does. `readBytes:skippingLength:` tests nothing: it takes the length the message declares, and the
bytes of the length itself, to be there.
-/

namespace Onegram.Mtp.Unwrapping

open Bytes TL Cursor

/-! ## Statement -/

/-- A length, as it is read, and as many bytes. -/
def Packed : Bytes → Prop
  | [] => False
  | tmp :: bytes =>
    if tmp = 254 then
      3 ≤ bytes.length ∧ littleEndian (bytes.take 3) < 2 ^ 23
        ∧ littleEndian (bytes.take 3) ≤ bytes.length - 3
    else tmp.toNat ≤ bytes.length

/-- What follows the constructor `gzip_packed` is a length and as many bytes. -/
def WellPacked (data : Bytes) : Prop :=
  data.take 4 = [0xa1, 0xcf, 0x72, 0x30] → Packed (data.drop 4)

/-- The call returns, with a value or with `nil`. -/
def Returns {α : Type} (result : Except NSException (Option α)) : Prop := ∃ v, result = .ok v

/-! ## Containers -/

theorem simulates_readBytes (length : ℕ) :
    Simulates (readBytes length) (MTBufferReader.readBytes length) := by
  refine simulates_read (fun data offset length h => ?_) length
  rw [subdataWithRange, if_neg (by omega)]
  rfl

theorem simulates_readInt32 : Simulates readInt32 MTBufferReader.readInt32 :=
  (simulates_readBytes 4).bind fun _ => simulates_pure _

theorem simulates_readInt64 : Simulates readInt64 MTBufferReader.readInt64 :=
  (simulates_readBytes 8).bind fun _ => simulates_pure _

theorem simulates_readMessageData (length : Int32) :
    Simulates (readMessageData length) (MTInternalMessageParser.readMessageData length) := by
  unfold readMessageData MTInternalMessageParser.readMessageData
  split_ifs
  · exact simulates_fail
  · exact simulates_readBytes _

theorem simulates_readContainerMessage :
    Simulates readContainerMessage MTInternalMessageParser.readContainerMessage :=
  simulates_readInt64.bind fun _ => simulates_readInt32.bind fun _ =>
    simulates_readInt32.bind fun length =>
      (simulates_readMessageData length).bind fun _ => simulates_pure _

theorem simulates_readMsgContainer :
    Simulates readMsgContainer
      (MTInternalMessageParser.readCounted MTInternalMessageParser.readContainerMessage) :=
  simulates_readInt32.bind fun _ => simulates_readContainerMessage.times _

/-- The reader of the one case. -/
def containerReader : Reader UInt8 (List MTMessage) := do
  let signature ← MTBufferReader.readInt32
  if signature.toUInt32 = 0x73f1f8dc then
    MTInternalMessageParser.readCounted MTInternalMessageParser.readContainerMessage
  else Reader.fail

theorem parseMsgContainer_eq (data : Bytes) :
    parseMsgContainer data = .ok ((containerReader data).map Prod.fst) := by
  refine Simulates.run (simulates_readInt32.bind fun signature => ?_) data
  split_ifs
  · exact simulates_readMsgContainer
  · exact simulates_fail

/-- On the constructor of a container it is the parser's own answer. -/
theorem parseMsgContainer_parseMessage {data : Bytes} {messages : Option (List MTMessage)}
    (h : data.take 4 = [0xdc, 0xf8, 0xf1, 0x73]) (hparse : parseMsgContainer data = .ok messages) :
    MTInternalMessageParser.parseMessage data = messages.map .msgContainer := by
  rw [parseMsgContainer_eq] at hparse
  rw [← Except.ok.inj hparse]
  have hlen : 4 ≤ data.length := by
    have := congrArg List.length h
    simp at this
    omega
  have hsignature : MTBufferReader.readInt32 data = some ((0x73f1f8dc : UInt32).toInt32, data.drop 4) := by
    rw [MTBufferReader.readInt32, Reader.bind_apply, MTBufferReader.readBytes, Reader.take,
      if_pos hlen, h]
    rfl
  rw [MTInternalMessageParser.parseMessage, MTInternalMessageParser.readSigned, containerReader,
    Reader.bind_apply, Reader.bind_apply, hsignature, Option.bind_some, Option.bind_some]
  change Option.map Prod.fst (MTInternalMessageParser.readMsgContainer (data.drop 4)) = _
  rw [MTInternalMessageParser.readMsgContainer, Reader.bind_apply]
  change _ = Option.map Message.msgContainer (Option.map Prod.fst
    (MTInternalMessageParser.readCounted MTInternalMessageParser.readContainerMessage
      (data.drop 4)))
  rcases MTInternalMessageParser.readCounted MTInternalMessageParser.readContainerMessage
    (data.drop 4) with _ | ⟨messages, rest⟩ <;> rfl

/-! ## Slices -/

theorem subdataWithRange_returns {data : Bytes} {location : ℕ} {length : Int} :
    (∃ v, subdataWithRange data location length = .ok v)
      ↔ 0 ≤ length ∧ location + length.toNat ≤ data.length := by
  unfold subdataWithRange
  split_ifs with h
  · simp only [exists_false, false_iff]
    omega
  · simp only [Except.ok.injEq, exists_eq', true_iff]
    omega

/-- One after the other, with the first one known. -/
theorem bind_returns {α β : Type} {x : Except NSException α} {f : α → Except NSException β} {a : α}
    (h : x = .ok a) : (∃ v, (x >>= f) = .ok v) ↔ ∃ v, f a = .ok v := by
  rw [h]
  rfl

theorem bind_raises {α β : Type} {x : Except NSException α} {f : α → Except NSException β}
    (h : ¬ ∃ a, x = .ok a) : ¬ ∃ v, (x >>= f) = .ok v := by
  rcases x with e | a
  · rintro ⟨v, hv⟩
    cases hv
  · exact absurd ⟨a, rfl⟩ h

theorem readBytesSkippingLength_returns (data : Bytes) (skipLength : ℕ) :
    (∃ v, readBytesSkippingLength data skipLength = .ok v) ↔ Packed (data.drop skipLength) := by
  unfold readBytesSkippingLength
  rcases hdrop : data.drop skipLength with _ | ⟨tmp, bytes⟩
  · have hlen := List.drop_eq_nil_iff.mp hdrop
    refine iff_of_false (bind_raises fun h => ?_) not_false
    have := (subdataWithRange_returns.mp h).2
    omega
  have hlen : data.length = skipLength + 1 + bytes.length := by
    have := congrArg List.length hdrop
    simp at this
    omega
  have hafter : data.drop (skipLength + 1) = bytes := by
    rw [← List.drop_drop, hdrop, List.drop_one, List.tail_cons]
  have htmp : subdataWithRange data skipLength 1 = .ok [tmp] := by
    rw [subdataWithRange, if_neg (by omega), MessageCipher.cut, hdrop]
    rfl
  rw [bind_returns htmp]
  dsimp only [Packed]
  by_cases h254 : tmp = 254
  · rw [if_pos h254, if_pos (by rw [h254])]
    by_cases hheader : 3 ≤ bytes.length
    · have hbytes : subdataWithRange data (skipLength + 1) 3 = .ok (bytes.take 3) := by
        rw [subdataWithRange, if_neg (by omega), MessageCipher.cut, hafter]
        rfl
      rw [bind_returns hbytes, subdataWithRange_returns,
        shiftedLength_eq (by rw [List.length_take]; omega)]
      have hlt := littleEndian_lt (bytes.take 3)
      rw [List.length_take_of_le hheader] at hlt
      split_ifs <;> omega
    · refine iff_of_false (bind_raises fun h => ?_) fun h => hheader h.1
      have := (subdataWithRange_returns.mp h).2
      omega
  · rw [if_neg h254, if_neg (by simpa using h254), subdataWithRange_returns]
    have hvalue : littleEndian [tmp] = tmp.toNat := by simp [littleEndian]
    rw [hvalue]
    omega

variable {σ : Type} (z : ZLib σ)

theorem unwrapMessage_returns (data : Bytes) :
    Returns (unwrapMessage z data) ↔ WellPacked data := by
  unfold Returns unwrapMessage WellPacked
  split_ifs with hshort hpacked
  · refine iff_of_true ⟨_, rfl⟩ fun h => ?_
    have := congrArg List.length h
    simp at this
    omega
  · rw [← readBytesSkippingLength_returns]
    rcases readBytesSkippingLength data 4 with e | v
    · simp [Except.map, hpacked]
    · simp [Except.map, hpacked]
  · exact iff_of_true ⟨_, rfl⟩ fun h => absurd h hpacked

/-- Both return, a value or `nil`, exactly on what is no packed message or a well packed one. -/
theorem unwrapping_returns_iff (data : Bytes) :
    Returns (unwrapMessage z data) ∧ Returns (parseMsgContainer data) ↔ WellPacked data :=
  ⟨fun h => (unwrapMessage_returns z data).mp h.1,
    fun h => ⟨(unwrapMessage_returns z data).mpr h, _, parseMsgContainer_eq data⟩⟩

theorem readBytesSkippingLength_toOption (data : Bytes) (skipLength : ℕ) :
    Mtp.readBytesSkippingLength data skipLength
      = (readBytesSkippingLength data skipLength).toOption := by
  unfold readBytesSkippingLength Mtp.readBytesSkippingLength
  rcases htmp : data[skipLength]? with _ | tmp
  · have hlen := List.getElem?_eq_none_iff.mp htmp
    have hraise : subdataWithRange data skipLength 1 = .error .rangeException := by
      rw [subdataWithRange, if_pos (by omega)]
    rw [hraise]
    rfl
  obtain ⟨hlen, htmp⟩ := List.getElem?_eq_some_iff.mp htmp
  have hread : subdataWithRange data skipLength 1 = .ok [tmp] := by
    rw [subdataWithRange, if_neg (by omega), MessageCipher.cut, List.drop_eq_getElem_cons hlen,
      htmp]
    rfl
  rw [hread]
  change (if tmp = 254 then _ else _) = Except.toOption (if [tmp] = [254] then _ else _)
  have hvalue : littleEndian [tmp] = tmp.toNat := by simp [littleEndian]
  rw [hvalue]
  simp only [List.cons.injEq, and_true]
  split_ifs with h254 hheader
  · have hraise : subdataWithRange data (skipLength + 1) 3 = .error .rangeException := by
      rw [subdataWithRange, if_pos (by omega)]
    rw [hraise]
    rfl
  · have hbytes : subdataWithRange data (skipLength + 1) 3
        = .ok (MessageCipher.cut data (skipLength + 1) 3) := by
      rw [subdataWithRange, if_neg (by omega)]
      rfl
    rw [hbytes]
    rfl
  · rfl

/-- Where it returns, it is the unwrapping the parser of packets does. -/
theorem unwrapMessage_eq {data : Bytes} {message : Option Bytes}
    (h : unwrapMessage z data = .ok message) :
    Mtp.unwrapMessage (decompressGZip z) data = message := by
  unfold unwrapMessage at h
  unfold Mtp.unwrapMessage
  split_ifs at h ⊢ with hshort hpacked
  · exact Except.ok.inj h
  · rw [readBytesSkippingLength_toOption]
    rcases hread : readBytesSkippingLength data 4 with e | v
    · rw [hread] at h
      cases h
    · rw [hread] at h
      exact Except.ok.inj h
  · exact Except.ok.inj h

/-- A stream that ends at once. -/
def emptyZLib : ZLib Unit where
  inflateInit2 := fun _ => some ()
  inflate := fun _ => (.streamEnd, [], ())
  left := fun _ => 0
  progress := fun _ h => by cases h

/-- The constructor alone. -/
theorem bareConstructor_raises :
    ¬ (Returns (unwrapMessage emptyZLib [0xa1, 0xcf, 0x72, 0x30])
      ∧ Returns (parseMsgContainer [0xa1, 0xcf, 0x72, 0x30])) := by
  rintro ⟨⟨v, h⟩, -⟩
  cases h

end Onegram.Mtp.Unwrapping
