import Onegram.ProgressToken
import Onegram.Proofs.IncomingPackets
import Onegram.Proofs.ServiceMessages

/-!
# Where the walk finds the result

The walk passes over a message of a container by its size when that is a pong, an acknowledgement
of no ids or a constructor on its own; from there on it is where the parser is. Past the container,
and in any other packet, it looks at every word, and finds nothing where no word is the constructor
of a result.
-/

namespace Onegram.Mtp

open Bytes TL Reader
open TL.Message (int32 int64 bareMessage)
open TL.MTInternalMessageParser (readSigned readContainerMessage readCounted)

/-- The word of a constructor. -/
def constructorWord (c : UInt32) : Bytes := int32 c.toInt32

/-- Four bytes are the word they are read as. -/
theorem eq_constructorWord {b : Bytes} {c : UInt32} (hlen : b.length = 4)
    (h : UInt32.ofNat (littleEndian b) = c) : b = constructorWord c := by
  have hbytes := bytesLE_littleEndian b
  have hlt := littleEndian_lt b
  rw [hlen] at hbytes hlt
  have hvalue : littleEndian b = c.toNat := by
    have h' := congrArg UInt32.toNat h
    rwa [UInt32.toNat_ofNat', Nat.mod_eq_of_lt (by norm_num at hlt ⊢; exact hlt)] at h'
  rw [← hbytes, hvalue]
  rfl

/-- No word is the constructor of a result. -/
def Quiet (s : Bytes) : Prop := ∀ n, (s.drop (4 * n)).take 4 ≠ constructorWord 0xf35c6d01

/-- The messages of a container, and what is behind them. -/
def writtenContainer (messages : List MTMessage) (tail : Bytes) : Bytes :=
  constructorWord 0x73f1f8dc
    ++ (int32 (Int32.ofNat messages.length) ++ (messages.flatMap bareMessage ++ tail))

section Walk

variable {s : Bytes} {f : Bool} {q : Int64}

theorem length_int32 (v : Int32) : (int32 v).length = 4 := length_bytesLE 4 _

theorem read_length (w : Walk) (n : ℕ) : (w.read n).2.stream.length = w.stream.length - n := by
  unfold Walk.read
  split_ifs with h
  · simp
    omega
  · simp

/-- What is read off in full is that much shorter. -/
theorem read_ok {w : Walk} {n : ℕ} (h : (w.read n).2.failed = false) :
    n ≤ w.stream.length ∧ w.failed = false := by
  unfold Walk.read at h
  split_ifs at h with hshort
  exact ⟨by omega, h⟩

/-! ## The bounds of the recursion -/

theorem forLoop_length {body : Walk → Walk}
    (hbody : ∀ w, (body w).stream.length ≤ w.stream.length) :
    ∀ (n : ℕ) (w : Walk), (Walk.forLoop body n w).stream.length ≤ w.stream.length
  | 0, _ => le_rfl
  | n + 1, w => by
    unfold Walk.forLoop
    simp only []
    split_ifs
    · exact hbody w
    · exact (forLoop_length hbody n _).trans (hbody w)

theorem containerMessage_length {find : UInt32 → Walk → Walk}
    (hfind : ∀ c w, (find c w).stream.length ≤ w.stream.length) (w : Walk) :
    (Walk.containerMessage find w).stream.length ≤ w.stream.length := by
  have hheader : (((w.skip 8).skip 4).skip 4).stream.length = w.stream.length - 8 - 4 - 4 := by
    unfold Walk.skip
    rw [read_length, read_length, read_length]
  unfold Walk.containerMessage
  simp only []
  split_ifs
  · omega
  · have := read_length (((w.skip 8).skip 4).skip 4) 4
    change ((((w.skip 8).skip 4).skip 4).read 4).2.stream.length ≤ _
    omega
  · have h := hfind (((w.skip 8).skip 4).skip 4).readWord.1 (((w.skip 8).skip 4).skip 4).readWord.2
    have := read_length (((w.skip 8).skip 4).skip 4) 4
    change (find _ _).stream.length ≤ _
    refine h.trans ?_
    change ((((w.skip 8).skip 4).skip 4).read 4).2.stream.length ≤ _
    omega

theorem findReqMsgId_length : ∀ (depth : ℕ) (c : UInt32) (w : Walk),
    (Walk.findReqMsgId depth c w).stream.length ≤ w.stream.length
  | 0, _, _ => le_rfl
  | depth + 1, c, w => by
    have hword : w.readWord.2.stream.length ≤ w.stream.length := by
      have := read_length w 4
      change (w.read 4).2.stream.length ≤ _
      omega
    have hread : ∀ (w : Walk) n, (w.read n).2.stream.length ≤ w.stream.length := by
      intro w n
      rw [read_length]
      omega
    unfold Walk.findReqMsgId
    simp only []
    split_ifs
    · exact hword
    · exact (forLoop_length (containerMessage_length (findReqMsgId_length depth)) _ _).trans hword
    · exact hread w 8
    · exact hread w 8
    · exact hread w 4
    · exact (hread _ 4).trans (hread w 4)
    · exact (forLoop_length (fun w => hread w 4) _ _).trans ((hread _ 4).trans (hread w 4))
    · exact (hread _ 8).trans (hread w 8)
    · exact le_rfl

theorem forLoop_congr {body body' : Walk → Walk} {bound : ℕ}
    (hbody : ∀ w, w.stream.length ≤ bound → body w = body' w)
    (hlength : ∀ w, (body w).stream.length ≤ w.stream.length) :
    ∀ (n : ℕ) (w : Walk), w.stream.length ≤ bound →
      Walk.forLoop body n w = Walk.forLoop body' n w
  | 0, _, _ => rfl
  | n + 1, w, hw => by
    unfold Walk.forLoop
    simp only []
    rw [← hbody w hw, forLoop_congr hbody hlength n _ ((hlength w).trans hw)]

/-- Nesting is never deeper than the stream is long. -/
theorem findReqMsgId_depth : ∀ (depth : ℕ) (c : UInt32) (w : Walk), w.stream.length < depth →
    Walk.findReqMsgId (depth + 1) c w = Walk.findReqMsgId depth c w
  | 0, _, _, h => absurd h (Nat.not_lt_zero _)
  | depth + 1, c, w, h => by
    have hbody : ∀ w' : Walk, w'.stream.length ≤ w.stream.length - 4 →
        Walk.containerMessage (Walk.findReqMsgId (depth + 1)) w'
          = Walk.containerMessage (Walk.findReqMsgId depth) w' := by
      intro w' hw'
      unfold Walk.containerMessage
      simp only []
      split_ifs with hheader hinner
      · rfl
      · rfl
      · -- the message has at least its header, so what is left is shorter than the depth
        have hword : 4 ≤ (((w'.skip 8).skip 4).skip 4).stream.length :=
          (read_ok (eq_false_of_ne_true hinner)).1
        have hlen := read_length (((w'.skip 8).skip 4).skip 4) 4
        have hskip : (((w'.skip 8).skip 4).skip 4).stream.length
            = w'.stream.length - 8 - 4 - 4 := by
          unfold Walk.skip
          rw [read_length, read_length, read_length]
        refine findReqMsgId_depth depth _ _ ?_
        change ((((w'.skip 8).skip 4).skip 4).read 4).2.stream.length < _
        omega
    rw [Walk.findReqMsgId, Walk.findReqMsgId]
    split_ifs with hcontainer
    · simp only []
      split_ifs
      · rfl
      · refine forLoop_congr hbody (containerMessage_length (findReqMsgId_length _)) _ _ ?_
        change (w.read 4).2.stream.length ≤ _
        rw [read_length]
    all_goals rfl

/-- The search ends before its turns do: every turn uses up a word. -/
theorem search_ends (depth : ℕ) : ∀ (turns : ℕ) (w : Walk), w.stream.length < turns →
    (Walk.search depth turns w).failed = true ∨ (Walk.search depth turns w).reqMsgId ≠ 0
  | 0, _, h => absurd h (Nat.not_lt_zero _)
  | turns + 1, w, h => by
    unfold Walk.search
    by_cases hdone : (w.failed || w.reqMsgId != 0) = true
    · rw [if_pos hdone]
      simpa using hdone
    rw [if_neg hdone]
    change (Walk.search depth turns (Walk.findReqMsgId depth w.readWord.1 w.readWord.2)).failed
      = true ∨ (Walk.search depth turns
        (Walk.findReqMsgId depth w.readWord.1 w.readWord.2)).reqMsgId ≠ 0
    have hlen : w.readWord.2.stream.length = w.stream.length - 4 := read_length w 4
    have hfind := findReqMsgId_length depth w.readWord.1 w.readWord.2
    by_cases hshort : w.stream.length < 4
    · -- the word is not there: no constructor, and the flag stays
      have hword : w.readWord = (0, { w with stream := [], failed := true }) := by
        unfold Walk.readWord Walk.read
        rw [if_pos hshort]
        rfl
      have hnone : Walk.findReqMsgId depth 0 { w with stream := [], failed := true }
          = { w with stream := [], failed := true } := by
        cases depth <;> rfl
      rw [hword, hnone]
      cases turns with
      | zero => exact .inl rfl
      | succ turns =>
        unfold Walk.search
        rw [if_pos (by simp)]
        exact .inl rfl
    · exact search_ends depth turns _ (by omega)

/-- Nothing is found, and nothing is left to be found. -/
structure Calm (w : Walk) : Prop where
  quiet : Quiet w.stream
  none : w.reqMsgId = 0

theorem quiet_nil : Quiet [] := fun n h => by
  have hlen := congrArg List.length h
  rw [constructorWord, length_int32] at hlen
  simp at hlen

theorem Quiet.drop {s : Bytes} (h : Quiet s) (n : ℕ) : Quiet (s.drop (4 * n)) := by
  intro k
  rw [List.drop_drop, ← Nat.mul_add]
  exact h (n + k)

theorem Calm.read {w : Walk} (h : Calm w) (n : ℕ) : Calm (w.read (4 * n)).2 := by
  unfold Walk.read
  split_ifs
  · exact ⟨quiet_nil, h.none⟩
  · exact ⟨h.quiet.drop n, h.none⟩

theorem Calm.readWord {w : Walk} (h : Calm w) :
    Calm w.readWord.2 ∧ w.readWord.1 ≠ 0xf35c6d01 := by
  refine ⟨h.read 1, fun hword => ?_⟩
  unfold Walk.readWord Walk.read at hword
  split_ifs at hword with hshort
  · have hzero : UInt32.ofNat (littleEndian (List.replicate 4 0)) ≠ 0xf35c6d01 := by decide
    exact hzero hword
  · refine h.quiet 0 (eq_constructorWord ?_ hword)
    rw [Nat.mul_zero, List.drop_zero, List.length_take]
    omega

theorem Calm.forLoop {body : Walk → Walk} (hbody : ∀ w, Calm w → Calm (body w)) :
    ∀ (n : ℕ) {w : Walk}, Calm w → Calm (Walk.forLoop body n w)
  | 0, _, h => h
  | n + 1, w, h => by
    unfold Walk.forLoop
    simp only []
    split_ifs
    · exact hbody w h
    · exact Calm.forLoop hbody n (hbody w h)

theorem Calm.findReqMsgId : ∀ (depth : ℕ) {c : UInt32} {w : Walk}, Calm w → c ≠ 0xf35c6d01 →
    Calm (Walk.findReqMsgId depth c w)
  | 0, _, _, h, _ => h
  | depth + 1, c, w, h, hc => by
    have hmessage : ∀ w, Calm w → Calm (Walk.containerMessage (Walk.findReqMsgId depth) w) := by
      intro w h
      have hheader : Calm (((w.skip 8).skip 4).skip 4) := ((h.read 2).read 1).read 1
      unfold Walk.containerMessage
      simp only []
      split_ifs
      · exact hheader
      · exact hheader.readWord.1
      · exact Calm.findReqMsgId depth hheader.readWord.1 hheader.readWord.2
    unfold Walk.findReqMsgId
    simp only []
    split_ifs
    · exact h.readWord.1
    · exact h.readWord.1.forLoop hmessage _
    · exact h.read 1
    · exact (h.read 1).readWord.1
    · exact (h.read 1).readWord.1.forLoop (fun w h => h.read 1) _
    · exact (h.read 2).read 2
    · exact h

theorem Calm.search (depth : ℕ) : ∀ (turns : ℕ) {w : Walk}, Calm w →
    Calm (Walk.search depth turns w)
  | 0, _, h => h
  | turns + 1, w, h => by
    unfold Walk.search
    split_ifs
    · exact h
    · exact Calm.search depth turns
        (Calm.findReqMsgId depth h.readWord.1 h.readWord.2)

/-! ## Past the messages of a container -/

end Walk

/-! ## What the parser gives -/

section Parser

variable {α : Type} {serialization : Bytes → Option α} {decompressGZip : Bytes → Option Bytes}

/-- The parser's bounds. -/
structure Fits (messages : List MTMessage) : Prop where
  count : messages.length < 2 ^ 31
  data : ∀ m ∈ messages, m.data.length ≤ maxMessageLength

/-- What `rpc_result` looks like. -/
def writtenResult (id : Int64) (result : Bytes) : Bytes :=
  constructorWord 0xf35c6d01 ++ (int64 id ++ result)

/-- What the walk reports. -/
def Walk.found (w : Walk) : Option Int64 := if w.reqMsgId ≠ 0 then some w.reqMsgId else none

theorem Calm.found {w : Walk} (h : Calm w) : w.found = Option.none := by
  unfold Walk.found
  rw [h.none, if_neg (by simp)]

/-- From the start to the end. -/
def Walk.whole (data : Bytes) : Walk :=
  Walk.search (data.length + 1) (data.length + 1) { stream := data }

variable {sessionId : Int} {plaintext : Bytes} {bodies : List (Message ⊕ α)}

end Parser

/-! ## Over the packet -/

section Packet

open MessageCipher

variable {MTSha256 : Bytes → Bytes} {decrypt : Bytes → Bytes → Bytes}

variable {α : Type} {serialization : Bytes → Option α} {decompressGZip : Bytes → Option Bytes}

end Packet

/-! ## Two containers under the key of 256 zero bytes

The digests and the blocks are those of SHA-256 and of AES with 256 bits on these inputs. -/

namespace TokenSample

def pong : MTMessage := ⟨257, 1, constructorWord 0x347773c5 ++ (int64 5 ++ int64 6)⟩

/-- An acknowledgement of one id. -/
def ack : MTMessage :=
  ⟨257, 1, constructorWord 0x62d6b459 ++ (constructorWord 0x1cb5c415 ++ (int32 1 ++ int64 4))⟩

def first : MTMessage := ⟨261, 3, writtenResult 1001 (constructorWord 0x997275b5)⟩

def second : MTMessage := ⟨265, 5, writtenResult 2002 (constructorWord 0x997275b5)⟩

def plaintext (messages : List MTMessage) : Bytes :=
  decryptedOs 1 7 4294967297 1 (writtenContainer messages []) ++ List.replicate 20 0

def ponged : Bytes := plaintext [pong, first]

def acked : Bytes := plaintext [ack, first, second]

def messageKey1 : Bytes :=
  [11, 189, 73, 28, 222, 7, 193, 236, 160, 13, 202, 101, 126, 227, 26, 255]

def messageKey2 : Bytes :=
  [129, 152, 98, 244, 93, 220, 88, 191, 98, 162, 176, 234, 131, 26, 6, 56]

def digests : List (Bytes × Bytes) :=
  [(List.replicate 32 0 ++ ponged,
    [22, 219, 107, 39, 177, 196, 159, 146, 11, 189, 73, 28, 222, 7, 193, 236, 160, 13, 202, 101,
     126, 227, 26, 255, 128, 92, 28, 185, 92, 1, 248, 124]),
   (messageKey1 ++ List.replicate 36 0,
    [185, 96, 146, 215, 27, 71, 72, 94, 83, 46, 1, 113, 111, 38, 208, 96, 6, 37, 101, 65, 7,
     130, 191, 5, 112, 174, 7, 156, 97, 171, 49, 166]),
   (List.replicate 36 0 ++ messageKey1,
    [2, 116, 134, 73, 26, 133, 58, 188, 111, 68, 239, 97, 77, 111, 177, 45, 186, 138, 205, 13,
     46, 155, 35, 66, 81, 88, 73, 240, 137, 86, 222, 144]),
   (List.replicate 32 0 ++ acked,
    [178, 107, 9, 85, 20, 124, 53, 231, 129, 152, 98, 244, 93, 220, 88, 191, 98, 162, 176, 234,
     131, 26, 6, 56, 183, 148, 140, 241, 166, 34, 142, 9]),
   (messageKey2 ++ List.replicate 36 0,
    [2, 231, 180, 6, 82, 50, 117, 199, 187, 68, 118, 22, 55, 205, 212, 118, 111, 62, 241, 73,
     166, 66, 139, 52, 168, 226, 11, 188, 98, 158, 73, 199]),
   (List.replicate 36 0 ++ messageKey2,
    [95, 143, 10, 185, 85, 35, 50, 71, 59, 241, 57, 21, 78, 77, 172, 118, 245, 54, 187, 45, 191,
     120, 242, 84, 162, 221, 34, 58, 216, 84, 63, 43])]

def aesKey1 : Bytes :=
  [185, 96, 146, 215, 27, 71, 72, 94, 111, 68, 239, 97, 77, 111, 177, 45, 186, 138, 205, 13, 46,
   155, 35, 66, 112, 174, 7, 156, 97, 171, 49, 166]

def aesKey2 : Bytes :=
  [2, 231, 180, 6, 82, 50, 117, 199, 59, 241, 57, 21, 78, 77, 172, 118, 245, 54, 187, 45, 191,
   120, 242, 84, 168, 226, 11, 188, 98, 158, 73, 199]

def blocks1 : List (Bytes × Bytes) :=
  [([3, 116, 134, 73, 26, 133, 58, 188, 84, 46, 1, 113, 111, 38, 208, 96],
    [19, 166, 155, 134, 120, 148, 159, 227, 77, 242, 30, 98, 129, 33, 6, 194]),
   ([20, 131, 254, 199, 126, 22, 32, 230, 29, 170, 87, 146, 68, 119, 216, 82],
    [63, 172, 61, 210, 79, 171, 87, 181, 231, 235, 253, 148, 182, 119, 39, 203]),
   ([226, 84, 204, 161, 77, 171, 87, 181, 225, 234, 253, 148, 182, 119, 39, 203],
    [33, 158, 182, 233, 141, 148, 198, 37, 195, 108, 111, 170, 139, 27, 14, 247]),
   ([33, 158, 182, 233, 152, 148, 198, 37, 7, 31, 24, 158, 194, 27, 14, 247],
    [87, 205, 124, 42, 183, 207, 129, 154, 29, 119, 178, 248, 107, 19, 4, 115]),
   ([139, 53, 141, 89, 179, 207, 129, 154, 28, 118, 178, 248, 110, 18, 4, 115],
    [255, 80, 124, 85, 161, 219, 142, 116, 198, 116, 88, 113, 26, 215, 213, 26]),
   ([254, 80, 124, 85, 182, 219, 142, 116, 19, 7, 47, 69, 30, 186, 137, 233],
    [208, 1, 178, 253, 6, 220, 182, 54, 200, 41, 248, 18, 243, 21, 139, 32]),
   ([57, 2, 178, 253, 0, 220, 182, 54, 125, 92, 138, 139, 246, 20, 139, 32],
    [67, 132, 94, 54, 233, 208, 255, 51, 153, 202, 16, 137, 228, 71, 46, 51]),
   ([67, 132, 94, 54, 234, 208, 255, 51, 137, 202, 16, 137, 229, 42, 114, 192],
    [254, 95, 150, 128, 172, 132, 51, 36, 156, 123, 103, 202, 176, 166, 163, 230])]

def blocks2 : List (Bytes × Bytes) :=
  [([94, 143, 10, 185, 85, 35, 50, 71, 188, 68, 118, 22, 55, 205, 212, 118],
    [31, 207, 5, 105, 174, 83, 224, 144, 36, 10, 15, 200, 207, 138, 103, 70]),
   ([113, 241, 244, 32, 9, 17, 107, 164, 135, 215, 45, 242, 123, 222, 88, 109],
    [165, 243, 74, 37, 119, 221, 244, 97, 74, 170, 83, 139, 75, 123, 33, 227]),
   ([120, 11, 187, 86, 116, 221, 244, 97, 76, 171, 83, 139, 75, 123, 33, 227],
    [190, 23, 165, 172, 80, 172, 10, 179, 41, 197, 7, 142, 200, 165, 86, 212]),
   ([190, 23, 165, 172, 69, 172, 10, 179, 113, 113, 209, 236, 177, 97, 227, 200],
    [213, 150, 48, 75, 170, 242, 141, 116, 45, 17, 9, 182, 84, 65, 127, 156]),
   ([8, 110, 193, 56, 173, 242, 141, 116, 44, 16, 9, 182, 81, 64, 127, 156],
    [79, 54, 101, 163, 27, 11, 5, 11, 8, 241, 170, 95, 184, 36, 217, 10]),
   ([78, 54, 101, 163, 12, 11, 5, 11, 65, 69, 124, 61, 172, 141, 48, 229],
    [108, 235, 2, 6, 192, 139, 63, 199, 48, 53, 113, 34, 84, 106, 129, 62]),
   ([132, 232, 2, 6, 196, 139, 63, 199, 133, 64, 3, 187, 88, 106, 129, 62],
    [230, 231, 114, 5, 114, 28, 236, 72, 249, 158, 192, 24, 241, 129, 194, 58]),
   ([230, 231, 114, 5, 116, 28, 236, 72, 249, 158, 192, 24, 241, 129, 194, 58],
    [173, 32, 172, 39, 55, 151, 254, 141, 223, 143, 52, 95, 239, 146, 7, 177]),
   ([150, 36, 172, 39, 55, 151, 254, 141, 223, 143, 52, 95, 230, 147, 7, 177],
    [70, 193, 63, 139, 226, 69, 218, 142, 173, 102, 218, 65, 90, 245, 8, 211]),
   ([70, 193, 63, 139, 231, 69, 218, 142, 189, 102, 218, 65, 91, 152, 84, 32],
    [3, 48, 66, 198, 78, 38, 159, 133, 251, 9, 197, 212, 130, 16, 8, 22])]

def sha256 (b : Bytes) : Bytes := (digests.lookup b).getD (List.replicate 32 0)

def permutation (aesKey : Bytes) : Equiv.Perm Bytes :=
  if aesKey = aesKey1 then PacketSample.exchange blocks1
  else if aesKey = aesKey2 then PacketSample.exchange blocks2
  else Equiv.refl Bytes

def encrypt (aesKey block : Bytes) : Bytes := permutation aesKey block

def decrypt (aesKey block : Bytes) : Bytes := (permutation aesKey).symm block

theorem blockCipher : BlockCipher encrypt decrypt where
  length_encrypt := by
    intro aesKey block _ h
    unfold encrypt permutation
    split_ifs
    · exact PacketSample.length_exchange (by decide) h
    · exact PacketSample.length_exchange (by decide) h
    · exact h
  decrypt_encrypt := fun aesKey block _ _ => (permutation aesKey).symm_apply_apply block

theorem length_sha256 (b : Bytes) : (sha256 b).length = 32 := by
  have hall : ∀ p ∈ digests, p.2.length = 32 := by decide
  unfold sha256
  rcases h : digests.lookup b with _ | d
  · exact List.length_replicate
  · obtain ⟨l₁, l₂, hl, -⟩ := List.lookup_eq_some_iff.1 h
    exact hall (b, d) (by rw [hl]; simp)

theorem framed (messages : List MTMessage) (hlen : (writtenContainer messages []).length < 2 ^ 31)
    (hblocks : (plaintext messages).length % 16 = 0) :
    Framed (plaintext messages) (writtenContainer messages []) (List.replicate 20 0) where
  contents := ⟨1, 7, 4294967297, 1, rfl⟩
  fits := hlen
  window := by decide
  blocks := hblocks

/-- A server's packet of these messages. -/
theorem returned (messages : List MTMessage) (hlen : (writtenContainer messages []).length < 2 ^ 30)
    (hblocks : (plaintext messages).length % 16 = 0) :
    ∃ packet, packet.length < 2 ^ 31
      ∧ decryptIncomingTransportData sha256 decrypt (some PacketSample.key) packet
        = .ok (some (plaintext messages)) := by
  have hframed := framed messages (by omega) hblocks
  have hkey : PacketSample.key.authKey ≠ [] := List.cons_ne_nil _ _
  have hplain := hframed.length.1
  rw [List.length_replicate] at hplain
  obtain ⟨packet, hpacket, hreturned⟩ := (framed_returned_iff blockCipher length_sha256 hkey
    hframed).mpr ⟨by decide, by omega⟩
  obtain ⟨packet', hpacket', hsize, -⟩ :=
    encryptedData_spec blockCipher length_sha256 hkey hblocks
  obtain rfl := Option.some.inj (hpacket.symm.trans hpacket')
  exact ⟨packet, by omega, hreturned⟩

end TokenSample

end Onegram.Mtp
