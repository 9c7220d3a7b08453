import Onegram.Lib.ByteOrder

/-!
# Sort keys as they are stored

The database keeps sort keys as rows of bytes and goes through them in the order of `memcmp`. Dates
and ids have their bytes swapped for it, so that the highest one comes first; the peer keeps the
order of the machine, which is little-endian. A key that is built in a local variable starts as
what is found on the stack.
-/

namespace Onegram.Packed

def bytesOfInt32 (x : Int32) : Bytes := Bytes.bytesLE 4 x.toUInt32.toNat

def int32OfBytes (b : Bytes) : Int32 := (UInt32.ofNat (Bytes.littleEndian b)).toInt32

def bytesOfInt64 (x : Int64) : Bytes := Bytes.bytesLE 8 x.toUInt64.toNat

def int64OfBytes (b : Bytes) : Int64 := (UInt64.ofNat (Bytes.littleEndian b)).toInt64

def NSSwapInt (x : Int32) : Int32 := int32OfBytes (bytesOfInt32 x).reverse

def INT32_MAX : Int32 := 2147483647

/-! ## The key of a message -/

structure TGMessageSortKey where
  key : Vector UInt8 17
deriving DecidableEq

def TGMessageSortKeyMake (stack : Vector UInt8 17) (peerId : Int64) (space : UInt8)
    (timestamp mid : Int32) : TGMessageSortKey :=
  let key := Bytes.blit stack 0 (bytesOfInt64 peerId)
  let key := Bytes.blit key 8 [space]
  let key := Bytes.blit key (8 + 1) (bytesOfInt32 (NSSwapInt timestamp))
  let key := Bytes.blit key (8 + 1 + 4) (bytesOfInt32 (NSSwapInt mid))
  ⟨key⟩

def TGMessageSortKeyLowerBound (stack : Vector UInt8 17) (peerId : Int64) (space : UInt8) :
    TGMessageSortKey :=
  TGMessageSortKeyMake stack peerId space 0 0

def TGMessageSortKeyUpperBound (stack : Vector UInt8 17) (peerId : Int64) (space : UInt8) :
    TGMessageSortKey :=
  TGMessageSortKeyMake stack peerId space INT32_MAX INT32_MAX

def TGMessageSortKeyCompare (lhs rhs : TGMessageSortKey) : Ordering :=
  compare lhs.key.toList rhs.key.toList

def TGMessageSortKeyPeerId (key : TGMessageSortKey) : Int64 :=
  int64OfBytes (Bytes.slice key.key.toList 0 8).toList

def TGMessageSortKeySpace (key : TGMessageSortKey) : UInt8 := key.key[8]

def TGMessageSortKeyTimestamp (key : TGMessageSortKey) : Int32 :=
  NSSwapInt (int32OfBytes (Bytes.slice key.key.toList (8 + 1) 4).toList)

def TGMessageSortKeyMid (key : TGMessageSortKey) : Int32 :=
  NSSwapInt (int32OfBytes (Bytes.slice key.key.toList (8 + 1 + 4) 4).toList)

/-! ## The key of a message over all spaces -/

structure TGMessageTransparentSortKey where
  key : Vector UInt8 17
deriving DecidableEq

def TGMessageTransparentSortKeyMake (stack : Vector UInt8 17) (peerId : Int64)
    (timestamp mid : Int32) (space : UInt8) : TGMessageTransparentSortKey :=
  let key := Bytes.blit stack 0 (bytesOfInt64 peerId)
  let key := Bytes.blit key 8 (bytesOfInt32 (NSSwapInt timestamp))
  let key := Bytes.blit key (8 + 4) (bytesOfInt32 (NSSwapInt mid))
  let key := Bytes.blit key (8 + 4 + 4) [space]
  ⟨key⟩

def TGMessageTransparentSortKeyLowerBound (stack : Vector UInt8 17) (peerId : Int64) :
    TGMessageTransparentSortKey :=
  TGMessageTransparentSortKeyMake stack peerId 0 0 0

def TGMessageTransparentSortKeyUpperBound (stack : Vector UInt8 17) (peerId : Int64) :
    TGMessageTransparentSortKey :=
  TGMessageTransparentSortKeyMake stack peerId INT32_MAX INT32_MAX 127

def TGMessageTransparentSortKeyCompare (lhs rhs : TGMessageTransparentSortKey) : Ordering :=
  compare lhs.key.toList rhs.key.toList

def TGMessageTransparentSortKeyPeerId (key : TGMessageTransparentSortKey) : Int64 :=
  int64OfBytes (Bytes.slice key.key.toList 0 8).toList

def TGMessageTransparentSortKeySpace (key : TGMessageTransparentSortKey) : UInt8 := key.key[16]

def TGMessageTransparentSortKeyTimestamp (key : TGMessageTransparentSortKey) : Int32 :=
  NSSwapInt (int32OfBytes (Bytes.slice key.key.toList 8 4).toList)

def TGMessageTransparentSortKeyMid (key : TGMessageTransparentSortKey) : Int32 :=
  NSSwapInt (int32OfBytes (Bytes.slice key.key.toList (8 + 4) 4).toList)

/-! ## The key of a conversation -/

structure TGConversationSortKey where
  key : Vector UInt8 9
deriving DecidableEq

def TGConversationSortKeyMake (stack : Vector UInt8 9) (kind : UInt8) (timestamp mid : Int32) :
    TGConversationSortKey :=
  let key := Bytes.blit stack 0 [kind]
  let key := Bytes.blit key 1 (bytesOfInt32 (NSSwapInt timestamp))
  let key := Bytes.blit key (1 + 4) (bytesOfInt32 (NSSwapInt mid))
  ⟨key⟩

def TGConversationSortKeyLowerBound (stack : Vector UInt8 9) (kind : UInt8) :
    TGConversationSortKey :=
  TGConversationSortKeyMake stack kind 0 0

def TGConversationSortKeyUpperBound (stack : Vector UInt8 9) (kind : UInt8) :
    TGConversationSortKey :=
  TGConversationSortKeyMake stack kind INT32_MAX INT32_MAX

def TGConversationSortKeyCompare (lhs rhs : TGConversationSortKey) : Ordering :=
  compare lhs.key.toList rhs.key.toList

def TGConversationSortKeyKind (key : TGConversationSortKey) : UInt8 := key.key[0]

/-- The copy is of 8 bytes, and a key has 9. -/
def TGConversationSortKeyUpdateKind (stack : Vector UInt8 9) (key : TGConversationSortKey)
    (kind : UInt8) : TGConversationSortKey :=
  let updatedKey := Bytes.blit stack 0 (key.key.toList.take 8)
  ⟨Bytes.blit updatedKey 0 [kind]⟩

def TGConversationSortKeyTimestamp (key : TGConversationSortKey) : Int32 :=
  NSSwapInt (int32OfBytes (Bytes.slice key.key.toList 1 4).toList)

def TGConversationSortKeyMid (key : TGConversationSortKey) : Int32 :=
  NSSwapInt (int32OfBytes (Bytes.slice key.key.toList (1 + 4) 4).toList)

end Onegram.Packed
