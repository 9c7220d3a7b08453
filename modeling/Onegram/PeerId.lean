import Mathlib.Data.BitVec
import Mathlib.Tactic

/-!
# Peer ids

The kinds of peers share one 64-bit number: users are positive, groups negative, and channels and
admin logs follow below them.
-/

namespace Onegram

def INT32_MIN : ℤ := -2 ^ 31

def TGPeerIdIsChannel (peerId : ℤ) : Bool := peerId ≤ INT32_MIN * 2 ∧ peerId > INT32_MIN * 4

def TGPeerIdIsAdminLog (peerId : ℤ) : Bool := peerId ≤ INT32_MIN * 3 ∧ peerId > INT32_MIN * 4

def TGPeerIdFromGroupId (groupId : BitVec 32) : ℤ := (-groupId).toInt

def TGPeerIdFromChannelId (channelId : BitVec 32) : ℤ := INT32_MIN * 2 - channelId.toNat

def TGPeerIdFromAdminLogId (channelId : BitVec 32) : ℤ := INT32_MIN * 3 - channelId.toNat

def TGIOS6PeerIdLooksLikeModernRawChannel (peerId : ℤ) : Bool :=
  peerId ≤ INT32_MIN * 3 ∧ peerId > INT32_MIN * 4

end Onegram
