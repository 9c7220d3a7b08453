import Mathlib.Data.BitVec
import Mathlib.Data.List.MinMax
import Mathlib.Tactic
import Onegram.Lib.KeyedTable
import Onegram.PeerId

/-!
# Messages of channels and sort keys

A message of a channel is in the important or the unimportant space. Its sort key is a row of bytes
that is compared by `memcmp`: the peer, the space, the date and the id. The sort key of a
conversation has the kind of the conversation where that of a message has the space.
-/

namespace Onegram

def TGMessageLocalMidBaseline : ℤ := 800000000

def TGMessageSpaceUnimportant : BitVec 8 := 0

def TGMessageSpaceImportant : BitVec 8 := 1

/-- The number a row of bytes stands for: one byte and two times four, the first ones the highest.
`memcmp` of two rows of the same length compares these. -/
def keyRank (head : BitVec 8) (timestamp mid : BitVec 32) : ℕ :=
  (head.toNat * 2 ^ 32 + timestamp.toNat) * 2 ^ 32 + mid.toNat

/-- The bytes after those of the peer. Keys are compared within a peer only. -/
structure TGMessageSortKey where
  space : BitVec 8
  timestamp : BitVec 32
  mid : BitVec 32
deriving DecidableEq

def TGMessageSortKey.rank (key : TGMessageSortKey) : ℕ := keyRank key.space key.timestamp key.mid

def TGMessageSortKeyMake (space : BitVec 8) (timestamp mid : ℤ) : TGMessageSortKey :=
  ⟨space, .ofInt 32 timestamp, .ofInt 32 mid⟩

def TGMessageSortKeyCompare (lhs rhs : TGMessageSortKey) : Ordering := compare lhs.rank rhs.rank

inductive TGMessageDeliveryState
  | delivered
  | pending
  | failed
deriving DecidableEq

/-- A reply: the id of the message it is to, and a copy of what is in that one. -/
structure Reply (μ : Type*) where
  replyMessageId : ℤ
  replyMessage : Option (String × List μ)

/-- A message, with media of a type `μ`. -/
structure TGMessage (μ : Type*) where
  mid : ℤ
  cid : ℤ
  pts : ℤ
  sortKey : TGMessageSortKey
  date : ℤ
  outgoing : Bool
  fromUid : ℤ
  text : String
  mediaAttachments : List μ
  reply : Option (Reply μ)
  deliveryState : TGMessageDeliveryState
  flags : ℤ
  containsUnseenMention : Bool
  hasUnreadContent : Bool

/-- The messages of a channel, by their ids. -/
abbrev MessageTable (μ : Type*) := KeyedTable (TGMessage μ)

/-- The keys `_topChannelMessage` asks for lie below this one and above the one of all zeros. -/
def topUpperBound (space : BitVec 8) : TGMessageSortKey :=
  TGMessageSortKeyMake space (2 ^ 31 - 2) (2 ^ 31 - 1)

def topLowerBound (space : BitVec 8) : TGMessageSortKey := TGMessageSortKeyMake space 0 0

variable {μ : Type*}

/-- The messages of a space, as far as the query finds them. -/
def messagesOfSpace (messages : MessageTable μ) (space : BitVec 8) : List (TGMessage μ) :=
  (messages.rows.map (·.2)).filter fun message =>
    message.sortKey.rank < (topUpperBound space).rank ∧
      (topLowerBound space).rank < message.sortKey.rank

/-- `_topChannelMessage`, with `ORDER BY sort_key DESC LIMIT 1`. -/
def topChannelMessage (messages : MessageTable μ) (important : Bool) : Option (TGMessage μ) :=
  ((messagesOfSpace messages
    (if important then TGMessageSpaceImportant else TGMessageSpaceUnimportant)).argmax
      (·.sortKey.rank)).filter (·.mid ≠ 0)

end Onegram
