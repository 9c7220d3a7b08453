import Mathlib.Data.List.Basic
import Mathlib.Tactic

/-!
# The salts of an authorization key

`MTDatacenterAuthInfo` keeps the salts the server has given it, each for a span of message ids, and
picks one for every message. An id is an `int64_t`; a difference of two that is no `int64_t` is
undefined.
-/

namespace Onegram.Mtp

structure MTDatacenterSaltInfo where
  salt : Int
  firstValidMessageId : Int
  lastValidMessageId : Int
deriving DecidableEq, Repr

namespace MTDatacenterSaltInfo

def validMessageCountAfterId (s : MTDatacenterSaltInfo) (messageId : Int) : Option Int :=
  if messageId < s.firstValidMessageId then some 0
  else
    let count := s.lastValidMessageId - messageId
    if -2 ^ 63 ≤ count ∧ count < 2 ^ 63 then some (max 0 count) else none

def isValidFutureSaltForMessageId (s : MTDatacenterSaltInfo) (messageId : Int) : Bool :=
  s.lastValidMessageId > messageId

end MTDatacenterSaltInfo

/-- One turn of the loop, on `bestSalt` and `bestValidMessageCount`. -/
def considerSalt (messageId : Int) (best : Int × Int) (saltInfo : MTDatacenterSaltInfo) :
    Option (Int × Int) := do
  let currentValidMessageCount ← saltInfo.validMessageCountAfterId messageId
  if currentValidMessageCount ≠ 0 ∧ currentValidMessageCount > best.2 then
    some (saltInfo.salt, best.2)
  else some best

def authSaltForMessageId (saltSet : List MTDatacenterSaltInfo) (messageId : Int) : Option Int :=
  (saltSet.foldlM (considerSalt messageId) (0, 0)).map (·.1)

/-- What is done with each salt of `updatedSaltSet`. -/
def mergeSalt (referenceMessageId : Int) (mergedSaltSet : List MTDatacenterSaltInfo)
    (saltInfo : MTDatacenterSaltInfo) : List MTDatacenterSaltInfo :=
  let alreadExists := mergedSaltSet.any fun existingSaltInfo =>
    existingSaltInfo.firstValidMessageId = saltInfo.firstValidMessageId
  if !alreadExists && saltInfo.isValidFutureSaltForMessageId referenceMessageId then
    mergedSaltSet ++ [saltInfo]
  else mergedSaltSet

/-- `mergeSaltSet:forTimestamp:`, with the message id of the timestamp. -/
def mergeSaltSet (saltSet updatedSaltSet : List MTDatacenterSaltInfo) (referenceMessageId : Int) :
    List MTDatacenterSaltInfo :=
  updatedSaltSet.foldl (mergeSalt referenceMessageId)
    (saltSet.filter (·.isValidFutureSaltForMessageId referenceMessageId))

end Onegram.Mtp
