import Onegram.Lib.Bytes
import Onegram.Lib.Crossing
import Onegram.Lib.Run

/-!
# Holes in the message history

`TGMessageHole` and the tables of `TGDatabase` that keep the holes of a channel and of a feed. The
channel, or the feed, is fixed, so `cid` and `fid` are not written. Both tables have `max_id` as
their key; an insertion under a key that is taken fails and changes nothing.
-/

namespace Onegram

open Bytes Crossing

@[ext] structure MessageHole where
  minId : Int
  minTimestamp : Int
  minPeerId : Int
  maxId : Int
  maxTimestamp : Int
  maxPeerId : Int
  deriving DecidableEq

namespace MessageHole

/-- `initWithMinId:minTimestamp:maxId:maxTimestamp:`. -/
def plain (minId minTimestamp maxId maxTimestamp : Int) : MessageHole :=
  ⟨minId, minTimestamp, 0, maxId, maxTimestamp, 0⟩

/-- What is read back of a hole that was stored without its peer ids. -/
def withoutPeers (h : MessageHole) : MessageHole :=
  plain h.minId h.minTimestamp h.maxId h.maxTimestamp

def intersects (h other : MessageHole) : Bool := h.minId ≤ other.maxId && h.maxId ≥ other.minId

def covers (h other : MessageHole) : Bool := other.minId ≥ h.minId && other.maxId ≤ h.maxId

def exclude (h other : MessageHole) : List MessageHole :=
  let right := if other.maxId < h.maxId then
    [plain (other.maxId + 1) other.maxTimestamp h.maxId h.maxTimestamp] else []
  if other.minId ≤ h.minId then right
  else plain h.minId h.minTimestamp (other.minId - 1) other.minTimestamp :: right

def coversByTimestamp (h other : MessageHole) : Bool :=
  other.minTimestamp ≥ h.minTimestamp && other.maxTimestamp ≤ h.maxTimestamp

def excludeByTimestamp (h other : MessageHole) : List MessageHole :=
  let right := if other.maxTimestamp < h.maxTimestamp then
    [⟨other.maxId, other.maxTimestamp, other.maxPeerId, h.maxId, h.maxTimestamp, h.maxPeerId⟩]
    else []
  if other.minTimestamp ≤ h.minTimestamp then right
  else ⟨h.minId, h.minTimestamp, h.minPeerId, other.minId, other.minTimestamp, other.minPeerId⟩
    :: right

theorem withoutPeers_eq_self {h : MessageHole} :
    h.withoutPeers = h ↔ h.minPeerId = 0 ∧ h.maxPeerId = 0 := by
  simp [withoutPeers, plain, MessageHole.ext_iff, eq_comm]

end MessageHole

/-! ## The table -/

structure HoleTable where
  rows : List MessageHole
  keys : (rows.map (·.maxId)).Nodup

namespace HoleTable

def empty : HoleTable := ⟨[], .nil⟩

def insert (t : HoleTable) (h : MessageHole) : HoleTable :=
  if hkey : h.maxId ∈ t.rows.map (·.maxId) then t
  else ⟨t.rows ++ [h], by
    rw [List.map_append, List.nodup_append]
    refine ⟨t.keys, List.nodup_singleton _, fun a ha b hb heq => ?_⟩
    rw [List.map_singleton, List.mem_singleton] at hb
    exact hkey (hb ▸ heq ▸ ha)⟩

/-- `DELETE … WHERE NOT keep`. -/
def filter (t : HoleTable) (keep : MessageHole → Bool) : HoleTable :=
  ⟨t.rows.filter keep, t.keys.sublist (List.filter_sublist.map _)⟩

def deleteMaxId (t : HoleTable) (maxId : Int) : HoleTable := t.filter (·.maxId ≠ maxId)

def deleteMaxTimestamp (t : HoleTable) (maxTimestamp : Int) : HoleTable :=
  t.filter (·.maxTimestamp ≠ maxTimestamp)

variable {t : HoleTable} {h a b : MessageHole}

theorem eq_of_maxId (ha : a ∈ t.rows) (hb : b ∈ t.rows) (h : a.maxId = b.maxId) : a = b :=
  List.inj_on_of_nodup_map t.keys ha hb h

theorem nodup_rows : t.rows.Nodup := t.keys.of_map

theorem insert_rows (hkey : h.maxId ∉ t.rows.map (·.maxId)) :
    (t.insert h).rows = t.rows ++ [h] := by
  rw [insert, dif_neg hkey]

theorem insertAll_rows : ∀ (hs : List MessageHole) (t : HoleTable),
    ((t.rows ++ hs).map (·.maxId)).Nodup → (hs.foldl insert t).rows = t.rows ++ hs
  | [], t, _ => (List.append_nil _).symm
  | h :: hs, t, hkeys => by
    have hkey : h.maxId ∉ t.rows.map (·.maxId) := by
      rw [List.map_append, List.nodup_append] at hkeys
      exact fun hmem => hkeys.2.2 _ hmem h.maxId (by simp) rfl
    have hrows := insert_rows hkey
    rw [List.foldl_cons, insertAll_rows hs (t.insert h) (by rw [hrows]; simpa using hkeys), hrows,
      List.append_assoc, List.singleton_append]

theorem deleteAll_rows (key : MessageHole → Int) : ∀ (hs : List MessageHole) (t : HoleTable),
    (hs.foldl (fun t h => t.filter (key · ≠ key h)) t).rows
      = t.rows.filter fun r => key r ∉ hs.map key
  | [], t => by simp
  | h :: hs, t => by
    rw [List.foldl_cons, deleteAll_rows key hs, filter, List.filter_filter]
    refine List.filter_congr fun r _ => ?_
    rw [Bool.eq_iff_iff, Bool.and_eq_true, decide_eq_true_iff, decide_eq_true_iff,
      decide_eq_true_iff, List.map_cons, List.mem_cons, not_or, and_comm]

theorem deleteMaxIds_rows (hs : List MessageHole) (t : HoleTable) :
    (hs.foldl (fun t h => t.deleteMaxId h.maxId) t).rows
      = t.rows.filter fun r => r.maxId ∉ hs.map (·.maxId) :=
  deleteAll_rows MessageHole.maxId hs t

theorem deleteMaxTimestamps_rows (hs : List MessageHole) (t : HoleTable) :
    (hs.foldl (fun t h => t.deleteMaxTimestamp h.maxTimestamp) t).rows
      = t.rows.filter fun r => r.maxTimestamp ∉ hs.map (·.maxTimestamp) :=
  deleteAll_rows MessageHole.maxTimestamp hs t

end HoleTable

/-- What a change reports: the messages that stand for the new holes, and the ids of those that
stand for the holes that are gone. -/
structure HoleReport where
  addedMessages : List MessageHole
  removedMessages : List Int

/-- The id of the message that stands for a hole. -/
def holeMessageId (h : MessageHole) : Int := -h.maxId

/-! ## Channels -/

def intersectingHoles (t : HoleTable) (hole : MessageHole) : List MessageHole :=
  crossing MessageHole.maxId hole.minId hole.maxId hole.intersects t.rows

/-- One turn of the loop that finds the ends of the merged hole. -/
def mergeHole (acc currentHole : MessageHole) : MessageHole :=
  let acc := if currentHole.maxId > acc.maxId then
    { acc with maxId := currentHole.maxId, maxTimestamp := currentHole.maxTimestamp } else acc
  if currentHole.minId < acc.minId then
    { acc with minId := currentHole.minId, minTimestamp := currentHole.minTimestamp } else acc

def addChannelHole (t : HoleTable) (hole : MessageHole) : HoleTable × HoleReport :=
  let intersectedHoles := intersectingHoles t hole
  if intersectedHoles = [] then (t.insert hole.withoutPeers, ⟨[hole], []⟩)
  else
    let updatedHole := intersectedHoles.foldl mergeHole hole.withoutPeers
    let t := intersectedHoles.foldl (fun t h => t.deleteMaxId h.maxId) t
    (t.insert updatedHole, ⟨[updatedHole], intersectedHoles.map holeMessageId⟩)

def removeChannelHole (t : HoleTable) (hole : MessageHole) : HoleTable × HoleReport :=
  let intersectedHoles := intersectingHoles t hole
  if intersectedHoles = [] then (t, ⟨[], []⟩)
  else
    let addedHoles := intersectedHoles.flatMap fun h => if hole.covers h then [] else h.exclude hole
    let t := intersectedHoles.foldl (fun t h => t.deleteMaxId h.maxId) t
    (addedHoles.foldl HoleTable.insert t, ⟨addedHoles, intersectedHoles.map holeMessageId⟩)

inductive HoleEvent
  | add (hole : MessageHole)
  | remove (hole : MessageHole)

def HoleEvent.hole : HoleEvent → MessageHole
  | .add hole => hole
  | .remove hole => hole

def channelHoleChange (t : HoleTable) : HoleEvent → HoleTable × HoleReport
  | .add hole => addChannelHole t hole
  | .remove hole => removeChannelHole t hole

def channelHoleStep (t : HoleTable) (e : HoleEvent) : HoleTable := (channelHoleChange t e).1

/-! ## Feeds -/

/-- The stored hole that ends next is still tested on the ids. -/
def intersectingFeedHoles (t : HoleTable) (hole : MessageHole) : List MessageHole :=
  crossing MessageHole.maxTimestamp hole.minTimestamp hole.maxTimestamp hole.intersects t.rows

def mergeFeedHole (acc currentHole : MessageHole) : MessageHole :=
  let acc := if currentHole.maxTimestamp > acc.maxTimestamp then
    { acc with
      maxId := currentHole.maxId
      maxTimestamp := currentHole.maxTimestamp
      maxPeerId := currentHole.maxPeerId } else acc
  if currentHole.minTimestamp < acc.minTimestamp then
    { acc with
      minId := currentHole.minId
      minTimestamp := currentHole.minTimestamp
      minPeerId := currentHole.minPeerId } else acc

/-- For each hole that is merged, the deletion and the report are of the new one. -/
def addFeedHole (t : HoleTable) (hole : MessageHole) : HoleTable × HoleReport :=
  let intersectedHoles := intersectingFeedHoles t hole
  if intersectedHoles = [] then (t.insert hole.withoutPeers, ⟨[hole], []⟩)
  else
    let updatedHole := intersectedHoles.foldl mergeFeedHole hole
    let t := intersectedHoles.foldl (fun t _ => t.deleteMaxId hole.maxId) t
    (t.insert updatedHole.withoutPeers,
      ⟨[updatedHole], intersectedHoles.map fun _ => holeMessageId hole⟩)

def removeFeedHole (t : HoleTable) (hole : MessageHole) : HoleTable × HoleReport :=
  let intersectedHoles := intersectingFeedHoles t hole
  if intersectedHoles = [] then (t, ⟨[], []⟩)
  else
    let addedHoles := intersectedHoles.flatMap fun h =>
      if hole.coversByTimestamp h then [] else h.excludeByTimestamp hole
    let t := intersectedHoles.foldl (fun t h => t.deleteMaxTimestamp h.maxTimestamp) t
    (addedHoles.foldl HoleTable.insert t, ⟨addedHoles, intersectedHoles.map holeMessageId⟩)

/-- `TGMessageTransparentSortKeyMake` for the end of a hole, as the bytes that are compared. -/
def MessageHole.sortKey (feedId : Int) (h : MessageHole) : Bytes :=
  bytesLE 8 (feedId % 2 ^ 64).toNat ++ bytesBE 4 (h.maxTimestamp % 2 ^ 32).toNat
    ++ bytesBE 4 (h.maxId % 2 ^ 32).toNat ++ [127]

/-- The hole read from the columns of a result; a column that was not selected reads as 0. -/
def readHole (columns : List Int) : MessageHole where
  minId := columns.getD 3 0
  minTimestamp := columns.getD 4 0
  minPeerId := columns.getD 5 0
  maxId := columns.getD 0 0
  maxTimestamp := columns.getD 1 0
  maxPeerId := columns.getD 2 0

/-- `_loadFeedHolesWithMinSortKey`. The ascending query selects four columns, not six. -/
def loadFeedHoles (feedId : Int) (t : HoleTable) (minSortKey maxSortKey : Bytes) (count : ℕ) :
    List MessageHole :=
  if minSortKey < maxSortKey then
    let rows := (t.rows.filter fun r => r.sortKey feedId ≤ maxSortKey
      ∧ minSortKey < r.sortKey feedId).insertionSort (·.sortKey feedId ≥ ·.sortKey feedId)
    (rows.take count).map fun r =>
      readHole [r.maxId, r.maxTimestamp, r.maxPeerId, r.minId, r.minTimestamp, r.minPeerId]
  else
    let rows := (t.rows.filter fun r => maxSortKey < r.sortKey feedId
      ∧ r.sortKey feedId < minSortKey).insertionSort (·.sortKey feedId ≤ ·.sortKey feedId)
    (rows.take count).map fun r =>
      readHole [r.maxId, r.maxTimestamp, r.minId, r.minTimestamp]

def feedHoleChange (t : HoleTable) : HoleEvent → HoleTable × HoleReport
  | .add hole => addFeedHole t hole
  | .remove hole => removeFeedHole t hole

def feedHoleStep (t : HoleTable) (e : HoleEvent) : HoleTable := (feedHoleChange t e).1

end Onegram

/-!
## Trailing holes

`addTrailingHoleToChannelAndDispatch` gets a page of a channel's messages that follows, after a gap,
on what is stored, and adds holes for the ids that are missing in it. Ids are those of a server.
-/

namespace Onegram

/-- A message of the page: its id and its date. -/
structure LoadedMessage where
  mid : Int
  date : Int

/-- What is read of the sort key of the newest message known before. -/
structure EarlierSortKey where
  mid : Int
  timestamp : Int

/-- The result of `sortedArrayUsingComparator:` is dropped, so the order is that of the page. -/
def filteredMessages (earlierSortKey : EarlierSortKey) (messages : List LoadedMessage) :
    List LoadedMessage :=
  messages.filter fun message => message.mid > earlierSortKey.mid

/-- The loop over the filtered messages, each with the next as its earlier one. -/
def holesBetween (earlierSortKey : EarlierSortKey) : List LoadedMessage → List MessageHole
  | [] => []
  | [message] =>
    if message.mid - 1 ≥ earlierSortKey.mid + 1 then
      [.plain (earlierSortKey.mid + 1) (earlierSortKey.timestamp + 1) (message.mid - 1)
        message.date]
    else []
  | message :: earlierMessage :: rest =>
    if earlierMessage.mid ≠ message.mid - 1 ∧ message.mid - 1 ≥ earlierMessage.mid + 1 then
      .plain (earlierMessage.mid + 1) (earlierMessage.date + 1) (message.mid - 1) message.date
        :: holesBetween earlierSortKey (earlierMessage :: rest)
    else holesBetween earlierSortKey (earlierMessage :: rest)

/-- The holes that `addTrailingHoleToChannelAndDispatch` adds. -/
def trailingHoles (earlierSortKey : EarlierSortKey) (messages : List LoadedMessage) :
    List MessageHole :=
  holesBetween earlierSortKey (filteredMessages earlierSortKey messages)

/-- The table once the holes are added. -/
def addTrailingHoles (t : HoleTable) (earlierSortKey : EarlierSortKey)
    (messages : List LoadedMessage) : HoleTable :=
  (trailingHoles earlierSortKey messages).foldl (fun t hole => (addChannelHole t hole).1) t

end Onegram
