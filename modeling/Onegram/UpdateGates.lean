import Onegram.Lib.Gate
import Onegram.UpdateRouting

/-!
# Gates of the update queues

The stored state has the pts, the qts and the sequence number up to which updates are applied. The
actor of each queue looks at the groups it holds and hands over what is in turn by the number of its
queue; the actor of the updates with a date hands over what it gets. Once what it handed over is
applied, the numbers of the state are set from it.
-/

namespace Onegram.UpdateQueues

variable {μ : Type*}

/-! ## The stored state -/

structure TGDatabaseState where
  pts : ℤ
  date : ℤ
  seq : ℤ
  qts : ℤ
  unreadCount : ℤ
deriving DecidableEq

def applyPts (pts date seq qts unreadCount : ℤ) (currentState : TGDatabaseState) :
    TGDatabaseState where
  pts := if pts > 0 then pts else currentState.pts
  date := if date > 0 ∧ date > currentState.date then date else currentState.date
  seq := if seq > 0 then seq else currentState.seq
  qts := if qts > 0 then qts else currentState.qts
  unreadCount := if unreadCount ≥ 0 then unreadCount else currentState.unreadCount

/-! ## What is handed over -/

structure TGWrappedUpdate (μ : Type*) where
  update : TLUpdate μ
  date : ℤ

/-- The arguments of `_tryApplyingUpdates:`. -/
structure TryApplying (μ : Type*) where
  updates : List (TGWrappedUpdate μ)
  users : List μ
  chats : List μ
  optionalFinalSeq : ℤ
  optionalFinalDate : ℤ

namespace TryApplying

def statePts (handed : TryApplying μ) : ℤ :=
  handed.updates.foldl
    (fun statePts wrapped =>
      match wrapped.update.ptsAndCount with
      | some (pts, _) => max statePts pts
      | none => statePts) 0

def stateQts (handed : TryApplying μ) : ℤ :=
  handed.updates.foldl
    (fun stateQts wrapped =>
      match wrapped.update.qts with
      | some qts => max stateQts qts
      | none => stateQts) 0

/-- How the state is set where an actor of one of the first three queues is done. -/
def applied (handed : TryApplying μ) (database : TGDatabaseState) : TGDatabaseState :=
  applyPts handed.statePts handed.optionalFinalDate handed.optionalFinalSeq handed.stateQts (-1)
    database

/-- How it is set for the updates with a date, `databaseState` read before. -/
def appliedByDate (handed : TryApplying μ) (databaseState database : TGDatabaseState) :
    TGDatabaseState :=
  if handed.optionalFinalDate > databaseState.date then
    applyPts 0 handed.optionalFinalDate 0 0 (-1) database
  else database

end TryApplying

/-! ## The check of a queue -/

/-- What the check of a queue finds: the items in turn, the groups that stay in the list of the
actor, whether anything is past a gap, and what is handed over of the items in turn. -/
structure Checked (μ γ ι : Type*) where
  inOrder : List ι
  updateList : List γ
  gap : Bool
  handed : TryApplying μ

/-- An update of a list of groups. An object is known by its place in the list. -/
structure Placed (μ : Type*) where
  update : TLUpdate μ
  group : ℕ
  place : ℕ

def placed (groups : List (List (TLUpdate μ))) : List (Placed μ) :=
  groups.zipIdx.flatMap fun group => group.1.zipIdx.map fun update => ⟨update.1, group.2, update.2⟩

/-- The group is not left with any update once those at these places are removed. -/
def allAt (places : List (Placed μ)) (group : ℕ) (updates : List (TLUpdate μ)) : Bool :=
  !updates.isEmpty && (List.range updates.length).all fun place =>
    places.any fun other => other.group = group && other.place = place

section Scanned

variable {γ : Type*} (updates : γ → List (TLUpdate μ)) (users chats : γ → List μ)

/-- What the checks by pts and by qts make of what they found. A group goes where all of it is
expired or all of it is in turn, and stays whole otherwise. -/
def checkScan (scan : Gate.Scan (Placed μ)) (groups : List γ) : Checked μ γ (TLUpdate μ) where
  inOrder := scan.inOrder.map (·.update)
  updateList := (groups.zipIdx.filter fun group =>
    !(allAt scan.expired group.2 (updates group.1) ||
      allAt scan.inOrder group.2 (updates group.1))).map (·.1)
  gap := scan.gap
  handed :=
    { updates := scan.inOrder.map fun found => ⟨found.update, 0⟩
      users := (affected scan).flatMap fun group => users group.1
      chats := (affected scan).flatMap fun group => chats group.1
      optionalFinalSeq := 0
      optionalFinalDate := 0 }
where
  affected (scan : Gate.Scan (Placed μ)) : List (γ × ℕ) :=
    groups.zipIdx.filter fun group => scan.inOrder.any (·.group = group.2)

end Scanned

/-! ## By pts -/

namespace TLUpdate

def pts (update : TLUpdate μ) : ℤ := (update.ptsAndCount.getD (0, 0)).1

def pts_count (update : TLUpdate μ) : ℤ := (update.ptsAndCount.getD (0, 0)).2

def qtsValue (update : TLUpdate μ) : ℤ := update.qts.getD 0

/-- By pts, and by the larger count first. -/
def ptsBefore (update1 update2 : TLUpdate μ) : Prop :=
  update1.pts < update2.pts ∨ (update1.pts = update2.pts ∧ update2.pts_count ≤ update1.pts_count)

instance decidablePtsBefore : DecidableRel (@ptsBefore μ) := fun _ _ =>
  inferInstanceAs (Decidable (_ ∨ _))

end TLUpdate

def followsPts (currentPts : ℤ) (update : TLUpdate μ) : Bool :=
  currentPts + update.pts_count = update.pts

def scanPts (databasePts : ℤ) (groups : List (TGUpdatesWithPts μ)) : Gate.Scan (Placed μ) :=
  Gate.scan (·.update.pts) (fun currentPts found => followsPts currentPts found.update) databasePts
    databasePts ((placed (groups.map (·.updates))).insertionSort fun found found' =>
      found.update.ptsBefore found'.update)

def checkPtsUpdates (database : TGDatabaseState) (groups : List (TGUpdatesWithPts μ)) :
    Checked μ (TGUpdatesWithPts μ) (TLUpdate μ) :=
  checkScan (·.updates) (·.users) (·.chats) (scanPts database.pts groups) groups

/-! ## By qts -/

def followsQts (currentQts : ℤ) (update : TLUpdate μ) : Bool := currentQts + 1 = update.qtsValue

def scanQts (databaseQts : ℤ) (groups : List (TGUpdatesWithQts μ)) : Gate.Scan (Placed μ) :=
  Gate.scan (·.update.qtsValue) (fun currentQts found => followsQts currentQts found.update)
    databaseQts databaseQts ((placed (groups.map (·.updates))).insertionSort fun found found' =>
      found.update.qtsValue ≤ found'.update.qtsValue)

def checkQtsUpdates (database : TGDatabaseState) (groups : List (TGUpdatesWithQts μ)) :
    Checked μ (TGUpdatesWithQts μ) (TLUpdate μ) :=
  checkScan (·.updates) (·.users) (·.chats) (scanQts database.qts groups) groups

/-! ## By sequence number -/

/-- The groups that follow one another; those that do not are passed over. -/
def scanSeq : ℤ → List (TGUpdatesWithSeq μ × ℕ) → List (TGUpdatesWithSeq μ × ℕ)
  | _, [] => []
  | currentSeq, updates :: groups =>
    if updates.1.seqStart = currentSeq + 1 then updates :: scanSeq updates.1.seqEnd groups
    else scanSeq currentSeq groups

def TGUpdatesWithSeq.wrapped (group : TGUpdatesWithSeq μ) : List (TGWrappedUpdate μ) :=
  group.updates.map fun update => ⟨update, group.date⟩

def checkSeqUpdates (database : TGDatabaseState) (groups : List (TGUpdatesWithSeq μ)) :
    Checked μ (TGUpdatesWithSeq μ) (TGUpdatesWithSeq μ) :=
  let found := scanSeq database.seq
    (groups.zipIdx.insertionSort fun group group' => group.1.seqEnd ≤ group'.1.seqEnd)
  let inOrderUpdates := found.map (·.1)
  let wrappedUpdates := inOrderUpdates.flatMap (·.wrapped)
  { inOrder := inOrderUpdates
    updateList := (groups.zipIdx.filter fun group =>
      !found.any fun other => other.2 = group.2).map (·.1)
    gap := decide (found.length < groups.length)
    handed :=
      { updates := wrappedUpdates
        users := inOrderUpdates.flatMap (·.users)
        chats := inOrderUpdates.flatMap (·.chats)
        optionalFinalSeq := (inOrderUpdates.getLast?.map (·.seqEnd)).getD 0
        optionalFinalDate := (wrappedUpdates.getLast?.map (·.date)).getD 0 } }

/-! ## By date -/

def TGUpdatesWithDate.wrapped (group : TGUpdatesWithDate μ) : List (TGWrappedUpdate μ) :=
  group.updates.map fun update => ⟨update, group.date⟩

/-- What `execute:` hands over of groups with a date, where they hold any update. -/
def executeWithDate (groups : List (TGUpdatesWithDate μ)) : Option (TryApplying μ) :=
  let sortedDateUpdates := groups.insertionSort (·.date ≤ ·.date)
  let wrappedUpdates := sortedDateUpdates.flatMap (·.wrapped)
  if wrappedUpdates.length ≠ 0 then
    some
      { updates := wrappedUpdates
        users := sortedDateUpdates.flatMap (·.users)
        chats := sortedDateUpdates.flatMap (·.chats)
        optionalFinalSeq := 0
        optionalFinalDate := 0 }
  else none

end Onegram.UpdateQueues
