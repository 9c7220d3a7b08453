import Onegram.MessageHole

/-!
# The holes of a feed

Holes of a feed are intervals of time that may share end points. The code for them was made from
the code for channels, and what it does is right only while the ids and the times agree: a hole is
merged only with the one stored under its own `max_id`, the stored hole that ends next is looked at
by its ids, and the peer ids of an added hole are not stored.
-/

namespace Onegram

open Run Crossing

/-! ## What is asked -/

/-- The times strictly inside a hole. -/
def MessageHole.inside (h : MessageHole) : Set Int := Set.Ioo h.minTimestamp h.maxTimestamp

def MessageHole.TimeApart (a b : MessageHole) : Prop :=
  a.maxTimestamp ≤ b.minTimestamp ∨ b.maxTimestamp ≤ a.minTimestamp

def insideTimes (rows : List MessageHole) : Set Int := {τ | ∃ r ∈ rows, τ ∈ r.inside}

def endTimes (rows : List MessageHole) : Set Int :=
  {τ | ∃ r ∈ rows, τ = r.minTimestamp ∨ τ = r.maxTimestamp}

structure FeedHolesRight (rows : List MessageHole) : Prop where
  ordered : ∀ r ∈ rows, r.minTimestamp ≤ r.maxTimestamp
  apart : rows.Pairwise MessageHole.TimeApart

/-- The table with the holes reported as removed deleted and those reported as added inserted, the
peer ids included. -/
def HoleReport.applyToFeed (report : HoleReport) (rows : List MessageHole) : List MessageHole :=
  rows.filter (fun r => holeMessageId r ∉ report.removedMessages) ++ report.addedMessages

def insideAfter (times : Set Int) : HoleEvent → Set Int
  | .add hole => times ∪ hole.inside
  | .remove hole => times \ hole.inside

structure FeedChangeRight (t : HoleTable) (e : HoleEvent) : Prop where
  inside : ∀ τ, τ ∉ endTimes (e.hole :: t.rows) →
    (τ ∈ insideTimes (feedHoleStep t e).rows ↔ τ ∈ insideAfter (insideTimes t.rows) e)
  reported : (feedHoleStep t e).rows = (feedHoleChange t e).2.applyToFeed t.rows

/-- The holes a load should return: those with a key in range, in order of it, as stored. -/
def storedFeedHoles (feedId : Int) (rows : List MessageHole) (minSortKey maxSortKey : Bytes)
    (count : ℕ) : List MessageHole :=
  if minSortKey < maxSortKey then
    ((rows.filter fun r => r.sortKey feedId ≤ maxSortKey
      ∧ minSortKey < r.sortKey feedId).insertionSort
        (·.sortKey feedId ≥ ·.sortKey feedId)).take count
  else
    ((rows.filter fun r => maxSortKey < r.sortKey feedId
      ∧ r.sortKey feedId < minSortKey).insertionSort
        (·.sortKey feedId ≤ ·.sortKey feedId)).take count

/-! ## When the code does it -/

/-- `r` is the stored hole that ends next after `hole`. -/
def IsNext (rows : List MessageHole) (hole r : MessageHole) : Prop :=
  hole.maxTimestamp < r.maxTimestamp
    ∧ ∀ r' ∈ rows, hole.maxTimestamp < r'.maxTimestamp → r.maxTimestamp ≤ r'.maxTimestamp

/-- The stored holes a change works on: those that end within `hole`, and the next one when the
ids say that it meets `hole`. -/
def Touched (rows : List MessageHole) (hole r : MessageHole) : Prop :=
  (hole.minTimestamp ≤ r.maxTimestamp ∧ r.maxTimestamp ≤ hole.maxTimestamp)
    ∨ (IsNext rows hole r ∧ hole.intersects r)

/-- Only one stored hole ends next, and the ids say of it what the times say. -/
def NextAgrees (rows : List MessageHole) (hole : MessageHole) : Prop :=
  ∀ r ∈ rows, IsNext rows hole r →
    (∀ r' ∈ rows, r'.maxTimestamp = r.maxTimestamp → r' = r)
      ∧ (r.minTimestamp < hole.maxTimestamp → hole.intersects r)
      ∧ (hole.intersects r → r.minTimestamp ≤ hole.maxTimestamp)

/-- A hole is added right when the stored hole under its `max_id` is the only one it touches, and
no peer ids are lost. -/
def AddAgrees (rows : List MessageHole) (hole : MessageHole) : Prop :=
  (∀ r ∈ rows, r.maxId = hole.maxId ↔ Touched rows hole r)
    ∧ (hole.minPeerId = 0 ∧ hole.maxPeerId = 0)
    ∧ ∀ r ∈ rows, r.maxId = hole.maxId → r.minPeerId = 0 ∧ r.maxPeerId = 0

/-- A hole is removed right when the id at which a stored hole is cut is no `max_id` of a hole that
stays or that is cut at its other end. -/
def RemoveAgrees (rows : List MessageHole) (hole : MessageHole) : Prop :=
  (∃ r ∈ rows, Touched rows hole r ∧ r.minTimestamp < hole.minTimestamp) →
    ∀ r ∈ rows, r.maxId = hole.minId →
      Touched rows hole r ∧ r.maxTimestamp ≤ hole.maxTimestamp

def FeedAgrees (t : HoleTable) (e : HoleEvent) : Prop :=
  NextAgrees t.rows e.hole ∧ match e with
    | .add hole => AddAgrees t.rows hole
    | .remove hole => RemoveAgrees t.rows hole

/-- The ascending query is right of the holes whose fields it does not select are all 0. -/
def LoadAgrees (feedId : Int) (t : HoleTable) (minSortKey maxSortKey : Bytes) (count : ℕ) : Prop :=
  minSortKey < maxSortKey ∨ ∀ r ∈ storedFeedHoles feedId t.rows minSortKey maxSortKey count,
    r.minId = 0 ∧ r.minTimestamp = 0 ∧ r.minPeerId = 0 ∧ r.maxPeerId = 0

instance (rows : List MessageHole) (hole r : MessageHole) : Decidable (IsNext rows hole r) :=
  inferInstanceAs (Decidable (_ ∧ _))

instance (rows : List MessageHole) (hole r : MessageHole) : Decidable (Touched rows hole r) :=
  inferInstanceAs (Decidable (_ ∨ _))

instance (rows : List MessageHole) (hole : MessageHole) : Decidable (NextAgrees rows hole) :=
  inferInstanceAs (Decidable (∀ r ∈ rows, _))

instance (rows : List MessageHole) (hole : MessageHole) : Decidable (AddAgrees rows hole) :=
  inferInstanceAs (Decidable (_ ∧ _))

instance (rows : List MessageHole) (hole : MessageHole) : Decidable (RemoveAgrees rows hole) :=
  inferInstanceAs (Decidable (_ → _))

instance (t : HoleTable) : ∀ e, Decidable (FeedAgrees t e)
  | .add _ => inferInstanceAs (Decidable (_ ∧ AddAgrees _ _))
  | .remove _ => inferInstanceAs (Decidable (_ ∧ RemoveAgrees _ _))

/-! ## The holes a change works on -/

variable {t : HoleTable} {rows : List MessageHole} {hole a b r : MessageHole} {τ : Int}

instance : Std.Symm MessageHole.TimeApart := ⟨fun _ _ => Or.symm⟩

theorem mem_intersectingFeedHoles (hnext : NextAgrees t.rows hole) :
    r ∈ intersectingFeedHoles t hole ↔ r ∈ t.rows ∧ Touched t.rows hole r := by
  unfold intersectingFeedHoles Touched
  rw [mem_crossing]
  constructor
  · rintro (⟨hr, h⟩ | ⟨hn, htest⟩)
    · exact ⟨hr, .inl h⟩
    · obtain ⟨hr, hlt, hmin⟩ := firstAbove_spec hn
      exact ⟨hr, .inr ⟨⟨hlt, hmin⟩, htest⟩⟩
  · rintro ⟨hr, h | ⟨hn, htest⟩⟩
    · exact .inl ⟨hr, h⟩
    · exact .inr ⟨firstAbove_eq hr hn.1 hn.2 (hnext r hr hn).1, htest⟩

namespace FeedHolesRight

theorem apart_of_ne (h : FeedHolesRight rows) (ha : a ∈ rows) (hb : b ∈ rows) (hne : a ≠ b) :
    a.TimeApart b :=
  h.apart.forall ha hb hne

/-- What a change works on meets the hole. -/
theorem touched_meets (h : FeedHolesRight rows) (hnext : NextAgrees rows hole) (hr : r ∈ rows)
    (ht : Touched rows hole r) (hle : hole.minTimestamp ≤ hole.maxTimestamp) :
    r.minTimestamp ≤ hole.maxTimestamp ∧ hole.minTimestamp ≤ r.maxTimestamp := by
  have := h.ordered r hr
  rcases ht with ht | ⟨hn, htest⟩
  · omega
  · have := (hnext r hr hn).2.2 htest
    have := hn.1
    omega

/-- What a change does not work on is apart from the hole. -/
theorem apart_of_not_touched (h : FeedHolesRight rows) (hnext : NextAgrees rows hole)
    (hr : r ∈ rows) (ht : ¬ Touched rows hole r) : r.TimeApart hole := by
  unfold Touched at ht
  rw [not_or, not_and, not_and] at ht
  rcases lt_or_ge r.maxTimestamp hole.minTimestamp with hlt | hge
  · exact .inl hlt.le
  have habove : hole.maxTimestamp < r.maxTimestamp := not_le.1 (ht.1 hge)
  obtain ⟨n, hn⟩ := firstAbove_isSome hr habove
  obtain ⟨hnr, hnlt, hmin⟩ := firstAbove_spec hn
  obtain ⟨halone, hover, -⟩ := hnext n hnr ⟨hnlt, hmin⟩
  rcases eq_or_ne r n with rfl | hne
  · exact .inr (not_lt.1 fun hlt => ht.2 ⟨hnlt, hmin⟩ (hover hlt))
  · have hlt := lt_of_le_of_ne (hmin r hr habove) fun heq => hne (halone r hr heq.symm)
    have := h.ordered n hnr
    rcases h.apart_of_ne hr hnr hne with hap | hap
    · omega
    · exact .inr (by omega)

theorem append {kept pieces : List MessageHole} (h : FeedHolesRight rows)
    (hsub : kept.Sublist rows) (hp : FeedHolesRight pieces)
    (hout : ∀ r ∈ kept, ∀ p ∈ pieces, r.TimeApart p) : FeedHolesRight (kept ++ pieces) := by
  refine ⟨fun r hr => ?_, List.pairwise_append.2 ⟨h.apart.sublist hsub, hp.apart, hout⟩⟩
  rcases List.mem_append.1 hr with hr | hr
  · exact h.ordered r (hsub.subset hr)
  · exact hp.ordered r hr

end FeedHolesRight

theorem mem_insideTimes_append {kept pieces : List MessageHole} :
    τ ∈ insideTimes (kept ++ pieces) ↔ τ ∈ insideTimes kept ∨ τ ∈ insideTimes pieces := by
  simp only [insideTimes, Set.mem_ofPred_eq, List.mem_append, or_and_right, exists_or]

theorem MessageHole.mem_inside :
    τ ∈ hole.inside ↔ hole.minTimestamp < τ ∧ τ < hole.maxTimestamp := Iff.rfl

/-! ## Adding -/

theorem mergeFeedHole_min (hole g : MessageHole) :
    (mergeFeedHole hole g).minTimestamp = min hole.minTimestamp g.minTimestamp := by
  unfold mergeFeedHole
  by_cases h : g.maxTimestamp > hole.maxTimestamp <;>
    by_cases h' : g.minTimestamp < hole.minTimestamp <;> simp [h, h'] <;> omega

theorem mergeFeedHole_max (hole g : MessageHole) :
    (mergeFeedHole hole g).maxTimestamp = max hole.maxTimestamp g.maxTimestamp := by
  unfold mergeFeedHole
  by_cases h : g.maxTimestamp > hole.maxTimestamp <;>
    by_cases h' : g.minTimestamp < hole.minTimestamp <;> simp [h, h'] <;> omega

/-- Two holes under one `max_id` and without peer ids merge to such a hole. -/
theorem mergeFeedHole_key {g : MessageHole} (hkey : g.maxId = hole.maxId)
    (hpeers : hole.minPeerId = 0 ∧ hole.maxPeerId = 0)
    (hg : g.minPeerId = 0 ∧ g.maxPeerId = 0) :
    (mergeFeedHole hole g).maxId = hole.maxId
      ∧ (mergeFeedHole hole g).withoutPeers = mergeFeedHole hole g := by
  rw [MessageHole.withoutPeers_eq_self]
  unfold mergeFeedHole
  by_cases h : g.maxTimestamp > hole.maxTimestamp <;>
    by_cases h' : g.minTimestamp < hole.minTimestamp <;> simp [h, h', hkey, hpeers, hg]

/-- The stored hole an added one is merged with, if there is one. -/
theorem intersectingFeedHoles_add (hnext : NextAgrees t.rows hole) (hadd : AddAgrees t.rows hole) :
    (intersectingFeedHoles t hole = [] ∧ ∀ r ∈ t.rows, r.maxId ≠ hole.maxId)
      ∨ ∃ g ∈ t.rows, intersectingFeedHoles t hole = [g] ∧ g.maxId = hole.maxId
          ∧ Touched t.rows hole g := by
  have hmem : ∀ r, r ∈ intersectingFeedHoles t hole ↔ r ∈ t.rows ∧ r.maxId = hole.maxId := by
    intro r
    rw [mem_intersectingFeedHoles hnext]
    exact and_congr_right fun hr => (hadd.1 r hr).symm
  have hnodup : (intersectingFeedHoles t hole).Nodup := nodup_crossing t.nodup_rows
  rcases hl : intersectingFeedHoles t hole with _ | ⟨g, _ | ⟨g', l⟩⟩ <;> rw [hl] at hmem hnodup
  · exact .inl ⟨rfl, fun r hr hkey => absurd ((hmem r).2 ⟨hr, hkey⟩) List.not_mem_nil⟩
  · obtain ⟨hg, hkey⟩ := (hmem g).1 List.mem_cons_self
    exact .inr ⟨g, hg, rfl, hkey, (hadd.1 g hg).1 hkey⟩
  · obtain ⟨hg, hkey⟩ := (hmem g).1 List.mem_cons_self
    obtain ⟨hg', hkey'⟩ := (hmem g').1 (List.mem_cons_of_mem _ List.mem_cons_self)
    have heq := t.eq_of_maxId hg hg' (hkey.trans hkey'.symm)
    rw [heq] at hnodup
    simp at hnodup

/-- The rows after an addition: the hole under the same `max_id` gives way to the merged one. -/
theorem addFeedHole_rows (h : FeedHolesRight t.rows) (hnext : NextAgrees t.rows hole)
    (hadd : AddAgrees t.rows hole) (hle : hole.minTimestamp ≤ hole.maxTimestamp) :
    ∃ m : MessageHole,
      (addFeedHole t hole).1.rows = t.rows.filter (·.maxId ≠ hole.maxId) ++ [m]
        ∧ (addFeedHole t hole).1.rows = (addFeedHole t hole).2.applyToFeed t.rows
        ∧ m.minTimestamp ≤ m.maxTimestamp
        ∧ (∀ r ∈ t.rows, ¬ Touched t.rows hole r → r.TimeApart m)
        ∧ ∀ τ, τ ∉ endTimes (hole :: t.rows) → (τ ∈ m.inside
            ↔ τ ∈ hole.inside ∨ ∃ r ∈ t.rows, Touched t.rows hole r ∧ τ ∈ r.inside) := by
  have hpeers : hole.withoutPeers = hole := MessageHole.withoutPeers_eq_self.2 hadd.2.1
  rcases intersectingFeedHoles_add hnext hadd with ⟨hl, hfree⟩ | ⟨g, hg, hl, hkey, htouched⟩
  · have hrows : (addFeedHole t hole).1.rows = t.rows ++ [hole] := by
      simp only [addFeedHole, hl, if_true, hpeers]
      refine HoleTable.insert_rows fun hmem => ?_
      obtain ⟨r, hr, hkey⟩ := List.mem_map.1 hmem
      exact hfree r hr hkey
    refine ⟨hole, ?_, ?_, hle, fun r hr => h.apart_of_not_touched hnext hr, fun τ _ => ?_⟩
    · rw [hrows, List.filter_eq_self.2 fun r hr => decide_eq_true (hfree r hr)]
    · rw [hrows]
      simp [addFeedHole, hl, HoleReport.applyToFeed]
    · refine ⟨.inl, fun hτ => hτ.resolve_right ?_⟩
      rintro ⟨r, hr, ht, -⟩
      exact hfree r hr ((hadd.1 r hr).2 ht)
  · obtain ⟨hmkey, hmpeers⟩ := mergeFeedHole_key hkey hadd.2.1 (hadd.2.2 g hg hkey)
    have hmin := mergeFeedHole_min hole g
    have hmax := mergeFeedHole_max hole g
    obtain ⟨hmeet, hmeet'⟩ := h.touched_meets hnext hg htouched hle
    have hrows : (addFeedHole t hole).1.rows
        = t.rows.filter (·.maxId ≠ hole.maxId) ++ [mergeFeedHole hole g] := by
      simp only [addFeedHole, hl, List.foldl_cons, List.foldl_nil, hmpeers, reduceCtorEq, if_false]
      refine HoleTable.insert_rows ?_
      rw [hmkey]
      simp [HoleTable.deleteMaxId, HoleTable.filter]
    refine ⟨_, hrows, ?_, by omega, fun r hr ht => ?_, fun τ hτ => ?_⟩
    · rw [hrows]
      simp [addFeedHole, hl, HoleReport.applyToFeed, holeMessageId]
    · have hra := h.apart_of_not_touched hnext hr ht
      have hrg := h.apart_of_ne hr hg fun heq => ht (heq ▸ htouched)
      have hends : ¬ (hole.minTimestamp ≤ r.maxTimestamp ∧ r.maxTimestamp ≤ hole.maxTimestamp) :=
        fun hin => ht (.inl hin)
      have := h.ordered r hr
      simp only [MessageHole.TimeApart] at *
      omega
    · have hone : (∃ r ∈ t.rows, Touched t.rows hole r ∧ τ ∈ r.inside) ↔ τ ∈ g.inside := by
        constructor
        · rintro ⟨r, hr, ht, hτr⟩
          have := t.eq_of_maxId hr hg (((hadd.1 r hr).2 ht).trans hkey.symm)
          rwa [← this]
        · exact fun hτg => ⟨g, hg, htouched, hτg⟩
      have hτh : τ ≠ hole.minTimestamp ∧ τ ≠ hole.maxTimestamp := by
        simp only [endTimes, Set.mem_ofPred_eq, not_exists, not_and, not_or] at hτ
        exact hτ hole List.mem_cons_self
      have hτg : τ ≠ g.minTimestamp ∧ τ ≠ g.maxTimestamp := by
        simp only [endTimes, Set.mem_ofPred_eq, not_exists, not_and, not_or] at hτ
        exact hτ g (List.mem_cons_of_mem _ hg)
      rw [hone]
      simp only [MessageHole.mem_inside]
      omega

theorem FeedHolesRight.add (h : FeedHolesRight t.rows) (hnext : NextAgrees t.rows hole)
    (hadd : AddAgrees t.rows hole) (hle : hole.minTimestamp ≤ hole.maxTimestamp) :
    FeedHolesRight (addFeedHole t hole).1.rows ∧ FeedChangeRight t (.add hole) := by
  obtain ⟨m, hrows, hreport, hm, hout, hinside⟩ := addFeedHole_rows h hnext hadd hle
  have hkept : ∀ r, r ∈ t.rows.filter (·.maxId ≠ hole.maxId)
      ↔ r ∈ t.rows ∧ ¬ Touched t.rows hole r := by
    intro r
    rw [List.mem_filter, decide_eq_true_iff]
    exact and_congr_right fun hr => (hadd.1 r hr).not
  refine ⟨?_, fun τ hτ => ?_, hreport⟩
  · rw [hrows]
    refine h.append List.filter_sublist ⟨by simpa using hm, List.pairwise_singleton _ _⟩ ?_
    intro r hr p hp
    rw [List.mem_singleton.1 hp]
    exact hout r ((hkept r).1 hr).1 ((hkept r).1 hr).2
  · change τ ∈ insideTimes (addFeedHole t hole).1.rows ↔ τ ∈ insideTimes t.rows ∨ τ ∈ hole.inside
    rw [hrows, mem_insideTimes_append]
    have hm' : τ ∈ insideTimes [m] ↔ τ ∈ m.inside := by simp [insideTimes]
    rw [hm', hinside τ hτ]
    constructor
    · rintro (⟨r, hr, hτr⟩ | hτh | ⟨r, hr, -, hτr⟩)
      · exact .inl ⟨r, ((hkept r).1 hr).1, hτr⟩
      · exact .inr hτh
      · exact .inl ⟨r, hr, hτr⟩
    · rintro (⟨r, hr, hτr⟩ | hτh)
      · by_cases ht : Touched t.rows hole r
        · exact .inr (.inr ⟨r, hr, ht, hτr⟩)
        · exact .inl ⟨r, (hkept r).2 ⟨hr, ht⟩, hτr⟩
      · exact .inr (.inl hτh)

/-! ## Removing -/

/-- What is left of a stored hole when `hole` is taken out. -/
def leftoverByTimestamp (hole h : MessageHole) : List MessageHole :=
  if hole.coversByTimestamp h then [] else h.excludeByTimestamp hole

/-- A piece is what stays on the left or on the right of the removed hole. -/
theorem mem_leftoverByTimestamp {g p : MessageHole} (hp : p ∈ leftoverByTimestamp hole g) :
    (g.minTimestamp < hole.minTimestamp ∧ p.maxId = hole.minId
        ∧ p.minTimestamp = g.minTimestamp ∧ p.maxTimestamp = hole.minTimestamp)
      ∨ (hole.maxTimestamp < g.maxTimestamp ∧ p.maxId = g.maxId
        ∧ p.minTimestamp = hole.maxTimestamp ∧ p.maxTimestamp = g.maxTimestamp) := by
  unfold leftoverByTimestamp MessageHole.excludeByTimestamp at hp
  split_ifs at hp <;> simp at hp
  · simp_all
  · rcases hp with rfl | rfl <;> simp_all
  · simp_all

theorem leftoverByTimestamp_inside {g : MessageHole}
    (hmin : g.minTimestamp ≤ hole.maxTimestamp) (hmax : hole.minTimestamp ≤ g.maxTimestamp)
    (hτ : τ ≠ hole.minTimestamp ∧ τ ≠ hole.maxTimestamp) :
    τ ∈ insideTimes (leftoverByTimestamp hole g) ↔ τ ∈ g.inside ∧ τ ∉ hole.inside := by
  unfold leftoverByTimestamp MessageHole.coversByTimestamp MessageHole.excludeByTimestamp
  simp only [Bool.and_eq_true, decide_eq_true_iff]
  split_ifs <;> simp [insideTimes, MessageHole.mem_inside] <;> omega

theorem removeFeedHole_eq (t : HoleTable) (hole : MessageHole) :
    (removeFeedHole t hole).1
        = ((intersectingFeedHoles t hole).flatMap (leftoverByTimestamp hole)).foldl HoleTable.insert
            ((intersectingFeedHoles t hole).foldl
              (fun t h => t.deleteMaxTimestamp h.maxTimestamp) t)
      ∧ (removeFeedHole t hole).2
        = ⟨(intersectingFeedHoles t hole).flatMap (leftoverByTimestamp hole),
            (intersectingFeedHoles t hole).map holeMessageId⟩ := by
  unfold removeFeedHole
  simp only []
  split_ifs with h
  · rw [h]
    exact ⟨rfl, rfl⟩
  · exact ⟨rfl, rfl⟩

/-- The rows that are deleted by their last time are those that were found, and no others. -/
theorem keptFeedHoles_eq (hnext : NextAgrees t.rows hole) (key : MessageHole → Int)
    (hkey : ∀ g ∈ t.rows, Touched t.rows hole g → ∀ r ∈ t.rows, key r = key g →
      Touched t.rows hole r) :
    (t.rows.filter fun r => key r ∉ (intersectingFeedHoles t hole).map key)
      = t.rows.filter fun r => ¬ Touched t.rows hole r := by
  refine List.filter_congr fun r hr => ?_
  rw [Bool.eq_iff_iff, decide_eq_true_iff, decide_eq_true_iff, not_iff_not, List.mem_map]
  constructor
  · rintro ⟨g, hg, heq⟩
    rw [mem_intersectingFeedHoles hnext] at hg
    exact hkey g hg.1 hg.2 r hr heq.symm
  · exact fun ht => ⟨r, (mem_intersectingFeedHoles hnext).2 ⟨hr, ht⟩, rfl⟩

theorem touched_of_maxTimestamp (hnext : NextAgrees t.rows hole) {g : MessageHole}
    (hg : g ∈ t.rows) (ht : Touched t.rows hole g) (hr : r ∈ t.rows)
    (heq : r.maxTimestamp = g.maxTimestamp) : Touched t.rows hole r := by
  rcases ht with ht | ⟨hn, htest⟩
  · exact .inl (heq ▸ ht)
  · rw [(hnext g hg hn).1 r hr heq]
    exact .inr ⟨hn, htest⟩

/-- Two pieces, of one stored hole or of two, have different ids and are apart. -/
theorem leftoverByTimestamp_pairwise {g : MessageHole} (hle : hole.minTimestamp ≤ hole.maxTimestamp)
    (hcut : g.minTimestamp < hole.minTimestamp → hole.maxTimestamp < g.maxTimestamp →
      hole.minId ≠ g.maxId) :
    (leftoverByTimestamp hole g).Pairwise fun p q => p.maxId ≠ q.maxId ∧ p.TimeApart q := by
  unfold leftoverByTimestamp MessageHole.excludeByTimestamp
  split_ifs <;> simp [MessageHole.TimeApart]
  exact ⟨hcut (by omega) (by omega), .inl hle⟩

theorem leftoverByTimestamp_distinct {g g' p q : MessageHole} (hne : g.maxId ≠ g'.maxId)
    (hgg : g.TimeApart g') (hmin : g.minTimestamp ≤ hole.maxTimestamp)
    (hmax : hole.minTimestamp ≤ g.maxTimestamp) (hmin' : g'.minTimestamp ≤ hole.maxTimestamp)
    (hmax' : hole.minTimestamp ≤ g'.maxTimestamp)
    (hle : hole.minTimestamp ≤ hole.maxTimestamp)
    (hcut : g.minTimestamp < hole.minTimestamp → hole.maxTimestamp < g'.maxTimestamp →
      hole.minId ≠ g'.maxId)
    (hcut' : g'.minTimestamp < hole.minTimestamp → hole.maxTimestamp < g.maxTimestamp →
      hole.minId ≠ g.maxId)
    (hp : p ∈ leftoverByTimestamp hole g) (hq : q ∈ leftoverByTimestamp hole g') :
    p.maxId ≠ q.maxId ∧ p.TimeApart q := by
  simp only [MessageHole.TimeApart] at hgg ⊢
  rcases mem_leftoverByTimestamp hp with ⟨hlt, hk, hpm, hpM⟩ | ⟨hlt, hk, hpm, hpM⟩ <;>
    rcases mem_leftoverByTimestamp hq with ⟨hlt', hk', hqm, hqM⟩ | ⟨hlt', hk', hqm, hqM⟩
  · omega
  · exact ⟨by rw [hk, hk']; exact hcut hlt hlt', by omega⟩
  · exact ⟨by rw [hk, hk']; exact (hcut' hlt' hlt).symm, by omega⟩
  · exact ⟨by rw [hk, hk']; exact hne, by omega⟩

/-- All that stays of the holes that were found: distinct ids, apart in time. -/
theorem leftovers_pairwise (h : FeedHolesRight t.rows) (hnext : NextAgrees t.rows hole)
    (hremove : RemoveAgrees t.rows hole) (hle : hole.minTimestamp ≤ hole.maxTimestamp) :
    ((intersectingFeedHoles t hole).flatMap (leftoverByTimestamp hole)).Pairwise
      fun p q => p.maxId ≠ q.maxId ∧ p.TimeApart q := by
  have hcut : ∀ g ∈ intersectingFeedHoles t hole, ∀ g' ∈ intersectingFeedHoles t hole,
      g.minTimestamp < hole.minTimestamp → hole.maxTimestamp < g'.maxTimestamp →
      hole.minId ≠ g'.maxId := by
    intro g hg g' hg' hlt hlt' heq
    rw [mem_intersectingFeedHoles hnext] at hg hg'
    have := (hremove ⟨g, hg.1, hg.2, hlt⟩ g' hg'.1 heq.symm).2
    omega
  have hmeets : ∀ g ∈ intersectingFeedHoles t hole, _ := fun g hg =>
    h.touched_meets hnext ((mem_intersectingFeedHoles hnext).1 hg).1
      ((mem_intersectingFeedHoles hnext).1 hg).2 hle
  rw [List.pairwise_flatMap]
  refine ⟨fun g hg => leftoverByTimestamp_pairwise hle (hcut g hg g hg), ?_⟩
  refine (nodup_crossing t.nodup_rows).pairwise_of_forall_ne fun g hg g' hg' hne p hp q hq => ?_
  have hgr := mem_of_mem_crossing hg
  have hgr' := mem_of_mem_crossing hg'
  exact leftoverByTimestamp_distinct (fun heq => hne (t.eq_of_maxId hgr hgr' heq))
    (h.apart_of_ne hgr hgr' hne) (hmeets g hg).1 (hmeets g hg).2 (hmeets g' hg').1
    (hmeets g' hg').2 hle (hcut g hg g' hg') (hcut g' hg' g hg) hp hq

theorem removeFeedHole_rows (h : FeedHolesRight t.rows) (hnext : NextAgrees t.rows hole)
    (hremove : RemoveAgrees t.rows hole) (hle : hole.minTimestamp ≤ hole.maxTimestamp) :
    (removeFeedHole t hole).1.rows = t.rows.filter (fun r => ¬ Touched t.rows hole r)
        ++ (intersectingFeedHoles t hole).flatMap (leftoverByTimestamp hole) := by
  have hkept := keptFeedHoles_eq hnext MessageHole.maxTimestamp
    fun g hg ht r hr heq => touched_of_maxTimestamp hnext hg ht hr heq
  rw [← hkept, (removeFeedHole_eq t hole).1, ← HoleTable.deleteMaxTimestamps_rows]
  refine HoleTable.insertAll_rows _ _ ?_
  rw [HoleTable.deleteMaxTimestamps_rows, hkept, List.map_append, List.nodup_append]
  refine ⟨t.keys.sublist (List.filter_sublist.map _), ?_, fun k hk k' hk' heq => ?_⟩
  · exact List.pairwise_map.2 ((leftovers_pairwise h hnext hremove hle).imp fun hpq => hpq.1)
  · obtain ⟨r, hr, rfl⟩ := List.mem_map.1 hk
    obtain ⟨p, hp, rfl⟩ := List.mem_map.1 hk'
    obtain ⟨g, hg, hpg⟩ := List.mem_flatMap.1 hp
    rw [mem_intersectingFeedHoles hnext] at hg
    rw [List.mem_filter, decide_eq_true_iff] at hr
    rcases mem_leftoverByTimestamp hpg with ⟨hlt, hpk, -⟩ | ⟨-, hpk, -⟩
    · exact hr.2 (hremove ⟨g, hg.1, hg.2, hlt⟩ r hr.1 (heq.trans hpk)).1
    · exact hr.2 (t.eq_of_maxId hr.1 hg.1 (heq.trans hpk) ▸ hg.2)

theorem FeedHolesRight.remove (h : FeedHolesRight t.rows) (hnext : NextAgrees t.rows hole)
    (hremove : RemoveAgrees t.rows hole) (hle : hole.minTimestamp ≤ hole.maxTimestamp) :
    FeedHolesRight (removeFeedHole t hole).1.rows ∧ FeedChangeRight t (.remove hole) := by
  have hrows := removeFeedHole_rows h hnext hremove hle
  have hpairs := leftovers_pairwise h hnext hremove hle
  have hmeets : ∀ g ∈ intersectingFeedHoles t hole, _ := fun g hg =>
    h.touched_meets hnext ((mem_intersectingFeedHoles hnext).1 hg).1
      ((mem_intersectingFeedHoles hnext).1 hg).2 hle
  refine ⟨?_, fun τ hτ => ?_, ?_⟩
  · rw [hrows]
    refine h.append List.filter_sublist ⟨fun p hp => ?_, hpairs.imp fun hpq => hpq.2⟩ ?_
    · obtain ⟨g, hg, hpg⟩ := List.mem_flatMap.1 hp
      have := hmeets g hg
      rcases mem_leftoverByTimestamp hpg with ⟨hlt, -, hpm, hpM⟩ | ⟨hlt, -, hpm, hpM⟩ <;> omega
    · intro r hr p hp
      rw [List.mem_filter, decide_eq_true_iff] at hr
      obtain ⟨g, hg, hpg⟩ := List.mem_flatMap.1 hp
      have hgm := hmeets g hg
      have hra := h.apart_of_not_touched hnext hr.1 hr.2
      rw [mem_intersectingFeedHoles hnext] at hg
      have hrg := h.apart_of_ne hr.1 hg.1 fun heq => hr.2 (heq ▸ hg.2)
      simp only [MessageHole.TimeApart] at hra hrg ⊢
      rcases mem_leftoverByTimestamp hpg with ⟨hlt, -, hpm, hpM⟩ | ⟨hlt, -, hpm, hpM⟩ <;> omega
  · change τ ∈ insideTimes (removeFeedHole t hole).1.rows ↔ τ ∈ insideTimes t.rows ∧ τ ∉ hole.inside
    have hτh : τ ≠ hole.minTimestamp ∧ τ ≠ hole.maxTimestamp := by
      simp only [endTimes, Set.mem_ofPred_eq, not_exists, not_and, not_or] at hτ
      exact hτ hole List.mem_cons_self
    rw [hrows, mem_insideTimes_append]
    constructor
    · rintro (⟨r, hr, hτr⟩ | ⟨p, hp, hτp⟩)
      · rw [List.mem_filter, decide_eq_true_iff] at hr
        refine ⟨⟨r, hr.1, hτr⟩, fun hτ' => ?_⟩
        have hra := h.apart_of_not_touched hnext hr.1 hr.2
        simp only [MessageHole.TimeApart, MessageHole.mem_inside] at hra hτr hτ'
        omega
      · obtain ⟨g, hg, hpg⟩ := List.mem_flatMap.1 hp
        obtain ⟨hτg, hτ'⟩ := (leftoverByTimestamp_inside (hmeets g hg).1 (hmeets g hg).2 hτh).1
          ⟨p, hpg, hτp⟩
        exact ⟨⟨g, mem_of_mem_crossing hg, hτg⟩, hτ'⟩
    · rintro ⟨⟨r, hr, hτr⟩, hτ'⟩
      by_cases ht : Touched t.rows hole r
      · have hrm := h.touched_meets hnext hr ht hle
        obtain ⟨p, hp, hτp⟩ := (leftoverByTimestamp_inside hrm.1 hrm.2 hτh).2 ⟨hτr, hτ'⟩
        exact .inr ⟨p, List.mem_flatMap.2
          ⟨r, (mem_intersectingFeedHoles hnext).2 ⟨hr, ht⟩, hp⟩, hτp⟩
      · exact .inl ⟨r, List.mem_filter.2 ⟨hr, decide_eq_true ht⟩, hτr⟩
  · change (removeFeedHole t hole).1.rows = (removeFeedHole t hole).2.applyToFeed t.rows
    rw [hrows, (removeFeedHole_eq t hole).2, HoleReport.applyToFeed,
      ← keptFeedHoles_eq hnext holeMessageId]
    intro g hg ht r hr heq
    exact t.eq_of_maxId hr hg (neg_inj.1 heq) ▸ ht

theorem FeedHolesRight.step (h : FeedHolesRight t.rows) :
    ∀ e, e.hole.minTimestamp ≤ e.hole.maxTimestamp → FeedAgrees t e →
      FeedHolesRight (feedHoleStep t e).rows ∧ FeedChangeRight t e
  | .add _, hle, hok => h.add hok.1 hok.2 hle
  | .remove _, hle, hok => h.remove hok.1 hok.2 hle

/-! ## Loading -/

theorem loadFeedHoles_eq {feedId : Int} {minSortKey maxSortKey : Bytes} {count : ℕ}
    (hload : LoadAgrees feedId t minSortKey maxSortKey count) :
    loadFeedHoles feedId t minSortKey maxSortKey count
      = storedFeedHoles feedId t.rows minSortKey maxSortKey count := by
  unfold LoadAgrees at hload
  unfold loadFeedHoles
  unfold storedFeedHoles at hload ⊢
  split_ifs at hload ⊢ with hlt
  · exact List.map_id'' (fun _ => rfl) _
  · have hall := hload.resolve_left hlt
    rw [List.map_congr_left fun r hr => ?_, List.map_id']
    obtain ⟨h₁, h₂, h₃, h₄⟩ := hall r hr
    simp [readHole, MessageHole.ext_iff, h₁, h₂, h₃, h₄]

/-! ## Every run -/

/-- The table, and beside it the holes as they were reported to be added and not yet removed. -/
def feedLedgerStep (s : HoleTable × List MessageHole) (e : HoleEvent) :
    HoleTable × List MessageHole :=
  (feedHoleStep s.1 e, (feedHoleChange s.1 e).2.applyToFeed s.2)

/-- In a run of changes that each meet the condition, the stored holes overlap at most in end
points, every change does to the times inside them, and reports, what it should, and a load returns
the holes as they were added. -/
theorem feed_holes_right (es : List HoleEvent)
    (hes : ∀ e ∈ es, e.hole.minTimestamp ≤ e.hole.maxTimestamp)
    (hok : AllSteps feedLedgerStep (fun s e => FeedAgrees s.1 e) (.empty, []) es) :
    FeedHolesRight (run feedLedgerStep (.empty, []) es).1.rows
      ∧ (∀ e : HoleEvent, e.hole.minTimestamp ≤ e.hole.maxTimestamp →
          FeedAgrees (run feedLedgerStep (.empty, []) es).1 e →
          FeedChangeRight (run feedLedgerStep (.empty, []) es).1 e)
      ∧ ∀ feedId minSortKey maxSortKey count,
          LoadAgrees feedId (run feedLedgerStep (.empty, []) es).1 minSortKey maxSortKey count →
          loadFeedHoles feedId (run feedLedgerStep (.empty, []) es).1 minSortKey maxSortKey count
            = storedFeedHoles feedId (run feedLedgerStep (.empty, []) es).2 minSortKey maxSortKey
                count := by
  obtain ⟨hright, hledger⟩ := @invariant _ _ feedLedgerStep
    (fun s e => e.hole.minTimestamp ≤ e.hole.maxTimestamp ∧ FeedAgrees s.1 e)
    (fun s => FeedHolesRight s.1.rows ∧ s.1.rows = s.2)
    (fun s e hs hok => by
      obtain ⟨hright, hchange⟩ := hs.1.step e hok.1 hok.2
      exact ⟨hright, by rw [feedLedgerStep, hchange.reported, hs.2]⟩)
    es (.empty, []) ⟨⟨by simp [HoleTable.empty], .nil⟩, rfl⟩ ((allSteps_of_forall _ es _ hes).and _ hok)
  refine ⟨hright, fun e hle hok => (hright.step e hle hok).2, ?_⟩
  intro feedId minSortKey maxSortKey count hload
  rw [loadFeedHoles_eq hload, hledger]

/-- Two holes, a removal that cuts both, and a load of what is left. -/
theorem feed_holes_right_cut :
    loadFeedHoles 1 (run feedLedgerStep (.empty, []) [.add (.plain 1 10 5 50),
        .add (.plain 7 70 9 90), .remove ⟨3, 30, 77, 8, 80, 78⟩]).1 [] [255] 10
      = storedFeedHoles 1 (run feedLedgerStep (.empty, []) [.add (.plain 1 10 5 50),
        .add (.plain 7 70 9 90), .remove ⟨3, 30, 77, 8, 80, 78⟩]).2 [] [255] 10
    ∧ (run feedLedgerStep (.empty, []) [.add (.plain 1 10 5 50),
        .add (.plain 7 70 9 90), .remove ⟨3, 30, 77, 8, 80, 78⟩]).1.rows
      = [⟨1, 10, 0, 3, 30, 77⟩, ⟨8, 80, 78, 9, 90, 0⟩] := by
  exact ⟨(feed_holes_right [.add (.plain 1 10 5 50), .add (.plain 7 70 9 90),
    .remove ⟨3, 30, 77, 8, 80, 78⟩] (by decide) ⟨by decide, by decide, by decide, trivial⟩).2.2
    1 [] [255] 10 (.inl (by decide)), by decide⟩

/-- A hole that overlaps a stored one: the stored one stays beside the merged hole, and the hole
reported as removed was never stored. -/
theorem feed_holes_overlap :
    (run feedHoleStep .empty [.add (.plain 1 10 5 50), .add (.plain 4 40 9 90)]).rows
        = [.plain 1 10 5 50, .plain 1 10 9 90]
      ∧ ¬ FeedHolesRight (run feedHoleStep .empty
          [.add (.plain 1 10 5 50), .add (.plain 4 40 9 90)]).rows
      ∧ (feedHoleChange (run feedHoleStep .empty [.add (.plain 1 10 5 50)])
          (.add (.plain 4 40 9 90))).2.removedMessages = [-9] := by
  refine ⟨by decide, fun h => ?_, by decide⟩
  have hrows : (run feedHoleStep .empty [.add (.plain 1 10 5 50), .add (.plain 4 40 9 90)]).rows
      = [.plain 1 10 5 50, .plain 1 10 9 90] := by decide
  rw [hrows] at h
  have := h.apart_of_ne (a := .plain 1 10 5 50) (b := .plain 1 10 9 90) (by simp) (by simp)
    (by decide)
  simp [MessageHole.TimeApart, MessageHole.plain] at this

end Onegram
