import Onegram.MessageHole

/-!
# The holes of a channel

The stored holes are disjoint non-empty intervals of message ids. Adding a hole adds its ids to
the ones they cover and removing one takes its ids away, and what is reported of a change is
exactly the change of the table.
-/

namespace Onegram

open Run Crossing

/-! ## What is asked -/

/-- The ids a hole covers. -/
def MessageHole.ids (h : MessageHole) : Set Int := Set.Icc h.minId h.maxId

def MessageHole.Apart (a b : MessageHole) : Prop := a.maxId < b.minId ∨ b.maxId < a.minId

def coveredIds (rows : List MessageHole) : Set Int := {x | ∃ r ∈ rows, x ∈ r.ids}

structure ChannelHolesRight (rows : List MessageHole) : Prop where
  nonempty : ∀ r ∈ rows, r.minId ≤ r.maxId
  apart : rows.Pairwise MessageHole.Apart
  keys : (rows.map (·.maxId)).Nodup

/-- The table with the holes reported as removed deleted and those reported as added inserted;
the table has no column for the peer ids. -/
def HoleReport.applyTo (report : HoleReport) (rows : List MessageHole) : List MessageHole :=
  rows.filter (fun r => holeMessageId r ∉ report.removedMessages)
    ++ report.addedMessages.map MessageHole.withoutPeers

def coveredAfter (covered : Set Int) : HoleEvent → Set Int
  | .add hole => covered ∪ hole.ids
  | .remove hole => covered \ hole.ids

structure ChannelChangeRight (t : HoleTable) (e : HoleEvent) : Prop where
  covered : coveredIds (channelHoleStep t e).rows = coveredAfter (coveredIds t.rows) e
  reported : (channelHoleStep t e).rows = (channelHoleChange t e).2.applyTo t.rows

/-! ## The holes that are cut -/

variable {t : HoleTable} {hole a b r : MessageHole} {x : Int}

instance : Std.Symm MessageHole.Apart := ⟨fun _ _ => Or.symm⟩

theorem MessageHole.mem_ids : x ∈ hole.ids ↔ hole.minId ≤ x ∧ x ≤ hole.maxId := Iff.rfl

namespace ChannelHolesRight

theorem apart_of_ne (h : ChannelHolesRight t.rows) (ha : a ∈ t.rows) (hb : b ∈ t.rows)
    (hne : a ≠ b) : a.Apart b :=
  h.apart.forall ha hb hne

/-- The stored holes that meet a hole are exactly those the two queries find. -/
theorem mem_intersectingHoles (h : ChannelHolesRight t.rows) :
    r ∈ intersectingHoles t hole
      ↔ r ∈ t.rows ∧ r.minId ≤ hole.maxId ∧ hole.minId ≤ r.maxId := by
  unfold intersectingHoles
  rw [mem_crossing]
  constructor
  · rintro (⟨hr, hmin, hmax⟩ | ⟨hnext, htest⟩)
    · exact ⟨hr, (h.nonempty r hr).trans hmax, hmin⟩
    · obtain ⟨hr, hlt, -⟩ := firstAbove_spec hnext
      simp only [MessageHole.intersects, Bool.and_eq_true, decide_eq_true_iff] at htest
      exact ⟨hr, htest.2, htest.1⟩
  · rintro ⟨hr, hmin, hmax⟩
    rcases le_or_gt r.maxId hole.maxId with hin | hlt
    · exact .inl ⟨hr, hmax, hin⟩
    · refine .inr ⟨firstAbove_of_le h.nonempty (fun _ ha _ hb => h.apart_of_ne ha hb) hr hlt hmin,
        ?_⟩
      simp [MessageHole.intersects, hmin, hmax]

theorem intersectingHoles_apart (h : ChannelHolesRight t.rows) :
    (intersectingHoles t hole).Pairwise MessageHole.Apart :=
  (nodup_crossing t.nodup_rows).pairwise_of_forall_ne fun _ ha _ hb hne =>
    h.apart_of_ne (mem_of_mem_crossing ha) (mem_of_mem_crossing hb) hne

/-- The stored holes that stay when those that meet `hole` are deleted. -/
theorem mem_filter_intersecting (h : ChannelHolesRight t.rows) :
    r ∈ t.rows.filter (fun r => r.maxId ∉ (intersectingHoles t hole).map (·.maxId))
      ↔ r ∈ t.rows ∧ r.Apart hole := by
  rw [List.mem_filter, decide_eq_true_iff]
  refine and_congr_right fun hr => ?_
  have hkey : r.maxId ∈ (intersectingHoles t hole).map (·.maxId)
      ↔ r ∈ intersectingHoles t hole := by
    constructor
    · intro hk
      obtain ⟨g, hg, heq⟩ := List.mem_map.1 hk
      exact t.eq_of_maxId (mem_of_mem_crossing hg) hr heq ▸ hg
    · exact fun hk => List.mem_map_of_mem hk
  rw [hkey, h.mem_intersectingHoles, MessageHole.Apart]
  have := h.nonempty r hr
  constructor
  · intro hnot
    by_contra hcon
    exact hnot ⟨hr, by omega, by omega⟩
  · rintro hap ⟨-, h₁, h₂⟩
    omega

/-- Disjoint non-empty holes have distinct last ids, so the table takes them all. -/
theorem of_pairwise {rows : List MessageHole} (hne : ∀ r ∈ rows, r.minId ≤ r.maxId)
    (hap : rows.Pairwise MessageHole.Apart) : ChannelHolesRight rows := by
  refine ⟨hne, hap, ?_⟩
  rw [List.Nodup, List.pairwise_map]
  refine hap.imp_of_mem fun {a b} ha hb h => ?_
  have := hne a ha
  have := hne b hb
  rcases h with h | h <;> omega

end ChannelHolesRight

/-! ## Adding -/

theorem mergeHole_min (acc g : MessageHole) : (mergeHole acc g).minId = min acc.minId g.minId := by
  unfold mergeHole
  by_cases h : g.maxId > acc.maxId <;> by_cases h' : g.minId < acc.minId <;> simp [h, h'] <;> omega

theorem mergeHole_max (acc g : MessageHole) : (mergeHole acc g).maxId = max acc.maxId g.maxId := by
  unfold mergeHole
  by_cases h : g.maxId > acc.maxId <;> by_cases h' : g.minId < acc.minId <;> simp [h, h'] <;> omega

/-- The merged hole covers what the hole and the ones that meet it cover. -/
theorem mem_ids_foldl_mergeHole (hle : hole.minId ≤ hole.maxId) :
    ∀ (gs : List MessageHole) (acc : MessageHole),
      (∀ g ∈ gs, g.minId ≤ g.maxId ∧ g.minId ≤ hole.maxId ∧ hole.minId ≤ g.maxId) →
      acc.minId ≤ hole.minId → hole.maxId ≤ acc.maxId →
      (x ∈ (gs.foldl mergeHole acc).ids ↔ x ∈ acc.ids ∨ ∃ g ∈ gs, x ∈ g.ids)
        ∧ (gs.foldl mergeHole acc).minId ≤ acc.minId ∧ acc.maxId ≤ (gs.foldl mergeHole acc).maxId
  | [], acc, _, _, _ => by simp
  | g :: gs, acc, hgs, hmin, hmax => by
    obtain ⟨hg, hgmin, hgmax⟩ := hgs g List.mem_cons_self
    have hm := mergeHole_min acc g
    have hM := mergeHole_max acc g
    obtain ⟨hx, h₁, h₂⟩ := mem_ids_foldl_mergeHole hle gs (mergeHole acc g)
      (fun g' hg' => hgs g' (List.mem_cons_of_mem _ hg')) (by omega) (by omega)
    have hg' : x ∈ (mergeHole acc g).ids ↔ x ∈ acc.ids ∨ x ∈ g.ids := by
      simp only [MessageHole.mem_ids]
      omega
    refine ⟨?_, by simp only [List.foldl_cons]; omega, by simp only [List.foldl_cons]; omega⟩
    rw [List.foldl_cons, hx, hg', or_assoc]
    simp

theorem mergeHole_peers (acc g : MessageHole) :
    (mergeHole acc g).minPeerId = acc.minPeerId ∧ (mergeHole acc g).maxPeerId = acc.maxPeerId := by
  unfold mergeHole
  by_cases h : g.maxId > acc.maxId <;> by_cases h' : g.minId < acc.minId <;> simp [h, h']

theorem foldl_mergeHole_withoutPeers : ∀ (gs : List MessageHole) (acc : MessageHole),
    acc.withoutPeers = acc → (gs.foldl mergeHole acc).withoutPeers = gs.foldl mergeHole acc
  | [], _, h => h
  | g :: gs, acc, h => by
    refine foldl_mergeHole_withoutPeers gs _ ?_
    rw [MessageHole.withoutPeers_eq_self] at h ⊢
    rwa [(mergeHole_peers acc g).1, (mergeHole_peers acc g).2]

theorem addChannelHole_eq (t : HoleTable) (hole : MessageHole) :
    (addChannelHole t hole).1
        = ((intersectingHoles t hole).foldl (fun t h => t.deleteMaxId h.maxId) t).insert
            ((intersectingHoles t hole).foldl mergeHole hole.withoutPeers)
      ∧ (addChannelHole t hole).2.removedMessages = (intersectingHoles t hole).map holeMessageId
      ∧ (addChannelHole t hole).2.addedMessages.map MessageHole.withoutPeers
        = [(intersectingHoles t hole).foldl mergeHole hole.withoutPeers] := by
  have hpeers := foldl_mergeHole_withoutPeers (intersectingHoles t hole) hole.withoutPeers rfl
  unfold addChannelHole
  simp only []
  split_ifs with h
  · rw [h]
    exact ⟨rfl, rfl, rfl⟩
  · exact ⟨rfl, rfl, by rw [List.map_singleton, hpeers]⟩

theorem removedMessages_filter (gs rows : List MessageHole) :
    (rows.filter fun r => holeMessageId r ∉ gs.map holeMessageId)
      = rows.filter fun r => r.maxId ∉ gs.map (·.maxId) := by
  refine List.filter_congr fun r _ => ?_
  simp [holeMessageId]

namespace ChannelHolesRight

/-- What both kinds of change do: the holes that meet `hole` are deleted and pieces of what these
and `hole` cover are inserted. -/
theorem replace (h : ChannelHolesRight t.rows) (hole : MessageHole) {pieces : List MessageHole}
    (hne : ∀ p ∈ pieces, p.minId ≤ p.maxId) (hap : pieces.Pairwise MessageHole.Apart)
    (hids : ∀ p ∈ pieces, ∀ x ∈ p.ids, x ∈ hole.ids ∨ ∃ g ∈ intersectingHoles t hole, x ∈ g.ids) :
    ChannelHolesRight
      ((t.rows.filter fun r => r.maxId ∉ (intersectingHoles t hole).map (·.maxId)) ++ pieces) := by
  refine of_pairwise (fun r hr => ?_) (List.pairwise_append.2 ⟨h.apart.filter _, hap, ?_⟩)
  · rcases List.mem_append.1 hr with hr | hr
    · exact h.nonempty r (List.mem_of_mem_filter hr)
    · exact hne r hr
  intro r hr p hp
  obtain ⟨hr, hra⟩ := h.mem_filter_intersecting.1 hr
  have hout : ∀ x, x ∈ p.ids → x ∉ r.ids := by
    intro x hx hxr
    rcases hids p hp x hx with hxh | ⟨g, hg, hxg⟩
    · simp only [MessageHole.Apart, MessageHole.mem_ids] at *
      omega
    · have hgr : g ≠ r := by
        rintro rfl
        have := h.mem_intersectingHoles.1 hg
        simp only [MessageHole.Apart] at hra
        omega
      have := h.apart_of_ne (mem_of_mem_crossing hg) hr hgr
      simp only [MessageHole.Apart, MessageHole.mem_ids] at *
      omega
  -- If they were not apart, one end of one would be in the other.
  have h₁ := hout p.minId
  have h₂ := hout p.maxId
  have h₃ := hout r.minId
  have := hne p hp
  have := h.nonempty r hr
  simp only [MessageHole.Apart, MessageHole.mem_ids] at *
  omega

theorem mem_coveredIds_replace (h : ChannelHolesRight t.rows) (hole : MessageHole)
    (pieces : List MessageHole) (x : Int) :
    x ∈ coveredIds
        ((t.rows.filter fun r => r.maxId ∉ (intersectingHoles t hole).map (·.maxId)) ++ pieces)
      ↔ (∃ r ∈ t.rows, r.Apart hole ∧ x ∈ r.ids) ∨ ∃ p ∈ pieces, x ∈ p.ids := by
  constructor
  · rintro ⟨r, hr, hx⟩
    rcases List.mem_append.1 hr with hr | hr
    · obtain ⟨hr, hra⟩ := h.mem_filter_intersecting.1 hr
      exact .inl ⟨r, hr, hra, hx⟩
    · exact .inr ⟨r, hr, hx⟩
  · rintro (⟨r, hr, hra, hx⟩ | ⟨p, hp, hx⟩)
    · exact ⟨r, List.mem_append_left _ (h.mem_filter_intersecting.2 ⟨hr, hra⟩), hx⟩
    · exact ⟨p, List.mem_append_right _ hp, hx⟩

theorem mem_coveredIds (h : ChannelHolesRight t.rows) (hole : MessageHole) (x : Int) :
    x ∈ coveredIds t.rows ↔ (∃ r ∈ t.rows, r.Apart hole ∧ x ∈ r.ids)
      ∨ ∃ g ∈ intersectingHoles t hole, x ∈ g.ids := by
  constructor
  · rintro ⟨r, hr, hx⟩
    by_cases hra : r.Apart hole
    · exact .inl ⟨r, hr, hra, hx⟩
    · refine .inr ⟨r, h.mem_intersectingHoles.2 ⟨hr, ?_⟩, hx⟩
      simp only [MessageHole.Apart] at hra
      omega
  · rintro (⟨r, hr, -, hx⟩ | ⟨g, hg, hx⟩)
    · exact ⟨r, hr, hx⟩
    · exact ⟨g, mem_of_mem_crossing hg, hx⟩

theorem add (h : ChannelHolesRight t.rows) (hle : hole.minId ≤ hole.maxId) :
    ChannelHolesRight (addChannelHole t hole).1.rows ∧ ChannelChangeRight t (.add hole) := by
  obtain ⟨heq, hremoved, hadded⟩ := addChannelHole_eq t hole
  have hspec := fun x => mem_ids_foldl_mergeHole (x := x) hle (intersectingHoles t hole)
    hole.withoutPeers (fun g hg => ⟨h.nonempty g (mem_of_mem_crossing hg),
      (h.mem_intersectingHoles.1 hg).2⟩) le_rfl le_rfl
  obtain ⟨merged, hmerged⟩ :
      ∃ m, (intersectingHoles t hole).foldl mergeHole hole.withoutPeers = m := ⟨_, rfl⟩
  rw [hmerged] at heq hadded
  simp only [hmerged] at hspec
  have hids : ∀ x, x ∈ merged.ids ↔ x ∈ hole.ids ∨ ∃ g ∈ intersectingHoles t hole, x ∈ g.ids :=
    fun x => (hspec x).1
  have hne : merged.minId ≤ merged.maxId := by
    have hmin : hole.minId ∈ merged.ids := (hids _).2 (.inl ⟨le_rfl, hle⟩)
    exact hmin.1.trans hmin.2
  have hright := h.replace hole (by simpa using hne) (List.pairwise_singleton _ merged) (by
    intro p hp x hx
    rw [List.mem_singleton] at hp
    exact (hids x).1 (hp ▸ hx))
  have hrows : (addChannelHole t hole).1.rows
      = (t.rows.filter fun r => r.maxId ∉ (intersectingHoles t hole).map (·.maxId)) ++ [merged] := by
    rw [heq, ← HoleTable.deleteMaxIds_rows]
    refine HoleTable.insertAll_rows [merged] _ ?_
    rw [HoleTable.deleteMaxIds_rows]
    exact hright.keys
  refine ⟨hrows ▸ hright, ?_, ?_⟩
  · ext x
    change x ∈ coveredIds (addChannelHole t hole).1.rows ↔ x ∈ coveredIds t.rows ∨ x ∈ hole.ids
    rw [hrows, h.mem_coveredIds_replace, h.mem_coveredIds hole]
    simp only [List.mem_singleton, exists_eq_left, hids]
    rw [or_assoc]
    exact or_congr_right or_comm
  · change (addChannelHole t hole).1.rows = (addChannelHole t hole).2.applyTo t.rows
    rw [hrows, HoleReport.applyTo, hremoved, removedMessages_filter, hadded]

end ChannelHolesRight

/-! ## Removing -/

/-- What is left of a stored hole when `hole` is taken out. -/
def leftover (hole h : MessageHole) : List MessageHole :=
  if hole.covers h then [] else h.exclude hole

/-- The pieces are non-empty, apart, and cover exactly what is left. -/
theorem leftover_spec {g : MessageHole} (hmin : g.minId ≤ hole.maxId)
    (hmax : hole.minId ≤ g.maxId) (hle : hole.minId ≤ hole.maxId) :
    (∀ p ∈ leftover hole g, p.minId ≤ p.maxId ∧ p.withoutPeers = p)
      ∧ (leftover hole g).Pairwise MessageHole.Apart
      ∧ ∀ x, (∃ p ∈ leftover hole g, x ∈ p.ids) ↔ x ∈ g.ids ∧ x ∉ hole.ids := by
  unfold leftover MessageHole.covers MessageHole.exclude
  simp only [Bool.and_eq_true, decide_eq_true_iff]
  split_ifs with h₁ h₂ h₃ h₃ <;> refine ⟨?_, ?_, fun x => ?_⟩ <;>
    simp [MessageHole.mem_ids, MessageHole.plain, MessageHole.withoutPeers, MessageHole.Apart] <;>
    omega

theorem removeChannelHole_eq (t : HoleTable) (hole : MessageHole) :
    (removeChannelHole t hole).1
        = ((intersectingHoles t hole).flatMap (leftover hole)).foldl HoleTable.insert
            ((intersectingHoles t hole).foldl (fun t h => t.deleteMaxId h.maxId) t)
      ∧ (removeChannelHole t hole).2.removedMessages = (intersectingHoles t hole).map holeMessageId
      ∧ (removeChannelHole t hole).2.addedMessages
        = (intersectingHoles t hole).flatMap (leftover hole) := by
  unfold removeChannelHole
  simp only []
  split_ifs with h
  · rw [h]
    exact ⟨rfl, rfl, rfl⟩
  · exact ⟨rfl, rfl, rfl⟩

namespace ChannelHolesRight

theorem remove (h : ChannelHolesRight t.rows) (hle : hole.minId ≤ hole.maxId) :
    ChannelHolesRight (removeChannelHole t hole).1.rows ∧ ChannelChangeRight t (.remove hole) := by
  obtain ⟨heq, hremoved, hadded⟩ := removeChannelHole_eq t hole
  have hspec : ∀ g ∈ intersectingHoles t hole, _ := fun g hg =>
    leftover_spec (h.mem_intersectingHoles.1 hg).2.1 (h.mem_intersectingHoles.1 hg).2.2 hle
  obtain ⟨pieces, hpieces⟩ : ∃ ps, (intersectingHoles t hole).flatMap (leftover hole) = ps :=
    ⟨_, rfl⟩
  have hmem : ∀ p, p ∈ pieces ↔ ∃ g ∈ intersectingHoles t hole, p ∈ leftover hole g := by
    intro p
    rw [← hpieces, List.mem_flatMap]
  have hids : ∀ x, (∃ p ∈ pieces, x ∈ p.ids)
      ↔ (∃ g ∈ intersectingHoles t hole, x ∈ g.ids) ∧ x ∉ hole.ids := by
    intro x
    constructor
    · rintro ⟨p, hp, hx⟩
      obtain ⟨g, hg, hpg⟩ := (hmem p).1 hp
      obtain ⟨hxg, hxh⟩ := ((hspec g hg).2.2 x).1 ⟨p, hpg, hx⟩
      exact ⟨⟨g, hg, hxg⟩, hxh⟩
    · rintro ⟨⟨g, hg, hxg⟩, hxh⟩
      obtain ⟨p, hp, hx⟩ := ((hspec g hg).2.2 x).2 ⟨hxg, hxh⟩
      exact ⟨p, (hmem p).2 ⟨g, hg, hp⟩, hx⟩
  have hne : ∀ p ∈ pieces, p.minId ≤ p.maxId ∧ p.withoutPeers = p := by
    intro p hp
    obtain ⟨g, hg, hpg⟩ := (hmem p).1 hp
    exact (hspec g hg).1 p hpg
  -- Pieces of two stored holes are apart because the holes are.
  have hap : pieces.Pairwise MessageHole.Apart := by
    rw [← hpieces, List.pairwise_flatMap]
    refine ⟨fun g hg => (hspec g hg).2.1, h.intersectingHoles_apart.imp_of_mem ?_⟩
    intro a b ha hb hab p hp q hq
    have hpa := fun x hx => (((hspec a ha).2.2 x).1 ⟨p, hp, hx⟩).1
    have hqb := fun x hx => (((hspec b hb).2.2 x).1 ⟨q, hq, hx⟩).1
    have hpne := ((hspec a ha).1 p hp).1
    have hqne := ((hspec b hb).1 q hq).1
    have h₁ := hpa p.minId ⟨le_rfl, hpne⟩
    have h₂ := hpa p.maxId ⟨hpne, le_rfl⟩
    have h₃ := hqb q.minId ⟨le_rfl, hqne⟩
    have h₄ := hqb q.maxId ⟨hqne, le_rfl⟩
    simp only [MessageHole.mem_ids, MessageHole.Apart] at *
    omega
  rw [hpieces] at heq hadded
  have hright := h.replace hole (fun p hp => (hne p hp).1) hap fun p hp x hx =>
    .inr ((hids x).1 ⟨p, hp, hx⟩).1
  have hrows : (removeChannelHole t hole).1.rows
      = (t.rows.filter fun r => r.maxId ∉ (intersectingHoles t hole).map (·.maxId)) ++ pieces := by
    rw [heq, ← HoleTable.deleteMaxIds_rows]
    refine HoleTable.insertAll_rows pieces _ ?_
    rw [HoleTable.deleteMaxIds_rows]
    exact hright.keys
  refine ⟨hrows ▸ hright, ?_, ?_⟩
  · ext x
    change x ∈ coveredIds (removeChannelHole t hole).1.rows
      ↔ x ∈ coveredIds t.rows ∧ x ∉ hole.ids
    rw [hrows, h.mem_coveredIds_replace, h.mem_coveredIds hole, hids, or_and_right]
    refine or_congr_left ⟨fun hx => ⟨hx, ?_⟩, fun hx => hx.1⟩
    obtain ⟨r, hr, hra, hxr⟩ := hx
    simp only [MessageHole.mem_ids, MessageHole.Apart] at *
    omega
  · change (removeChannelHole t hole).1.rows = (removeChannelHole t hole).2.applyTo t.rows
    rw [hrows, HoleReport.applyTo, hremoved, removedMessages_filter, hadded]
    rw [List.map_congr_left fun p hp => (hne p hp).2, List.map_id']

theorem step (h : ChannelHolesRight t.rows) (e : HoleEvent) (hle : e.hole.minId ≤ e.hole.maxId) :
    ChannelHolesRight (channelHoleStep t e).rows ∧ ChannelChangeRight t e := by
  cases e with
  | add hole => exact h.add hle
  | remove hole => exact h.remove hle

end ChannelHolesRight

/-! ## Every run -/

/-- After every run of changes the stored holes are disjoint and non-empty, and every further
change does to the ids they cover, and reports, exactly what it should. -/
theorem channel_holes_right (es : List HoleEvent)
    (hes : ∀ e ∈ es, e.hole.minId ≤ e.hole.maxId) :
    ChannelHolesRight (run channelHoleStep .empty es).rows
      ∧ ∀ e : HoleEvent, e.hole.minId ≤ e.hole.maxId →
          ChannelChangeRight (run channelHoleStep .empty es) e := by
  have hright : ChannelHolesRight (run channelHoleStep .empty es).rows :=
    @invariant _ _ channelHoleStep (fun _ e => e.hole.minId ≤ e.hole.maxId)
      (fun t => ChannelHolesRight t.rows) (fun _ e h hle => (h.step e hle).1) es .empty
      ⟨by simp [HoleTable.empty], .nil, .nil⟩ (allSteps_of_forall _ es _ hes)
  exact ⟨hright, fun e hle => (hright.step e hle).2⟩

/-- A hole bridged by a second one, cut in two by a removal. -/
theorem channel_holes_right_cut :
    (run channelHoleStep .empty [.add (.plain 1 10 5 50), .add (.plain 4 40 9 90),
      .remove (.plain 3 30 6 60)]).rows = [.plain 1 10 2 30, .plain 7 60 9 90]
      ∧ ChannelHolesRight (run channelHoleStep .empty [.add (.plain 1 10 5 50),
          .add (.plain 4 40 9 90), .remove (.plain 3 30 6 60)]).rows :=
  ⟨by decide, (channel_holes_right _ (by decide)).1⟩

end Onegram

/-!
## What trailing holes cover

A hole is made where the list steps down from a message to the next one, or from the last one to the
known earlier id. Whatever the order, the steps from the newest message down to that id pass over
every id between; but they may pass over a loaded one as well.
-/

namespace Onegram

variable {key : EarlierSortKey} {messages : List LoadedMessage}

/-- The ids between the known earlier one and the newest message that no message has. -/
def missingIds (key : EarlierSortKey) (messages : List LoadedMessage) : Set Int :=
  {x | key.mid < x ∧ (∃ message ∈ messages, x < message.mid) ∧ ∀ message ∈ messages, message.mid ≠ x}

/-- The list steps down over an id, from a message to the next or from the last to the known one. -/
def PassedOver (key : EarlierSortKey) (x : Int) : List LoadedMessage → Prop
  | [] => False
  | [message] => key.mid < x ∧ x < message.mid
  | message :: earlierMessage :: rest =>
    (earlierMessage.mid < x ∧ x < message.mid) ∨ PassedOver key x (earlierMessage :: rest)

theorem mem_coveredIds_cons {hole : MessageHole} {holes : List MessageHole} {x : Int} :
    x ∈ coveredIds (hole :: holes) ↔ x ∈ hole.ids ∨ x ∈ coveredIds holes := by
  simp [coveredIds]

/-- The holes cover what the list passes over. -/
theorem mem_holesBetween (key : EarlierSortKey) (x : Int) : ∀ messages : List LoadedMessage,
    x ∈ coveredIds (holesBetween key messages) ↔ PassedOver key x messages
  | [] => by simp [holesBetween, coveredIds, PassedOver]
  | [message] => by
    rw [holesBetween, PassedOver]
    split_ifs with h
    · rw [mem_coveredIds_cons, MessageHole.mem_ids]
      simp only [MessageHole.plain, coveredIds, List.not_mem_nil, false_and, exists_false,
        Set.mem_ofPred_eq, or_false]
      omega
    · simp only [coveredIds, List.not_mem_nil, false_and, exists_false, Set.mem_ofPred_eq, false_iff]
      omega
  | message :: earlierMessage :: rest => by
    have ih := mem_holesBetween key x (earlierMessage :: rest)
    rw [holesBetween, PassedOver, ← ih]
    split_ifs with h
    · rw [mem_coveredIds_cons, MessageHole.mem_ids]
      simp only [MessageHole.plain]
      exact or_congr_left (by omega)
    · exact ⟨.inr, fun hx => hx.resolve_left (by omega)⟩

/-- What is passed over lies between the known earlier id and a message. -/
theorem PassedOver.between {x : Int} : ∀ {messages : List LoadedMessage},
    (∀ message ∈ messages, key.mid < message.mid) → PassedOver key x messages →
    key.mid < x ∧ ∃ message ∈ messages, x < message.mid
  | [message], _, h => ⟨h.1, message, List.mem_cons_self, h.2⟩
  | message :: earlierMessage :: rest, hlt, h => by
    rcases h with ⟨hx, hx'⟩ | h
    · have := hlt earlierMessage (List.mem_cons_of_mem _ List.mem_cons_self)
      exact ⟨by omega, message, List.mem_cons_self, hx'⟩
    · obtain ⟨hx, m, hm, hx'⟩ := h.between fun m hm => hlt m (List.mem_cons_of_mem _ hm)
      exact ⟨hx, m, List.mem_cons_of_mem _ hm, hx'⟩

/-- From a message down to the known earlier id, every id between that no message has is passed
over. -/
theorem passedOver_of_between {x : Int} (hx : key.mid < x) : ∀ {messages : List LoadedMessage},
    (∃ message ∈ messages, x < message.mid) → (∀ message ∈ messages, message.mid ≠ x) →
    PassedOver key x messages
  | [], h, _ => by simp at h
  | [message], h, _ => by
    obtain ⟨m, hm, hlt⟩ := h
    obtain rfl := List.mem_singleton.mp hm
    exact ⟨hx, hlt⟩
  | message :: earlierMessage :: rest, h, hne => by
    have hrest := fun m hm => hne m (List.mem_cons_of_mem message hm)
    by_cases hlater : ∃ m ∈ earlierMessage :: rest, x < m.mid
    · exact .inr (passedOver_of_between hx hlater hrest)
    · -- Only the first message is newer, and the step down from it passes over the id.
      obtain ⟨m, hm, hlt⟩ := h
      have hfirst : m = message :=
        (List.mem_cons.mp hm).resolve_right fun hm => hlater ⟨m, hm, hlt⟩
      subst hfirst
      have hle : earlierMessage.mid ≤ x :=
        not_lt.mp fun hlt => hlater ⟨earlierMessage, List.mem_cons_self, hlt⟩
      have := hrest earlierMessage List.mem_cons_self
      exact .inl ⟨by omega, hlt⟩

/-- Without repeated ids no message is passed over just where the list is newest first. -/
theorem passedOver_iff_newestFirst : ∀ {messages : List LoadedMessage},
    (∀ message ∈ messages, key.mid < message.mid) → (messages.map (·.mid)).Nodup →
    ((∀ message ∈ messages, ¬PassedOver key message.mid messages)
      ↔ messages.Pairwise (·.mid > ·.mid))
  | [], _, _ => by simp
  | [message], _, _ => by simp [PassedOver]
  | message :: earlierMessage :: rest, hlt, hnodup => by
    rw [List.map_cons, List.nodup_cons] at hnodup
    have hltrest := fun m hm => hlt m (List.mem_cons_of_mem message hm)
    have ih := passedOver_iff_newestFirst hltrest hnodup.2
    have hnot : ∀ m ∈ earlierMessage :: rest, m.mid ≠ message.mid := fun m hm heq =>
      hnodup.1 (heq ▸ List.mem_map_of_mem hm)
    rw [List.pairwise_cons, ← ih]
    constructor
    · intro h
      have hrest : ∀ m ∈ earlierMessage :: rest, ¬PassedOver key m.mid (earlierMessage :: rest) :=
        fun m hm hpassed => h m (List.mem_cons_of_mem _ hm) (.inr hpassed)
      refine ⟨fun m hm => ?_, hrest⟩
      -- Below a later message the first one would be passed over.
      by_contra hle
      have := hnot m hm
      exact h message List.mem_cons_self (.inr (passedOver_of_between (hlt _ List.mem_cons_self)
        ⟨m, hm, by omega⟩ hnot))
    · rintro ⟨hfirst, hrest⟩ m hm (⟨hbelow, habove⟩ | hpassed)
      · have hm := (List.mem_cons.mp hm).resolve_left fun heq => by
          subst heq
          omega
        rcases List.mem_cons.mp hm with rfl | hm
        · omega
        · have hsorted := List.pairwise_cons.mp (ih.mp hrest)
          have := hsorted.1 m hm
          omega
      · rcases List.mem_cons.mp hm with rfl | hm
        · obtain ⟨-, m', hm', hlt'⟩ := hpassed.between hltrest
          have := hfirst m' hm'
          omega
        · exact hrest m hm hpassed

theorem mem_filteredMessages {message : LoadedMessage} :
    message ∈ filteredMessages key messages ↔ message ∈ messages ∧ key.mid < message.mid := by
  rw [filteredMessages, List.mem_filter, decide_eq_true_eq]

/-- The holes cover all missing ids, and no others just where no loaded message is passed over. -/
theorem coveredIds_trailingHoles :
    missingIds key messages ⊆ coveredIds (trailingHoles key messages)
      ∧ (coveredIds (trailingHoles key messages) = missingIds key messages
        ↔ ∀ message ∈ filteredMessages key messages,
          ¬PassedOver key message.mid (filteredMessages key messages)) := by
  have hlt : ∀ message ∈ filteredMessages key messages, key.mid < message.mid :=
    fun message hm => (mem_filteredMessages.mp hm).2
  have hcovered : ∀ x, x ∈ coveredIds (trailingHoles key messages)
      ↔ PassedOver key x (filteredMessages key messages) :=
    fun x => mem_holesBetween key x _
  have hsubset : missingIds key messages ⊆ coveredIds (trailingHoles key messages) := by
    rintro x ⟨hx, ⟨message, hm, hxm⟩, hne⟩
    refine (hcovered x).mpr (passedOver_of_between hx ⟨message, ?_, hxm⟩ fun m hm => ?_)
    · exact mem_filteredMessages.mpr ⟨hm, hx.trans hxm⟩
    · exact hne m (mem_filteredMessages.mp hm).1
  refine ⟨hsubset, ?_, ?_⟩
  · intro heq message hm hpassed
    have hmissing := heq ▸ (hcovered message.mid).mpr hpassed
    exact hmissing.2.2 message (mem_filteredMessages.mp hm).1 rfl
  · intro hnot
    refine Set.Subset.antisymm (fun x hx => ?_) hsubset
    have hpassed := (hcovered x).mp hx
    obtain ⟨hkey, message, hm, hxm⟩ := hpassed.between hlt
    refine ⟨hkey, ⟨message, (mem_filteredMessages.mp hm).1, hxm⟩, ?_⟩
    rintro m hm rfl
    exact hnot m (mem_filteredMessages.mpr ⟨hm, hkey⟩) hpassed

theorem holesBetween_nonempty : ∀ {messages : List LoadedMessage},
    ∀ hole ∈ holesBetween key messages, hole.minId ≤ hole.maxId
  | [], _, h => absurd h List.not_mem_nil
  | [message], hole, h => by
    rw [holesBetween] at h
    split_ifs at h with hle
    · obtain rfl := List.mem_singleton.mp h
      exact hle
    · exact absurd h List.not_mem_nil
  | message :: earlierMessage :: rest, hole, h => by
    rw [holesBetween] at h
    split_ifs at h with hle
    · rcases List.mem_cons.mp h with rfl | h
      · exact hle.2
      · exact holesBetween_nonempty hole h
    · exact holesBetween_nonempty hole h

/-- In the table the ids of the holes come to those that are covered. -/
theorem coveredIds_addAll : ∀ {holes : List MessageHole} {t : HoleTable}, ChannelHolesRight t.rows →
    (∀ hole ∈ holes, hole.minId ≤ hole.maxId) →
    coveredIds (holes.foldl (fun t hole => (addChannelHole t hole).1) t).rows
      = coveredIds t.rows ∪ coveredIds holes
  | [], t, _, _ => by simp [coveredIds]
  | hole :: holes, t, h, hle => by
    obtain ⟨hright, hchange⟩ := h.add (hle hole List.mem_cons_self)
    have hrest := coveredIds_addAll hright fun g hg => hle g (List.mem_cons_of_mem _ hg)
    have hcovered : coveredIds (addChannelHole t hole).1.rows = coveredIds t.rows ∪ hole.ids :=
      hchange.covered
    rw [List.foldl_cons, hrest, hcovered, Set.union_assoc]
    congr 1
    ext x
    rw [mem_coveredIds_cons]
    rfl

theorem coveredIds_addTrailingHoles {t : HoleTable} (h : ChannelHolesRight t.rows) :
    coveredIds (addTrailingHoles t key messages).rows
      = coveredIds t.rows ∪ coveredIds (trailingHoles key messages) :=
  coveredIds_addAll h holesBetween_nonempty

/-- The holes are right just where the list, in its own order, steps down over no loaded message;
without repeated ids, just where it is newest first. -/
theorem trailingHoles_iff (key : EarlierSortKey) (messages : List LoadedMessage) :
    (coveredIds (trailingHoles key messages) = missingIds key messages
      ↔ ∀ message ∈ filteredMessages key messages,
        ¬PassedOver key message.mid (filteredMessages key messages))
    ∧ (((filteredMessages key messages).map (·.mid)).Nodup →
      (coveredIds (trailingHoles key messages) = missingIds key messages
        ↔ (filteredMessages key messages).Pairwise (·.mid > ·.mid))) := by
  refine ⟨coveredIds_trailingHoles.2, fun hnodup => ?_⟩
  rw [coveredIds_trailingHoles.2]
  exact passedOver_iff_newestFirst (fun m hm => (mem_filteredMessages.mp hm).2) hnodup

/-- Two messages, oldest first: the hole covers the first of them. -/
theorem oldestFirst_covered :
    coveredIds (trailingHoles ⟨3, 30⟩ [⟨5, 50⟩, ⟨6, 60⟩])
      ≠ missingIds ⟨3, 30⟩ [⟨5, 50⟩, ⟨6, 60⟩] := by
  intro h
  have hcovered : (5 : Int) ∈ coveredIds (trailingHoles ⟨3, 30⟩ [⟨5, 50⟩, ⟨6, 60⟩]) :=
    ⟨.plain 4 31 5 60, by decide, MessageHole.mem_ids.mpr (by decide)⟩
  exact (h ▸ hcovered).2.2 ⟨5, 50⟩ List.mem_cons_self rfl

end Onegram
