import Onegram.Lib.Run
import Onegram.SaltSet

/-!
# Which salt a message gets

Merging keeps what it says. The choice compares each salt with a best count that is never written,
so that the salt of the last valid entry is taken, however soon it runs out.
-/

namespace Onegram.Mtp

open Run (run AllSteps)

variable {saltSet : List MTDatacenterSaltInfo} {messageId referenceMessageId : Int}
  {e : MTDatacenterSaltInfo}

/-! ## Statement -/

/-- A message with the id may be sent under the salt. -/
def MTDatacenterSaltInfo.Valid (e : MTDatacenterSaltInfo) (messageId : Int) : Prop :=
  e.firstValidMessageId ≤ messageId ∧ messageId < e.lastValidMessageId

instance (e : MTDatacenterSaltInfo) (messageId : Int) : Decidable (e.Valid messageId) :=
  inferInstanceAs (Decidable (_ ∧ _))

/-- Of the valid entries, one that stays valid longest. -/
def Longest (saltSet : List MTDatacenterSaltInfo) (messageId : Int) (e : MTDatacenterSaltInfo) :
    Prop :=
  e ∈ saltSet ∧ e.Valid messageId ∧ ∀ e' ∈ saltSet, e'.Valid messageId →
    e'.lastValidMessageId - messageId ≤ e.lastValidMessageId - messageId

/-- The salt of an entry that stays valid longest, or 0 if none is valid. -/
def BestSalt (saltSet : List MTDatacenterSaltInfo) (messageId salt : Int) : Prop :=
  (∃ e, Longest saltSet messageId e ∧ e.salt = salt)
    ∨ (∀ e ∈ saltSet, ¬ e.Valid messageId) ∧ salt = 0

/-- What a merge may make of a set: what was there and is still valid, and some of the new entries,
each with a first message id of its own. -/
structure Merged (previous updated : List MTDatacenterSaltInfo) (referenceMessageId : Int)
    (kept added : List MTDatacenterSaltInfo) : Prop where
  kept_previous : ∀ e ∈ kept, e ∈ previous
  added_updated : ∀ e ∈ added, e ∈ updated
  valid : ∀ e ∈ kept ++ added, referenceMessageId < e.lastValidMessageId
  all_kept : ∀ e ∈ previous, referenceMessageId < e.lastValidMessageId → e ∈ kept
  distinct : added.Pairwise fun e e' => e.firstValidMessageId ≠ e'.firstValidMessageId
  apart : ∀ e ∈ kept, ∀ e' ∈ added, e.firstValidMessageId ≠ e'.firstValidMessageId

/-- Calls of `mergeSaltSet:forTimestamp:`, each with its set and its reference. -/
abbrev Merges := List (List MTDatacenterSaltInfo × Int)

def mergeStep (saltSet : List MTDatacenterSaltInfo) (merge : List MTDatacenterSaltInfo × Int) :
    List MTDatacenterSaltInfo :=
  mergeSaltSet saltSet merge.1 merge.2

/-- Every call of the sequence merges. -/
def MergesAll (saltSet : List MTDatacenterSaltInfo) (merges : Merges) : Prop :=
  AllSteps mergeStep (fun s merge =>
    ∃ kept added, mergeStep s merge = kept ++ added ∧ Merged s merge.1 merge.2 kept added)
    saltSet merges

/-- No remaining validity overflows, and the entry that is the last valid one of the list has the
salt of one that stays valid longest. -/
structure LastIsLongest (saltSet : List MTDatacenterSaltInfo) (messageId : Int) : Prop where
  inRange : ∀ e ∈ saltSet, e.firstValidMessageId ≤ messageId →
    -2 ^ 63 ≤ e.lastValidMessageId - messageId ∧ e.lastValidMessageId - messageId < 2 ^ 63
  last : ∀ before e after, saltSet = before ++ e :: after → e.Valid messageId →
    (∀ e' ∈ after, ¬ e'.Valid messageId) → ∃ e', Longest saltSet messageId e' ∧ e'.salt = e.salt

/-! ## Merging -/

theorem merged_filter (saltSet : List MTDatacenterSaltInfo) (referenceMessageId : Int) :
    Merged saltSet [] referenceMessageId
      (saltSet.filter (·.isValidFutureSaltForMessageId referenceMessageId)) [] where
  kept_previous := fun _ he => List.mem_of_mem_filter he
  added_updated := by simp
  valid := fun e he => by
    rw [List.append_nil] at he
    exact of_decide_eq_true (List.mem_filter.mp he).2
  all_kept := fun _ he hvalid => List.mem_filter.mpr ⟨he, decide_eq_true hvalid⟩
  distinct := .nil
  apart := by simp

theorem Merged.mergeSalt {previous updated kept added : List MTDatacenterSaltInfo}
    (h : Merged previous updated referenceMessageId kept added) (saltInfo : MTDatacenterSaltInfo) :
    ∃ added', Mtp.mergeSalt referenceMessageId (kept ++ added) saltInfo = kept ++ added'
      ∧ Merged previous (updated ++ [saltInfo]) referenceMessageId kept added' := by
  have hold : Merged previous (updated ++ [saltInfo]) referenceMessageId kept added :=
    { h with added_updated := fun e he => List.mem_append_left _ (h.added_updated e he) }
  unfold Mtp.mergeSalt
  dsimp only
  split_ifs with hnew
  · simp only [Bool.and_eq_true, Bool.not_eq_true', List.any_eq_false, decide_eq_true_eq] at hnew
    obtain ⟨hfresh, hvalid⟩ := hnew
    refine ⟨added ++ [saltInfo], List.append_assoc _ _ _, h.kept_previous, ?_, ?_, h.all_kept, ?_,
      ?_⟩
    · intro e he
      rcases List.mem_append.mp he with he | he
      · exact hold.added_updated e he
      · exact List.mem_append_right _ he
    · intro e he
      rw [← List.append_assoc] at he
      rcases List.mem_append.mp he with he | he
      · exact h.valid e he
      · rw [List.mem_singleton.mp he]
        exact of_decide_eq_true hvalid
    · refine List.pairwise_append.mpr ⟨h.distinct, List.pairwise_singleton _ _, ?_⟩
      intro e he e' he'
      rw [List.mem_singleton.mp he']
      exact hfresh e (List.mem_append_right _ he)
    · intro e he e' he'
      rcases List.mem_append.mp he' with he' | he'
      · exact h.apart e he e' he'
      · rw [List.mem_singleton.mp he']
        exact hfresh e (List.mem_append_left _ he)
  · exact ⟨added, rfl, hold⟩

/-- The loop over the new entries, by what it has gone through. -/
theorem Merged.foldl {previous kept : List MTDatacenterSaltInfo} :
    ∀ (more : List MTDatacenterSaltInfo) {updated added : List MTDatacenterSaltInfo},
      Merged previous updated referenceMessageId kept added →
      ∃ added', more.foldl (Mtp.mergeSalt referenceMessageId) (kept ++ added) = kept ++ added'
        ∧ Merged previous (updated ++ more) referenceMessageId kept added'
  | [], updated, added, h => ⟨added, rfl, by rwa [List.append_nil]⟩
  | saltInfo :: more, updated, added, h => by
    obtain ⟨added', heq, h'⟩ := h.mergeSalt saltInfo
    obtain ⟨added'', heq', h''⟩ := Merged.foldl more h'
    refine ⟨added'', ?_, ?_⟩
    · rw [List.foldl_cons, heq, heq']
    · rwa [List.append_assoc] at h''

theorem mergeSaltSet_merged (saltSet updated : List MTDatacenterSaltInfo)
    (referenceMessageId : Int) :
    ∃ kept added, mergeSaltSet saltSet updated referenceMessageId = kept ++ added
      ∧ Merged saltSet updated referenceMessageId kept added := by
  obtain ⟨added, heq, h⟩ := (merged_filter saltSet referenceMessageId).foldl updated
  rw [List.append_nil] at heq
  exact ⟨_, added, heq, h⟩

theorem mergesAll (saltSet : List MTDatacenterSaltInfo) :
    ∀ merges : Merges, MergesAll saltSet merges
  | [] => trivial
  | merge :: merges =>
    ⟨mergeSaltSet_merged saltSet merge.1 merge.2, mergesAll (mergeStep saltSet merge) merges⟩

/-- A set with distinct first message ids keeps them distinct over all merges. -/
theorem distinct_merges : ∀ (merges : Merges) {saltSet : List MTDatacenterSaltInfo},
    (saltSet.map (·.firstValidMessageId)).Nodup →
    ((run mergeStep saltSet merges).map (·.firstValidMessageId)).Nodup
  | [], _, h => h
  | merge :: merges, saltSet, h => by
    refine distinct_merges merges ?_
    obtain ⟨added, heq, hmerged⟩ := (merged_filter saltSet merge.2).foldl merge.1
    rw [List.append_nil] at heq
    rw [mergeStep, mergeSaltSet, heq, List.map_append]
    refine List.nodup_append.mpr ⟨(List.filter_sublist.map _).nodup h, ?_, ?_⟩
    · exact List.pairwise_map.mpr hmerged.distinct
    · intro a ha b hb
      obtain ⟨e, he, rfl⟩ := List.mem_map.mp ha
      obtain ⟨e', he', rfl⟩ := List.mem_map.mp hb
      exact hmerged.apart e he e' he'

/-! ## Choosing -/

/-- The salt of the last valid entry, or what there was before. -/
def lastSalt (messageId : Int) : Int → List MTDatacenterSaltInfo → Int
  | salt, [] => salt
  | salt, e :: saltSet => lastSalt messageId (if e.Valid messageId then e.salt else salt) saltSet

theorem considerSalt_eq (salt : Int) (h : e.firstValidMessageId ≤ messageId →
      -2 ^ 63 ≤ e.lastValidMessageId - messageId ∧ e.lastValidMessageId - messageId < 2 ^ 63) :
    considerSalt messageId (salt, 0) e
      = some (if e.Valid messageId then e.salt else salt, 0) := by
  unfold considerSalt MTDatacenterSaltInfo.validMessageCountAfterId
  by_cases hfirst : messageId < e.firstValidMessageId
  · have hinvalid : ¬ e.Valid messageId := fun hv => absurd hv.1 (by omega)
    rw [if_pos hfirst, if_neg hinvalid]
    rfl
  · rw [if_neg hfirst, if_pos (h (by omega)), Option.bind_eq_bind, Option.bind_some]
    by_cases hlast : messageId < e.lastValidMessageId
    · have hvalid : e.Valid messageId := ⟨by omega, hlast⟩
      rw [if_pos (by omega), if_pos hvalid]
    · have hinvalid : ¬ e.Valid messageId := fun hv => hlast hv.2
      rw [if_neg (by omega), if_neg hinvalid]

theorem considerSalt_none {best : Int × Int} (hfirst : e.firstValidMessageId ≤ messageId)
    (h : ¬ (-2 ^ 63 ≤ e.lastValidMessageId - messageId
      ∧ e.lastValidMessageId - messageId < 2 ^ 63)) :
    considerSalt messageId best e = none := by
  unfold considerSalt MTDatacenterSaltInfo.validMessageCountAfterId
  rw [if_neg (by omega), if_neg h]
  rfl

/-- The loop goes through when nothing overflows, and then to the last valid entry. -/
theorem foldlM_considerSalt : ∀ (saltSet : List MTDatacenterSaltInfo) (salt : Int),
    (∀ e ∈ saltSet, e.firstValidMessageId ≤ messageId →
      -2 ^ 63 ≤ e.lastValidMessageId - messageId ∧ e.lastValidMessageId - messageId < 2 ^ 63) →
    saltSet.foldlM (considerSalt messageId) (salt, 0) = some (lastSalt messageId salt saltSet, 0)
  | [], _, _ => rfl
  | e :: saltSet, salt, h => by
    rw [List.foldlM_cons, considerSalt_eq salt (h e List.mem_cons_self), Option.bind_eq_bind,
      Option.bind_some, foldlM_considerSalt saltSet _ fun e' he' => h e' (List.mem_cons_of_mem _ he')]
    rfl

theorem foldlM_considerSalt_none : ∀ (saltSet : List MTDatacenterSaltInfo) (best : Int × Int),
    e ∈ saltSet → e.firstValidMessageId ≤ messageId →
    ¬ (-2 ^ 63 ≤ e.lastValidMessageId - messageId ∧ e.lastValidMessageId - messageId < 2 ^ 63) →
    saltSet.foldlM (considerSalt messageId) best = none
  | e' :: saltSet, best, he, hfirst, hrange => by
    rw [List.foldlM_cons, Option.bind_eq_bind]
    rcases List.mem_cons.mp he with rfl | he
    · rw [considerSalt_none hfirst hrange, Option.bind_none]
    · rcases considerSalt messageId best e' with _ | best'
      · rfl
      · exact foldlM_considerSalt_none saltSet best' he hfirst hrange

theorem lastSalt_of_last : ∀ (before : List MTDatacenterSaltInfo) {after : List MTDatacenterSaltInfo}
    (salt : Int), e.Valid messageId → (∀ e' ∈ after, ¬ e'.Valid messageId) →
    lastSalt messageId salt (before ++ e :: after) = e.salt
  | [], [], _, he, _ => by simp [lastSalt, he]
  | [], e' :: after, salt, he, hafter => by
    have hskip := lastSalt_of_last [] salt he fun x hx => hafter x (List.mem_cons_of_mem e' hx)
    simpa [lastSalt, he, hafter e' List.mem_cons_self] using hskip
  | _ :: before, _, _, he, hafter => lastSalt_of_last before _ he hafter

theorem lastSalt_of_none : ∀ (saltSet : List MTDatacenterSaltInfo) (salt : Int),
    (∀ e ∈ saltSet, ¬ e.Valid messageId) → lastSalt messageId salt saltSet = salt
  | [], _, _ => rfl
  | e :: saltSet, salt, h => by
    rw [lastSalt, if_neg (h e List.mem_cons_self)]
    exact lastSalt_of_none saltSet salt fun e' he' => h e' (List.mem_cons_of_mem _ he')

/-- A set with a valid entry has a last one. -/
theorem exists_last : ∀ {saltSet : List MTDatacenterSaltInfo}, (∃ e ∈ saltSet, e.Valid messageId) →
    ∃ before e after, saltSet = before ++ e :: after ∧ e.Valid messageId
      ∧ ∀ e' ∈ after, ¬ e'.Valid messageId
  | [], h => by simp at h
  | e :: saltSet, h => by
    by_cases hlater : ∃ e' ∈ saltSet, e'.Valid messageId
    · obtain ⟨before, e', after, rfl, he', hafter⟩ := exists_last hlater
      exact ⟨e :: before, e', after, rfl, he', hafter⟩
    · obtain ⟨e', he', hvalid⟩ := h
      rcases List.mem_cons.mp he' with rfl | he'
      · exact ⟨[], e', saltSet, rfl, hvalid, fun x hx hv => hlater ⟨x, hx, hv⟩⟩
      · exact absurd ⟨e', he', hvalid⟩ hlater

theorem bestSalt_iff :
    (∃ salt, authSaltForMessageId saltSet messageId = some salt ∧ BestSalt saltSet messageId salt)
      ↔ LastIsLongest saltSet messageId := by
  constructor
  · rintro ⟨salt, hsalt, hbest⟩
    have hrange : ∀ e ∈ saltSet, e.firstValidMessageId ≤ messageId →
        -2 ^ 63 ≤ e.lastValidMessageId - messageId
          ∧ e.lastValidMessageId - messageId < 2 ^ 63 := by
      intro e he hfirst
      by_contra hout
      rw [authSaltForMessageId, foldlM_considerSalt_none saltSet (0, 0) he hfirst hout] at hsalt
      cases hsalt
    refine ⟨hrange, fun before e after heq hvalid hafter => ?_⟩
    rw [authSaltForMessageId, foldlM_considerSalt saltSet 0 hrange] at hsalt
    obtain rfl : lastSalt messageId 0 saltSet = salt := Option.some.inj hsalt
    have hlast : lastSalt messageId 0 saltSet = e.salt := by
      rw [heq]
      exact lastSalt_of_last before 0 hvalid hafter
    rcases hbest with ⟨e', hlongest, hsame⟩ | ⟨hnone, -⟩
    · exact ⟨e', hlongest, hsame.trans hlast⟩
    · exact absurd hvalid (hnone e (by simp [heq]))
  · rintro ⟨hrange, hlast⟩
    refine ⟨lastSalt messageId 0 saltSet, ?_, ?_⟩
    · rw [authSaltForMessageId, foldlM_considerSalt saltSet 0 hrange]
      rfl
    by_cases hsome : ∃ e ∈ saltSet, e.Valid messageId
    · obtain ⟨before, e, after, heq, hvalid, hafter⟩ := exists_last hsome
      obtain ⟨e', hlongest, hsame⟩ := hlast before e after heq hvalid hafter
      refine .inl ⟨e', hlongest, hsame.trans ?_⟩
      rw [heq]
      exact (lastSalt_of_last before 0 hvalid hafter).symm
    · have hnone : ∀ e ∈ saltSet, ¬ e.Valid messageId := fun e he hv => hsome ⟨e, he, hv⟩
      exact .inr ⟨hnone, lastSalt_of_none saltSet 0 hnone⟩

/-- After any merges: they have all merged, and the salt of a message is the best one exactly when
the last valid entry is one that lasts longest. -/
theorem salts_iff (saltSet : List MTDatacenterSaltInfo) (merges : Merges) (messageId : Int) :
    (MergesAll saltSet merges
        ∧ ∃ salt, authSaltForMessageId (run mergeStep saltSet merges) messageId = some salt
          ∧ BestSalt (run mergeStep saltSet merges) messageId salt)
      ↔ LastIsLongest (run mergeStep saltSet merges) messageId :=
  ⟨fun h => bestSalt_iff.mp h.2, fun h => ⟨mergesAll saltSet merges, bestSalt_iff.mpr h⟩⟩

/-- The second salt runs out a hundred messages before the first one, and is taken. -/
theorem soonerSalt_taken :
    ¬ (MergesAll [⟨1, 0, 200⟩, ⟨2, 0, 100⟩] []
      ∧ ∃ salt, authSaltForMessageId [⟨1, 0, 200⟩, ⟨2, 0, 100⟩] 50 = some salt
        ∧ BestSalt [⟨1, 0, 200⟩, ⟨2, 0, 100⟩] 50 salt) := by
  rintro ⟨-, salt, hsalt, hbest⟩
  obtain rfl : (2 : Int) = salt := Option.some.inj (by rw [← hsalt]; decide)
  rcases hbest with ⟨e, ⟨hmem, -, hlongest⟩, hsame⟩ | ⟨hnone, -⟩
  · have hfirst := hlongest ⟨1, 0, 200⟩ (by simp) (by decide)
    simp only [List.mem_cons, List.not_mem_nil, or_false] at hmem
    rcases hmem with rfl | rfl
    · exact absurd hsame (by decide)
    · exact absurd hfirst (by decide)
  · exact hnone ⟨1, 0, 200⟩ (by simp) (by decide)

end Onegram.Mtp
