import Onegram.ActionStage
import Mathlib.Data.List.InsertIdx
import Mathlib.Tactic

/-!
# One actor of a queue at a time

An actor executes only where it is the first of its queue, and it leaves the queue only when its
request is done with or its `cancel` has been called. So of the actors of one queue that execute and
whose requests are kept, one at most has not been cancelled, however the calls of actors and
watchers are nested.
-/

namespace Onegram

namespace ActionStage

open Function

variable {Options : Type} {s : ActionStage Options} {a b : ASActor} {name path : String}

/-! ## Queues -/

/-- Nothing but what waits behind the first changes its place. -/
theorem prioritized_cons (first : ASActor) (rest : List ASActor) (a : ASActor) :
    ∃ rest', prioritized (first :: rest) a = first :: rest' ∧ rest'.Perm rest := by
  unfold prioritized
  simp only
  split_ifs with h
  · obtain ⟨k, hk⟩ := Nat.exists_eq_add_of_le' h.1
    have hne : first ≠ a := fun heq => by
      rw [heq, List.idxOf_cons_self] at h
      omega
    have hidx : rest.idxOf a = k + 1 := by
      rw [List.idxOf_cons_ne _ hne] at hk
      omega
    have hmem : a ∈ rest := List.idxOf_lt_length_iff.mp (by
      rw [List.idxOf_cons_ne _ hne, List.length_cons] at h
      omega)
    refine ⟨a :: rest.eraseIdx (rest.idxOf a), ?_, ?_⟩
    · rw [List.idxOf_cons_ne _ hne, List.eraseIdx_cons_succ]
      rfl
    · rw [List.eraseIdx_idxOf_eq_erase]
      exact (List.perm_cons_erase hmem).symm
  · exact ⟨rest, rfl, .refl _⟩

theorem prioritized_nil (a : ASActor) : prioritized [] a = [] := rfl

/-- The queue with a new actor behind the first. -/
theorem enqueued_cons (first : ASActor) (rest : List ASActor) (a : ASActor) (c : Bool) :
    ∃ rest', (if c ∧ (first :: rest ++ [a]).length > 2 then
        (first :: rest ++ [a]).dropLast.insertIdx 1 a else first :: rest ++ [a]) = first :: rest' ∧
      rest'.Perm (a :: rest) := by
  split_ifs
  · exact ⟨a :: rest, by rw [List.dropLast_concat]; rfl, .refl _⟩
  · exact ⟨rest ++ [a], rfl, List.perm_append_singleton a rest⟩

/-! ## Requests -/

theorem lookup_insert (t : RequestTable) (p q : String) (info : RequestInfo) :
    (t.insert p info).lookup q = if q = p then some info else t.lookup q := by
  split_ifs with h
  · rw [h, AList.lookup_insert]
  · exact AList.lookup_insert_ne h

theorem lookup_erase (t : RequestTable) (p q : String) :
    (t.erase p).lookup q = if q = p then none else t.lookup q := by
  split_ifs with h
  · rw [h, AList.lookup_erase]
  · exact AList.lookup_erase_ne h

/-- Some request of the table is the actor's. -/
def Held (table : RequestTable) (a : ASActor) : Prop :=
  ∃ info, table.lookup a.path = some info ∧ info.requestBuilder = a

/-- The actor's request is active, or waits for the timer that cancels it. -/
def Live (s : ActionStage Options) (a : ASActor) : Prop :=
  Held s.activeRequests a ∨ Held s.cancelRequestTimers a

def executedActors (s : ActionStage Options) : List ASActor := s.executed.map Prod.fst

/-- The actor a frame has prepared. -/
def Frame.preparing : Frame Options → Option ASActor
  | .prepare actor _ _ => some actor
  | _ => none

/-- What is true of the actor a frame goes on with. -/
def FrameOk (s : ActionStage Options) : Frame Options → Prop
  | .prepare a options _ =>
    (a, options) ∈ s.created ∧ a ∉ s.executedActors ∧ ∀ name, a ∉ s.requestQueues name
  | .notify a _ _ => a ∈ s.created.map Prod.fst ∧ ¬ s.Live a
  | .cancel a | .performCancel _ a => a ∈ s.cancelled
  | _ => True

/-- What holds whatever actors and watchers do. -/
structure Inv (s : ActionStage Options) : Prop where
  activePath : ∀ path info, s.activeRequests.lookup path = some info →
    info.requestBuilder.path = path
  timerPath : ∀ path info, s.cancelRequestTimers.lookup path = some info →
    info.requestBuilder.path = path
  apart : ∀ path info, s.cancelRequestTimers.lookup path = some info →
    s.activeRequests.lookup path = none
  serial : ∀ a ∈ s.created.map Prod.fst, a.serial < s.created.length
  created_nodup : (s.created.map Prod.fst).Nodup
  live_created : ∀ a, s.Live a → a ∈ s.created.map Prod.fst
  queue_created : ∀ name, ∀ a ∈ s.requestQueues name, a ∈ s.created.map Prod.fst
  queue_name : ∀ name, ∀ a ∈ s.requestQueues name, a.requestQueueName = some name
  queue_nodup : ∀ name, (s.requestQueues name).Nodup
  waiting : ∀ name, ∀ a ∈ (s.requestQueues name).tail,
    a ∉ s.executedActors ∧ (a, s.storedOptions a) ∈ s.created
  executed_created : ∀ e ∈ s.executed, e ∈ s.created
  cancelled_created : ∀ a ∈ s.cancelled, a ∈ s.created.map Prod.fst
  executed_nodup : s.executedActors.Nodup
  frames : ∀ f ∈ s.frames, s.FrameOk f
  preparing_nodup : (s.frames.filterMap Frame.preparing).Nodup
  running : ∀ a name, s.Live a → a ∈ s.executedActors → a ∉ s.cancelled →
    a.requestQueueName = some name → (s.requestQueues name).head? = some a

theorem initial_inv : Inv (initial : ActionStage Options) where
  activePath _ _ h := by cases h
  timerPath _ _ h := by cases h
  apart _ _ h := by cases h
  serial _ h := by cases h
  created_nodup := .nil
  live_created _ h := by rcases h with ⟨_, h, _⟩ | ⟨_, h, _⟩ <;> cases h
  queue_created _ _ h := by cases h
  queue_name _ _ h := by cases h
  queue_nodup _ := .nil
  waiting _ _ h := by cases h
  executed_created _ h := by cases h
  cancelled_created _ h := by cases h
  executed_nodup := .nil
  frames _ h := by cases h
  preparing_nodup := .nil
  running _ _ _ h := by cases h

/-- Requests are moved, dropped or watched by others. -/
theorem Inv.setRequests (h : Inv s) {A T : RequestTable} {joined removed : List (ASHandle × String)}
    (hactive : ∀ path info, A.lookup path = some info → info.requestBuilder.path = path)
    (htimer : ∀ path info, T.lookup path = some info → info.requestBuilder.path = path)
    (hapart : ∀ path info, T.lookup path = some info → A.lookup path = none)
    (hlive : ∀ a, Held A a ∨ Held T a → s.Live a) :
    Inv { s with
      activeRequests := A
      cancelRequestTimers := T
      joined := joined
      removed := removed } :=
  { h with
    activePath := hactive
    timerPath := htimer
    apart := hapart
    live_created := fun a ha => h.live_created a (hlive a ha)
    frames := fun f hf => by
      have hok := h.frames f hf
      cases f with
      | notify a _ _ => exact ⟨hok.1, fun hl => hok.2 (hlive a hl)⟩
      | _ => exact hok
    running := fun a name ha => h.running a name (hlive a ha) }

theorem Inv.push (h : Inv s) {f : Frame Options} (hf : s.FrameOk f)
    (hprepare : f.preparing = none) : Inv (s.push f) :=
  { h with
    frames := fun g hg => by
      rcases List.mem_cons.mp hg with rfl | hg
      · exact hf
      · exact h.frames g hg
    preparing_nodup := by
      rw [ActionStage.push, List.filterMap_cons_none hprepare]
      exact h.preparing_nodup }

theorem Inv.cancel (h : Inv s) (ha : a ∈ s.created.map Prod.fst) : Inv (s.cancel a) :=
  { h with
    cancelled_created := fun b hb => by
      rcases List.mem_cons.mp hb with rfl | hb
      · exact ha
      · exact h.cancelled_created b hb
    frames := fun f hf => by
      have hok := h.frames f hf
      cases f with
      | cancel b => exact List.mem_cons_of_mem a hok
      | performCancel p b => exact List.mem_cons_of_mem a hok
      | _ => exact hok
    running := fun b name hb he hc =>
      h.running b name hb he fun hmem => hc (List.mem_cons_of_mem a hmem) }

/-- A queue is replaced by one whose actors may be there. -/
theorem Inv.setQueue (h : Inv s) {q : List ASActor}
    (hcreated : ∀ a ∈ q, a ∈ s.created.map Prod.fst)
    (hname : ∀ a ∈ q, a.requestQueueName = some name) (hnodup : q.Nodup)
    (hwaiting : ∀ a ∈ q.tail, a ∉ s.executedActors ∧ (a, s.storedOptions a) ∈ s.created)
    (hprepare : ∀ a ∈ q, a ∉ s.frames.filterMap Frame.preparing)
    (hrunning : ∀ a, s.Live a → a ∈ s.executedActors → a ∉ s.cancelled →
      a.requestQueueName = some name → q.head? = some a) : Inv (s.setQueue name q) :=
  have hqueue (name' : String) : (s.setQueue name q).requestQueues name' =
      if name' = name then q else s.requestQueues name' := update_apply ..
  { h with
    queue_created := fun name' a ha => by
      rw [hqueue] at ha
      split_ifs at ha
      · exact hcreated a ha
      · exact h.queue_created name' a ha
    queue_name := fun name' a ha => by
      rw [hqueue] at ha
      split_ifs at ha with heq
      · rw [heq]
        exact hname a ha
      · exact h.queue_name name' a ha
    queue_nodup := fun name' => by
      rw [hqueue]
      split_ifs
      · exact hnodup
      · exact h.queue_nodup name'
    waiting := fun name' a ha => by
      rw [hqueue] at ha
      split_ifs at ha
      · exact hwaiting a ha
      · exact h.waiting name' a ha
    frames := fun f hf => by
      have hok := h.frames f hf
      cases f with
      | prepare a options c =>
        refine ⟨hok.1, hok.2.1, fun name' ha => ?_⟩
        rw [hqueue] at ha
        split_ifs at ha
        · exact hprepare a ha (List.mem_filterMap.mpr ⟨_, hf, rfl⟩)
        · exact hok.2.2 name' ha
      | _ => exact hok
    running := fun a name' ha he hc hn => by
      rw [hqueue]
      split_ifs with heq
      · exact hrunning a ha he hc (heq ▸ hn)
      · exact h.running a name' ha he hc hn }

theorem Inv.setStoredOptions (h : Inv s) (options : Option Options)
    (ha : ∀ name, a ∉ (s.requestQueues name).tail) : Inv (s.setStoredOptions a options) :=
  { h with
    waiting := fun name b hb => by
      have hne : b ≠ a := fun heq => ha name (heq ▸ hb)
      refine ⟨(h.waiting name b hb).1, ?_⟩
      rw [show (s.setStoredOptions a options).storedOptions b = s.storedOptions b from
        update_of_ne hne ..]
      exact (h.waiting name b hb).2 }

/-- A new execution, of an actor that is no longer waiting and, in a queue, is the first. -/
theorem Inv.execute (h : Inv s) {options : Option Options} (hcreated : (a, options) ∈ s.created)
    (hnew : a ∉ s.executedActors) (hprepare : a ∉ s.frames.filterMap Frame.preparing)
    (htail : ∀ name, a ∉ (s.requestQueues name).tail)
    (hfirst : ∀ name, a.requestQueueName = some name → (s.requestQueues name).head? = some a) :
    Inv (s.execute a options) :=
  have hexecuted : (s.execute a options).executedActors = s.executedActors ++ [a] := by
    simp [executedActors, ActionStage.execute]
  { h with
    waiting := fun name b hb => by
      refine ⟨fun hmem => ?_, (h.waiting name b hb).2⟩
      rw [hexecuted, List.mem_append, List.mem_singleton] at hmem
      rcases hmem with hmem | rfl
      · exact (h.waiting name b hb).1 hmem
      · exact htail name hb
    executed_created := fun e he => by
      rcases List.mem_append.mp he with he | he
      · exact h.executed_created e he
      · exact List.mem_singleton.mp he ▸ hcreated
    executed_nodup := by
      rw [hexecuted]
      exact List.concat_eq_append ▸ h.executed_nodup.concat hnew
    frames := fun f hf => by
      have hok := h.frames f hf
      cases f with
      | prepare b options' c =>
        refine ⟨hok.1, fun hmem => ?_, hok.2.2⟩
        rw [hexecuted, List.mem_append, List.mem_singleton] at hmem
        rcases hmem with hmem | rfl
        · exact hok.2.1 hmem
        · exact hprepare (List.mem_filterMap.mpr ⟨_, hf, rfl⟩)
      | _ => exact hok
    running := fun b name hb he hc hn => by
      rw [hexecuted, List.mem_append, List.mem_singleton] at he
      rcases he with he | rfl
      · exact h.running b name hb he hc hn
      · exact hfirst name hn }

theorem Inv.not_preparing (h : Inv s) (ha : a ∈ s.requestQueues name) :
    a ∉ s.frames.filterMap Frame.preparing := fun hmem => by
  obtain ⟨f, hf, hfa⟩ := List.mem_filterMap.mp hmem
  cases f with
  | prepare b options c =>
    obtain rfl : b = a := by simpa [Frame.preparing] using hfa
    exact (h.frames _ hf).2.2 name ha
  | _ => cases hfa

/-- What changes places behind the first, or leaves there. -/
theorem Inv.setRest (h : Inv s) {first : ASActor} {rest rest' : List ASActor}
    (hqueue : s.requestQueues name = first :: rest) (hsub : ∀ a ∈ rest', a ∈ rest)
    (hnodup : rest'.Nodup) : Inv (s.setQueue name (first :: rest')) := by
  have hmem : ∀ a ∈ first :: rest', a ∈ s.requestQueues name := fun a ha => by
    rw [hqueue]
    rcases List.mem_cons.mp ha with rfl | ha
    · exact List.mem_cons_self
    · exact List.mem_cons_of_mem _ (hsub a ha)
  have hfirst : first ∉ rest := (List.nodup_cons.mp (hqueue ▸ h.queue_nodup name)).1
  refine h.setQueue (fun a ha => h.queue_created name a (hmem a ha))
    (fun a ha => h.queue_name name a (hmem a ha))
    (List.nodup_cons.mpr ⟨fun ha => hfirst (hsub _ ha), hnodup⟩)
    (fun a ha => h.waiting name a (by rw [hqueue]; exact hsub a ha))
    (fun a ha => h.not_preparing (hmem a ha)) (fun a ha he hc hn => ?_)
  have hhead := h.running a name ha he hc hn
  rwa [hqueue] at hhead

theorem Inv.changeActorPriority (h : Inv s) (path : String) : Inv (s.changeActorPriority path) := by
  unfold ActionStage.changeActorPriority
  split
  · exact h
  · split
    · exact h
    · rename_i info _ _ name _
      cases hqueue : s.requestQueues name with
      | nil =>
        rw [prioritized_nil, ← hqueue, ActionStage.setQueue, update_eq_self]
        exact h
      | cons first rest =>
        obtain ⟨rest', heq, hperm⟩ := prioritized_cons first rest info.requestBuilder
        have hnodup := (List.nodup_cons.mp (hqueue ▸ h.queue_nodup name)).2
        rw [heq]
        exact h.setRest hqueue (fun a ha => hperm.mem_iff.mp ha) (hperm.nodup_iff.mpr hnodup)

/-- A prepared actor enters its queue, and executes where it is alone. -/
theorem Inv.enqueue (h : Inv s) {options : Option Options} (hcreated : (a, options) ∈ s.created)
    (hnew : a ∉ s.executedActors) (hout : ∀ name, a ∉ s.requestQueues name)
    (hprepare : a ∉ s.frames.filterMap Frame.preparing) (c : Bool) :
    Inv (s.enqueue a options c) := by
  have hactor : a ∈ s.created.map Prod.fst := List.mem_map_of_mem hcreated
  have htail (name : String) : a ∉ (s.requestQueues name).tail :=
    fun ha => hout name (List.mem_of_mem_tail ha)
  unfold ActionStage.enqueue
  split
  · rename_i hn
    exact h.execute hcreated hnew hprepare htail
      (fun name hname => by rw [hn] at hname; cases hname)
  · rename_i name hn
    cases hqueue : s.requestQueues name with
    | nil =>
      have hset : Inv (s.setQueue name [a]) := by
        refine h.setQueue (by simpa using hactor) (by simpa using hn) (List.nodup_singleton a)
          (by simp) (by simpa using hprepare) (fun b hb he hc hn => ?_)
        have hhead := h.running b name hb he hc hn
        rw [hqueue] at hhead
        cases hhead
      have hsingle (name' : String) (hname : a.requestQueueName = some name') :
          (s.setQueue name [a]).requestQueues name' = [a] := by
        obtain rfl : name = name' := Option.some.inj (hn.symm.trans hname)
        exact update_self ..
      simp only [List.nil_append, List.length_singleton, gt_iff_lt, lt_self_iff_false, if_false]
      refine hset.execute hcreated hnew hprepare (fun name' ha => ?_) (fun name' hname => ?_)
      · have hname := hset.queue_name name' a (List.mem_of_mem_tail ha)
        rw [hsingle name' hname] at ha
        cases ha
      · rw [hsingle name' hname]
        rfl
    | cons first rest =>
      obtain ⟨rest', heq, hperm⟩ := enqueued_cons first rest a c
      simp only [List.cons_append, List.length_cons, List.length_append, List.length_nil] at heq ⊢
      rw [if_pos (by omega), heq]
      have hnodup := List.nodup_cons.mp (hqueue ▸ h.queue_nodup name)
      have hne : a ∉ first :: rest := hqueue ▸ hout name
      have hmem : ∀ b ∈ rest', b = a ∨ b ∈ rest := fun b hb =>
        List.mem_cons.mp (hperm.mem_iff.mp hb)
      have hin : ∀ b ∈ first :: rest, b ∈ s.requestQueues name := fun b hb => hqueue ▸ hb
      have hstored := h.setStoredOptions options htail
      refine hstored.setQueue (fun b hb => ?_) (fun b hb => ?_) ?_ (fun b hb => ?_)
        (fun b hb => ?_) (fun b hb he hc hn => ?_)
      · rcases List.mem_cons.mp hb with rfl | hb
        · exact h.queue_created name b (hin b List.mem_cons_self)
        · rcases hmem b hb with rfl | hb
          · exact hactor
          · exact h.queue_created name b (hin b (List.mem_cons_of_mem _ hb))
      · rcases List.mem_cons.mp hb with rfl | hb
        · exact h.queue_name name b (hin b List.mem_cons_self)
        · rcases hmem b hb with rfl | hb
          · exact hn
          · exact h.queue_name name b (hin b (List.mem_cons_of_mem _ hb))
      · rw [List.nodup_cons, hperm.nodup_iff, hperm.mem_iff, List.mem_cons, not_or,
          List.nodup_cons]
        exact ⟨⟨fun heq => hne (heq ▸ List.mem_cons_self), hnodup.1⟩,
          fun ha => hne (List.mem_cons_of_mem _ ha), hnodup.2⟩
      · rcases hmem b hb with rfl | hb
        · refine ⟨hnew, ?_⟩
          rw [show (s.setStoredOptions b options).storedOptions b = options from update_self ..]
          exact hcreated
        · exact hstored.waiting name b (by
            rw [ActionStage.setStoredOptions, hqueue]
            exact hb)
      · rcases List.mem_cons.mp hb with rfl | hb
        · exact h.not_preparing (hin b List.mem_cons_self)
        · rcases hmem b hb with rfl | hb
          · exact hprepare
          · exact h.not_preparing (hin b (List.mem_cons_of_mem _ hb))
      · have hhead := h.running b name hb he hc hn
        rwa [hqueue] at hhead

/-- An actor that is done with leaves its queue; where it was the first, the next one executes. -/
theorem Inv.removeRequestFromQueue (h : Inv s) (hdone : a ∈ s.cancelled ∨ ¬ s.Live a) :
    Inv (s.removeRequestFromQueueAndProceedIfFirst a) := by
  unfold removeRequestFromQueueAndProceedIfFirst
  split
  · exact h
  · rename_i name hn
    split
    · exact h
    · rename_i first rest hqueue
      have hnodup := List.nodup_cons.mp (hqueue ▸ h.queue_nodup name)
      have hrest : ∀ b ∈ rest, b ∈ s.requestQueues name := fun b hb => by
        rw [hqueue]
        exact List.mem_cons_of_mem _ hb
      have hwaiting : ∀ b ∈ rest, b ∉ s.executedActors ∧ (b, s.storedOptions b) ∈ s.created :=
        fun b hb => h.waiting name b (by rw [hqueue]; exact hb)
      split_ifs with hfirst
      · have hset : Inv (s.setQueue name rest) := by
          refine h.setQueue (fun b hb => h.queue_created name b (hrest b hb))
            (fun b hb => h.queue_name name b (hrest b hb)) hnodup.2
            (fun b hb => hwaiting b (List.mem_of_mem_tail hb))
            (fun b hb => h.not_preparing (hrest b hb)) (fun b hb he hc hname => ?_)
          -- The first is done with, and no other executes.
          have hhead := h.running b name hb he hc hname
          rw [hqueue, hfirst] at hhead
          obtain rfl : a = b := Option.some.inj hhead
          exact absurd hdone (by tauto)
        cases rest with
        | nil => exact hset
        | cons nextRequest later =>
          obtain ⟨hnew, hcreated⟩ := hwaiting nextRequest List.mem_cons_self
          have hname := h.queue_name name _ (hrest _ List.mem_cons_self)
          have hqueue' : (s.setQueue name (nextRequest :: later)).requestQueues name =
            nextRequest :: later := update_self ..
          have htail (name' : String) :
              nextRequest ∉ ((s.setQueue name (nextRequest :: later)).requestQueues name').tail :=
              fun hmem => by
            have hname' := hset.queue_name name' _ (List.mem_of_mem_tail hmem)
            obtain rfl : name = name' := Option.some.inj (hname.symm.trans hname')
            rw [hqueue'] at hmem
            exact (List.nodup_cons.mp hnodup.2).1 hmem
          have hstored := hset.setStoredOptions none htail
          dsimp only
          split_ifs with hcancelled
          · exact hstored
          · refine hstored.execute hcreated hnew
              (h.not_preparing (hrest _ List.mem_cons_self)) htail (fun name' hname' => ?_)
            obtain rfl : name = name' := Option.some.inj (hname.symm.trans hname')
            exact congrArg List.head? hqueue'
      · rw [List.filter_cons_of_pos (by simpa using hfirst)]
        exact h.setRest hqueue (fun b hb => List.mem_of_mem_filter hb) (hnodup.2.filter _)

/-- Other watchers of an active request. -/
theorem Inv.setWatchers (h : Inv s) {info : RequestInfo}
    (hlookup : s.activeRequests.lookup path = some info) (watchers : List ASHandle)
    {joined removed : List (ASHandle × String)} :
    Inv { s with
      activeRequests := s.activeRequests.insert path { info with watchers := watchers }
      joined := joined
      removed := removed } := by
  refine h.setRequests (fun q i hi => ?_) h.timerPath (fun q i hi => ?_) (fun a ha => ?_)
  · rw [lookup_insert] at hi
    split_ifs at hi with hq
    · obtain rfl := Option.some.inj hi
      exact hq ▸ h.activePath path info hlookup
    · exact h.activePath q i hi
  · have hnone := h.apart q i hi
    have hq : q ≠ path := fun hq => by rw [hq, hlookup] at hnone; cases hnone
    rw [lookup_insert, if_neg hq, hnone]
  · rcases ha with ⟨i, hi, rfl⟩ | ha
    · rw [lookup_insert] at hi
      split_ifs at hi with hq
      · obtain rfl := Option.some.inj hi
        exact Or.inl ⟨info, hq ▸ hlookup, rfl⟩
      · exact Or.inl ⟨i, hi, rfl⟩
    · exact Or.inr ha

theorem Inv.resume (h : Inv s) (path : String) : Inv (s.resume path) := by
  unfold ActionStage.resume
  split
  · exact h
  · rename_i info hlookup
    refine h.setRequests (fun q i hi => ?_) (fun q i hi => ?_) (fun q i hi => ?_) (fun a ha => ?_)
    · rw [lookup_insert] at hi
      split_ifs at hi with hq
      · obtain rfl := Option.some.inj hi
        exact hq ▸ h.timerPath path info hlookup
      · exact h.activePath q i hi
    · rw [lookup_erase] at hi
      split_ifs at hi
      exact h.timerPath q i hi
    · rw [lookup_erase] at hi
      split_ifs at hi with hq
      rw [lookup_insert, if_neg hq]
      exact h.apart q i hi
    · rcases ha with ⟨i, hi, rfl⟩ | ⟨i, hi, rfl⟩
      · rw [lookup_insert] at hi
        split_ifs at hi with hq
        · obtain rfl := Option.some.inj hi
          exact Or.inr ⟨info, hq ▸ hlookup, rfl⟩
        · exact Or.inl ⟨i, hi, rfl⟩
      · rw [lookup_erase] at hi
        split_ifs at hi
        exact Or.inr ⟨i, hi, rfl⟩

theorem resume_timer (s : ActionStage Options) (path : String) :
    (s.resume path).cancelRequestTimers.lookup path = none := by
  unfold ActionStage.resume
  split
  · assumption
  · exact (lookup_erase ..).trans (if_pos rfl)

theorem Inv.create (h : Inv s) (htimer : s.cancelRequestTimers.lookup path = none)
    (queueName : Option String) (options : Option Options) (c : Bool) (watcher : ASHandle) :
    Inv (s.create path queueName options c watcher) := by
  obtain ⟨new, hnew⟩ : ∃ new : ASActor, new = ⟨s.created.length, path, queueName⟩ := ⟨_, rfl⟩
  have hfresh : new ∉ s.created.map Prod.fst := fun hmem => by
    have hserial := h.serial new hmem
    rw [hnew] at hserial
    exact lt_irrefl _ hserial
  have hexecuted : new ∉ s.executedActors := fun hmem => by
    obtain ⟨e, he, heq⟩ := List.mem_map.mp hmem
    exact hfresh (heq ▸ List.mem_map_of_mem (h.executed_created e he))
  have hqueue (name : String) : new ∉ s.requestQueues name :=
    fun hmem => hfresh (h.queue_created name new hmem)
  have hprepare : new ∉ s.frames.filterMap Frame.preparing := fun hmem => by
    obtain ⟨f, hf, hfa⟩ := List.mem_filterMap.mp hmem
    cases f with
    | prepare b options' c' =>
      obtain rfl : b = new := by simpa [Frame.preparing] using hfa
      exact hfresh (List.mem_map_of_mem (h.frames _ hf).1)
    | _ => cases hfa
  have hcreated : (s.create path queueName options c watcher).created.map Prod.fst =
      s.created.map Prod.fst ++ [new] := by
    rw [hnew]
    exact List.map_append ..
  have hlive : ∀ a, (s.create path queueName options c watcher).Live a → a = new ∨ s.Live a := by
    rintro a (⟨i, hi, rfl⟩ | ha)
    · have hi := (lookup_insert ..).symm.trans hi
      split_ifs at hi
      · have hactor := congrArg RequestInfo.requestBuilder (Option.some.inj hi)
        exact Or.inl (hactor.symm.trans hnew.symm)
      · exact Or.inr (Or.inl ⟨i, hi, rfl⟩)
    · exact Or.inr (Or.inr ha)
  refine
    { activePath := fun q i hi => ?_
      timerPath := h.timerPath
      apart := fun q i hi => ?_
      serial := fun a ha => ?_
      created_nodup := ?_
      live_created := fun a ha => ?_
      queue_created := fun name a ha => ?_
      queue_name := h.queue_name
      queue_nodup := h.queue_nodup
      waiting := fun name a ha =>
        ⟨(h.waiting name a ha).1, List.mem_append_left _ (h.waiting name a ha).2⟩
      executed_created := fun e he => List.mem_append_left _ (h.executed_created e he)
      cancelled_created := fun a ha => hcreated ▸ List.mem_append_left _ (h.cancelled_created a ha)
      executed_nodup := h.executed_nodup
      frames := fun f hf => ?_
      preparing_nodup := ?_
      running := fun a name ha he hc hn => ?_ }
  · have hi := (lookup_insert ..).symm.trans hi
    split_ifs at hi with hq
    · rw [← Option.some.inj hi, hq]
    · exact h.activePath q i hi
  · have hq : q ≠ path := fun hq => by cases (hq ▸ htimer).symm.trans hi
    exact (lookup_insert ..).trans ((if_neg hq).trans (h.apart q i hi))
  · rw [hcreated, List.mem_append, List.mem_singleton] at ha
    rw [ActionStage.create, List.length_append, List.length_singleton]
    rcases ha with ha | rfl
    · exact (h.serial a ha).trans (Nat.lt_succ_self _)
    · rw [hnew]
      exact Nat.lt_succ_self _
  · rw [hcreated]
    exact List.concat_eq_append ▸ h.created_nodup.concat hfresh
  · rw [hcreated, List.mem_append, List.mem_singleton]
    rcases hlive a ha with rfl | ha
    · exact Or.inr rfl
    · exact Or.inl (h.live_created a ha)
  · rw [hcreated]
    exact List.mem_append_left _ (h.queue_created name a ha)
  · rcases List.mem_cons.mp hf with rfl | hf
    · exact ⟨List.mem_append_right _ (List.mem_singleton.mpr rfl), hnew ▸ hexecuted, hnew ▸ hqueue⟩
    · have hok := h.frames f hf
      cases f with
      | prepare b options' c' => exact ⟨List.mem_append_left _ hok.1, hok.2⟩
      | notify b status watchers =>
        refine ⟨hcreated ▸ List.mem_append_left _ hok.1, fun hl => ?_⟩
        rcases hlive b hl with rfl | hl
        · exact hfresh hok.1
        · exact hok.2 hl
      | _ => exact hok
  · rw [ActionStage.create, List.filterMap_cons_some (by rw [Frame.preparing, ← hnew])]
    exact List.nodup_cons.mpr ⟨hprepare, h.preparing_nodup⟩
  · rcases hlive a ha with rfl | ha
    · exact absurd he hexecuted
    · exact h.running a name ha he hc hn

theorem Inv.addWatcher (h : Inv s) {info : RequestInfo}
    (hlookup : s.activeRequests.lookup path = some info) (watcher : ASHandle) :
    Inv (s.addWatcher path info watcher) := by
  unfold ActionStage.addWatcher
  split_ifs
  · exact h
  · exact h.setWatchers hlookup _

theorem Inv.join (h : Inv s) {info : RequestInfo}
    (hlookup : s.activeRequests.lookup path = some info) (c : Bool) (watcher : ASHandle) :
    Inv (s.join path info c watcher) := by
  have hinv := h.addWatcher hlookup watcher
  unfold ActionStage.join
  dsimp only
  split
  · exact hinv
  · split_ifs
    · exact hinv
    · exact hinv.push trivial rfl

theorem Inv.eraseActive (h : Inv s) (path : String) :
    Inv { s with activeRequests := s.activeRequests.erase path } := by
  refine h.setRequests (fun q i hi => ?_) h.timerPath (fun q i hi => ?_) (fun a ha => ?_)
  · rw [lookup_erase] at hi
    split_ifs at hi
    exact h.activePath q i hi
  · rw [lookup_erase]
    split_ifs
    · rfl
    · exact h.apart q i hi
  · rcases ha with ⟨i, hi, rfl⟩ | ha
    · rw [lookup_erase] at hi
      split_ifs at hi
      exact Or.inl ⟨i, hi, rfl⟩
    · exact Or.inr ha

theorem Inv.eraseTimer (h : Inv s) (path : String) :
    Inv { s with cancelRequestTimers := s.cancelRequestTimers.erase path } := by
  have hback {q : String} {i : RequestInfo}
      (hi : (s.cancelRequestTimers.erase path).lookup q = some i) :
      s.cancelRequestTimers.lookup q = some i := by
    rw [lookup_erase] at hi
    split_ifs at hi
    exact hi
  refine h.setRequests h.activePath (fun q i hi => h.timerPath q i (hback hi))
    (fun q i hi => h.apart q i (hback hi)) (fun a ha => ?_)
  rcases ha with ha | ⟨i, hi, rfl⟩
  · exact Or.inl ha
  · exact Or.inr ⟨i, hback hi, rfl⟩

theorem Inv.scheduleCancelRequest (h : Inv s) (path : String) :
    Inv (s.scheduleCancelRequest path) := by
  unfold ActionStage.scheduleCancelRequest
  split
  · rename_i info hlookup htimer
    dsimp only
    split_ifs
    · refine h.setRequests (fun q i hi => ?_) (fun q i hi => ?_) (fun q i hi => ?_)
        (fun a ha => ?_)
      · rw [lookup_erase] at hi
        split_ifs at hi
        exact h.activePath q i hi
      · rw [lookup_insert] at hi
        split_ifs at hi with hq
        · obtain rfl := Option.some.inj hi
          exact hq ▸ h.activePath path info hlookup
        · exact h.timerPath q i hi
      · rw [lookup_insert] at hi
        rw [lookup_erase]
        split_ifs at hi ⊢
        · rfl
        · exact h.apart q i hi
      · rcases ha with ⟨i, hi, rfl⟩ | ⟨i, hi, rfl⟩
        · rw [lookup_erase] at hi
          split_ifs at hi
          exact Or.inl ⟨i, hi, rfl⟩
        · rw [lookup_insert] at hi
          split_ifs at hi with hq
          · obtain rfl := Option.some.inj hi
            exact Or.inl ⟨info, hq ▸ hlookup, rfl⟩
          · exact Or.inr ⟨i, hi, rfl⟩
    · have hactor := h.live_created info.requestBuilder
        (Or.inl ⟨info, by rw [h.activePath path info hlookup, hlookup], rfl⟩)
      exact ((h.eraseActive path).cancel hactor).push List.mem_cons_self rfl
  · exact h

theorem Inv.actionCompleted (h : Inv s) (action : String) (status : ℤ) :
    Inv (s.actionCompleted action status) := by
  unfold ActionStage.actionCompleted
  split
  · exact h
  · rename_i info hlookup
    refine (h.eraseActive action).push ⟨h.live_created _ (Or.inl ⟨info, ?_, rfl⟩), ?_⟩ rfl
    · rw [h.activePath action info hlookup, hlookup]
    · rintro (⟨i, hi, -⟩ | ⟨i, hi, -⟩)
      · rw [h.activePath action info hlookup, AList.lookup_erase] at hi
        cases hi
      · rw [h.activePath action info hlookup] at hi
        cases hlookup.symm.trans (h.apart action i hi)

theorem Inv.performCancelRequest (h : Inv s) (path : String) :
    Inv (s.performCancelRequest path) := by
  unfold ActionStage.performCancelRequest
  split
  · exact h
  · rename_i info hlookup
    have hactor := h.live_created info.requestBuilder
      (Or.inr ⟨info, by rw [h.timerPath path info hlookup, hlookup], rfl⟩)
    exact (h.cancel hactor).push List.mem_cons_self rfl

theorem Inv.detach (h : Inv s) (watcher : ASHandle) (path : String) :
    Inv (s.detach watcher path) := by
  unfold ActionStage.detach
  split
  · exact h
  · rename_i info hlookup
    dsimp only
    split_ifs
    · exact (h.setWatchers hlookup _).scheduleCancelRequest path
    · exact h.setWatchers hlookup _

theorem Inv.removeAllWatchersFromPath (h : Inv s) (path : String) :
    Inv (s.removeAllWatchersFromPath path) := by
  unfold ActionStage.removeAllWatchersFromPath
  split
  · exact h
  · rename_i info hlookup
    exact (h.setWatchers hlookup []).scheduleCancelRequest path

theorem Inv.proceedRemove (h : Inv s) : ∀ (watchers : List (ASHandle × String))
    (batch : List Removal), Inv (s.proceedRemove watchers batch)
  | _ :: rest, batch => (h.push (f := .remove rest batch) trivial rfl).detach ..
  | [], [] => h
  | [], .removeWatcher _ :: _ => h.push trivial rfl
  | [], .removeWatcherFromPath _ _ :: _ => h.push trivial rfl

section Registered

variable {registered : String → Option (String → Option Options → Option String)}

theorem Inv.requestGeneric (h : Inv s) (joinOnly : Bool) (path : String) (options : Option Options)
    (c : Bool) (watcher : ASHandle) (hasDelegate : Bool) :
    Inv (s.requestGeneric registered joinOnly path options c watcher hasDelegate) := by
  unfold ActionStage.requestGeneric
  have hresume := h.resume path
  split
  · exact h
  · dsimp only
    split
    · rename_i info hlookup
      exact hresume.join hlookup c watcher
    · split
      · exact hresume
      · split
        · exact hresume
        · exact hresume.create (resume_timer s path) _ options c watcher

/-- The frame on top is taken off. -/
theorem Inv.pop (h : Inv s) {f : Frame Options} {fs : List (Frame Options)}
    (hframes : s.frames = f :: fs) : Inv { s with frames := fs } :=
  { h with
    frames := fun g hg => h.frames g (hframes ▸ List.mem_cons_of_mem f hg)
    preparing_nodup :=
      ((List.sublist_cons_self f fs).filterMap _).nodup (hframes ▸ h.preparing_nodup) }

theorem Inv.proceed (h : Inv s) {f : Frame Options} {fs : List (Frame Options)}
    (hframes : s.frames = f :: fs) : Inv ({ s with frames := fs }.proceed registered f) := by
  have hpop := h.pop hframes
  have hok := h.frames f (hframes ▸ List.mem_cons_self)
  cases f with
  | prepare a options c =>
    refine hpop.enqueue hok.1 hok.2.1 hok.2.2 ?_ c
    have hnodup := h.preparing_nodup
    rw [hframes] at hnodup
    exact (List.nodup_cons.mp hnodup).1
  | watcherJoined path c =>
    cases c with
    | true => exact hpop.changeActorPriority path
    | false => exact hpop
  | notify a status watchers =>
    cases watchers with
    | nil => exact hpop.removeRequestFromQueue (Or.inr hok.2)
    | cons watcher watchers => exact { hpop.push (f := .notify a status watchers) hok rfl with }
  | cancel a => exact hpop.removeRequestFromQueue (Or.inl hok)
  | performCancel path a =>
    exact (hpop.push (f := .removeTimer path) trivial rfl).removeRequestFromQueue (Or.inl hok)
  | removeTimer path => exact hpop.eraseTimer path
  | remove watchers batch => exact hpop.proceedRemove watchers batch
  | rejoin paths watcher hasDelegate =>
    cases paths with
    | nil => exact hpop
    | cons path paths =>
      exact (hpop.push (f := .rejoin paths watcher hasDelegate) trivial rfl).requestGeneric ..

theorem Inv.step (h : Inv s) (e : Event Options) : Inv (s.step registered e) := by
  cases e with
  | requestActor path options c watcher hasDelegate => exact h.requestGeneric ..
  | rejoinActions genericPath pathPrefix watcher hasDelegate => exact h.push trivial rfl
  | changeActorPriority path => exact h.changeActorPriority path
  | actionCompleted action status => exact h.actionCompleted action status
  | removeWatchers batch => exact h.push trivial rfl
  | removeAllWatchersFromPath path => exact h.removeAllWatchersFromPath path
  | performCancelRequest path => exact h.performCancelRequest path
  | setCancelTimeout actor positive => exact { h with }
  | returned =>
    unfold ActionStage.step
    dsimp only
    split
    · exact h
    · rename_i hframes
      exact h.proceed hframes

theorem run_inv (es : List (Event Options)) :
    Inv (Run.run (ActionStage.step registered) initial es) :=
  Run.invariant (fun _ e h _ => h.step e) es initial_inv
    (Run.allSteps_of_forall _ es initial fun _ _ => trivial)

/-- Every instance is executed once at most, and with the options of the request it was made for;
of the actors of one queue that have been executed, whose requests have not been completed and that
have not been cancelled, there is one at most. -/
theorem queue_exclusive (registered : String → Option (String → Option Options → Option String))
    (es : List (Event Options)) :
    let s := Run.run (step registered) initial es
    s.executedActors.Nodup ∧ s.executed ⊆ s.created ∧ (s.created.map Prod.fst).Nodup ∧
      ∀ a b name, a.requestQueueName = some name → b.requestQueueName = some name →
        s.Live a → s.Live b → a ∈ s.executedActors → b ∈ s.executedActors →
        a ∉ s.cancelled → b ∉ s.cancelled → a = b := by
  intro s
  have h : Inv s := run_inv es
  refine ⟨h.executed_nodup, fun e => h.executed_created e, h.created_nodup,
    fun a b name ha hb hla hlb hea heb hca hcb => ?_⟩
  have hfirst := h.running a name hla hea hca ha
  exact Option.some.inj (hfirst.symm.trans (h.running b name hlb heb hcb hb))

end Registered

end ActionStage

end Onegram
