import Onegram.Proofs.ActionStage

/-!
# What the stage owes

A watcher that joins a request is owed one answer: it is notified of the completion, or it has been
removed, or it still watches. And an actor whose request is active is owed its turn: it has been
executed, or it waits behind one that has, as long as no call from within `prepare:` takes its
request away and none asks for a path again while the stage cancels its actor.
-/

namespace Onegram

namespace ActionStage

open Function

variable {Options : Type} {s : ActionStage Options} {a : ASActor} {name path : String}

/-! ## Watchers -/

section Watchers

/-- The watchers of an active request. -/
def watchersAt (s : ActionStage Options) (path : String) : List ASHandle :=
  ((s.activeRequests.lookup path).map RequestInfo.watchers).getD []

/-- How often a frame has yet to notify the watcher. -/
def Frame.owed (watcher : ASHandle) (path : String) : Frame Options → ℕ
  | .notify a _ watchers => if a.path = path then watchers.count watcher else 0
  | _ => 0

def owed (s : ActionStage Options) (watcher : ASHandle) (path : String) : ℕ :=
  (s.watchersAt path).count watcher + (s.frames.map (Frame.owed watcher path)).sum

def answered (s : ActionStage Options) : List (ASHandle × String) :=
  s.notified.map fun n => (n.1, n.2.1)

/-- The books on joined watchers. -/
structure Balanced (s : ActionStage Options) : Prop where
  timers : ∀ path info, s.cancelRequestTimers.lookup path = some info → info.watchers = []
  nodup : ∀ path, (s.watchersAt path).Nodup
  balance : ∀ watcher path, s.joined.count (watcher, path) =
    s.answered.count (watcher, path) + s.removed.count (watcher, path) + s.owed watcher path

theorem watchersAt_eq {info : RequestInfo} (hlookup : s.activeRequests.lookup path = some info) :
    s.watchersAt path = info.watchers := by
  rw [watchersAt, hlookup]
  rfl

theorem watchersAt_insert (s : ActionStage Options) (p q : String) (info : RequestInfo) :
    (((s.activeRequests.insert p info).lookup q).map RequestInfo.watchers).getD [] =
      if q = p then info.watchers else s.watchersAt q := by
  rw [lookup_insert]
  split_ifs <;> rfl

theorem watchersAt_erase (s : ActionStage Options) (p q : String) :
    (((s.activeRequests.erase p).lookup q).map RequestInfo.watchers).getD [] =
      if q = p then [] else s.watchersAt q := by
  rw [lookup_erase]
  split_ifs <;> rfl

theorem initial_balanced : Balanced (initial : ActionStage Options) where
  timers _ _ h := by cases h
  nodup _ := .nil
  balance _ _ := rfl

theorem Balanced.push (h : Balanced s) {f : Frame Options} (hf : ∀ w p, f.owed w p = 0) :
    Balanced (s.push f) :=
  { h with
    balance := fun w p => by
      have hb := h.balance w p
      simp only [owed] at hb ⊢
      rw [ActionStage.push, List.map_cons, List.sum_cons, hf, zero_add]
      exact hb }

/-- Nothing but the queues and what the actors have done is different. -/
theorem Balanced.of_eq (h : Balanced s) {t : ActionStage Options}
    (hactive : t.activeRequests = s.activeRequests)
    (htimers : t.cancelRequestTimers = s.cancelRequestTimers) (hframes : t.frames = s.frames)
    (hjoined : t.joined = s.joined) (hnotified : t.notified = s.notified)
    (hremoved : t.removed = s.removed) : Balanced t where
  timers := htimers ▸ h.timers
  nodup path := by
    rw [watchersAt, hactive]
    exact h.nodup path
  balance w p := by
    rw [owed, watchersAt, answered, hactive, hframes, hjoined, hnotified, hremoved]
    exact h.balance w p

theorem Balanced.enqueue (h : Balanced s) (options : Option Options) (c : Bool) :
    Balanced (s.enqueue a options c) := by
  unfold ActionStage.enqueue
  split
  · exact h.of_eq rfl rfl rfl rfl rfl rfl
  · dsimp only
    split_ifs <;> exact h.of_eq rfl rfl rfl rfl rfl rfl

theorem Balanced.changeActorPriority (h : Balanced s) (path : String) :
    Balanced (s.changeActorPriority path) := by
  unfold ActionStage.changeActorPriority
  split
  · exact h
  · split
    · exact h
    · exact h.of_eq rfl rfl rfl rfl rfl rfl

theorem Balanced.removeRequestFromQueue (h : Balanced s) (a : ASActor) :
    Balanced (s.removeRequestFromQueueAndProceedIfFirst a) := by
  unfold removeRequestFromQueueAndProceedIfFirst
  split
  · exact h
  · split
    · exact h
    · dsimp only
      split_ifs
      · split
        · exact h.of_eq rfl rfl rfl rfl rfl rfl
        · split_ifs <;> exact h.of_eq rfl rfl rfl rfl rfl rfl
      · exact h.of_eq rfl rfl rfl rfl rfl rfl

theorem Balanced.resume (h : Balanced s) (hinv : Inv s) (path : String) :
    Balanced (s.resume path) := by
  unfold ActionStage.resume
  split
  · exact h
  · rename_i info hlookup
    have hempty := h.timers path info hlookup
    have hat (q : String) : (if q = path then info.watchers else s.watchersAt q) =
        s.watchersAt q := by
      split_ifs with hq
      · rw [hempty, hq, watchersAt, hinv.apart path info hlookup]
        rfl
      · rfl
    refine ⟨fun q i hi => ?_, fun q => ?_, fun w q => ?_⟩
    · rw [lookup_erase] at hi
      split_ifs at hi
      exact h.timers q i hi
    · rw [watchersAt, watchersAt_insert, hat]
      exact h.nodup q
    · rw [owed, watchersAt, watchersAt_insert, hat]
      exact h.balance w q

theorem Balanced.create (h : Balanced s) (hactive : s.activeRequests.lookup path = none)
    (queueName : Option String) (options : Option Options) (c : Bool) (watcher : ASHandle) :
    Balanced (s.create path queueName options c watcher) := by
  refine ⟨h.timers, fun q => ?_, fun w q => ?_⟩
  · rw [watchersAt, ActionStage.create, watchersAt_insert]
    split_ifs
    · exact List.nodup_singleton watcher
    · exact h.nodup q
  · have hb := h.balance w q
    simp only [owed] at hb
    rw [owed, watchersAt, ActionStage.create, watchersAt_insert, List.map_cons, List.sum_cons,
      List.count_append, hb]
    simp only [Frame.owed, answered]
    split_ifs with hq
    · rw [hq, watchersAt, hactive, List.count_singleton, List.count_singleton]
      simp
      omega
    · rw [List.count_singleton]
      simp [Ne.symm hq]

theorem Balanced.addWatcher (h : Balanced s) {info : RequestInfo}
    (hlookup : s.activeRequests.lookup path = some info) (watcher : ASHandle) :
    Balanced (s.addWatcher path info watcher) := by
  unfold ActionStage.addWatcher
  split_ifs with hmem
  · exact h
  · have hnodup := h.nodup path
    rw [watchersAt_eq hlookup] at hnodup
    refine ⟨h.timers, fun q => ?_, fun w q => ?_⟩
    · rw [watchersAt, watchersAt_insert]
      split_ifs
      · exact List.concat_eq_append ▸ hnodup.concat hmem
      · exact h.nodup q
    · have hb := h.balance w q
      simp only [owed] at hb
      rw [owed, watchersAt, watchersAt_insert, List.count_append, hb]
      simp only [answered]
      split_ifs with hq
      · rw [hq, watchersAt_eq hlookup, List.count_append, List.count_singleton,
          List.count_singleton]
        simp
        omega
      · rw [List.count_singleton]
        simp [Ne.symm hq]

theorem Balanced.join (h : Balanced s) {info : RequestInfo}
    (hlookup : s.activeRequests.lookup path = some info) (c : Bool) (watcher : ASHandle) :
    Balanced (s.join path info c watcher) := by
  have hadd := h.addWatcher hlookup watcher
  unfold ActionStage.join
  dsimp only
  split
  · exact hadd
  · split_ifs
    · exact hadd
    · exact hadd.push fun _ _ => rfl

theorem Balanced.actionCompleted (h : Balanced s) (hinv : Inv s) (action : String) (status : ℤ) :
    Balanced (s.actionCompleted action status) := by
  unfold ActionStage.actionCompleted
  split
  · exact h
  · rename_i info hlookup
    refine ⟨h.timers, fun q => ?_, fun w q => ?_⟩
    · rw [watchersAt, watchersAt_erase]
      split_ifs
      · exact .nil
      · exact h.nodup q
    · have hb := h.balance w q
      simp only [owed] at hb
      rw [owed, watchersAt, watchersAt_erase, List.map_cons, List.sum_cons, hb]
      simp only [Frame.owed, answered, hinv.activePath action info hlookup]
      split_ifs with hq hq' hq'
      · rw [hq, watchersAt_eq hlookup, List.count_nil]
        omega
      · exact absurd hq.symm hq'
      · exact absurd hq'.symm hq
      · omega

/-- A request is taken from the active ones when nobody watches it. -/
theorem Balanced.scheduleCancelRequest (h : Balanced s) (hempty : s.watchersAt path = []) :
    Balanced (s.scheduleCancelRequest path) := by
  unfold ActionStage.scheduleCancelRequest
  split
  · rename_i info hlookup htimer
    rw [watchersAt_eq hlookup] at hempty
    have hat (q : String) : (if q = path then [] else s.watchersAt q) = s.watchersAt q := by
      split_ifs with hq
      · rw [hq, watchersAt_eq hlookup, hempty]
      · rfl
    have herase : Balanced { s with activeRequests := s.activeRequests.erase path } := by
      refine ⟨h.timers, fun q => ?_, fun w q => ?_⟩
      · rw [watchersAt, watchersAt_erase, hat]
        exact h.nodup q
      · rw [owed, watchersAt, watchersAt_erase, hat]
        exact h.balance w q
    dsimp only
    split_ifs
    · refine { herase with timers := fun q i hi => ?_ }
      rw [lookup_insert] at hi
      split_ifs at hi
      · exact Option.some.inj hi ▸ hempty
      · exact h.timers q i hi
    · exact { herase.push (f := .cancel _) fun _ _ => rfl with }
  · exact h

/-- Watchers leave an active request. -/
theorem Balanced.leave (h : Balanced s) {info : RequestInfo}
    (hlookup : s.activeRequests.lookup path = some info) {stay gone : List ASHandle}
    (hperm : info.watchers.Perm (gone ++ stay)) :
    Balanced { s with
      activeRequests := s.activeRequests.insert path { info with watchers := stay }
      removed := s.removed ++ gone.map (·, path) } := by
  have hnodup := h.nodup path
  rw [watchersAt_eq hlookup] at hnodup
  refine ⟨h.timers, fun q => ?_, fun w q => ?_⟩
  · rw [watchersAt, watchersAt_insert]
    split_ifs
    · exact (hperm.nodup_iff.mp hnodup).of_append_right
    · exact h.nodup q
  · have hb := h.balance w q
    simp only [owed] at hb
    rw [owed, watchersAt, watchersAt_insert, List.count_append, hb]
    simp only [answered]
    split_ifs with hq
    · have hcount : (gone.map (·, path)).count (w, path) = gone.count w :=
        List.count_map_of_injective gone (·, path) (fun _ _ heq => congrArg Prod.fst heq) w
      rw [hq, watchersAt_eq hlookup, hperm.count_eq, List.count_append, hcount]
      omega
    · have hcount : (gone.map (·, path)).count (w, q) = 0 :=
        List.count_eq_zero.mpr fun hmem => by
          obtain ⟨_, -, heq⟩ := List.mem_map.mp hmem
          exact hq (congrArg Prod.snd heq).symm
      rw [hcount]
      omega

theorem Balanced.detach (h : Balanced s) (watcher : ASHandle) (path : String) :
    Balanced (s.detach watcher path) := by
  unfold ActionStage.detach
  split
  · exact h
  · rename_i info hlookup
    have hleave := h.leave hlookup (List.filter_append_perm (· = watcher) info.watchers).symm
    simp only [← decide_not] at hleave
    dsimp only
    split_ifs with hempty
    · refine hleave.scheduleCancelRequest ?_
      rw [watchersAt, AList.lookup_insert]
      exact hempty
    · exact hleave

theorem Balanced.removeAllWatchersFromPath (h : Balanced s) (path : String) :
    Balanced (s.removeAllWatchersFromPath path) := by
  unfold ActionStage.removeAllWatchersFromPath
  split
  · exact h
  · rename_i info hlookup
    refine Balanced.scheduleCancelRequest (h.leave hlookup (by rw [List.append_nil])) ?_
    rw [watchersAt, AList.lookup_insert]
    rfl

theorem Balanced.proceedRemove (h : Balanced s) : ∀ (watchers : List (ASHandle × String))
    (batch : List Removal), Balanced (s.proceedRemove watchers batch)
  | _ :: rest, batch => (h.push (f := .remove rest batch) fun _ _ => rfl).detach ..
  | [], [] => h
  | [], .removeWatcher _ :: _ => h.push fun _ _ => rfl
  | [], .removeWatcherFromPath _ _ :: _ => h.push fun _ _ => rfl

variable {registered : String → Option (String → Option Options → Option String)}

theorem Balanced.requestGeneric (h : Balanced s) (hinv : Inv s) (joinOnly : Bool) (path : String)
    (options : Option Options) (c : Bool) (watcher : ASHandle) (hasDelegate : Bool) :
    Balanced (s.requestGeneric registered joinOnly path options c watcher hasDelegate) := by
  unfold ActionStage.requestGeneric
  have hresume := h.resume hinv path
  split
  · exact h
  · dsimp only
    split
    · rename_i info hlookup
      exact hresume.join hlookup c watcher
    · rename_i hlookup
      split
      · exact hresume
      · split
        · exact hresume
        · exact hresume.create hlookup _ options c watcher

theorem Balanced.proceed (h : Balanced s) (hinv : Inv s) {f : Frame Options}
    {fs : List (Frame Options)} (hframes : s.frames = f :: fs) :
    Balanced ({ s with frames := fs }.proceed registered f) := by
  -- All frames but those that notify owe nothing.
  have hpop (hf : ∀ w p, f.owed w p = 0) : Balanced { s with frames := fs } :=
    { h with
      balance := fun w p => by
        have hb := h.balance w p
        simp only [owed, hframes, List.map_cons, List.sum_cons, hf, zero_add] at hb
        exact hb }
  cases f with
  | prepare a options c => exact (hpop fun _ _ => rfl).enqueue options c
  | watcherJoined path c =>
    cases c with
    | true => exact (hpop fun _ _ => rfl).changeActorPriority path
    | false => exact hpop fun _ _ => rfl
  | notify a status watchers =>
    cases watchers with
    | nil => exact (hpop fun _ _ => ite_self 0).removeRequestFromQueue a
    | cons watcher watchers =>
      refine { h with balance := fun w p => ?_ }
      have hb := h.balance w p
      simp only [owed, hframes, List.map_cons, List.sum_cons, Frame.owed, List.count_cons] at hb
      simp only [ActionStage.proceed, owed, answered, List.map_append, List.map_cons, List.map_nil,
        List.count_append, List.sum_cons, Frame.owed, List.count_singleton]
      rw [hb]
      simp only [answered, watchersAt]
      by_cases hp : a.path = p
      · by_cases hw : watcher = w
        · simp [hp, hw]
          omega
        · simp [hp, hw]
      · simp [hp]
  | cancel a => exact (hpop fun _ _ => rfl).removeRequestFromQueue a
  | performCancel path a =>
    have hpush := (hpop fun _ _ => rfl).push (f := .removeTimer path) fun _ _ => rfl
    exact hpush.removeRequestFromQueue a
  | removeTimer path =>
    refine { hpop fun _ _ => rfl with timers := fun q i hi => ?_ }
    have hi := (lookup_erase ..).symm.trans hi
    split_ifs at hi
    exact h.timers q i hi
  | remove watchers batch => exact (hpop fun _ _ => rfl).proceedRemove watchers batch
  | rejoin paths watcher hasDelegate =>
    cases paths with
    | nil => exact hpop fun _ _ => rfl
    | cons path paths =>
      exact ((hpop fun _ _ => rfl).push (f := .rejoin paths watcher hasDelegate)
        fun _ _ => rfl).requestGeneric ((hinv.pop hframes).push trivial rfl) ..

theorem Balanced.step (h : Balanced s) (hinv : Inv s) (e : Event Options) :
    Balanced (s.step registered e) := by
  cases e with
  | requestActor path options c watcher hasDelegate => exact h.requestGeneric hinv ..
  | rejoinActions genericPath pathPrefix watcher hasDelegate => exact h.push fun _ _ => rfl
  | changeActorPriority path => exact h.changeActorPriority path
  | actionCompleted action status => exact h.actionCompleted hinv action status
  | removeWatchers batch => exact h.push fun _ _ => rfl
  | removeAllWatchersFromPath path => exact h.removeAllWatchersFromPath path
  | performCancelRequest path =>
    unfold ActionStage.step ActionStage.performCancelRequest
    dsimp only
    split
    · exact h
    · exact { h.push (f := .performCancel path _) fun _ _ => rfl with }
  | setCancelTimeout actor positive => exact { h with }
  | returned =>
    unfold ActionStage.step
    dsimp only
    split
    · exact h
    · rename_i hframes
      exact h.proceed hinv hframes

/-- Every time a watcher joins a request, it is notified once of its completion or removed, unless
it is still to be notified or still watches; it watches one request once at most. -/
theorem watchers_answered (registered : String → Option (String → Option Options → Option String))
    (es : List (Event Options)) (watcher : ASHandle) (path : String) :
    let s := Run.run (step registered) initial es
    s.joined.count (watcher, path) = s.answered.count (watcher, path) +
        s.removed.count (watcher, path) + s.owed watcher path ∧
      (s.frames = [] → s.owed watcher path = if watcher ∈ s.watchersAt path then 1 else 0) := by
  intro s
  have hstep : ∀ (t : ActionStage Options) (e : Event Options), (Inv t ∧ Balanced t) → True →
      Inv (t.step registered e) ∧ Balanced (t.step registered e) :=
    fun _ e h _ => ⟨h.1.step e, h.2.step h.1 e⟩
  have hboth : Inv s ∧ Balanced s := Run.invariant hstep es ⟨initial_inv, initial_balanced⟩
    (Run.allSteps_of_forall _ es initial fun _ _ => trivial)
  refine ⟨hboth.2.balance watcher path, fun hidle => ?_⟩
  rw [owed, hidle, List.map_nil, List.sum_nil, add_zero]
  split_ifs with hmem
  · exact List.count_eq_one_of_mem (hboth.2.nodup path) hmem
  · exact List.count_eq_zero.mpr hmem

end Watchers

/-! ## Turns -/

/-- What a frame has to do with actors. -/
inductive Duty
  | prepare (actor : ASActor)
  | notify (actor : ASActor)
  | cancel (actor : ASActor)
  | performCancel (path : String) (actor : ASActor)
  | removeTimer (path : String)

/-- The actor that a duty ends with taking out of its queue. -/
def Duty.leaving : Duty → Option ASActor
  | .notify a => some a
  | .cancel a => some a
  | .performCancel _ a => some a
  | .prepare _ => none
  | .removeTimer _ => none

/-- The actors of a stage: whose requests are active or wait for their timers, who is in the queues,
who has been executed or cancelled, and what the frames have still to do with whom. -/
structure Roster where
  active : String → Option ASActor
  timers : String → Option ASActor
  queues : String → List ASActor
  executed : List ASActor
  cancelled : List ASActor
  duties : List Duty

/-- What a call from within `prepare:` or a `cancel` may not have done: an actor that is being
prepared still has its request, and a path whose actor the timer cancels is not asked for again. -/
def Duty.Undisturbed (r : Roster) : Duty → Prop
  | .prepare a => r.active a.path = some a
  | .performCancel path _ => r.active path = none
  | .removeTimer path => r.active path = none
  | .notify _ => True
  | .cancel _ => True

instance Duty.instDecidableUndisturbed (r : Roster) : ∀ d : Duty, Decidable (d.Undisturbed r)
  | .prepare _ => inferInstanceAs (Decidable (_ = _))
  | .performCancel _ _ => inferInstanceAs (Decidable (_ = _))
  | .removeTimer _ => inferInstanceAs (Decidable (_ = _))
  | .notify _ => .isTrue trivial
  | .cancel _ => .isTrue trivial

namespace Roster

variable {r : Roster} {Q : String → List ASActor} {E : List ASActor} {ds : List Duty}

def Undisturbed (r : Roster) : Prop := ∀ d ∈ r.duties, d.Undisturbed r

instance instDecidableUndisturbed (r : Roster) : Decidable (Undisturbed r) :=
  inferInstanceAs (Decidable (∀ d ∈ r.duties, d.Undisturbed r))

/-- The actor has been executed, or is in its queue. -/
def Placed (r : Roster) (a : ASActor) : Prop :=
  match a.requestQueueName with
  | none => a ∈ r.executed
  | some name => a ∈ r.queues name

def leavers (r : Roster) : List ASActor := r.duties.filterMap Duty.leaving

/-- One actor for a path, in one place, which a completed or cancelled one has left. -/
structure Sound (r : Roster) : Prop where
  activePath : ∀ path a, r.active path = some a → a.path = path
  timerPath : ∀ path a, r.timers path = some a → a.path = path ∧ r.active path = none
  notify : ∀ a, .notify a ∈ r.duties → r.active a.path ≠ some a ∧ r.timers a.path ≠ some a
  cancel : ∀ a, .cancel a ∈ r.duties → a ∈ r.cancelled
  performCancel : ∀ path a, .performCancel path a ∈ r.duties → a ∈ r.cancelled

/-- Where the actors of requests are, and what those in the queues wait for. -/
structure Served (r : Roster) : Prop where
  active : ∀ path a, r.active path = some a → .prepare a ∉ r.duties → r.Placed a
  timer : ∀ path a, r.timers path = some a → .removeTimer path ∉ r.duties → r.Placed a
  owned : ∀ name, ∀ a ∈ r.queues name,
    r.active a.path = some a ∨ r.timers a.path = some a ∨ a ∈ r.leavers
  first : ∀ name a, (r.queues name).head? = some a → a ∈ r.executed ∨ a ∈ r.cancelled
  cancelled_active : ∀ a ∈ r.cancelled, r.active a.path ≠ some a
  cancelled_timer : ∀ a ∈ r.cancelled, r.timers a.path = some a →
    .removeTimer a.path ∈ r.duties ∨ .performCancel a.path a ∈ r.duties
  cancel : ∀ a, .cancel a ∈ r.duties → r.timers a.path ≠ some a
  removeTimer : ∀ path a, .removeTimer path ∈ r.duties → r.timers path = some a →
    ∀ name, a ∉ r.queues name
  performCancel : ∀ path a, .performCancel path a ∈ r.duties →
    a.path = path ∧ ∀ b, r.timers path = some b → b = a

/-- Whoever comes to be the first of a queue is executed there, unless cancelled. -/
structure Proceeds (r : Roster) (Q : String → List ASActor) (E : List ASActor) : Prop where
  executed : r.executed ⊆ E
  first : ∀ name b, (Q name).head? = some b →
    (r.queues name).head? = some b ∨ b ∈ E ∨ b ∈ r.cancelled

/-! What becomes of the actors, one change at a time: what a change says of one path, one actor and
one duty is told from the rest by their equality. -/

theorem Served.create (h : Served r) (ha : r.active path = none) (hnew : a ∉ r.cancelled) :
    Served { r with
      active := update r.active path (some a)
      duties := .prepare a :: r.duties } := by
  constructor <;> grind [Placed, leavers, Duty.leaving, update_apply, Served]

theorem Served.resume (h : Served r) (hs : Sound r) (ha : r.timers path = some a)
    (hremove : .removeTimer path ∉ r.duties) (hperform : ∀ b, .performCancel path b ∉ r.duties) :
    Served { r with
      active := update r.active path (some a)
      timers := update r.timers path none } := by
  constructor <;> grind [Placed, leavers, update_apply, Served, Sound]

theorem Served.complete (h : Served r) (ha : r.active path = some a) :
    Served { r with
      active := update r.active path none
      duties := .notify a :: r.duties } := by
  constructor <;> grind [Placed, leavers, Duty.leaving, update_apply, Served]

theorem Served.cancelNow (h : Served r) (hs : Sound r) (ha : r.active path = some a) :
    Served { r with
      active := update r.active path none
      cancelled := a :: r.cancelled
      duties := .cancel a :: r.duties } := by
  constructor <;> grind [Placed, leavers, Duty.leaving, update_apply, Served, Sound]

theorem Served.park (h : Served r) (hs : Sound r) (hu : Undisturbed r)
    (ha : r.active path = some a) (hprepare : .prepare a ∉ r.duties) :
    Served { r with
      active := update r.active path none
      timers := update r.timers path (some a) } := by
  constructor <;>
    grind [Placed, leavers, update_apply, Served, Sound, Undisturbed, Duty.Undisturbed]

theorem Served.performCancelRequest (h : Served r) (hs : Sound r) (ha : r.timers path = some a) :
    Served { r with
      cancelled := a :: r.cancelled
      duties := .performCancel path a :: r.duties } := by
  constructor <;> grind [Placed, leavers, Duty.leaving, Served, Sound]

theorem Served.cancelled (h : Served r) (hs : Sound r)
    (hd : r.duties = .performCancel path a :: ds) (hQ : Proceeds r Q E)
    (hmem : ∀ name b, b ∈ Q name ↔ b ∈ r.queues name ∧ b ≠ a) :
    Served { r with queues := Q, executed := E, duties := .removeTimer path :: ds } := by
  constructor <;> grind [Placed, leavers, Duty.leaving, Served, Sound, Proceeds]

theorem Served.eraseTimer (h : Served r) (hd : r.duties = .removeTimer path :: ds) :
    Served { r with timers := update r.timers path none, duties := ds } := by
  constructor <;> grind [Placed, leavers, Duty.leaving, update_apply, Served]

theorem Served.prioritize (h : Served r) (hmem : ∀ name b, b ∈ Q name ↔ b ∈ r.queues name)
    (hfirst : ∀ name, (Q name).head? = (r.queues name).head?) :
    Served { r with queues := Q } := by
  constructor <;> grind [Placed, leavers, Served]

theorem Served.enter (h : Served r) (hs : Sound r) (hu : Undisturbed r)
    (hd : r.duties = .prepare a :: ds) (hQ : Proceeds r Q E)
    (hmem : ∀ name b, b ∈ Q name ↔ b ∈ r.queues name ∨ b = a ∧ a.requestQueueName = some name)
    (hnone : a.requestQueueName = none → a ∈ E) :
    Served { r with queues := Q, executed := E, duties := ds } := by
  constructor <;>
    grind [Placed, leavers, Duty.leaving, Served, Sound, Undisturbed, Duty.Undisturbed, Proceeds]

theorem Served.leave (h : Served r) (hs : Sound r)
    (hd : r.duties = .notify a :: ds ∨ r.duties = .cancel a :: ds) (hQ : Proceeds r Q E)
    (hmem : ∀ name b, b ∈ Q name ↔ b ∈ r.queues name ∧ b ≠ a) :
    Served { r with queues := Q, executed := E, duties := ds } := by
  constructor <;> grind [Placed, leavers, Duty.leaving, Served, Sound, Proceeds]

/-- While there is nothing left to do, an actor of a queue waits behind one that executes. -/
theorem Served.idle (h : Served r) (hidle : r.duties = []) (ha : r.active path = some a) :
    match a.requestQueueName with
    | none => a ∈ r.executed
    | some name => ∃ first rest, r.queues name = first :: rest ∧ a ∈ first :: rest ∧
        first ∈ r.executed ∧ first ∉ r.cancelled ∧
        (r.active first.path = some first ∨ r.timers first.path = some first) := by
  have hnone (d : Duty) : d ∉ r.duties := hidle ▸ List.not_mem_nil
  have hplaced := h.active path a ha (hnone _)
  unfold Placed at hplaced
  split
  · rename_i hn
    rwa [hn] at hplaced
  · rename_i name hn
    rw [hn] at hplaced
    obtain ⟨first, rest, hqueue⟩ := List.exists_cons_of_ne_nil (List.ne_nil_of_mem hplaced)
    have hlive : r.active first.path = some first ∨ r.timers first.path = some first := by
      rcases h.owned name first (hqueue ▸ List.mem_cons_self) with hactive | htimer | hmem
      · exact Or.inl hactive
      · exact Or.inr htimer
      · rw [leavers, hidle] at hmem
        cases hmem
    have hcancelled : first ∉ r.cancelled := fun hmem => by
      rcases hlive with hactive | htimer
      · exact h.cancelled_active first hmem hactive
      · exact (h.cancelled_timer first hmem htimer).elim (hnone _) (hnone _)
    have hexecuted := (h.first name first (by rw [hqueue]; rfl)).resolve_right hcancelled
    exact ⟨first, rest, hqueue, hqueue ▸ hplaced, hexecuted, hcancelled, hlive⟩

end Roster

section Turns

open Roster

/-- The actor that a path has in a table. -/
def builderAt (table : RequestTable) (path : String) : Option ASActor :=
  (table.lookup path).map RequestInfo.requestBuilder

theorem builderAt_insert (t : RequestTable) (path : String) (info : RequestInfo) :
    builderAt (t.insert path info) = update (builderAt t) path (some info.requestBuilder) := by
  funext q
  rw [builderAt, lookup_insert, update_apply]
  split_ifs <;> rfl

theorem builderAt_erase (t : RequestTable) (path : String) :
    builderAt (t.erase path) = update (builderAt t) path none := by
  funext q
  rw [builderAt, lookup_erase, update_apply]
  split_ifs <;> rfl

theorem builderAt_eq {t : RequestTable} {info : RequestInfo} (hlookup : t.lookup path = some info) :
    builderAt t path = some info.requestBuilder :=
  congrArg (Option.map RequestInfo.requestBuilder) hlookup

theorem builderAt_setWatchers {t : RequestTable} {info : RequestInfo}
    (hlookup : t.lookup path = some info) (watchers : List ASHandle) :
    builderAt (t.insert path { info with watchers := watchers }) = builderAt t := by
  rw [builderAt_insert, ← builderAt_eq hlookup, update_eq_self]

def Frame.duty : Frame Options → Option Duty
  | .prepare a _ _ => some (.prepare a)
  | .notify a _ _ => some (.notify a)
  | .cancel a => some (.cancel a)
  | .performCancel path a => some (.performCancel path a)
  | .removeTimer path => some (.removeTimer path)
  | _ => none

def roster (s : ActionStage Options) : Roster where
  active := builderAt s.activeRequests
  timers := builderAt s.cancelRequestTimers
  queues := s.requestQueues
  executed := s.executedActors
  cancelled := s.cancelled
  duties := s.frames.filterMap Frame.duty

theorem Inv.sound (h : Inv s) : Sound s.roster where
  activePath path a ha := by
    obtain ⟨info, hlookup, rfl⟩ := Option.map_eq_some_iff.mp ha
    exact h.activePath path info hlookup
  timerPath path a ha := by
    obtain ⟨info, hlookup, rfl⟩ := Option.map_eq_some_iff.mp ha
    refine ⟨h.timerPath path info hlookup, ?_⟩
    exact congrArg (Option.map RequestInfo.requestBuilder) (h.apart path info hlookup)
  notify a ha := by
    obtain ⟨f, hf, hfa⟩ := List.mem_filterMap.mp ha
    cases f with
    | notify b status watchers =>
      obtain rfl := Duty.notify.inj (Option.some.inj hfa)
      have hlive := (h.frames _ hf).2
      exact ⟨fun hactive => hlive (Or.inl (Option.map_eq_some_iff.mp hactive)),
        fun htimer => hlive (Or.inr (Option.map_eq_some_iff.mp htimer))⟩
    | _ => cases hfa
  cancel a ha := by
    obtain ⟨f, hf, hfa⟩ := List.mem_filterMap.mp ha
    cases f with
    | cancel b => exact Duty.cancel.inj (Option.some.inj hfa) ▸ h.frames _ hf
    | _ => cases hfa
  performCancel path a ha := by
    obtain ⟨f, hf, hfa⟩ := List.mem_filterMap.mp ha
    cases f with
    | performCancel path' b =>
      exact (Duty.performCancel.inj (Option.some.inj hfa)).2 ▸ h.frames _ hf
    | _ => cases hfa

theorem changeActorPriority_roster (s : ActionStage Options) (path : String) :
    ∃ Q, (s.changeActorPriority path).roster = { s.roster with queues := Q } ∧
      (∀ name b, b ∈ Q name ↔ b ∈ s.requestQueues name) ∧
      ∀ name, (Q name).head? = (s.requestQueues name).head? := by
  have hsame : ∃ Q, s.roster = { s.roster with queues := Q } ∧
      (∀ name b, b ∈ Q name ↔ b ∈ s.requestQueues name) ∧
      ∀ name, (Q name).head? = (s.requestQueues name).head? :=
    ⟨s.requestQueues, rfl, fun _ _ => Iff.rfl, fun _ => rfl⟩
  unfold ActionStage.changeActorPriority
  split
  · exact hsame
  · split
    · exact hsame
    · rename_i info _ _ name _
      refine ⟨update s.requestQueues name _, rfl, fun name' => ?_, fun name' => ?_⟩
      all_goals
        rw [update_apply]
        split_ifs with heq
        · rw [heq]
          cases hqueue : s.requestQueues name with
          | nil => simp [prioritized_nil]
          | cons first rest =>
            obtain ⟨rest', hcons, hperm⟩ := prioritized_cons first rest info.requestBuilder
            simp [hcons, hperm.mem_iff]
        · simp

theorem executedActors_execute (s : ActionStage Options) (a : ASActor) (options : Option Options) :
    (s.execute a options).executedActors = s.executedActors ++ [a] :=
  List.map_append ..

/-- A new actor of a queue is executed, or waits behind the first. -/
theorem enqueue_roster (s : ActionStage Options) (a : ASActor) (options : Option Options)
    (c : Bool) : ∃ Q E,
    (s.enqueue a options c).roster = { s.roster with queues := Q, executed := E } ∧
      Proceeds s.roster Q E ∧ (a.requestQueueName = none → a ∈ E) ∧ ∀ name b,
        b ∈ Q name ↔ b ∈ s.requestQueues name ∨ b = a ∧ a.requestQueueName = some name := by
  have hself : a ∈ s.executedActors ++ [a] := List.mem_append_right _ List.mem_cons_self
  unfold ActionStage.enqueue
  split
  · rename_i hn
    exact ⟨s.requestQueues, s.executedActors ++ [a],
      by rw [← executedActors_execute s a options]; rfl,
      ⟨List.subset_append_left .., fun _ _ => Or.inl⟩, fun _ => hself, fun name b => by simp [hn]⟩
  · rename_i name hn
    cases hqueue : s.requestQueues name with
    | nil =>
      refine ⟨update s.requestQueues name [a], s.executedActors ++ [a],
        by rw [← executedActors_execute s a options]; rfl,
        ⟨List.subset_append_left .., fun name' b hb => ?_⟩, fun _ => hself, fun name' b => ?_⟩
      · rw [update_apply] at hb
        split_ifs at hb
        · exact Or.inr (Or.inl (Option.some.inj hb ▸ hself))
        · exact Or.inl hb
      · rw [update_apply, hn]
        split_ifs with hname
        · simp [hname, hqueue]
        · simp [Ne.symm hname]
    | cons first rest =>
      obtain ⟨rest', heq, hperm⟩ := enqueued_cons first rest a c
      simp only [List.cons_append, List.length_cons, List.length_append, List.length_nil] at heq ⊢
      rw [if_pos (by omega), heq]
      refine ⟨update s.requestQueues name (first :: rest'), s.executedActors, rfl,
        ⟨fun _ => id, fun name' b hb => Or.inl ?_⟩, fun hnone => (by rw [hn] at hnone; cases hnone),
        fun name' b => ?_⟩
      · rw [update_apply] at hb
        split_ifs at hb with hname
        · rw [hname]
          exact (congrArg List.head? hqueue).trans hb
        · exact hb
      · rw [update_apply, hn]
        split_ifs with hname
        · rw [hname, hqueue, List.mem_cons, List.mem_cons, hperm.mem_iff, List.mem_cons]
          tauto
        · simp [Ne.symm hname]

/-- The queue without the actor, where the next one is executed if the actor was the first. -/
theorem removeRequestFromQueue_roster (hinv : Inv s) (a : ASActor) :
    ∃ Q E, (s.removeRequestFromQueueAndProceedIfFirst a).roster =
        { s.roster with queues := Q, executed := E } ∧ Proceeds s.roster Q E ∧
      ∀ name b, b ∈ Q name ↔ b ∈ s.requestQueues name ∧ b ≠ a := by
  have hout (h : ∀ name, a ∉ s.requestQueues name) : ∃ Q E,
      s.roster = { s.roster with queues := Q, executed := E } ∧ Proceeds s.roster Q E ∧
        ∀ name b, b ∈ Q name ↔ b ∈ s.requestQueues name ∧ b ≠ a :=
    ⟨s.requestQueues, s.executedActors, rfl, ⟨fun _ => id, fun _ _ => Or.inl⟩,
      fun name b => ⟨fun hb => ⟨hb, fun heq => h name (heq ▸ hb)⟩, And.left⟩⟩
  unfold removeRequestFromQueueAndProceedIfFirst
  split
  · rename_i hn
    exact hout fun name ha => by cases (hinv.queue_name name a ha).symm.trans hn
  · rename_i name hn
    have hname {name' : String} (ha : a ∈ s.requestQueues name') : name' = name :=
      Option.some.inj ((hinv.queue_name name' a ha).symm.trans hn)
    split
    · rename_i hqueue
      exact hout fun name' ha => by
        rw [hname ha, hqueue] at ha
        cases ha
    · rename_i first rest hqueue
      have hfirst := (List.nodup_cons.mp (hqueue ▸ hinv.queue_nodup name)).1
      -- Wherever the queue becomes `q`, the others do not have the actor.
      have hmem {q : List ASActor} (hq : ∀ b, b ∈ q ↔ b ∈ first :: rest ∧ b ≠ a)
          (name' : String) (b : ASActor) : b ∈ update s.requestQueues name q name' ↔
            b ∈ s.requestQueues name' ∧ b ≠ a := by
        rw [update_apply]
        split_ifs with heq
        · rw [heq, hqueue, hq]
        · exact ⟨fun hb => ⟨hb, fun hba => heq (hname (hba ▸ hb))⟩, And.left⟩
      have hproceeds {q E : List ASActor} (hE : s.executedActors ⊆ E)
          (hhead : ∀ b, q.head? = some b → first = b ∨ b ∈ E ∨ b ∈ s.cancelled) :
          Proceeds s.roster (update s.requestQueues name q) E := by
        refine ⟨hE, fun name' b hb => ?_⟩
        rw [update_apply] at hb
        split_ifs at hb with heq
        · refine (hhead b hb).imp_left fun hfb => ?_
          rw [← hfb, heq]
          exact congrArg List.head? hqueue
        · exact Or.inl hb
      split_ifs with hfa
      · have hq : ∀ b, b ∈ rest ↔ b ∈ first :: rest ∧ b ≠ a := fun b => by
          rw [← hfa, List.mem_cons]
          exact ⟨fun hb => ⟨Or.inr hb, fun heq => hfirst (heq ▸ hb)⟩,
            fun hb => hb.1.resolve_left hb.2⟩
        cases rest with
        | nil => exact ⟨_, _, rfl, hproceeds (fun _ => id) (fun b hb => by cases hb), hmem hq⟩
        | cons nextRequest later =>
          dsimp only
          split_ifs with hcancelled
          · exact ⟨_, _, rfl, hproceeds (fun _ => id)
              (fun b hb => Or.inr (Or.inr (Option.some.inj hb ▸ hcancelled))), hmem hq⟩
          · refine ⟨_, s.executedActors ++ [nextRequest], ?_,
              hproceeds (List.subset_append_left ..) (fun b hb => Or.inr (Or.inl ?_)), hmem hq⟩
            · rw [← executedActors_execute _ _ (s.storedOptions nextRequest)]
              rfl
            · exact Option.some.inj hb ▸ List.mem_append_right _ List.mem_cons_self
      · rw [List.filter_cons_of_pos (by simpa using hfa)]
        refine ⟨_, _, rfl, hproceeds (fun _ => id) (fun b hb => Or.inl (Option.some.inj hb)),
          hmem fun b => ?_⟩
        rw [List.mem_cons, List.mem_cons, List.mem_filter, decide_eq_true_eq]
        constructor
        · rintro (rfl | hb)
          · exact ⟨Or.inl rfl, hfa⟩
          · exact ⟨Or.inr hb.1, hb.2⟩
        · rintro ⟨rfl | hb, hne⟩
          · exact Or.inl rfl
          · exact Or.inr ⟨hb, hne⟩

theorem setWatchers_roster {info : RequestInfo} (hlookup : s.activeRequests.lookup path = some info)
    (watchers : List ASHandle) {joined removed : List (ASHandle × String)} :
    ({ s with
      activeRequests := s.activeRequests.insert path { info with watchers := watchers }
      joined := joined
      removed := removed } : ActionStage Options).roster = s.roster := by
  simp only [roster, builderAt_setWatchers hlookup]
  rfl

theorem addWatcher_roster {info : RequestInfo} (hlookup : s.activeRequests.lookup path = some info)
    (watcher : ASHandle) : (s.addWatcher path info watcher).roster = s.roster := by
  unfold ActionStage.addWatcher
  split_ifs
  · rfl
  · exact setWatchers_roster hlookup _

theorem join_roster {info : RequestInfo} (hlookup : s.activeRequests.lookup path = some info)
    (c : Bool) (watcher : ASHandle) : (s.join path info c watcher).roster = s.roster := by
  have hadd := addWatcher_roster hlookup watcher
  unfold ActionStage.join
  dsimp only
  split
  · exact hadd
  · split_ifs
    · exact hadd
    · exact hadd

theorem served_scheduleCancelRequest (h : Served s.roster) (hinv : Inv s)
    (hu : s.roster.Undisturbed) (hu' : (s.scheduleCancelRequest path).roster.Undisturbed) :
    Served (s.scheduleCancelRequest path).roster := by
  unfold ActionStage.scheduleCancelRequest at hu' ⊢
  split at hu'
  · rename_i info hlookup htimer
    have hactive := builderAt_eq hlookup
    have hpath := hinv.activePath path info hlookup
    dsimp only at hu' ⊢
    split_ifs at hu' ⊢
    · have hprepare : .prepare info.requestBuilder ∉ s.roster.duties := fun hd => by
        have hsome : builderAt (s.activeRequests.erase path) info.requestBuilder.path =
          some info.requestBuilder := hu' _ hd
        rw [hpath, builderAt_erase, update_self] at hsome
        cases hsome
      have hpark := h.park hinv.sound hu hactive hprepare
      simp only [roster, builderAt_erase, builderAt_insert] at hpark ⊢
      exact hpark
    · have hcancel := h.cancelNow hinv.sound hactive
      simp only [roster, ActionStage.push, ActionStage.cancel, builderAt_erase] at hcancel ⊢
      exact hcancel
  · exact h

theorem served_detach (h : Served s.roster) (hinv : Inv s) (hu : s.roster.Undisturbed)
    (watcher : ASHandle) (hu' : (s.detach watcher path).roster.Undisturbed) :
    Served (s.detach watcher path).roster := by
  unfold ActionStage.detach at hu' ⊢
  split at hu'
  · exact h
  · rename_i info hlookup
    dsimp only at hu' ⊢
    split_ifs at hu' ⊢
    · refine served_scheduleCancelRequest ?_ (hinv.setWatchers hlookup _) ?_ hu'
      · rwa [setWatchers_roster hlookup]
      · rwa [setWatchers_roster hlookup]
    · rwa [setWatchers_roster hlookup]

theorem served_proceedRemove (h : Served s.roster) (hinv : Inv s) (hu : s.roster.Undisturbed) :
    ∀ (watchers : List (ASHandle × String)) (batch : List Removal),
      (s.proceedRemove watchers batch).roster.Undisturbed →
        Served (s.proceedRemove watchers batch).roster
  | (watcher, _) :: rest, batch, hu' =>
    served_detach (s := s.push (.remove rest batch)) h (hinv.push trivial rfl) hu watcher hu'
  | [], [], _ => h
  | [], .removeWatcher _ :: _, _ => h
  | [], .removeWatcherFromPath _ _ :: _, _ => h

variable {registered : String → Option (String → Option Options → Option String)}

theorem served_requestGeneric (h : Served s.roster) (hinv : Inv s) (joinOnly : Bool) (path : String)
    (options : Option Options) (c : Bool) (watcher : ASHandle) (hasDelegate : Bool)
    (hu' : (s.requestGeneric registered joinOnly path options c watcher
      hasDelegate).roster.Undisturbed) :
    Served (s.requestGeneric registered joinOnly path options c watcher hasDelegate).roster := by
  unfold ActionStage.requestGeneric at hu' ⊢
  split at hu'
  · rename_i hd
    rw [if_pos hd]
    exact h
  · rename_i hd
    rw [if_neg hd]
    dsimp only at hu' ⊢
    cases htimer : s.cancelRequestTimers.lookup path with
    | none =>
      have hresume : s.resume path = s := by
        unfold ActionStage.resume
        rw [htimer]
      rw [hresume]
      split
      · rename_i info hlookup
        rwa [join_roster hlookup]
      · rename_i hlookup
        split
        · exact h
        · split
          · exact h
          · have hfresh : ∀ name, ⟨s.created.length, path, name⟩ ∉ s.cancelled := fun name hmem =>
              lt_irrefl _ (hinv.serial _ (hinv.cancelled_created _ hmem))
            have hactive : builderAt s.activeRequests path = none :=
              congrArg (Option.map RequestInfo.requestBuilder) hlookup
            rename_i requestQueueName _
            have hcreate := h.create hactive (hfresh (requestQueueName path options))
            simp only [roster, ActionStage.create, builderAt_insert] at hcreate ⊢
            exact hcreate
    | some info =>
      have hresume : s.resume path = { s with
          activeRequests := s.activeRequests.insert path info
          cancelRequestTimers := s.cancelRequestTimers.erase path } := by
        unfold ActionStage.resume
        rw [htimer]
      have hlookup : (s.resume path).activeRequests.lookup path = some info := by
        rw [hresume]
        exact AList.lookup_insert _
      rw [hlookup] at hu' ⊢
      dsimp only at hu' ⊢
      rw [join_roster hlookup] at hu' ⊢
      -- The path is active again, so that no frame is cancelling its actor.
      have hsome := builderAt_eq hlookup
      have hduties : (s.resume path).roster.duties = s.roster.duties := by
        rw [hresume]
        rfl
      have hinactive {d : Duty} (hd : d ∈ s.roster.duties)
          (hnone : d.Undisturbed (s.resume path).roster →
            builderAt (s.resume path).activeRequests path = none) : False := by
        cases (hnone (hu' d (hduties.symm ▸ hd))).symm.trans hsome
      have hback := h.resume hinv.sound (builderAt_eq htimer) (fun hd => hinactive hd id)
        (fun b hd => hinactive hd id)
      rw [hresume]
      simp only [roster, builderAt_insert, builderAt_erase] at hback ⊢
      exact hback

theorem served_proceed (h : Served s.roster) (hinv : Inv s) (hu : s.roster.Undisturbed)
    {f : Frame Options} {fs : List (Frame Options)} (hframes : s.frames = f :: fs)
    (hu' : ({ s with frames := fs }.proceed registered f).roster.Undisturbed) :
    Served ({ s with frames := fs }.proceed registered f).roster := by
  have hpop := hinv.pop hframes
  have hneutral (hf : f.duty = none) :
      ({ s with frames := fs } : ActionStage Options).roster = s.roster := by
    simp only [roster, hframes, List.filterMap_cons_none hf]
    rfl
  have hduty {d : Duty} (hf : f.duty = some d) : s.roster.duties = d :: fs.filterMap Frame.duty :=
    (congrArg (List.filterMap Frame.duty) hframes).trans (List.filterMap_cons_some hf)
  cases f with
  | prepare a options c =>
    obtain ⟨Q, E, hroster, hQ, hnone, hmem⟩ := enqueue_roster { s with frames := fs } a options c
    exact hroster ▸ h.enter hinv.sound hu (hduty rfl) ⟨hQ.executed, hQ.first⟩ hmem hnone
  | watcherJoined path c =>
    cases c with
    | true =>
      obtain ⟨Q, hroster, hmem, hfirst⟩ := changeActorPriority_roster { s with frames := fs } path
      have hserved : Served ({ s with frames := fs } : ActionStage Options).roster :=
        (hneutral rfl).symm ▸ h
      exact hroster ▸ hserved.prioritize hmem hfirst
    | false => exact (hneutral rfl).symm ▸ h
  | notify a status watchers =>
    cases watchers with
    | nil =>
      obtain ⟨Q, E, hroster, hQ, hmem⟩ := removeRequestFromQueue_roster hpop a
      exact hroster ▸
        h.leave hinv.sound (Or.inl (hduty rfl)) ⟨hQ.executed, hQ.first⟩ hmem
    | cons watcher watchers =>
      have hsame : ({ s with frames := fs }.proceed registered
          (.notify a status (watcher :: watchers))).roster = s.roster := by
        simp only [roster, hframes]
        rfl
      exact hsame.symm ▸ h
  | cancel a =>
    obtain ⟨Q, E, hroster, hQ, hmem⟩ := removeRequestFromQueue_roster hpop a
    exact hroster ▸ h.leave hinv.sound (Or.inr (hduty rfl)) ⟨hQ.executed, hQ.first⟩ hmem
  | performCancel path a =>
    obtain ⟨Q, E, hroster, hQ, hmem⟩ :=
      removeRequestFromQueue_roster (hpop.push (f := .removeTimer path) trivial rfl) a
    exact hroster ▸ h.cancelled hinv.sound (hduty rfl) ⟨hQ.executed, hQ.first⟩ hmem
  | removeTimer path =>
    have herase := h.eraseTimer (hduty rfl)
    simp only [ActionStage.proceed, roster, builderAt_erase] at herase ⊢
    exact herase
  | remove watchers batch =>
    exact served_proceedRemove ((hneutral rfl).symm ▸ h) hpop ((hneutral rfl).symm ▸ hu) _ _ hu'
  | rejoin paths watcher hasDelegate =>
    cases paths with
    | nil => exact (hneutral rfl).symm ▸ h
    | cons path paths =>
      have hserved :
          Served ({ s with frames := fs }.push (.rejoin paths watcher hasDelegate)).roster :=
        (hneutral rfl).symm ▸ h
      exact served_requestGeneric hserved (hpop.push trivial rfl) _ _ _ _ _ _ hu'

theorem served_step (h : Served s.roster) (hinv : Inv s) (hu : s.roster.Undisturbed)
    (e : Event Options) (hu' : (s.step registered e).roster.Undisturbed) :
    Served (s.step registered e).roster := by
  cases e with
  | requestActor path options c watcher hasDelegate =>
    exact served_requestGeneric h hinv _ _ _ _ _ _ hu'
  | rejoinActions genericPath pathPrefix watcher hasDelegate => exact h
  | changeActorPriority path =>
    obtain ⟨Q, hroster, hmem, hfirst⟩ := changeActorPriority_roster s path
    exact hroster ▸ h.prioritize hmem hfirst
  | actionCompleted action status =>
    unfold ActionStage.step ActionStage.actionCompleted
    dsimp only
    split
    · exact h
    · rename_i info hlookup
      have hcomplete := h.complete (builderAt_eq hlookup)
      simp only [roster, builderAt_erase] at hcomplete ⊢
      exact hcomplete
  | removeWatchers batch => exact h
  | removeAllWatchersFromPath path =>
    unfold ActionStage.step ActionStage.removeAllWatchersFromPath at hu' ⊢
    dsimp only at hu' ⊢
    split at hu'
    · exact h
    · rename_i info hlookup
      refine served_scheduleCancelRequest ?_ (hinv.setWatchers hlookup []) ?_ hu'
      · rwa [setWatchers_roster hlookup]
      · rwa [setWatchers_roster hlookup]
  | performCancelRequest path =>
    unfold ActionStage.step ActionStage.performCancelRequest
    dsimp only
    split
    · exact h
    · rename_i info hlookup
      exact h.performCancelRequest hinv.sound (builderAt_eq hlookup)
  | setCancelTimeout actor positive => exact h
  | returned =>
    unfold ActionStage.step at hu' ⊢
    dsimp only at hu' ⊢
    split at hu'
    · exact h
    · rename_i hframes
      exact served_proceed h hinv hu hframes hu'

/-- While nothing is called, an active actor without a queue has been executed, and one with a queue
is in it behind one that has been, that is not cancelled and whose request is not done with. -/
theorem no_actor_stranded (registered : String → Option (String → Option Options → Option String))
    (es : List (Event Options))
    (hu : Run.AllSteps (step registered)
      (fun s e => (s.step registered e).roster.Undisturbed) initial es) :
    let s := Run.run (step registered) initial es
    s.frames = [] → ∀ path a, builderAt s.activeRequests path = some a →
      match a.requestQueueName with
      | none => a ∈ s.executedActors
      | some name => ∃ first rest, s.requestQueues name = first :: rest ∧ a ∈ first :: rest ∧
          first ∈ s.executedActors ∧ first ∉ s.cancelled ∧
          (builderAt s.activeRequests first.path = some first ∨
            builderAt s.cancelRequestTimers first.path = some first) := by
  intro s hidle path a ha
  have hstep : ∀ (t : ActionStage Options) (e : Event Options),
      (Inv t ∧ Served t.roster ∧ t.roster.Undisturbed) → (t.step registered e).roster.Undisturbed →
      Inv (t.step registered e) ∧ Served (t.step registered e).roster ∧
        (t.step registered e).roster.Undisturbed :=
    fun _ e h hu => ⟨h.1.step e, served_step h.2.1 h.1 h.2.2 e hu, hu⟩
  have hstart : Served (initial : ActionStage Options).roster := by
    constructor <;> simp [roster, initial, builderAt]
  obtain ⟨-, hserved, -⟩ : Inv s ∧ Served s.roster ∧ s.roster.Undisturbed :=
    Run.invariant hstep es ⟨initial_inv, hstart, fun _ hd => by cases hd⟩ hu
  exact hserved.idle (congrArg (List.filterMap Frame.duty) hidle) ha

/-- Two actors of one queue. -/
theorem no_actor_stranded_two :
    let s := Run.run (step fun _ => some fun _ _ => some "messages") (initial : ActionStage Unit)
      [.requestActor "/tg/a" none false 1 true, .returned,
        .requestActor "/tg/b" none false 2 true, .returned]
    ∃ first rest, s.requestQueues "messages" = first :: rest ∧
      ⟨1, "/tg/b", some "messages"⟩ ∈ first :: rest ∧ first ∈ s.executedActors ∧
        first ∉ s.cancelled ∧ (builderAt s.activeRequests first.path = some first ∨
          builderAt s.cancelRequestTimers first.path = some first) :=
  no_actor_stranded (fun _ => some fun _ _ => some "messages") _ (by decide) rfl "/tg/b"
    ⟨1, "/tg/b", some "messages"⟩ (by decide)

end Turns

end ActionStage

end Onegram
