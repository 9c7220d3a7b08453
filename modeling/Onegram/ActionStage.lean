import Mathlib.Data.List.AList
import Onegram.Lib.Run

/-!
# The action stage

`ActionStage` runs the actors of the application. An actor is asked for by its path; the watchers
of one path share one actor, and the actors of one request queue execute one after another. All of
it happens on one serial queue, but the actors and the watchers it calls may call it back before
they return, and such a call is made at once. What is left to do after a call out is a frame; the
frames are a stack, and any event may come while there are some.

The actor classes are `registered`: for a generic path, the queue name that an instance has once it
is prepared. Which of the two dispatch queues an event comes over, the vectors that collect the
removals of other threads and the watchers of resources and messages are left out.
-/

namespace Onegram

abbrev ASHandle := ℕ

/-- An instance of an actor class, which `serial` tells from others of its path. -/
structure ASActor where
  serial : ℕ
  path : String
  requestQueueName : Option String
  deriving DecidableEq

structure RequestInfo where
  requestBuilder : ASActor
  watchers : List ASHandle

abbrev RequestTable := AList fun _ : String => RequestInfo

namespace ActionStage

/-- One removal of a watcher, from one path or from all. -/
inductive Removal
  | removeWatcher (watcher : ASHandle)
  | removeWatcherFromPath (watcher : ASHandle) (path : String)

/-- What is left to do when a call out returns. -/
inductive Frame (Options : Type)
  /-- After `prepare:`, enter the queue and execute. -/
  | prepare (actor : ASActor) (options : Option Options) (changePriority : Bool)
  /-- After `watcherJoined:`. -/
  | watcherJoined (path : String) (changePriority : Bool)
  /-- Of a completed request, the watchers that have not been notified. -/
  | notify (actor : ASActor) (status : ℤ) (watchers : List ASHandle)
  /-- After the `cancel` of `scheduleCancelRequest:`. -/
  | cancel (actor : ASActor)
  /-- After the `cancel` of `performCancelRequest:`. -/
  | performCancel (path : String) (actor : ASActor)
  /-- After the `execute:` of the actor that follows it. -/
  | removeTimer (path : String)
  /-- The rest of a batch of removals. -/
  | remove (watchers : List (ASHandle × String)) (batch : List Removal)
  /-- The rest of the paths to rejoin. -/
  | rejoin (paths : List String) (watcher : ASHandle) (hasDelegate : Bool)

end ActionStage

open ActionStage

/-- The stage. `cancelTimeout` and `cancelled` are the actors with such a property; `created`,
`executed`, `joined`, `notified` and `removed` record what has happened. -/
structure ActionStage (Options : Type) where
  requestQueues : String → List ASActor
  activeRequests : RequestTable
  cancelRequestTimers : RequestTable
  storedOptions : ASActor → Option Options
  cancelTimeout : ASActor → Bool
  cancelled : List ASActor
  frames : List (Frame Options)
  created : List (ASActor × Option Options)
  executed : List (ASActor × Option Options)
  joined : List (ASHandle × String)
  notified : List (ASHandle × String × ℤ)
  removed : List (ASHandle × String)

namespace ActionStage

variable {Options : Type}

/-- `genericStringForParametrizedPath:` -/
def genericStringForParametrizedPath (path : String) : String :=
  if '(' ∈ path.toList then String.ofList (go false path.toList) else path
where
  go : Bool → List Char → List Char
    | _, [] => []
    | skipCharacters, c :: cs =>
      if c = '(' then '@' :: go true cs
      else if c = ')' then go false cs
      else if skipCharacters then go skipCharacters cs
      else c :: go skipCharacters cs

def initial : ActionStage Options where
  requestQueues _ := []
  activeRequests := ∅
  cancelRequestTimers := ∅
  storedOptions _ := none
  cancelTimeout _ := false
  cancelled := []
  frames := []
  created := []
  executed := []
  joined := []
  notified := []
  removed := []

section Stage

variable (s : ActionStage Options)

def push (f : Frame Options) : ActionStage Options := { s with frames := f :: s.frames }

def execute (actor : ASActor) (options : Option Options) : ActionStage Options :=
  { s with executed := s.executed ++ [(actor, options)] }

def cancel (actor : ASActor) : ActionStage Options := { s with cancelled := actor :: s.cancelled }

def setQueue (name : String) (queue : List ASActor) : ActionStage Options :=
  { s with requestQueues := Function.update s.requestQueues name queue }

def setStoredOptions (actor : ASActor) (options : Option Options) : ActionStage Options :=
  { s with storedOptions := Function.update s.storedOptions actor options }

/-- `[requestQueue removeObjectAtIndex:index]; [requestQueue insertObject:actor atIndex:1]`, for an
actor that is neither first nor next. -/
def prioritized (queue : List ASActor) (actor : ASActor) : List ASActor :=
  let index := queue.idxOf actor
  if 2 ≤ index ∧ index < queue.length then (queue.eraseIdx index).insertIdx 1 actor else queue

def changeActorPriority (path : String) : ActionStage Options :=
  match s.activeRequests.lookup path with
  | none => s
  | some requestInfo =>
    match requestInfo.requestBuilder.requestQueueName with
    | none => s
    | some name =>
      s.setQueue name (prioritized (s.requestQueues name) requestInfo.requestBuilder)

/-- The end of the block that asks for a new actor: a queue that it is alone in, or none, executes
it now. -/
def enqueue (actor : ASActor) (options : Option Options) (changePriority : Bool) :
    ActionStage Options :=
  match actor.requestQueueName with
  | none => s.execute actor options
  | some name =>
    let requestQueue := s.requestQueues name ++ [actor]
    if requestQueue.length > 1 then
      let requestQueue := if changePriority ∧ requestQueue.length > 2 then
          requestQueue.dropLast.insertIdx 1 actor
        else requestQueue
      (s.setQueue name requestQueue).setStoredOptions actor options
    else (s.setQueue name requestQueue).execute actor options

/-- `removeRequestFromQueueAndProceedIfFirst:fromRequestBuilder:` -/
def removeRequestFromQueueAndProceedIfFirst (requestBuilder : ASActor) : ActionStage Options :=
  match requestBuilder.requestQueueName with
  | none => s
  | some name =>
    match s.requestQueues name with
    | [] => s
    | first :: rest =>
      if first = requestBuilder then
        let s := s.setQueue name rest
        match rest with
        | [] => s
        | nextRequest :: _ =>
          let nextRequestOptions := s.storedOptions nextRequest
          let s := s.setStoredOptions nextRequest none
          if nextRequest ∈ s.cancelled then s else s.execute nextRequest nextRequestOptions
      else s.setQueue name ((first :: rest).filter (· ≠ requestBuilder))

/-- `Resuming request`: out of the timers, into the active ones. -/
def resume (path : String) : ActionStage Options :=
  match s.cancelRequestTimers.lookup path with
  | none => s
  | some requestInfo =>
    { s with
      activeRequests := s.activeRequests.insert path requestInfo
      cancelRequestTimers := s.cancelRequestTimers.erase path }

def create (path : String) (requestQueueName : Option String) (options : Option Options)
    (changePriority : Bool) (watcher : ASHandle) : ActionStage Options :=
  let actor : ASActor := ⟨s.created.length, path, requestQueueName⟩
  { s with
    activeRequests := s.activeRequests.insert path ⟨actor, [watcher]⟩
    frames := .prepare actor options changePriority :: s.frames
    created := s.created ++ [(actor, options)]
    joined := s.joined ++ [(watcher, path)] }

/-- A watcher is added where it does not watch. -/
def addWatcher (path : String) (requestInfo : RequestInfo) (watcher : ASHandle) :
    ActionStage Options :=
  if watcher ∈ requestInfo.watchers then s
  else
    { s with
      activeRequests := s.activeRequests.insert path
        { requestInfo with watchers := requestInfo.watchers ++ [watcher] }
      joined := s.joined ++ [(watcher, path)] }

def join (path : String) (requestInfo : RequestInfo) (changePriority : Bool) (watcher : ASHandle) :
    ActionStage Options :=
  let s := s.addWatcher path requestInfo watcher
  match requestInfo.requestBuilder.requestQueueName with
  | none => s
  | some name => if s.requestQueues name = [] then s else s.push (.watcherJoined path changePriority)

/-- `hasPrefix:`, which an empty string is not. -/
def hasPrefix (path pathPrefix : String) : Bool :=
  pathPrefix ≠ "" && pathPrefix.toList.isPrefixOf path.toList

/-- The paths `rejoinActionsWithGenericPathNow:prefix:watcher:` joins. -/
def rejoinPaths (genericPath pathPrefix : String) : List String :=
  (s.activeRequests.keys.filter fun path => path = genericPath ||
    (genericStringForParametrizedPath path = genericPath &&
      (pathPrefix = "" || hasPrefix path pathPrefix))) ++
  s.cancelRequestTimers.keys.filter fun path =>
    genericStringForParametrizedPath path = genericPath && hasPrefix path pathPrefix

/-- `actionCompleted:result:` and `actionFailed:reason:` -/
def actionCompleted (action : String) (status : ℤ) : ActionStage Options :=
  match s.activeRequests.lookup action with
  | none => s
  | some requestInfo =>
    { s with
      activeRequests := s.activeRequests.erase action
      frames := .notify requestInfo.requestBuilder status requestInfo.watchers :: s.frames }

/-- `scheduleCancelRequest:` -/
def scheduleCancelRequest (path : String) : ActionStage Options :=
  match s.activeRequests.lookup path, s.cancelRequestTimers.lookup path with
  | some requestInfo, none =>
    let actor := requestInfo.requestBuilder
    let s := { s with activeRequests := s.activeRequests.erase path }
    if s.cancelTimeout actor then
      { s with cancelRequestTimers := s.cancelRequestTimers.insert path requestInfo }
    else (s.cancel actor).push (.cancel actor)
  | _, _ => s

/-- `performCancelRequest:`, up to where the actor is cancelled. -/
def performCancelRequest (path : String) : ActionStage Options :=
  match s.cancelRequestTimers.lookup path with
  | none => s
  | some requestInfo =>
    (s.cancel requestInfo.requestBuilder).push (.performCancel path requestInfo.requestBuilder)

/-- One watcher leaves one request, which nobody watching is cancelled. -/
def detach (watcher : ASHandle) (path : String) : ActionStage Options :=
  match s.activeRequests.lookup path with
  | none => s
  | some requestInfo =>
    let watchers := requestInfo.watchers.filter (· ≠ watcher)
    let s := { s with
      activeRequests := s.activeRequests.insert path { requestInfo with watchers := watchers }
      removed := s.removed ++ (requestInfo.watchers.filter (· = watcher)).map (·, path) }
    if watchers = [] then s.scheduleCancelRequest path else s

def removeAllWatchersFromPath (path : String) : ActionStage Options :=
  match s.activeRequests.lookup path with
  | none => s
  | some requestInfo =>
    let s := { s with
      activeRequests := s.activeRequests.insert path { requestInfo with watchers := [] }
      removed := s.removed ++ requestInfo.watchers.map (·, path) }
    s.scheduleCancelRequest path

/-- The removals of a batch: what is next, and what is left. -/
def proceedRemove : List (ASHandle × String) → List Removal → ActionStage Options
  | (watcher, path) :: rest, batch => (s.push (.remove rest batch)).detach watcher path
  | [], [] => s
  | [], .removeWatcher watcher :: batch =>
    s.push (.remove (s.activeRequests.keys.map (watcher, ·)) batch)
  | [], .removeWatcherFromPath watcher path :: batch => s.push (.remove [(watcher, path)] batch)

end Stage

section Registered

variable (registered : String → Option (String → Option Options → Option String))
  (s : ActionStage Options)

/-- `_requestGeneric:inCurrentQueue:path:options:flags:watcher:` -/
def requestGeneric (joinOnly : Bool) (path : String) (options : Option Options)
    (changePriority : Bool) (watcher : ASHandle) (hasDelegate : Bool) : ActionStage Options :=
  if !hasDelegate then s
  else
    let s := s.resume path
    match s.activeRequests.lookup path with
    | some requestInfo => s.join path requestInfo changePriority watcher
    | none =>
      if joinOnly then s
      else
        match registered (genericStringForParametrizedPath path) with
        | none => s
        | some requestQueueName =>
          s.create path (requestQueueName path options) options changePriority watcher

/-- The frame on top goes on, itself off the stack. -/
def proceed : Frame Options → ActionStage Options
  | .prepare actor options changePriority => s.enqueue actor options changePriority
  | .watcherJoined path changePriority => if changePriority then s.changeActorPriority path else s
  | .notify actor _ [] => s.removeRequestFromQueueAndProceedIfFirst actor
  | .notify actor status (watcher :: watchers) =>
    { s with
      frames := .notify actor status watchers :: s.frames
      notified := s.notified ++ [(watcher, actor.path, status)] }
  | .cancel actor => s.removeRequestFromQueueAndProceedIfFirst actor
  | .performCancel path actor =>
    (s.push (.removeTimer path)).removeRequestFromQueueAndProceedIfFirst actor
  | .removeTimer path => { s with cancelRequestTimers := s.cancelRequestTimers.erase path }
  | .remove watchers batch => s.proceedRemove watchers batch
  | .rejoin [] _ _ => s
  | .rejoin (path :: paths) watcher hasDelegate =>
    (s.push (.rejoin paths watcher hasDelegate)).requestGeneric registered true path none false
      watcher hasDelegate

inductive Event (Options : Type)
  | requestActor (path : String) (options : Option Options) (changePriority : Bool)
      (watcher : ASHandle) (hasDelegate : Bool)
  | rejoinActions (genericPath pathPrefix : String) (watcher : ASHandle) (hasDelegate : Bool)
  | changeActorPriority (path : String)
  | actionCompleted (action : String) (status : ℤ)
  | removeWatchers (batch : List Removal)
  | removeAllWatchersFromPath (path : String)
  | performCancelRequest (path : String)
  /-- An actor sets its `cancelTimeout`, `positive` or not. -/
  | setCancelTimeout (actor : ASActor) (positive : Bool)
  /-- The block on top goes on: the call out that it waits for has returned. -/
  | returned

def step : Event Options → ActionStage Options
  | .requestActor path options changePriority watcher hasDelegate =>
    s.requestGeneric registered false path options changePriority watcher hasDelegate
  | .rejoinActions genericPath pathPrefix watcher hasDelegate =>
    s.push (.rejoin (s.rejoinPaths genericPath pathPrefix) watcher hasDelegate)
  | .changeActorPriority path => s.changeActorPriority path
  | .actionCompleted action status => s.actionCompleted action status
  | .removeWatchers batch => s.push (.remove [] batch)
  | .removeAllWatchersFromPath path => s.removeAllWatchersFromPath path
  | .performCancelRequest path => s.performCancelRequest path
  | .setCancelTimeout actor positive =>
    { s with cancelTimeout := Function.update s.cancelTimeout actor positive }
  | .returned =>
    match s.frames with
    | [] => s
    | frame :: frames => { s with frames := frames }.proceed registered frame

end Registered

end ActionStage

end Onegram
