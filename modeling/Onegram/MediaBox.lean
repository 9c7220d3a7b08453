import Onegram.Lib.Bytes
import Onegram.Lib.Run

/-!
# The media box

The files of `MediaBox` and the blocks it runs on its data queue. A resource has a partial file,
which fetches append to, and a complete file, which is a hard link to it. `fetchedResource:` starts
a fetch at the size of the partial file when its context has none; a fetch keeps a descriptor of its
own, opened by its first result and closed when the fetch is disposed of or ends, while the number
of the descriptor stays in `fd`. The results of a fetch are blocks of the same queue, so that one
can run after the fetch is gone.

An event is one block. The fetch function is `resource`: the pieces it delivers are consecutive
parts of the resource from the offset it was started at. What the system answers to `open` and
`write` is part of the event. Statuses, progress and the subscribers of `resourceData:` touch no
file and are left out; a context without subscribers is the same as none.
-/

namespace Onegram

namespace MediaBox

/-- A fetch, `position` being how far in the resource the pieces it has delivered reach, and `torn`
whether bytes of one of them were not written. Neither is read by the code. -/
structure Fetch (ρ : Type) where
  resourceId : ρ
  position : ℕ
  fd : Option ℕ
  disposed : Bool
  closed : Bool
  torn : Bool

/-- The partial files, which resources have a complete one, the process's open descriptors with the
partial file each is of, the fetches and the data contexts. -/
structure State (ρ : Type) where
  partialFile : ρ → Bytes
  complete : ρ → Bool
  descriptors : ℕ → Option ρ
  fetches : ℕ → Option (Fetch ρ)
  nextFetch : ℕ
  fetchSubscribers : ρ → List ℕ
  fetchDisposable : ρ → Option ℕ

inductive Event (ρ : Type)
  /-- `fetchedResource:` with a subscriber. -/
  | fetchedResource (subscriber : ℕ) (resourceId : ρ)
  /-- The disposable of a subscription. -/
  | dispose (subscriber : ℕ) (resourceId : ρ)
  | cancelInteractiveResourceFetch (resourceId : ρ)
  /-- A result of a fetch, with up to `length` bytes: what `open` gave where it is called, and how
  many bytes `write` wrote. -/
  | result (fetch length : ℕ) (complete : Bool) (handle : Option ℕ) (written : ℕ)
  /-- A fetch signal ends, and is disposed of for that. -/
  | terminated (fetch : ℕ)
  /-- The process is gone, and a new one starts. -/
  | restart

section

variable {ρ : Type} [DecidableEq ρ]

/-- `(int32_t)value.st_size`. -/
def int32Size (n : ℕ) : ℤ := (n : ℤ).bmod (2 ^ 32)

/-- `fileSize(paths.complete)`. -/
def State.completeSize (s : State ρ) (r : ρ) : ℤ :=
  if s.complete r then int32Size (s.partialFile r).length else 0

/-- The `onDispose:` block of a fetch, which runs once. -/
def disposeFetch (s : State ρ) (f : ℕ) : State ρ :=
  match s.fetches f with
  | none => s
  | some x =>
    if x.disposed then s
    else
      match x.fd with
      | none => { s with fetches := Function.update s.fetches f (some { x with disposed := true }) }
      | some n =>
        { s with
          descriptors := Function.update s.descriptors n none
          fetches :=
            Function.update s.fetches f (some { x with disposed := true, closed := true }) }

/-- `[dataContext.fetchDisposable dispose]; dataContext.fetchDisposable = nil`. -/
def disposeContext (s : State ρ) (r : ρ) : State ρ :=
  match s.fetchDisposable r with
  | none => s
  | some f =>
    let s := disposeFetch s f
    { s with fetchDisposable := Function.update s.fetchDisposable r none }

/-- `dataContext.fetchDisposable = [signal startWithNext:…]`, at `NSMakeRange(currentSize, …)`. -/
def startFetch (s : State ρ) (r : ρ) : State ρ :=
  let location := (int32Size (s.partialFile r).length % 2 ^ 64).toNat
  { s with
    fetches := Function.update s.fetches s.nextFetch (some ⟨r, location, none, false, false, false⟩)
    nextFetch := s.nextFetch + 1
    fetchDisposable := Function.update s.fetchDisposable r (some s.nextFetch) }

def fetchedResource (s : State ρ) (subscriber : ℕ) (r : ρ) : State ρ :=
  if s.completeSize r ≠ 0 then s
  else
    let s := { s with
      fetchSubscribers := Function.update s.fetchSubscribers r (s.fetchSubscribers r ++ [subscriber]) }
    if s.fetchDisposable r = none then startFetch s r else s

def dispose (s : State ρ) (subscriber : ℕ) (r : ρ) : State ρ :=
  let s := { s with
    fetchSubscribers := Function.update s.fetchSubscribers r ((s.fetchSubscribers r).erase subscriber) }
  if s.fetchSubscribers r = [] then disposeContext s r else s

/-- The piece of the resource a fetch delivers next. -/
def Fetch.piece (resource : ρ → Bytes) (x : Fetch ρ) (length : ℕ) : Bytes :=
  ((resource x.resourceId).drop x.position).take length

/-- `write(fd, data)`, of which `written` bytes get written: to the partial file the descriptor is
open on, if to one. -/
def writeBytes (s : State ρ) (fd : ℕ) (data : Bytes) (written : ℕ) : State ρ :=
  match s.descriptors fd with
  | none => s
  | some r =>
    { s with partialFile := Function.update s.partialFile r (s.partialFile r ++ data.take written) }

/-- `open(paths.partial, O_WRONLY | O_CREAT | O_APPEND)` where the fetch has no descriptor yet. -/
def openPartial (s : State ρ) (x : Fetch ρ) (handle : Option ℕ) : State ρ × Fetch ρ :=
  match x.fd, handle with
  | none, some n =>
    ({ s with descriptors := Function.update s.descriptors n (some x.resourceId) },
      { x with fd := some n })
  | _, _ => (s, x)

/-- The block of a result. -/
def result (resource : ρ → Bytes) (s : State ρ) (f length : ℕ) (complete : Bool)
    (handle : Option ℕ) (written : ℕ) : State ρ :=
  match s.fetches f with
  | none => s
  | some x =>
    let data := x.piece resource length
    let (s, x) := openPartial s x handle
    let x := { x with position := x.position + data.length }
    match x.fd with
    | none =>
      let x := { x with torn := x.torn || data ≠ [] }
      { s with fetches := Function.update s.fetches f (some x) }
    | some n =>
      -- A short write is logged, and the offset goes on as after a full one.
      let s := writeBytes s n data written
      let x := { x with torn := x.torn || written < data.length }
      let s := { s with fetches := Function.update s.fetches f (some x) }
      if complete then { s with complete := Function.update s.complete x.resourceId true } else s

/-- The files stay, the rest of the process is gone. -/
def restart (s : State ρ) : State ρ where
  partialFile := s.partialFile
  complete := s.complete
  descriptors _ := none
  fetches _ := none
  nextFetch := 0
  fetchSubscribers _ := []
  fetchDisposable _ := none

def step (resource : ρ → Bytes) (s : State ρ) : Event ρ → State ρ
  | .fetchedResource subscriber r => fetchedResource s subscriber r
  | .dispose subscriber r => dispose s subscriber r
  | .cancelInteractiveResourceFetch r => disposeContext s r
  | .result f length complete handle written => result resource s f length complete handle written
  | .terminated f => disposeFetch s f
  | .restart => restart s

/-- An empty directory and a process that has not begun. -/
def initial : State ρ := restart
  { partialFile := fun _ => []
    complete := fun _ => false
    descriptors := fun _ => none
    fetches := fun _ => none
    nextFetch := 0
    fetchSubscribers := fun _ => []
    fetchDisposable := fun _ => none }

/-- What the system and the fetch function promise: `open` gives a number not in use, `write` writes
no more than it was given, and a complete result comes with the end of the resource. -/
def Possible (resource : ρ → Bytes) (s : State ρ) : Event ρ → Prop
  | .result f length complete handle written => ∀ x, s.fetches f = some x →
      (x.fd = none → ∀ n, handle = some n → s.descriptors n = none) ∧
      written ≤ (x.piece resource length).length ∧
      (complete → (resource x.resourceId).length ≤ x.position + (x.piece resource length).length)
  | _ => True

end

end MediaBox

end Onegram
