import NamPlug.Lib.Run

/-!
# Rebuild requests

The audio thread asks for a slimmed model or for oversampling engines through atomics and a status
flag (`signal_slimmable_rebuild`, `processor/events.rs`; `processor/params.rs`), the loader worker
builds what is asked for and publishes it in a slot (`poll_rebuilds`,
`plugin/main_thread/model_loader.rs`), and the main thread passes it on to the audio thread and
lowers the flag (`drain_slimmable_rebuild`, `drain_oversample_rebuild`, `housekeeping.rs`). Every
access to an atomic, to the slot or to a ring is a step of its own.

A request is named by what it asks for: the channel count and the model generation of a slimmed
model, the factor of oversampling engines (with no second part). `latest` and `answered` are not in
the source: the last request that was raised, and whether the audio thread has had its payload or
the main thread its failure.
-/

namespace NamPlug

/-- What a build came to: `Ready`, `Failed` or `Skipped`. -/
inductive BuildOutcome where
  | ready | failed | skipped
  deriving DecidableEq, Repr

/-- The audio thread between the stores of a request. -/
inductive RequestPc where
  | idle | storedFirst | storedSecond
  deriving DecidableEq, Repr

section
variable (A B : Type)

/-- The worker in `poll_rebuilds`. -/
inductive WorkerPc where
  | idle
  /-- The flag was set, the request is read. -/
  | loadFirst
  | loadSecond (a : A)
  /-- The request is not the one built last: it is built. -/
  | publish (id : A × B)
  | remember (id : A × B)
  deriving DecidableEq, Repr

/-- The main thread in the drain of the slot. -/
inductive DrainPc where
  | idle
  /-- The flag was set. -/
  | take
  | taken (outcome : BuildOutcome) (id : A × B)
  /-- The ring was full. -/
  | putBack (id : A × B)
  | lower
  deriving DecidableEq, Repr

structure RebuildState where
  requestedFirst : A
  requestedSecond : B
  flag : Bool
  slot : Option (BuildOutcome × A × B)
  ring : List (A × B)
  built : Option (A × B)
  request : RequestPc
  worker : WorkerPc A B
  main : DrainPc A B
  latest : Option (A × B)
  answered : Bool
  deriving DecidableEq, Repr

/-- A step of one of the three threads. -/
inductive RebuildAction where
  /-- The audio thread stores the first part of a request. -/
  | storeFirst (a : A)
  | storeSecond (b : B)
  | raise
  /-- The audio thread installs the head of the ring or discards it as stale. -/
  | resolve
  /-- The head of the ring is superseded by the payload behind it. -/
  | supersede
  | worker (outcome : BuildOutcome)
  /-- The main thread; `accepted` says whether the ring takes the payload. -/
  | main (accepted : Bool)
  deriving DecidableEq, Repr

end

section
variable {A B : Type} [DecidableEq A] [DecidableEq B]

/-- No request yet. -/
def RebuildState.init (a : A) (b : B) : RebuildState A B where
  requestedFirst := a
  requestedSecond := b
  flag := false
  slot := none
  ring := []
  built := none
  request := .idle
  worker := .idle
  main := .idle
  latest := none
  answered := false

/-- A step of the worker; `outcome` is what its build comes to. -/
def workerStep (x : RebuildState A B) (outcome : BuildOutcome) : RebuildState A B :=
  match x.worker with
  | .idle => if x.flag then { x with worker := .loadFirst } else { x with built := none }
  | .loadFirst => { x with worker := .loadSecond x.requestedFirst }
  | .loadSecond a =>
    if x.built = some (a, x.requestedSecond) then { x with worker := .idle }
    else { x with worker := .publish (a, x.requestedSecond) }
  | .publish id => { x with slot := some (outcome, id), worker := .remember id }
  | .remember id => { x with built := some id, worker := .idle }

/-- A step of the main thread. -/
def drainStep (x : RebuildState A B) (accepted : Bool) : RebuildState A B :=
  match x.main with
  | .idle => if x.flag then { x with main := .take } else x
  | .take =>
    match x.slot with
    | none => { x with main := .idle }
    | some (outcome, id) => { x with slot := none, main := .taken outcome id }
  | .taken .ready id =>
    if accepted then { x with ring := x.ring ++ [id], main := .lower }
    else { x with main := .putBack id }
  | .taken _ id => { x with main := .lower, answered := x.answered || decide (x.latest = some id) }
  | .putBack id => { x with slot := some (.ready, id), main := .idle }
  | .lower => { x with flag := false, main := .idle }

def rebuildStep (x : RebuildState A B) : RebuildAction A B → Option (RebuildState A B)
  | .storeFirst a =>
    if x.request = .idle then some { x with requestedFirst := a, request := .storedFirst } else none
  | .storeSecond b =>
    if x.request = .storedFirst then
      some { x with requestedSecond := b, request := .storedSecond }
    else none
  | .raise =>
    if x.request = .storedSecond then
      some { x with
        flag := true
        request := .idle
        latest := some (x.requestedFirst, x.requestedSecond)
        answered := false }
    else none
  | .resolve =>
    match x.ring with
    | id :: rest =>
      if x.request = .idle then
        some { x with ring := rest, answered := x.answered || decide (x.latest = some id) }
      else none
    | [] => none
  | .supersede =>
    match x.ring with
    | _ :: id :: rest => if x.request = .idle then some { x with ring := id :: rest } else none
    | _ => none
  | .worker outcome => some (workerStep x outcome)
  | .main accepted => some (drainStep x accepted)

/-- All three threads are between two operations. -/
def RebuildState.Idle (x : RebuildState A B) : Prop :=
  x.request = .idle ∧ x.worker = .idle ∧ x.main = .idle

/-- The latest request has not been answered, its payload is nowhere, and the worker does not see
it. -/
def RebuildState.Lost (x : RebuildState A B) : Prop :=
  ∃ id, x.latest = some id ∧ x.answered = false ∧ id ∉ x.ring ∧
    (∀ outcome, x.slot ≠ some (outcome, id)) ∧ (x.flag = true → x.built = some id)

/-- The request the main thread holds between the slot and the ring. -/
def DrainPc.held : DrainPc A B → Option (A × B)
  | .taken _ id => some id
  | .putBack id => some id
  | _ => none

namespace RebuildState

/-- The request in the atomics. -/
def requested (x : RebuildState A B) : A × B := (x.requestedFirst, x.requestedSecond)

/-- The request the worker publishes next, when the atomics stay as they are. -/
def building (x : RebuildState A B) : Option (A × B) :=
  match x.worker with
  | .loadFirst => if x.built = some x.requested then none else some x.requested
  | .loadSecond a =>
    if x.built = some (a, x.requestedSecond) then none else some (a, x.requestedSecond)
  | .publish id => some id
  | _ => none

/-- The memory of the worker when it is back at its poll. -/
def remembered (x : RebuildState A B) : Option (A × B) :=
  match x.worker with
  | .loadSecond a => some (a, x.requestedSecond)
  | .publish id => some id
  | .remember id => some id
  | _ => x.built

/-- The worker takes up a request for `id` at its next poll. -/
def Seen (x : RebuildState A B) (id : A × B) : Prop :=
  x.flag = true ∧ x.remembered ≠ some id

/-- A payload for `id` is in the slot, with the main thread or under way in the worker. -/
def Held (x : RebuildState A B) (id : A × B) : Prop :=
  x.slot.map Prod.snd = some id ∨ x.main.held = some id ∨ x.building = some id

/-- The latest request, while it is not answered and not in the ring. -/
def waiting (x : RebuildState A B) : Option (A × B) :=
  if x.request = .idle ∧ x.answered = false then x.latest.filter (· ∉ x.ring) else none

/-- A published payload covers that of the waiting request only while the flag makes the worker build
it again. -/
def WorkerSafe (x : RebuildState A B) : WorkerPc A B → Prop
  | .publish id' => ∀ id ∈ x.waiting, x.slot.map Prod.snd = some id →
      id' = id ∨ x.main.held = some id ∨ x.flag = true
  | _ => True

/-- A payload that is put back covers that of the waiting request only while the worker takes it up
again, and the flag is lowered when the payload of the waiting request is there already. -/
def DrainSafe (x : RebuildState A B) : DrainPc A B → Prop
  | .putBack id' => ∀ id ∈ x.waiting, x.slot.map Prod.snd = some id →
      id' = id ∨ x.building = some id ∨ x.Seen id
  | .lower => ∀ id ∈ x.waiting, x.Held id
  | _ => True

/-- A step leaves the waiting request a way to its answer. A request is raised that is not the one
the worker built last, or whose payload is on its way; a payload that is superseded is not the only
trace of the latest request. -/
def NoRace (x : RebuildState A B) : RebuildAction A B → Prop
  | .raise =>
    x.remembered ≠ some x.requested ∨ x.requested ∈ x.ring ∨ x.Held x.requested
  | .supersede =>
    ∀ id ∈ x.latest, x.ring.head? = some id → x.answered = true ∨ id ∈ x.ring.tail ∨ x.Held id ∨
      x.Seen id
  | .worker _ => x.WorkerSafe x.worker
  | .main _ => x.DrainSafe x.main
  | _ => True

end RebuildState

instance (x : RebuildState A B) (id : A × B) : Decidable (x.Seen id) :=
  inferInstanceAs (Decidable (_ ∧ _))

instance (x : RebuildState A B) (id : A × B) : Decidable (x.Held id) :=
  inferInstanceAs (Decidable (_ ∨ _))

instance (x : RebuildState A B) : ∀ pc, Decidable (x.WorkerSafe pc)
  | .idle | .loadFirst | .loadSecond _ | .remember _ => isTrue trivial
  | .publish _ => inferInstanceAs (Decidable (∀ id ∈ x.waiting, _ → _))

instance (x : RebuildState A B) : ∀ pc, Decidable (x.DrainSafe pc)
  | .idle | .take | .taken _ _ => isTrue trivial
  | .putBack _ => inferInstanceAs (Decidable (∀ id ∈ x.waiting, _ → _))
  | .lower => inferInstanceAs (Decidable (∀ id ∈ x.waiting, _))

instance (x : RebuildState A B) : ∀ a, Decidable (x.NoRace a)
  | .storeFirst _ | .storeSecond _ | .resolve => isTrue trivial
  | .raise => inferInstanceAs (Decidable (_ ∨ _))
  | .supersede => inferInstanceAs (Decidable (∀ id ∈ x.latest, _ → _))
  | .worker _ => inferInstanceAs (Decidable (x.WorkerSafe x.worker))
  | .main _ => inferInstanceAs (Decidable (x.DrainSafe x.main))

instance (x : RebuildState A B) : Decidable x.Idle :=
  inferInstanceAs (Decidable (_ ∧ _))

end

/-- Slimmable rebuilds: a channel count and the generation of the model. -/
abbrev SlimmableRebuilds := RebuildState Nat Nat

/-- Oversampling rebuilds: a factor. -/
abbrev OversampleRebuilds := RebuildState Nat Unit

end NamPlug
