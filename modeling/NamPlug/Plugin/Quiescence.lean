import Mathlib.Algebra.BigOperators.Group.Finset.Basic
import NamPlug.Lib.Run

/-!
# Teardown quiescence

The two coordinators of `plugin/quiescence.rs`. A host call holds a guard, taken by `enter` and
counted in `in_flight`; `quiesce` rejects later calls and waits until no guard is live, up to the
grace period first and without a bound then. The state is behind a mutex that can be poisoned, with
a condition variable that is notified after the mutex is unlocked.

Any number of threads take their steps in any order. A thread of the program takes and releases the
mutex, and reads and writes the state, in steps of their own; a wait releases the mutex and falls
asleep in one step. The guards can be passed between threads, so a drop takes any guard that is not
being dropped. Foreign code can poison the mutex, and lower or raise the fence, at any time.
-/

namespace NamPlug

structure QuiescenceState where
  active : Bool
  inFlight : Nat
  deriving DecidableEq, Repr

/-- `HostLogQuiescence`, or `HostCallQuiescence` with its fence. -/
inductive QuiescenceKind where
  | hostLog | hostCall
  deriving DecidableEq, Repr

inductive QuiescenceOutcome where
  | clean | stalledWait
  deriving DecidableEq, Repr

/-- The two waits of `quiesce_state`. -/
inductive QuiescenceWait where
  | grace | unbounded
  deriving DecidableEq, Repr

/-- Where a thread is. The flags say that the lock was found poisoned, and that the guard that was
dropped was the last one. -/
inductive QuiescencePc where
  | idle
  /-- `enter`. -/
  | enterLock
  | enterHeld (poisoned : Bool)
  | enterChecked
  | enterRejected
  | enterAdmitted
  /-- The drop of a guard. -/
  | dropLock
  | dropHeld (poisoned : Bool)
  | dropCounted (poisoned : Bool)
  | dropUnlock (wake poisoned : Bool)
  | dropNotify (poisoned : Bool)
  | dropClear
  /-- `quiesce`. -/
  | quiesceLock
  | quiesceHeld (poisoned : Bool)
  | quiesceLoop (w : QuiescenceWait)
  | quiesceAsleep (w : QuiescenceWait)
  | quiesceRelock (w : QuiescenceWait)
  | quiesceRecover (w : QuiescenceWait) (poisoned : Bool)
  | quiesceStalled
  | quiesceUnlock (w : QuiescenceWait)
  | quiesceReturned (o : QuiescenceOutcome)
  deriving DecidableEq, Repr

/-- A coordinator and its threads. `owned` counts the guards that are not being dropped. -/
structure Quiescence (T : Type) where
  kind : QuiescenceKind
  state : QuiescenceState
  owner : Option T
  poisoned : Bool
  aliveFence : Bool
  owned : Nat
  pc : T → QuiescencePc

def Quiescence.init (T : Type) (kind : QuiescenceKind) : Quiescence T where
  kind
  state := ⟨true, 0⟩
  owner := none
  poisoned := false
  aliveFence := true
  owned := 0
  pc _ := .idle

inductive QuiescenceAction (T : Type) where
  | callEnter (t : T)
  | callDrop (t : T)
  | callQuiesce (t : T)
  /-- The next step of a thread in a call. -/
  | advance (t : T)
  /-- The grace period is over. -/
  | timeout (t : T)
  | spuriousWakeup (t : T)
  | poison
  | setFence (alive : Bool)

/-! ## Guards and wake-ups -/

/-- A thread that has a guard in its hands: one it was just given, or one it is about to count
down. -/
def QuiescencePc.guards : QuiescencePc → Nat
  | .enterAdmitted | .dropLock | .dropHeld _ => 1
  | _ => 0

/-- The number of live guards. -/
def Quiescence.liveGuards {T : Type} [Fintype T] (x : Quiescence T) : Nat :=
  x.owned + ∑ t, (x.pc t).guards

/-- A thread that dropped the last guard and has not notified yet. -/
def QuiescencePc.wakes (inFlight : Nat) : QuiescencePc → Bool
  | .dropCounted _ => inFlight = 0
  | .dropUnlock wake _ => wake
  | .dropNotify _ => true
  | _ => false

/-- A wake-up is pending. -/
def Quiescence.WakePending {T : Type} (x : Quiescence T) : Prop :=
  ∃ t, (x.pc t).wakes x.state.inFlight = true

def QuiescencePc.asleep : QuiescencePc → Bool
  | .quiesceAsleep _ => true
  | _ => false

/-- `notify_all`. -/
def QuiescencePc.notified : QuiescencePc → QuiescencePc
  | .quiesceAsleep w => .quiesceRelock w
  | pc => pc

/-! ## Steps -/

section
variable {T : Type} [DecidableEq T]

def Quiescence.goto (x : Quiescence T) (t : T) (pc : QuiescencePc) : Quiescence T :=
  { x with pc := Function.update x.pc t pc }

def Quiescence.unlock (x : Quiescence T) : Quiescence T := { x with owner := none }

def Quiescence.setInFlight (x : Quiescence T) (n : Nat) : Quiescence T :=
  { x with state := { x.state with inFlight := n } }

/-- `Mutex::lock`, and the return from a wait: the thread goes on with whether the mutex is
poisoned. -/
def Quiescence.lock (x : Quiescence T) (t : T) (pc : Bool → QuiescencePc) :
    Option (Quiescence T) :=
  if x.owner = none then some ({ x with owner := some t }.goto t (pc x.poisoned)) else none

/-- `clear_poison`, where the mutex was found poisoned. -/
def Quiescence.clearPoison (x : Quiescence T) (poisoned : Bool) : Quiescence T :=
  if poisoned then { x with poisoned := false } else x

/-- Whether `enter` rejects, the state being read under the lock. -/
def Quiescence.rejects (x : Quiescence T) : Bool :=
  !x.state.active || (x.kind = .hostCall && !x.aliveFence)

/-- The end of a drop, after the notification or without one. -/
def dropEnd (poisoned : Bool) : QuiescencePc := if poisoned then .dropClear else .idle

/-- The outcome of a quiesce that found no guard live in the wait `w`. -/
def QuiescenceWait.outcome : QuiescenceWait → QuiescenceOutcome
  | .grace => .clean
  | .unbounded => .stalledWait

/-- The next step of a thread in a call; a thread that is asleep has none. -/
def Quiescence.advance (x : Quiescence T) (t : T) : Option (Quiescence T) :=
  match x.pc t with
  | .idle | .quiesceAsleep _ | .quiesceReturned _ => none
  | .enterLock => x.lock t .enterHeld
  | .enterHeld poisoned =>
    some (x.goto t (if poisoned || x.rejects then .enterRejected else .enterChecked))
  | .enterChecked => some ((x.setInFlight (x.state.inFlight + 1)).goto t .enterAdmitted)
  | .enterRejected => some (x.unlock.goto t .idle)
  | .enterAdmitted => some ({ x.unlock with owned := x.owned + 1 }.goto t .idle)
  | .dropLock => x.lock t .dropHeld
  | .dropHeld poisoned =>
    some ((x.setInFlight (x.state.inFlight - 1)).goto t (.dropCounted poisoned))
  | .dropCounted poisoned => some (x.goto t (.dropUnlock (x.state.inFlight = 0) poisoned))
  | .dropUnlock wake poisoned =>
    some (x.unlock.goto t (if wake then .dropNotify poisoned else dropEnd poisoned))
  | .dropNotify poisoned =>
    some ({ x with pc := fun u => (x.pc u).notified }.goto t (dropEnd poisoned))
  | .dropClear => some ((x.clearPoison true).goto t .idle)
  | .quiesceLock => x.lock t .quiesceHeld
  | .quiesceHeld poisoned =>
    let x := x.clearPoison poisoned
    some ({ x with state := { x.state with active := false } }.goto t (.quiesceLoop .grace))
  | .quiesceLoop w =>
    if x.state.inFlight = 0 then some (x.goto t (.quiesceUnlock w))
    else some (x.unlock.goto t (.quiesceAsleep w))
  | .quiesceRelock w => x.lock t (.quiesceRecover w)
  | .quiesceRecover w poisoned => some ((x.clearPoison poisoned).goto t (.quiesceLoop w))
  | .quiesceStalled => some (x.unlock.goto t (.quiesceRelock .unbounded))
  | .quiesceUnlock w => some (x.unlock.goto t (.quiesceReturned w.outcome))

/-- A thread outside a call. -/
def QuiescencePc.free : QuiescencePc → Bool
  | .idle | .quiesceReturned _ => true
  | _ => false

def quiescenceStep (x : Quiescence T) : QuiescenceAction T → Option (Quiescence T)
  | .callEnter t => if (x.pc t).free then some (x.goto t .enterLock) else none
  | .callDrop t =>
    if (x.pc t).free ∧ 0 < x.owned then some ({ x with owned := x.owned - 1 }.goto t .dropLock)
    else none
  | .callQuiesce t => if (x.pc t).free then some (x.goto t .quiesceLock) else none
  | .advance t => x.advance t
  | .timeout t =>
    match x.pc t with
    | .quiesceLoop .grace =>
      if x.state.inFlight = 0 then none else some (x.goto t .quiesceStalled)
    | .quiesceAsleep .grace => some (x.goto t (.quiesceRelock .grace))
    | _ => none
  | .spuriousWakeup t =>
    match x.pc t with
    | .quiesceAsleep w => some (x.goto t (.quiesceRelock w))
    | _ => none
  | .poison => if x.owner = none then some { x with poisoned := true } else none
  | .setFence alive => some { x with aliveFence := alive }

end

end NamPlug
