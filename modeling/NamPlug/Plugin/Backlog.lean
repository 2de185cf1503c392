import NamPlug.Plugin.Chain

/-!
# The chain that is on its way

What the drain of a callback is for, without its budget, its parking and its superseding: a chain
that takes every command at once, in the order the main thread sent them (`Chain.arrive`). A
processor stands for the chain it has once its backlog is installed (`settled`). What reaches the
prompt chain in a step is what the step puts on the ring, and a slimmed model (`arrivals`).
-/

namespace NamPlug

/-- The commands that wait for the audio thread, oldest first. -/
def backlog (s : Shared) (p : Processor) : List ClapParamPayload :=
  p.recoveredCommands ++ p.deferred.toList ++ p.candidate.toList ++ s.ring

/-- What reaches a chain. -/
inductive Incoming where
  | command (c : ClapParamPayload)
  | slimmable (r : SlimmableRebuild)
  deriving DecidableEq, Repr

/-- A chain without its adaptive controller. -/
def Chain.heard (c : Chain) : Chain := { c with level := ⟨none, none⟩ }

section
variable (E : Engine)

/-- A command is installed at once, and a slimmed model on the model it was cut for. -/
def Chain.arrive (hostRate : Nat) (c : Chain) : Incoming → Chain
  | .command d => (c.install E hostRate d).heard
  | .slimmable r => if r.generation = c.modelGeneration then { c with modelL := some r.model } else c

/-- Commands arrive one after the other. -/
def Chain.arriveAll (hostRate : Nat) (c : Chain) (ds : List ClapParamPayload) : Chain :=
  (ds.map .command).foldl (Chain.arrive E hostRate) c

/-- The chain of a processor once its backlog is installed. -/
def settled (s : Shared) (p : Processor) : Chain :=
  (p.chain s).heard.arriveAll E s.sampleRate (backlog s p)

/-- What a step of the audio thread sends to the chain. Its commands were sent before. -/
def audioArrivals (p : Processor) : AudioAction → List Incoming
  | .slimmable .install => (p.slim.deferred.map Incoming.slimmable).toList
  | _ => []

/-- What a step sends to the chain. -/
def Plugin.arrivals (x : Plugin) : Action → List Incoming
  | .main a => ((mainStep E x.shared a).ring.drop x.shared.ring.length).map .command
  | .audio a => (x.proc.map (audioArrivals · a)).getD []
  | _ => []

end

/-- The steps between an activation and a deactivation. -/
def Action.isActive : Action → Bool
  | .main _ => true
  | .audio _ => true
  | .activate .. => false
  | .deactivate => false

/-- An impulse response a command loads was built for the rate of the host. -/
def ClapParamPayload.AtRate (hostRate : Nat) (c : ClapParamPayload) : Prop :=
  ∀ pair, c = .loadCabIr pair → CabSimPair.builtElsewhere hostRate pair = false

end NamPlug
