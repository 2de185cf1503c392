import NamPlug.Plugin.Step

/-!
# The installed chain

The resources a processor runs, with the latencies it publishes, as a value of their own. A step of
the audio thread is a sequence of operations on it (`audioOps`): it installs what a command carries
or a slimmed model, and the adaptive controller asks for channels or starts over. Which commands
come when is left to the drain.
-/

namespace NamPlug

structure Chain where
  modelL : Option StaticModel
  modelR : Option StaticModel
  modelGeneration : Nat
  resampler : NamResampler
  stream : StreamingResampleBuffer
  osL : OversampleEngine
  osR : OversampleEngine
  cabsimPair : Option CabSimPair
  cachedEffectiveLatency : Nat
  dryDelay : DryDelayLine
  level : SlimLevel
  currentStreamLatency : Nat
  currentCabsimLatency : Nat
  deriving DecidableEq, Repr

/-- The chain of a processor. -/
def Processor.chain (s : Shared) (p : Processor) : Chain where
  modelL := p.modelL
  modelR := p.modelR
  modelGeneration := p.modelGeneration
  resampler := p.resampler
  stream := p.stream
  osL := p.osL
  osR := p.osR
  cabsimPair := p.cabsimPair
  cachedEffectiveLatency := p.cachedEffectiveLatency
  dryDelay := p.dryDelay
  level := p.slim.level
  currentStreamLatency := s.currentStreamLatency
  currentCabsimLatency := s.currentCabsimLatency

section
variable (E : Engine)

/-- The latency of what is installed. -/
def Chain.latency (c : Chain) : Nat :=
  E.streamLatency c.stream + E.osLatency c.osL + cabsimLatency c.cabsimPair

def Chain.recompute (c : Chain) : Chain :=
  { c with
    cachedEffectiveLatency := c.latency E
    dryDelay := c.dryDelay.setDelay (c.latency E) }

def Chain.loadModel (c : Chain) (m : LoadModelPayload) : Chain :=
  Chain.recompute E { c with
    modelL := m.modelL
    modelR := m.modelR
    modelGeneration := m.generation
    resampler := m.newResampler
    stream := m.newStream
    level := c.level.install m.modelL
    currentStreamLatency := E.streamLatency m.newStream }

/-- Whether a pair was built for another host rate. -/
def CabSimPair.builtElsewhere (hostRate : Nat) : Option CabSimPair → Bool
  | some c => hostRate ≠ 0 ∧ c.sampleRate ≠ hostRate
  | none => false

def Chain.loadCabsim (c : Chain) (hostRate : Nat) (pair : Option CabSimPair) : Chain :=
  if CabSimPair.builtElsewhere hostRate pair then c
  else Chain.recompute E { c with
    cabsimPair := pair
    currentCabsimLatency := NamPlug.cabsimLatency pair }

def Chain.loadOs (c : Chain) (osL osR : OversampleEngine) : Chain :=
  Chain.recompute E { c with osL, osR }

/-- What a command does to the chain. -/
def Chain.install (hostRate : Nat) (c : Chain) : ClapParamPayload → Chain
  | .params _ => c
  | .loadModel m => c.loadModel E m
  | .loadCabIr pair => c.loadCabsim E hostRate pair
  | .setOversample osL osR => c.loadOs E osL osR
  | .restoreTxn txn =>
    let c := match txn.model with
      | some m => c.loadModel E m
      | none => c
    match txn.ir with
    | some ir => c.loadCabsim E hostRate ir
    | none => c

/-- The operations of the audio thread on its chain. -/
inductive ChainOp where
  | command (c : ClapParamPayload)
  | slimmable (r : SlimmableRebuild)
  /-- The adaptive controller asks for channels. -/
  | request (ch : Nat)
  /-- The adaptive controller starts over at the full count. -/
  | reset

def Chain.apply (hostRate : Nat) (c : Chain) : ChainOp → Chain
  | .command d => c.install E hostRate d
  | .slimmable r => { c with modelL := some r.model }
  | .request ch => { c with level := ⟨some ch, some ch⟩ }
  | .reset => { c with level := { c.level with believed := none } }

/-- The chain an activation starts with. -/
def Assembly.chain (a : Assembly) (cfg : AudioConfig) : Chain where
  modelL := a.modelL
  modelR := a.modelR
  modelGeneration := a.modelGeneration
  resampler := a.resampler
  stream := a.stream
  osL := a.osL
  osR := a.osR
  cabsimPair := a.cabsimPair
  cachedEffectiveLatency := a.latency E
  dryDelay := .new (cfg.dryDelayCapacity E) (a.latency E)
  level := ⟨none, none⟩
  currentStreamLatency := E.streamLatency a.stream
  currentCabsimLatency := NamPlug.cabsimLatency a.cabsimPair

end

/-- What a step of the audio thread does to the chain. Light parameters do nothing to it. -/
def audioOps (p : Processor) : AudioAction → List ChainOp
  | .beginEvents _ => p.recoveredCommands.map .command
  | .drain .installDeferred => (p.deferred.map ChainOp.command).toList
  | .drain .installCandidate => (p.candidate.map ChainOp.command).toList
  | .slimmable .install => (p.slim.deferred.map ChainOp.slimmable).toList
  | .signalSlimmableRebuild ch => [.request ch]
  | .reset => [.reset]
  | _ => []

end NamPlug
