import NamPlug.Plugin.Chain

/-!
# Custody of the DSP resources

Every model, resampler, stream, oversampler and cab-sim pair is a box on the heap, and the audio
thread must not free one. Here the commands, the slimmed models and the installed chain are made of
boxes, each with an identity, and the audio thread hands what it replaces, supersedes or refuses to
the garbage collection (`processor/events.rs`, `processor/gc.rs`): the channel to the main thread,
the parking lot of the audio thread where the channel is full, and the overflow.

The sink of the engine crate (`GcSink::retire`) is a parameter; `Stored` says what it does. The
overflow has room by that assumption. The main thread empties the channel while the audio thread
works: an action of the audio thread comes with what the main thread takes before each of its
pushes. `Gc.retired`, `Gc.freed` and `Shared.issued` are not in the source. They record what was
handed to the sink, what the main thread freed from there, and what the main thread put into the
audio thread's hands and did not take back itself.
-/

namespace NamPlug.Boxed

/-- `Box<T>`. -/
structure Box (α : Type) where
  id : Nat
  val : α
  deriving DecidableEq, Repr

/-- `GcItem`. -/
inductive GcItem where
  | model (b : Box StaticModel)
  | resampler (b : Box NamResampler)
  | streaming (b : Box StreamingResampleBuffer)
  | oversample (b : Box OversampleEngine)
  | cabSimPair (b : Box CabSimPair)
  deriving DecidableEq, Repr

def GcItem.id : GcItem → Nat
  | .model b => b.id
  | .resampler b => b.id
  | .streaming b => b.id
  | .oversample b => b.id
  | .cabSimPair b => b.id

/-! ## Payloads -/

structure LoadModelPayload where
  generation : Nat
  modelL : Option (Box StaticModel)
  modelR : Option (Box StaticModel)
  newResampler : Box NamResampler
  newStream : Box StreamingResampleBuffer
  modelRate : Nat
  deriving DecidableEq, Repr

structure RestoreTxn where
  generation : Nat
  model : Option LoadModelPayload
  ir : Option (Option (Box CabSimPair))
  params : RtProcessingParams
  deriving DecidableEq, Repr

inductive ClapParamPayload where
  | params (p : RtProcessingParams)
  | loadModel (m : LoadModelPayload)
  | loadCabIr (pair : Option (Box CabSimPair))
  | setOversample (osL osR : Box OversampleEngine)
  | restoreTxn (txn : RestoreTxn)
  deriving DecidableEq, Repr

structure SlimmableRebuild where
  generation : Nat
  model : Box StaticModel
  deriving DecidableEq, Repr

/-! ### Out of their boxes -/

def LoadModelPayload.unbox (m : LoadModelPayload) : NamPlug.LoadModelPayload where
  generation := m.generation
  modelL := m.modelL.map Box.val
  modelR := m.modelR.map Box.val
  newResampler := m.newResampler.val
  newStream := m.newStream.val
  modelRate := m.modelRate

def RestoreTxn.unbox (t : RestoreTxn) : NamPlug.RestoreTxn where
  generation := t.generation
  model := t.model.map LoadModelPayload.unbox
  ir := t.ir.map (·.map Box.val)
  params := t.params

def ClapParamPayload.unbox : ClapParamPayload → NamPlug.ClapParamPayload
  | .params p => .params p
  | .loadModel m => .loadModel m.unbox
  | .loadCabIr pair => .loadCabIr (pair.map Box.val)
  | .setOversample osL osR => .setOversample osL.val osR.val
  | .restoreTxn txn => .restoreTxn txn.unbox

def SlimmableRebuild.unbox (r : SlimmableRebuild) : NamPlug.SlimmableRebuild :=
  ⟨r.generation, r.model.val⟩

/-! ### The boxes of a payload -/

def modelItems (m : Option (Box StaticModel)) : List GcItem := (m.map GcItem.model).toList

def pairItems (p : Option (Box CabSimPair)) : List GcItem := (p.map GcItem.cabSimPair).toList

def LoadModelPayload.items (m : LoadModelPayload) : List GcItem :=
  modelItems m.modelL ++ modelItems m.modelR ++
    [.resampler m.newResampler, .streaming m.newStream]

def RestoreTxn.items (t : RestoreTxn) : List GcItem :=
  (match t.model with
    | some m => m.items
    | none => []) ++
  match t.ir with
    | some pair => pairItems pair
    | none => []

def ClapParamPayload.items : ClapParamPayload → List GcItem
  | .params _ => []
  | .loadModel m => m.items
  | .loadCabIr pair => pairItems pair
  | .setOversample osL osR => [.oversample osL, .oversample osR]
  | .restoreTxn txn => txn.items

def SlimmableRebuild.items (r : SlimmableRebuild) : List GcItem := [.model r.model]

/-! ## The garbage collection -/

/-- The capacity of the GC channel. -/
def GC_CAPACITY : Nat := 32

def PARKING_LOT_SLOTS : Nat := 16

structure Gc where
  channel : List GcItem
  overflow : List GcItem
  -- of the processor
  parkingLot : List (Option GcItem)
  parkingLotDirty : Bool
  /-- How many items the main thread takes off the channel before each push to come. -/
  turns : List Nat
  retired : List GcItem
  freed : List GcItem
  deriving DecidableEq, Repr

def Gc.init : Gc where
  channel := []
  overflow := []
  parkingLot := List.replicate PARKING_LOT_SLOTS none
  parkingLotDirty := false
  turns := []
  retired := []
  freed := []

/-- The main thread frees the oldest items of the channel. -/
def Gc.collect (g : Gc) (n : Nat) : Gc :=
  { g with channel := g.channel.drop n, freed := g.freed ++ g.channel.take n }

/-- What the main thread does before a push. -/
def Gc.turn (g : Gc) : Gc :=
  match g.turns with
  | [] => g
  | n :: rest => { g with turns := rest }.collect n

/-- A push on the channel; the result says whether there was room. -/
def Gc.push (g : Gc) (i : GcItem) : Gc × Bool :=
  if g.turn.channel.length < GC_CAPACITY then
    ({ g.turn with channel := g.turn.channel ++ [i] }, true)
  else (g.turn, false)

/-- Where an item goes: the first place with room. -/
inductive Stored (g : Gc) (i : GcItem) : Gc → Prop where
  | channel (h : g.channel.length < GC_CAPACITY) :
    Stored g i { g with channel := g.channel ++ [i] }
  | parkingLot (k : Nat) (h : ¬ g.channel.length < GC_CAPACITY)
      (hk : g.parkingLot[k]? = some none) :
    Stored g i
      { g with parkingLot := g.parkingLot.set k (some i), parkingLotDirty := true }
  | overflow (h : ¬ g.channel.length < GC_CAPACITY) (hn : none ∉ g.parkingLot) :
    Stored g i { g with overflow := g.overflow ++ [i] }

/-- What the parking lot holds. -/
def Gc.parked (g : Gc) : List GcItem := g.parkingLot.reduceOption

/-- `GcSink`. -/
structure GcSink where
  store : Gc → GcItem → Gc
  stored : ∀ g i, Stored g.turn i (store g i)

/-- The sweep of `drain_parking_lot`: it stops at the first item the channel has no room for. The
flag says whether one remained. -/
def Gc.sweep (g : Gc) : List (Option GcItem) → Gc × List (Option GcItem) × Bool
  | [] => (g, [], false)
  | none :: slots =>
    let r := g.sweep slots
    (r.1, none :: r.2.1, r.2.2)
  | some i :: slots =>
    match g.push i with
    | (g, true) =>
      let r := g.sweep slots
      (r.1, none :: r.2.1, r.2.2)
    | (g, false) => (g, some i :: slots, true)

/-- `drain_parking_lot`. -/
def Gc.drainParkingLot (g : Gc) : Gc :=
  if g.parkingLotDirty then
    let r := g.sweep g.parkingLot
    let g := { r.1 with parkingLot := r.2.1 }
    if r.2.2 then g else { g with parkingLotDirty := false }
  else g

section
variable (G : GcSink)

/-- `GcSink::retire`. -/
def Gc.retire (g : Gc) (i : GcItem) : Gc :=
  { G.store g i with retired := (G.store g i).retired ++ [i] }

/-- What was replaced is retired, if there was anything. -/
def Gc.retireAll (g : Gc) (is : List GcItem) : Gc := is.foldl (Gc.retire G) g

end

/-! ## State -/

structure Processor where
  modelL : Option (Box StaticModel)
  modelR : Option (Box StaticModel)
  modelGeneration : Nat
  cabsimPair : Option (Box CabSimPair)
  resampler : Box NamResampler
  stream : Box StreamingResampleBuffer
  osL : Box OversampleEngine
  osR : Box OversampleEngine
  recoveredCommands : List ClapParamPayload
  deferred : Option ClapParamPayload
  candidate : Option ClapParamPayload
  slimDeferred : Option SlimmableRebuild
  inCallback : Bool
  deriving DecidableEq, Repr

structure Shared where
  ring : List ClapParamPayload
  recoveredCommands : List ClapParamPayload
  slimRing : List SlimmableRebuild
  sampleRate : Nat
  gc : Gc
  issued : List GcItem
  deriving DecidableEq, Repr

structure Plugin where
  shared : Shared
  proc : Option Processor
  deriving DecidableEq, Repr

def Shared.init : Shared where
  ring := []
  recoveredCommands := []
  slimRing := []
  sampleRate := 0
  gc := .init
  issued := []

def Plugin.init : Plugin := ⟨Shared.init, none⟩

/-! ## The audio thread -/

section
variable (G : GcSink)

def Shared.retire (s : Shared) (i : GcItem) : Shared := { s with gc := s.gc.retire G i }

def Shared.retireAll (s : Shared) (is : List GcItem) : Shared :=
  { s with gc := s.gc.retireAll G is }

def coldLoadModel (s : Shared) (p : Processor) (m : LoadModelPayload) : Shared × Processor :=
  let s := s.retireAll G (modelItems p.modelL)
  let s := s.retireAll G (modelItems p.modelR)
  let s := s.retire G (.resampler p.resampler)
  let s := s.retire G (.streaming p.stream)
  (s, { p with
    modelGeneration := m.generation
    modelL := m.modelL
    modelR := m.modelR
    resampler := m.newResampler
    stream := m.newStream })

def coldLoadCabsim (s : Shared) (p : Processor) (pair : Option (Box CabSimPair)) :
    Shared × Processor :=
  if CabSimPair.builtElsewhere s.sampleRate (pair.map Box.val) then
    (s.retireAll G (pairItems pair), p)
  else (s.retireAll G (pairItems p.cabsimPair), { p with cabsimPair := pair })

def coldLoadOs (s : Shared) (p : Processor) (osL osR : Box OversampleEngine) :
    Shared × Processor :=
  let s := s.retire G (.oversample p.osL)
  let s := s.retire G (.oversample p.osR)
  (s, { p with osL, osR })

def coldApplyRestoreTxn (s : Shared) (p : Processor) (txn : RestoreTxn) : Shared × Processor :=
  let r := match txn.model with
    | some m => coldLoadModel G s p m
    | none => (s, p)
  match txn.ir with
  | some ir => coldLoadCabsim G r.1 r.2 ir
  | none => r

/-- `apply_structural`. -/
def applyStructural (s : Shared) (p : Processor) : ClapParamPayload → Shared × Processor
  | .params _ => (s, p)
  | .loadModel m => coldLoadModel G s p m
  | .loadCabIr pair => coldLoadCabsim G s p pair
  | .setOversample osL osR => coldLoadOs G s p osL osR
  | .restoreTxn txn => coldApplyRestoreTxn G s p txn

/-- `discard_structural_payload`: a restore would be dropped here. -/
def discardStructuralPayload (s : Shared) : ClapParamPayload → Shared
  | .loadModel m =>
    let s := s.retireAll G (modelItems m.modelL)
    let s := s.retireAll G (modelItems m.modelR)
    let s := s.retire G (.resampler m.newResampler)
    s.retire G (.streaming m.newStream)
  | .loadCabIr pair => s.retireAll G (pairItems pair)
  | .setOversample osL osR => (s.retire G (.oversample osL)).retire G (.oversample osR)
  | .params _ => s
  | .restoreTxn _ => s

/-- The drain of the ring. -/
def drainMove (s : Shared) (p : Processor) : DrainMove → Option (Shared × Processor)
  | .installDeferred =>
    match p.deferred with
    | some d =>
      if s.ring.head?.any (·.unbox.supersedes d.unbox) then none
      else some (applyStructural G s { p with deferred := none } d)
    | none => none
  | .discardDeferred =>
    match p.deferred with
    | some d =>
      if s.ring.head?.any (·.unbox.supersedes d.unbox) then
        some (discardStructuralPayload G s d, { p with deferred := none })
      else none
    | none => none
  | .applyParams =>
    match p.deferred, s.ring with
    | none, .params q :: rest => some (applyStructural G { s with ring := rest } p (.params q))
    | _, _ => none
  | .popCandidate =>
    match p.deferred, p.candidate, s.ring with
    | none, none, h :: rest =>
      if h.unbox.isStructural then some ({ s with ring := rest }, { p with candidate := some h })
      else none
    | _, _, _ => none
  | .supersede =>
    match p.deferred, p.candidate, s.ring with
    | none, some c, h :: rest =>
      if h.unbox.supersedes c.unbox then
        some (discardStructuralPayload G { s with ring := rest } c, { p with candidate := some h })
      else none
    | _, _, _ => none
  | .installCandidate =>
    match p.deferred, p.candidate with
    | none, some c => some (applyStructural G s { p with candidate := none } c)
    | _, _ => none

/-- The drain of the slimmed models, with `SlimmableSwapHandler::install` and `discard`. -/
def slimmableMove (s : Shared) (p : Processor) : SlimmableMove → Option (Shared × Processor)
  | .take =>
    match p.slimDeferred, s.slimRing with
    | none, r :: rest => some ({ s with slimRing := rest }, { p with slimDeferred := some r })
    | _, _ => none
  | .install =>
    match p.slimDeferred with
    | some r =>
      if r.generation = p.modelGeneration then
        some (s.retireAll G (modelItems p.modelL),
          { p with modelL := some r.model, slimDeferred := none })
      else none
    | none => none
  | .discard =>
    match p.slimDeferred with
    | some r =>
      if r.generation ≠ p.modelGeneration ∨
          s.slimRing.head?.any (·.generation = r.generation) then
        some (s.retire G (.model r.model), { p with slimDeferred := none })
      else none
    | none => none

/-- `replay_recovered_commands`. -/
def replayRecovered (s : Shared) (p : Processor) : Shared × Processor :=
  p.recoveredCommands.foldl (fun r c => applyStructural G r.1 r.2 c)
    (s, { p with recoveredCommands := [] })

/-- The start of `process_events`, up to the drain. -/
def beginEvents (s : Shared) (p : Processor) : Shared × Processor :=
  let r := replayRecovered G s { p with inCallback := true }
  ({ r.1 with gc := r.1.gc.drainParkingLot }, r.2)

/-- The rest of `process_events`: a candidate that was not installed is parked. -/
def endEvents (s : Shared) (p : Processor) : Shared × Processor :=
  (s, match p.candidate with
    | some c => { p with candidate := none, deferred := some c, inCallback := false }
    | none => { p with inCallback := false })

def audioStep (s : Shared) (p : Processor) : AudioAction → Option (Shared × Processor)
  | .beginEvents _ => if p.inCallback then none else some (beginEvents G s p)
  | .drain m => if p.inCallback then drainMove G s p m else none
  | .endEvents => if p.inCallback then some (endEvents s p) else none
  | .slimmable m => if p.inCallback then slimmableMove G s p m else none
  | .hostEvents _ => if p.inCallback then none else some (s, p)
  | .flushInner _ _ => if p.inCallback then none else some (s, p)
  | .signalSlimmableRebuild _ => if p.inCallback then none else some (s, p)
  | .reset => if p.inCallback then none else some (s, p)

end

/-! ## The main thread -/

/-- The boxes of the chain. -/
def Processor.installed (p : Processor) : List GcItem :=
  modelItems p.modelL ++ modelItems p.modelR ++ pairItems p.cabsimPair ++
    [.resampler p.resampler, .streaming p.stream, .oversample p.osL, .oversample p.osR]

def commandItems (cs : List ClapParamPayload) : List GcItem := cs.flatMap ClapParamPayload.items

def rebuildItems (rs : List SlimmableRebuild) : List GcItem := rs.flatMap SlimmableRebuild.items

/-- The boxes of the payloads a processor holds: those to be replayed and those parked. -/
def Processor.held (p : Processor) : List GcItem :=
  commandItems p.recoveredCommands ++ commandItems p.deferred.toList ++
    commandItems p.candidate.toList ++ rebuildItems p.slimDeferred.toList

/-- Boxes no one has yet. -/
def Shared.fresh (s : Shared) (is : List GcItem) : Prop :=
  ((s.issued ++ is).map GcItem.id).Nodup

instance (s : Shared) (is : List GcItem) : Decidable (s.fresh is) :=
  inferInstanceAs (Decidable (List.Nodup _))

def ClapParamPayload.isLoadModel : ClapParamPayload → Bool
  | .loadModel _ => true
  | _ => false

inductive Action where
  /-- The audio thread, with the main thread's turns at the channel. -/
  | audio (turns : List Nat) (a : AudioAction)
  /-- A command is pushed on the ring. -/
  | send (c : ClapParamPayload)
  | sendSlimmable (r : SlimmableRebuild)
  /-- The main thread frees items of the channel. -/
  | collect (n : Nat)
  | collectOverflow
  /-- An activation succeeds with the chain it assembled. -/
  | activate (p : Processor) (sampleRate : Nat)
  /-- An activation fails and drains the ring. -/
  | failActivation
  | deactivate

/-- The garbage collection after `drain_gc_final`, with the empty parking lot of the next
processor. -/
def Gc.drainFinal (g : Gc) : Gc :=
  { g with
    channel := []
    overflow := []
    parkingLot := List.replicate PARKING_LOT_SLOTS none
    parkingLotDirty := false
    freed := g.freed ++ g.channel ++ g.overflow ++ g.parked }

/-- The rollback of a failed activation: models go back to the main thread, other commands wait for
the next activation, before those that wait already. -/
def Shared.recover (s : Shared) : Shared :=
  { s with
    ring := []
    recoveredCommands := s.ring.filter (!·.isLoadModel) ++ s.recoveredCommands
    issued := s.issued.diff (commandItems (s.ring.filter (·.isLoadModel))) }

/-- The boxes of the payloads that are queued, to be replayed or parked. -/
def Plugin.payloads (x : Plugin) : List GcItem :=
  commandItems x.shared.ring ++ commandItems x.shared.recoveredCommands ++
    rebuildItems x.shared.slimRing ++
    match x.proc with
    | some p => p.held
    | none => []

/-- The boxes of the installed chain. -/
def Plugin.installed (x : Plugin) : List GcItem :=
  match x.proc with
  | some p => p.installed
  | none => []

section
variable (G : GcSink)

def step (x : Plugin) : Action → Option Plugin
  | .audio turns a =>
    x.proc.bind fun p =>
      (audioStep G { x.shared with gc := { x.shared.gc with turns } } p a).map fun r =>
        ⟨r.1, some r.2⟩
  | .send c =>
    if x.shared.ring.length < CMD_QUEUE_CAPACITY ∧ x.shared.fresh c.items then
      some { x with shared := { x.shared with
        ring := x.shared.ring ++ [c]
        issued := x.shared.issued ++ c.items } }
    else none
  | .sendSlimmable r =>
    if x.shared.slimRing.length < SLIMMABLE_QUEUE_CAPACITY ∧ x.shared.fresh r.items then
      some { x with shared := { x.shared with
        slimRing := x.shared.slimRing ++ [r]
        issued := x.shared.issued ++ r.items } }
    else none
  | .collect n => some { x with shared := { x.shared with gc := x.shared.gc.collect n } }
  | .collectOverflow =>
    some { x with shared := { x.shared with gc := { x.shared.gc with
      overflow := []
      freed := x.shared.gc.freed ++ x.shared.gc.overflow } } }
  | .activate p sampleRate =>
    if x.proc = none ∧ x.shared.fresh p.installed then
      some ⟨{ x.shared with
          recoveredCommands := []
          sampleRate
          issued := x.shared.issued ++ p.installed },
        some { p with
          recoveredCommands := x.shared.recoveredCommands
          deferred := none
          candidate := none
          slimDeferred := none
          inCallback := false }⟩
    else none
  | .failActivation =>
    if x.proc = none then some ⟨x.shared.recover, none⟩ else none
  | .deactivate =>
    match x.proc with
    | some p =>
      if p.inCallback then none
      else some ⟨{ x.shared with
          gc := x.shared.gc.drainFinal
          issued := x.shared.issued.diff (p.installed ++ p.held) }, none⟩
    | none => none

end

end NamPlug.Boxed
