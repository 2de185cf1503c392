import NamPlug.Plugin.Audio

/-!
# Slimmed models

The adaptive controller of the audio thread asks for a model with fewer channels
(`signal_slimmable_rebuild`, `processor/events.rs`). The loader worker cuts it from the full weights
the main thread published last (`plugin/main_thread/model_loader.rs`), or the main thread does
(`handle_slimmable_rebuild_inline`, `housekeeping.rs`), and the audio thread installs it through a
ring of its own (`SlimmableSwapHandler`), unless another model runs by then.

A poll of the worker reads the request in one step and builds in another, and the main thread lowers
the flag in a step of its own after its push. The races between the stores of a request, the polls
and the drain are those of `Plugin/Rebuild`.
-/

namespace NamPlug

/-- The capacity of the ring of slimmed models. -/
def SLIMMABLE_QUEUE_CAPACITY : Nat := 4

/-! ## Building -/

/-- `slice_wavenet_model`, where it succeeds, and `set_max_buffer_size`, whose failure goes
unnoticed. -/
def sliceWavenetModel (full : StaticModel) (targetCh bufferSize : Nat) (resized : Bool) :
    StaticModel :=
  { full with
    channels := some targetCh
    maxBuffer := if 0 < bufferSize ∧ resized = true then bufferSize else full.maxBuffer }

/-- `build_slimmable`; `sliced` says whether the weights can be cut. -/
def buildSlimmable (s : Shared) (targetCh generation : Nat) (sliced resized : Bool) :
    SlimmableRebuildOutcome :=
  if targetCh < 4 then .skipped
  else
    match s.slim.fullWavenetModel with
    | none => .skipped
    | some w =>
      if sliced then .ready ⟨generation, sliceWavenetModel w targetCh s.bufferSize resized⟩
      else .failed

/-! ## The worker -/

def SlimmableShared.requested (x : SlimmableShared) : Nat × Nat :=
  (x.requestedCh, x.requestedGeneration)

/-- `poll_rebuilds`, up to the build. -/
def SlimmableShared.poll (x : SlimmableShared) : SlimmableShared :=
  match x.worker with
  | .building _ _ => x
  | .idle =>
    if x.needsRebuild then
      if x.built = some x.requested then x
      else { x with worker := .building x.requestedCh x.requestedGeneration }
    else { x with built := none }

def Shared.pollSlimmable (s : Shared) : Shared := { s with slim := s.slim.poll }

/-- The build and its publication in the slot. -/
def Shared.publishSlimmable (s : Shared) (sliced resized : Bool) : Shared :=
  match s.slim.worker with
  | .idle => s
  | .building ch generation =>
    { s with slim := { s.slim with
      slot := some (buildSlimmable s ch generation sliced resized)
      built := some (ch, generation)
      worker := .idle } }

/-! ## The main thread -/

/-- A rebuild is pushed; a full ring leaves all as it is. -/
def SlimmableShared.push (x : SlimmableShared) (r : SlimmableRebuild) : Option SlimmableShared :=
  if x.ring.length < SLIMMABLE_QUEUE_CAPACITY then
    some { x with ring := x.ring ++ [r], drain := .lowering (some r) }
  else none

/-- `drain_slimmable_rebuild`, up to the flag. -/
def SlimmableShared.drainSlot (x : SlimmableShared) : SlimmableShared :=
  if x.needsRebuild ∧ x.drain = .idle then
    match x.slot with
    | none => x
    | some (.ready r) => ({ x with slot := none }.push r).getD x
    | some _ => { x with slot := none, drain := .lowering none }
  else x

def Shared.drainSlimmableRebuild (s : Shared) : Shared := { s with slim := s.slim.drainSlot }

/-- `handle_slimmable_rebuild_inline`, with no worker to be had, up to the flag. -/
def Shared.handleSlimmableRebuildInline (s : Shared) (sliced resized : Bool) : Shared :=
  if s.slim.needsRebuild ∧ s.slim.drain = .idle then
    match buildSlimmable s s.slim.requestedCh s.slim.requestedGeneration sliced resized with
    | .ready r => { s with slim := (s.slim.push r).getD s.slim }
    | _ => { s with slim := { s.slim with drain := .lowering none } }
  else s

/-- Both end with the flag lowered, whatever was asked for meanwhile. -/
def SlimmableShared.lower (x : SlimmableShared) : SlimmableShared :=
  match x.drain with
  | .idle => x
  | .lowering _ => { x with needsRebuild := false, drain := .idle }

def Shared.lowerSlimmableFlag (s : Shared) : Shared := { s with slim := s.slim.lower }

/-- Nothing but the slimming changes. -/
theorem publishSlimmable_eq (s : Shared) (sliced resized : Bool) :
    s.publishSlimmable sliced resized =
      { s with slim := (s.publishSlimmable sliced resized).slim } := by
  unfold Shared.publishSlimmable
  split <;> rfl

theorem handleSlimmableRebuildInline_eq (s : Shared) (sliced resized : Bool) :
    s.handleSlimmableRebuildInline sliced resized =
      { s with slim := (s.handleSlimmableRebuildInline sliced resized).slim } := by
  unfold Shared.handleSlimmableRebuildInline
  split
  · split <;> rfl
  · rfl

/-! ## The audio thread -/

/-- `signal_slimmable_rebuild`: the controller asks for `ch` channels. -/
def signalSlimmableRebuild (s : Shared) (p : Processor) (ch : Nat) : Shared × Processor :=
  ({ s with slim := { s.slim with
      requestedCh := ch
      requestedGeneration := p.modelGeneration
      needsRebuild := true } },
    { p with slim := { p.slim with level := ⟨some ch, some ch⟩ } })

/-- The moves of the drain of slimmed models. -/
inductive SlimmableMove where
  /-- The head of the ring is taken. -/
  | take
  /-- What was taken is installed, the model it was asked for still running. -/
  | install
  /-- What was taken is stale, or the head of the ring supersedes it. -/
  | discard
  deriving DecidableEq, Repr

/-- `SlimmableSwapHandler::install`: the left model is replaced. -/
def installSlimmable (p : Processor) (r : SlimmableRebuild) : Processor :=
  { p with modelL := some r.model, slim := { p.slim with deferred := none } }

def slimmableMove (s : Shared) (p : Processor) : SlimmableMove → Option (Shared × Processor)
  | .take =>
    match p.slim.deferred, s.slim.ring with
    | none, r :: rest =>
      some ({ s with slim := { s.slim with ring := rest } },
        { p with slim := { p.slim with deferred := some r } })
    | _, _ => none
  | .install =>
    match p.slim.deferred with
    | some r => if r.generation = p.modelGeneration then some (s, installSlimmable p r) else none
    | none => none
  | .discard =>
    match p.slim.deferred with
    | some r =>
      if r.generation ≠ p.modelGeneration ∨ s.slim.ring.head?.any (·.generation = r.generation) then
        some (s, { p with slim := { p.slim with deferred := none } })
      else none
    | none => none

end NamPlug
