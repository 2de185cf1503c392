import NamPlug.Lib.Ticket
import NamPlug.Plugin.Proof.Installs

/-!
# Model generations as tickets

Every load, clear and restore of a model takes its generation from a counter. `Shared.waiting` has the
generations of the loads that wait for the loader, `Shared.carried` and `Processor.carried` those of
the models on their way to the audio thread, `Shared.logged` those of the models that were adopted. A
generation is waiting, then it is carried and logged, and at last spent.
-/

namespace NamPlug

open Ticket

def Event.modelGeneration? : Event → Option Nat
  | .model g _ => some g
  | _ => none

/-- The generations of the models of commands. -/
def modelGenerations (cs : List ClapParamPayload) : List Nat :=
  cs.filterMap fun c => c.model?.map (·.generation)

def Shared.waiting (s : Shared) : List Nat :=
  s.pendingAsyncLoads.map (·.generation) ++ (s.workerJob.map (·.generation)).toList ++
    (s.modelResultSlot.map (·.generation)).toList

def Shared.carried (s : Shared) : List Nat :=
  modelGenerations s.ring ++ modelGenerations s.recoveredCommands ++
    (s.pendingModel.map (·.generation)).toList ++
    (((s.pendingRestore.bind (·.txn)).bind (·.model)).map (·.generation)).toList ++
    ((s.stagedRestore.bind (·.txn.model)).map (·.generation)).toList ++
    ((s.stagedSwap.bind (·.model)).map (·.generation)).toList

def Shared.logged (s : Shared) : List Nat := s.log.filterMap Event.modelGeneration?

def Processor.carried (p : Processor) : List Nat :=
  modelGenerations p.recoveredCommands ++ modelGenerations p.deferred.toList ++
    modelGenerations p.candidate.toList

/-- What an operation does to the generations, of the models that are carried and of those that
were adopted. -/
structure Renumbers (n : Nat) (waiting carried logged : List Nat) (n' : Nat)
    (waiting' carried' logged' : List Nat) : Prop where
  carried : Ticket.Moves n (waiting ++ carried) n' (waiting' ++ carried')
  logged : Ticket.Moves n (waiting ++ logged) n' (waiting' ++ logged')

theorem Renumbers.refl (n : Nat) (waiting carried logged : List Nat) :
    Renumbers n waiting carried logged n waiting carried logged := ⟨.refl .., .refl ..⟩

theorem Renumbers.trans {n n' n'' : Nat} {w w' w'' c c' c'' l l' l'' : List Nat}
    (h : Renumbers n w c l n' w' c' l') (k : Renumbers n' w' c' l' n'' w'' c'' l'') :
    Renumbers n w c l n'' w'' c'' l'' :=
  ⟨h.carried.trans k.carried, h.logged.trans k.logged⟩

@[simp] theorem modelGenerations_append (cs ds : List ClapParamPayload) :
    modelGenerations (cs ++ ds) = modelGenerations cs ++ modelGenerations ds :=
  List.filterMap_append

@[simp] theorem modelGenerations_nil : modelGenerations [] = [] := rfl

theorem modelGenerations_cons (c : ClapParamPayload) (cs : List ClapParamPayload) :
    modelGenerations (c :: cs) = modelGenerations [c] ++ modelGenerations cs :=
  modelGenerations_append [c] cs

@[simp] theorem modelGenerations_params (q : RtProcessingParams) :
    modelGenerations [.params q] = [] := rfl

@[simp] theorem modelGenerations_loadModel (m : LoadModelPayload) :
    modelGenerations [.loadModel m] = [m.generation] := rfl

@[simp] theorem modelGenerations_restoreTxn (txn : RestoreTxn) :
    modelGenerations [.restoreTxn txn] = (txn.model.map (·.generation)).toList := by
  cases h : txn.model <;> simp [modelGenerations, ClapParamPayload.model?, h]

theorem modelGenerations_eq_nil {cs : List ClapParamPayload} (h : ∀ c ∈ cs, c.model? = none) :
    modelGenerations cs = [] := by
  refine List.filterMap_eq_nil_iff.2 fun c hc => ?_
  rw [h c hc]
  rfl

theorem mem_modelGenerations {cs : List ClapParamPayload} {c : ClapParamPayload}
    {m : LoadModelPayload} (hc : c ∈ cs) (hm : c.model? = some m) :
    m.generation ∈ modelGenerations cs :=
  List.mem_filterMap.2 ⟨c, hc, by rw [hm]; rfl⟩

end NamPlug
