import NamPlug.Plugin.Proof.Carried
import NamPlug.Plugin.Proof.Chain

/-!
# Left and right models

A stereo load builds two models of the same weights, cut to the same channels (`Twins`), and every
path that carries a model carries both. A slimmed model replaces the left one alone, so that twins
stay twins in a run exactly as long as it meets its like there (`SlimsTwin`, `twins_kept`).
-/

namespace NamPlug

open Machine

/-- No right model, or models of the same weights and channels. -/
def Twins (l r : Option StaticModel) : Prop :=
  ∀ m, r = some m → ∃ n, l = some n ∧ n.asset = m.asset ∧ n.channels = m.channels

theorem twins_none (l : Option StaticModel) : Twins l none := fun _ h => by cases h

theorem twins_file (f : ModelFile) : Twins (some f.modelL) f.modelR := by
  unfold ModelFile.modelR
  split
  · rintro _ ⟨⟩
    exact ⟨f.modelL, rfl, rfl, rfl⟩
  · exact twins_none _

theorem Twins.resizedL {l r : Option StaticModel} (h : Twins l r) (n : Nat) :
    Twins (l.map (·.setMaxBufferSize n)) r := by
  intro m hm
  obtain ⟨k, rfl, ha, hc⟩ := h m hm
  exact ⟨_, rfl, ha, hc⟩

theorem Twins.resizedR {l r : Option StaticModel} (h : Twins l r) (n : Nat) :
    Twins l (r.map (·.setMaxBufferSize n)) := by
  intro m hm
  obtain ⟨k, hk, rfl⟩ := Option.map_eq_some_iff.1 hm
  exact h k hk

theorem Twins.resized {l r : Option StaticModel} (h : Twins l r) (n : Nat) :
    Twins (l.map (·.setMaxBufferSize n)) (r.map (·.setMaxBufferSize n)) :=
  (h.resizedL n).resizedR n

theorem prepareModel_twins {file : ModelFile} {epoch : AudioEpoch} {faults : EngineCall → Bool}
    {prep : PreparedModel} (h : prepareModel file epoch faults = some prep) :
    Twins prep.modelL prep.modelR := by
  cases prepareModel_spec h with
  | unsized hb hf hl hr hst =>
    rw [hl, hr]
    exact twins_file file
  | sized hb hf hl hr hst =>
    rw [hl, hr]
    exact (twins_file file).resized epoch.bufferSize

theorem adapt_twins {prep : PreparedModel} {s : Shared} {faults : EngineCall → Bool} {g : Nat}
    {m : LoadModelPayload} (hp : Twins prep.modelL prep.modelR)
    (h : prep.adapt s faults g = some m) : Twins m.modelL m.modelR := by
  obtain rfl | ⟨-, res, st, -, -, rfl⟩ := adapt_cases h
  · exact hp.resized s.bufferSize
  · exact hp

theorem restoreModel_twins (s : Shared) (f : ModelFile) (g : Nat) :
    Twins (restoreModel s f g).modelL (restoreModel s f g).modelR := by
  simp only [restoreModel]
  split
  · exact (twins_file f).resized s.bufferSize
  · exact twins_file f

/-- Every model that is carried has its twin beside it. -/
def twinCarriage : Carriage where
  Payload _ m := Twins m.modelL m.modelR
  Pending _ p := Twins p.model p.modelR
  Result prep := Twins prep.modelL prep.modelR
  payload_mono h := h
  pending_mono h := h
  prepared := prepareModel_twins
  adapt h ha _ := adapt_twins h ha
  retained h _ := h
  clearPayload _ := twins_none _
  clearPending _ := twins_none _
  restorePayload _ := restoreModel_twins _ _ _
  restorePending _ := twins_file _
  toPending h := h
  rebuilt h := h.resized _
  rebuiltStaged h := h.resized _
  resizedPending h := h.resizedL _
  resizedPayload h := h.resizedL _

def Action.isSlimInstall : Action → Bool
  | .audio (.slimmable .install) => true
  | _ => false

/-- A slimmed model is installed beside no right model, or beside one of its weights and
channels. -/
def SlimsTwin (x : Plugin) (a : Action) : Prop :=
  a.isSlimInstall = true → ∀ p ∈ x.proc, ∀ r ∈ p.slim.deferred, ∀ m ∈ p.modelR,
    r.model.asset = m.asset ∧ r.model.channels = m.channels

instance (x : Plugin) (a : Action) : Decidable (SlimsTwin x a) :=
  inferInstanceAs (Decidable (_ → _))

structure TwinInv (x : Plugin) : Prop where
  carried : twinCarriage.Holds x
  proc : ∀ p, x.proc = some p → Twins p.modelL p.modelR
  deactivated : ∀ d, x.shared.deactivatedDsp = some d → Twins d.modelL d.modelR

section
variable (E : Engine)

theorem twinInv_step {x y : Plugin} {a : Action} (hx : TwinInv x) (hG : SlimsTwin x a)
    (h : step E x a = some y) : TwinInv y := by
  have hpair : PairInv twinCarriage Twins x := ⟨hx.carried, hx.proc, hx.deactivated⟩
  obtain ⟨h1, h2, h3⟩ := hpair.step E (fun h => h) (twins_none none) (fun p r hp hr ha => by
    subst ha
    intro m hm
    exact ⟨r.model, rfl, hG rfl p hp r hr m hm⟩) h
  exact ⟨h1, h2, h3⟩

/-- The right model is never cut. -/
theorem right_uncut {as : List Action} {x : Plugin}
    (h : run (step E) (.init E.toParamEngine) as = some x) {p : Processor} (hp : x.proc = some p) :
    Uncut p.modelR := by
  have hinv : PairInv uncutCarriage (fun _ r => Uncut r) x :=
    run_always (fun _ _ _ hI hs => hI.step E And.right uncut_none
      (fun q _ hq _ _ => hI.proc q hq) hs) (PairInv.init E) h
  exact hinv.proc p hp

/-- The condition by its cause: the rebuild beside a right model is of its weights, at their full
count. -/
theorem slimsTwin_iff {as : List Action} {x : Plugin}
    (h : run (step E) (.init E.toParamEngine) as = some x) (a : Action) :
    SlimsTwin x a ↔ (a.isSlimInstall = true → ∀ p ∈ x.proc, ∀ r ∈ p.slim.deferred, ∀ m ∈ p.modelR,
      r.model.asset = m.asset ∧ r.model.channels = m.fullChannels) := by
  unfold SlimsTwin
  refine forall_congr' fun ha => forall₂_congr fun p hp => forall₂_congr fun r hr =>
    forall₂_congr fun m hm => ?_
  rw [right_uncut E h hp m hm]

/-- In a run whose slimmed models all meet their like, the installed models are twins. -/
theorem twins_kept {as : List Action} {x : Plugin}
    (h : run (step E) (.init E.toParamEngine) as = some x)
    (hG : Guarded (step E) SlimsTwin (.init E.toParamEngine) as) :
    ∀ p, x.proc = some p → Twins p.modelL p.modelR :=
  (run_invariant (I := TwinInv) (fun _ _ _ hI hG h => twinInv_step E hI hG h)
    ⟨Carriage.holds_init E, fun _ h => (by cases h), fun _ h => (by cases h)⟩ hG h).proc

end

/-- A WaveNet of 16 channels. -/
def refWavenet (stereo : Bool) : ModelFile :=
  { refFile "wavenet.nam" with stereo, channels := some 16 }

/-- The model is loaded and installed, and the adaptive controller has it slimmed to 8 channels. -/
def refSlimmed (stereo : Bool) : List Action :=
  [.main (.loadModel (refWavenet stereo) noFaults), refActivate, .audio (.beginEvents 0),
    .audio (.drain .popCandidate), .audio (.drain .installCandidate), .audio .endEvents,
    .audio (.signalSlimmableRebuild 8), .main .pollSlimmable, .main (.publishSlimmable true true),
    .main .drainSlimmableRebuild, .main .lowerSlimmableFlag, .audio (.beginEvents 0),
    .audio (.slimmable .take), .audio (.slimmable .install)]

/-- A mono model is slimmed. -/
theorem twins_kept_mono :
    ∃ p, (refRun (refSlimmed false)).proc = some p ∧ Twins p.modelL p.modelR := by
  have hp := @refProc_eq (refSlimmed false) (by decide +kernel)
  exact ⟨_, hp, twins_kept refEngine (@run_refRun (refSlimmed false) (by decide +kernel))
    (by decide +kernel) _ hp⟩

/-- A stereo model is slimmed on the left only. -/
theorem twins_lost :
    ¬∀ (E : Engine) (as : List Action) (x : Plugin),
      run (step E) (.init E.toParamEngine) as = some x →
      ∀ p, x.proc = some p → Twins p.modelL p.modelR := by
  intro h
  have hlost : ∃ p, (refRun (refSlimmed true)).proc = some p ∧
      p.modelR.map StaticModel.channels = some (some 16) ∧
      p.modelL.map StaticModel.channels = some (some 8) := by
    refine ⟨refProc (refSlimmed true) (by decide +kernel), refProc_eq _, ?_⟩
    decide +kernel
  obtain ⟨p, hp, hr, hl⟩ := hlost
  obtain ⟨m, hm, hmc⟩ := Option.map_eq_some_iff.1 hr
  have hrun := @run_refRun (refSlimmed true) (by decide +kernel)
  obtain ⟨n, hn, -, hc⟩ := h refEngine _ _ hrun p hp m hm
  rw [hn, Option.map_some, hc, hmc] at hl
  cases hl

end NamPlug
