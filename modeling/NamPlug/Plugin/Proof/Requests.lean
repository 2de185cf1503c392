import NamPlug.Params.Proof.GuiEvents
import NamPlug.Params.Proof.Sync
import NamPlug.Plugin.Proof.Counts
import NamPlug.Plugin.Proof.Process

/-!
# Restart requests

An oversampling change of an active plugin waits for the next activation as the pending factor, and
the end of a block requests the restart. `takeFactor` is that policy on its own, as a function of
the factor in force and the pending one; the events of a block and of a flush offer their factors
to it in turn (`dryContainedBlock_takes`, `wetBlock_takes`, `flushInner_takes`).

`Watched` is a session with what its last call of the audio thread began with. Every call requests
as it should exactly where `AsksDue` holds of it (`restart_requested_once`): what a callback takes over
before its block is not requested unless the block changes the factor once more, and neither is what a
flush changes.
-/

namespace NamPlug

open Binary32 Machine

/-! ## The policy -/

/-- The factor in force and the pending one. -/
def osState (c : ParamCtx) : OversampleFactor × PendingRestartOs :=
  (c.rt.params.oversample, c.pendingRestart)

/-- A factor is offered; an active plugin leaves a change pending. -/
def takeFactor (size : Nat) (st : OversampleFactor × PendingRestartOs) (f : OversampleFactor) :
    OversampleFactor × PendingRestartOs :=
  if f = st.1 then st else (f, if 0 < size then .pending f else st.2)

theorem takeFactor_of_eq {size : Nat} {c : ParamCtx} {f : OversampleFactor}
    (h : f = c.rt.params.oversample) : takeFactor size (osState c) f = osState c := if_pos h

theorem takeFactor_of_ne {size : Nat} {c : ParamCtx} {f : OversampleFactor}
    (h : f ≠ c.rt.params.oversample) :
    takeFactor size (osState c) f = (f, if 0 < size then .pending f else c.pendingRestart) := if_neg h

theorem takeFactor_fst (size : Nat) (st : OversampleFactor × PendingRestartOs)
    (f : OversampleFactor) : (takeFactor size st f).1 = f := by
  unfold takeFactor
  split
  · rename_i h
    exact h.symm
  · rfl

/-- The factors `fs`, offered in turn, leave the factor `o` pending. -/
def Leaves (c : ParamCtx) (fs : List OversampleFactor) (o : PendingRestartOs) : Prop :=
  if 0 < c.bufferSize ∧ ∃ f ∈ fs, f ≠ c.rt.params.oversample then
    fs.getLast?.map PendingRestartOs.pending = some o
  else c.pendingRestart = o

instance (c : ParamCtx) (fs : List OversampleFactor) (o : PendingRestartOs) :
    Decidable (Leaves c fs o) := by unfold Leaves; infer_instance

theorem foldl_takeFactor (size : Nat) (fs : List OversampleFactor) :
    ∀ st : OversampleFactor × PendingRestartOs, fs.foldl (takeFactor size) st =
      (fs.getLast?.getD st.1, if 0 < size ∧ ∃ f ∈ fs, f ≠ st.1 then
        .pending (fs.getLast?.getD st.1) else st.2) := by
  induction fs with
  | nil => intro st; simp
  | cons f fs ih =>
    intro st
    have hlast : (f :: fs).getLast?.getD st.1 = fs.getLast?.getD f := by
      cases fs with
      | nil => rfl
      | cons g gs => simp [List.getLast?_eq_some_getLast]
    rw [List.foldl_cons, ih, hlast]
    unfold takeFactor
    by_cases hf : f = st.1
    · simp [hf]
    · rw [if_neg hf]
      have hex : (∃ g ∈ f :: fs, g ≠ st.1) := ⟨f, .head _, hf⟩
      simp only [hex, and_true]
      by_cases hsize : 0 < size
      · simp only [hsize, true_and, if_true]
        split
        · rfl
        · rename_i hall
          push Not at hall
          have : fs.getLast?.getD f = f := by
            cases hl : fs.getLast? with
            | none => rfl
            | some g => exact hall g (List.mem_of_getLast? hl)
          rw [this]
      · simp [hsize]

/-- `Leaves` says what the policy leaves pending. -/
theorem leaves_iff (c : ParamCtx) (fs : List OversampleFactor) (o : PendingRestartOs) :
    Leaves c fs o ↔ (fs.foldl (takeFactor c.bufferSize) (osState c)).2 = o := by
  rw [foldl_takeFactor]
  unfold Leaves osState
  dsimp only
  split
  · rename_i h
    obtain ⟨-, f, hf, -⟩ := h
    simp [List.getLast?_eq_some_getLast (List.ne_nil_of_mem hf)]
  · rfl

/-! ## Events -/

section
variable (E : ParamEngine)

/-- The factor an event asks for. -/
def ScheduledEvent.factor? (e : ScheduledEvent) : Option OversampleFactor :=
  match ParamId.ofCode e.paramId, e.isMod with
  | some .oversample, false => some (E.oversampleOfF32 (sanitizeParamValue E .oversample e.value))
  | _, _ => none

def factors (es : List ScheduledEvent) : List OversampleFactor := es.filterMap (·.factor? E)

theorem factors_cons (e : ScheduledEvent) (es : List ScheduledEvent) :
    factors E (e :: es) = (e.factor? E).toList ++ factors E es := by
  unfold factors
  rw [List.filterMap_cons]
  cases e.factor? E <;> rfl

/-- An event of a block offers its factor. -/
theorem applyEvent_takes (c : ParamCtx) (e : ScheduledEvent) (smooth : Bool) :
    (applyEvent E c e smooth).1.bufferSize = c.bufferSize ∧
      osState (applyEvent E c e smooth).1 =
        (e.factor? E).toList.foldl (takeFactor c.bufferSize) (osState c) := by
  unfold applyEvent ScheduledEvent.factor?
  cases hp : ParamId.ofCode e.paramId with
  | none => exact ⟨rfl, rfl⟩
  | some p =>
    unfold applyScheduledEvent
    cases hm : e.isMod with
    | true => cases p <;> exact ⟨rfl, rfl⟩
    | false =>
      cases p
      case oversample =>
        simp only [Bool.false_eq_true, if_false, applyValueEvent, Option.toList_some,
          List.foldl_cons, List.foldl_nil, takeFactor, osState]
        split_ifs <;> simp_all
      case activation =>
        simp only [Bool.false_eq_true, if_false, applyValueEvent]
        split_ifs <;> exact ⟨rfl, rfl⟩
      all_goals exact ⟨rfl, rfl⟩

/-! ## Blocks -/

/-- A block of a plugin of block size `size` whose pending events leave `st`. -/
structure Owes (size : Nat) (st : OversampleFactor × PendingRestartOs) (b : BlockState) : Prop where
  size_eq : b.ctx.bufferSize = size
  takes : (factors E b.pending).foldl (takeFactor size) (osState b.ctx) = st
  request : b.requestRestart = false

/-- Only gain events are fused, which offer no factor. -/
theorem stageLoop_takes (size : Nat) (cur stop : Nat) :
    ∀ (es : List ScheduledEvent) (s : Staged), s.ctx.bufferSize = size →
      (stageLoop E cur stop es s).ctx.bufferSize = size ∧
        (factors E (stageLoop E cur stop es s).pending).foldl (takeFactor size)
            (osState (stageLoop E cur stop es s).ctx) =
          (factors E es).foldl (takeFactor size) (osState s.ctx)
  | [], s, hs => ⟨hs, rfl⟩
  | e :: es, s, hs => by
    unfold stageLoop
    split
    · exact ⟨hs, rfl⟩
    · obtain ⟨h1, h2⟩ := applyEvent_takes E s.ctx e false
      refine (stageLoop_takes size cur stop es _ ?_).imp_right fun h => h.trans ?_
      · exact h1.trans hs
      · rw [h2, hs, factors_cons, List.foldl_append]

theorem keeps_owes (D : DspEngine) (size : Nat) (st : OversampleFactor × PendingRestartOs) :
    Keeps E D (Owes E size st) where
  applyNow {b e es} hb := by
    obtain ⟨h1, h2, h3⟩ := hb
    obtain ⟨h4, h5⟩ := applyEvent_takes E b.ctx e true
    refine ⟨h4.trans h1, ?_, h3⟩
    show (factors E es).foldl (takeFactor size) (osState (applyEvent E b.ctx e true).1) = st
    rw [h5, ← h2, factors_cons, List.foldl_append]
    rw [show b.ctx.bufferSize = size from h1]
  advance {b base n off} out hb _ _ := by
    obtain ⟨h1, h2, h3⟩ := hb
    unfold BlockState.advanceTo
    split
    · exact ⟨h1, h2, h3⟩
    · split
      · obtain ⟨h4, h5⟩ := stageLoop_takes E size (base + off)
          (base + scanEnd (b.fuses D n) (base + off) base n b.pending 0) b.pending
          ⟨b.ctx, [], [], []⟩ h1
        exact ⟨h4, h5.trans h2, h3⟩
      · exact ⟨h1, h2, h3⟩
  refresh {b} hb := by
    obtain ⟨h1, h2, h3⟩ := hb
    unfold BlockState.triggerBypass BlockState.refreshGate
    split <;> exact ⟨h1, h2, h3⟩
  anomaly hb := ⟨hb.1, hb.2, hb.3⟩
  violation hb := ⟨hb.1, hb.2, hb.3⟩

end

section
variable (E : Engine)

/-- The events a callback schedules. -/
def DspCall.events (c : DspCall) : List ScheduledEvent := (scheduleInputEvents c.input).events

/-- A held block applies its events, and requests where its buffers are accepted. -/
theorem dryContainedBlock_takes (s : Shared) (p : Processor) (r : Rendering) (c : DspCall) :
    let x := dryContainedBlock E s p r c
    x.shared.pendingRestartOs = ((factors E.toParamEngine c.events).foldl
        (takeFactor s.bufferSize) (osState (paramCtx s p))).2 ∧
      (x.restart = true ↔ c.audio.isSome = true ∧
        x.shared.pendingRestartOs ≠ s.pendingRestartOs ∧ x.shared.pendingRestartOs ≠ .none) ∧
      x.proc.inCallback = p.inCallback := by
  have hkeeps := keeps_owes E.toParamEngine c.dsp s.bufferSize
    ((factors E.toParamEngine c.events).foldl (takeFactor s.bufferSize) (osState (paramCtx s p)))
  have hw := hkeeps.applyWhile (fun _ => true) c.events
    (b := r.block (paramCtx s p)) ⟨rfl, rfl, rfl⟩
  obtain ⟨hsuf, hhead⟩ := applyWhile_suffix (E := E.toParamEngine) (fun _ => true) c.events
    (r.block (paramCtx s p))
  unfold dryContainedBlock
  rw [show (scheduleInputEvents c.input).events = c.events from rfl]
  dsimp only
  generalize (applyWhile E.toParamEngine (fun _ => true) c.events (r.block (paramCtx s p))).1 = b at *
  have hnil : b.pending = [] := by
    cases hp : b.pending with
    | nil => rfl
    | cons e es => rw [hp] at hhead; exact absurd (hhead e rfl) (by simp)
  have htakes := hw.takes
  rw [hnil] at htakes
  have hpend : b.refreshGate.ctx.pendingRestart = b.ctx.pendingRestart := by
    unfold BlockState.refreshGate; split <;> rfl
  refine ⟨?_, ?_, rfl⟩
  · rw [← htakes]
    exact hpend
  · simp only [BlockState.rendered, putParamCtx, decide_eq_true_eq]
    exact ⟨fun h => ⟨h.2.2, h.1, h.2.1⟩, fun h => ⟨h.2.1, h.2.2, h.1⟩⟩

/-- A wet block applies its events and requests, or its buffers are refused. -/
theorem wetBlock_takes {s : Shared} {p : Processor} {r : Rendering} {c : DspCall} {x : Rendered}
    (h : wetBlock E s p r c = some x) :
    x.shared.pendingRestartOs = ((if c.audio.isSome then factors E.toParamEngine c.events else
        []).foldl (takeFactor s.bufferSize) (osState (paramCtx s p))).2 ∧
      (x.restart = true ↔ c.audio.isSome = true ∧
        x.shared.pendingRestartOs ≠ s.pendingRestartOs ∧ x.shared.pendingRestartOs ≠ .none) ∧
      x.proc.inCallback = p.inCallback := by
  unfold wetBlock at h
  split at h
  · rename_i hc
    obtain rfl := Option.some.inj h
    rw [hc]
    exact ⟨rfl, by simp [BlockState.rendered, Rendering.block], rfl⟩
  · rename_i audio hc
    obtain ⟨b, hb, rfl⟩ := Option.map_eq_some_iff.1 h
    have hkeeps := keeps_owes E.toParamEngine c.dsp s.bufferSize
      ((factors E.toParamEngine c.events).foldl (takeFactor s.bufferSize) (osState (paramCtx s p)))
    obtain ⟨b₁, hb₁, hnil, rfl⟩ := hkeeps.processDspAudio (b := r.block (paramCtx s p))
      ⟨rfl, rfl, rfl⟩ hb
    have htakes := hb₁.takes
    rw [hnil] at htakes
    have hreq := hb₁.request
    rw [hc]
    simp only [Option.isSome_some, if_true, true_and]
    rw [← htakes]
    split
    · rename_i hne
      exact ⟨rfl, ⟨fun _ => hne, fun _ => rfl⟩, rfl⟩
    · rename_i hne
      refine ⟨rfl, ⟨fun h => ?_, fun h => absurd h hne⟩, rfl⟩
      rw [show b₁.requestRestart = true from h] at hreq
      cases hreq

end

/-! ## Synchronization and flushes -/

section
variable (E : ParamEngine)

theorem applyOversample_takes (c : ParamCtx) (f : OversampleFactor) :
    (applyOversample c f).bufferSize = c.bufferSize ∧
      (applyOversample c f).rt = c.rt ∧ (applyOversample c f).pendingRestart =
        if 0 < c.bufferSize then .pending f else c.pendingRestart := by
  unfold applyOversample
  split_ifs with h1 h2
  · exact ⟨rfl, rfl, rfl⟩
  · exact ⟨rfl, rfl, not_not.1 h2⟩
  · exact ⟨rfl, rfl, rfl⟩

theorem syncOversampleFromGui_takes (c : ParamCtx) :
    osState (syncOversampleFromGui E c) =
      takeFactor c.bufferSize (osState c) (E.oversampleOfF32 (sharedStep E c .oversample)) := by
  unfold syncOversampleFromGui
  dsimp only
  split_ifs with h
  · obtain ⟨-, hrt, hpend⟩ := applyOversample_takes { c with rt := { c.rt with params :=
      { c.rt.params with oversample := E.oversampleOfF32 (sharedStep E c .oversample) } } }
      (E.oversampleOfF32 (sharedStep E c .oversample))
    rw [takeFactor_of_ne h]
    unfold osState
    rw [hrt, hpend]
  · exact (takeFactor_of_eq (not_not.1 h)).symm

/-- The synchronization offers the factor of the atomics. -/
theorem syncParamsFromGui_takes (c : ParamCtx) :
    osState (syncParamsFromGui E c) =
      takeFactor c.bufferSize (osState c) (E.oversampleOfF32 (sharedStep E c .oversample)) := by
  -- the parameters before it leave both factors and the atomics
  have hsame : ∀ d : ParamCtx, d.ui = c.ui → d.bufferSize = c.bufferSize → osState d = osState c →
      osState (syncActivationFromGui E (syncOversampleFromGui E d)) =
        takeFactor c.bufferSize (osState c) (E.oversampleOfF32 (sharedStep E c .oversample)) := by
    intro d hu hs ho
    obtain ⟨t, ht⟩ := syncActivationFromGui_eq E (syncOversampleFromGui E d)
    have hstep : sharedStep E d .oversample = sharedStep E c .oversample := by
      unfold sharedStep; rw [hu]
    rw [ht, ← ho, ← hs, ← hstep]
    exact syncOversampleFromGui_takes E d
  unfold syncParamsFromGui
  dsimp only
  obtain ⟨gi, si, -, h1⟩ := syncInputGainFromGui_eq E c
  rw [h1]
  obtain ⟨go, so, -, h2⟩ := syncOutputGainFromGui_eq E { c with rt := { c.rt with
    params := { c.rt.params with inputGainDb := gi }, smootherIn := si } }
  rw [h2]
  obtain ⟨gg, gd, -, h3⟩ := syncGateThreshFromGui_eq E { c with rt := { c.rt with
    params := { c.rt.params with inputGainDb := gi, outputGainDb := go }
    smootherIn := si
    smootherOut := so } }
  rw [h3, syncBypassFromGui_eq, syncAdaptiveComputeFromGui_eq, syncSlimOverrideFromGui_eq]
  exact hsame _ rfl rfl rfl

/-- A value event of a flush offers its factor, and stores a change. -/
theorem setParam_takes (c : ParamCtx) (p : ParamId) (v : F32) :
    (setParam E c p v).bufferSize = c.bufferSize ∧
      (setParam E c p v).ui.guiParamGeneration = c.ui.guiParamGeneration ∧
      (p ≠ .oversample → osState (setParam E c p v) = osState c ∧
        (setParam E c p v).ui.paramOversample = c.ui.paramOversample) := by
  refine ⟨?_, ?_, fun hp => ?_⟩
  · cases p <;> try rfl
    case oversample =>
      unfold setParam
      dsimp only
      split
      · exact (applyOversample_takes _ _).1
      · rfl
    case activation => unfold setParam; dsimp only; split <;> rfl
  · cases p <;> try rfl
    case oversample =>
      unfold setParam
      dsimp only
      split
      · rw [applyOversample_ui]; rfl
      · rfl
    case activation => unfold setParam; dsimp only; split <;> rfl
  · cases p <;> first | exact ⟨rfl, rfl⟩ | exact absurd rfl hp | skip
    unfold setParam
    dsimp only
    split <;> exact ⟨rfl, rfl⟩

theorem setParam_oversample (c : ParamCtx) (v : F32) :
    let f := E.oversampleOfF32 (sanitizeParamValue E .oversample v)
    osState (setParam E c .oversample v) = takeFactor c.bufferSize (osState c) f ∧
      ((f = c.rt.params.oversample ∧
          (setParam E c .oversample v).ui.paramOversample = c.ui.paramOversample) ∨
        (f ≠ c.rt.params.oversample ∧
          (setParam E c .oversample v).ui.paramOversample.toNat = f.code)) := by
  dsimp only
  unfold setParam
  dsimp only
  split_ifs with h
  · rw [takeFactor_of_ne h]
    refine ⟨?_, .inr ⟨h, ?_⟩⟩
    · obtain ⟨-, hrt, hpend⟩ := applyOversample_takes { c with
        rt := { c.rt with params := { c.rt.params with
          oversample := E.oversampleOfF32 (sanitizeParamValue E .oversample v) } }
        ui := c.ui.store .oversample (BitVec.ofNat 32
          (E.oversampleOfF32 (sanitizeParamValue E .oversample v)).code) }
        (E.oversampleOfF32 (sanitizeParamValue E .oversample v))
      unfold osState
      rw [hrt, hpend]
    · rw [applyOversample_ui]
      show (BitVec.ofNat 32 _).toNat = _
      cases E.oversampleOfF32 (sanitizeParamValue E .oversample v) <;> rfl
  · exact ⟨(takeFactor_of_eq (not_not.1 h)).symm, .inl ⟨not_not.1 h, rfl⟩⟩

end

section
variable (E : Engine)

/-- Where a flush counts as a change of the parameters. -/
def ScheduledEvent.flushCounts (e : ScheduledEvent) : Bool :=
  match ParamId.ofCode e.paramId, e.isMod with
  | some .activeModel, _ => false
  | some _, false => true
  | some q, true => q == .inputGain || q == .outputGain || q == .gateThresh
  | none, _ => false

/-- The factors a flush offers: those of its events and, where they leave the factor as it is and
the generation moved, the one of the atomics. -/
def flushFactors (s : Shared) (p : Processor) (es : List ScheduledEvent) :
    List OversampleFactor :=
  let fs := factors E.toParamEngine es
  let generation := if es.any (·.flushCounts) then s.ui.guiParamGeneration + 1
    else s.ui.guiParamGeneration
  if generation ≠ p.lastSeenGeneration ∧ ∀ f ∈ fs, f = p.rt.params.oversample then
    fs ++ [E.oversampleOfF32 (sharedStep E.toParamEngine (paramCtx s p) .oversample)]
  else fs

/-- What the events of a flush leave that began with `s` and `p`, the factors `fs` offered. -/
structure FlushedTo (s : Shared) (p : Processor) (fs : List OversampleFactor)
    (r : Shared × Processor) : Prop where
  size : r.1.bufferSize = s.bufferSize
  generation : r.1.ui.guiParamGeneration = s.ui.guiParamGeneration
  seen : r.2.lastSeenGeneration = p.lastSeenGeneration
  inCallback : r.2.inCallback = p.inCallback
  takes : osState (paramCtx r.1 r.2) = fs.foldl (takeFactor s.bufferSize) (osState (paramCtx s p))
  stored : ((∀ f ∈ fs, f = p.rt.params.oversample) ∧
      r.1.ui.paramOversample = s.ui.paramOversample ∧
      r.2.rt.params.oversample = p.rt.params.oversample) ∨
    ((∃ f ∈ fs, f ≠ p.rt.params.oversample) ∧
      r.1.ui.paramOversample.toNat = r.2.rt.params.oversample.code)

theorem FlushedTo.event {s : Shared} {p : Processor} {fs : List OversampleFactor}
    {r : Shared × Processor} (h : FlushedTo s p fs r) (e : ScheduledEvent) :
    FlushedTo s p (fs ++ (e.factor? E.toParamEngine).toList) (flushInnerEvent E r.1 r.2 e).1 ∧
      (flushInnerEvent E r.1 r.2 e).2 = e.flushCounts := by
  obtain ⟨h1, h2, h3, h4, h5, h6⟩ := h
  -- an event of another parameter
  have hother : ∀ q : Shared × Processor, q.1.bufferSize = r.1.bufferSize →
      q.1.ui.guiParamGeneration = r.1.ui.guiParamGeneration →
      q.2.lastSeenGeneration = r.2.lastSeenGeneration → q.2.inCallback = r.2.inCallback →
      osState (paramCtx q.1 q.2) = osState (paramCtx r.1 r.2) →
      q.1.ui.paramOversample = r.1.ui.paramOversample → FlushedTo s p (fs ++ []) q := by
    intro q k1 k2 k3 k4 k5 k6
    have hfac : q.2.rt.params.oversample = r.2.rt.params.oversample := congrArg Prod.fst k5
    rw [List.append_nil]
    exact ⟨k1.trans h1, k2.trans h2, k3.trans h3, k4.trans h4, k5.trans h5,
      by rw [hfac, k6]; exact h6⟩
  unfold flushInnerEvent ScheduledEvent.factor? ScheduledEvent.flushCounts
  dsimp only
  cases hp : ParamId.ofCode e.paramId with
  | none =>
    cases e.isMod <;> exact ⟨hother r rfl rfl rfl rfl rfl rfl, rfl⟩
  | some q =>
    cases hm : e.isMod with
    | true => cases q <;> exact ⟨hother _ rfl rfl rfl rfl rfl rfl, rfl⟩
    | false =>
      obtain ⟨k1, k2, k3⟩ := setParam_takes E.toParamEngine (paramCtx r.1 r.2) q e.value
      have hnote : ∀ t : Shared, ∃ l, t.noteEvent E e.paramId e.value = { t with log := l } := by
        intro t
        unfold Shared.noteEvent
        split <;> exact ⟨_, rfl⟩
      obtain ⟨l, hl⟩ := hnote (putParamCtx r.1 r.2
        (setParam E.toParamEngine (paramCtx r.1 r.2) q e.value)).1
      by_cases hos : q = .oversample
      · subst hos
        obtain ⟨k4, k5⟩ := setParam_oversample E.toParamEngine (paramCtx r.1 r.2) e.value
        simp only [hl, Option.toList_some, and_true]
        refine ⟨h1, k2.trans h2, h3, h4, ?_, ?_⟩
        · rw [List.foldl_append, ← h5, List.foldl_cons, List.foldl_nil, ← h1]
          exact k4
        · have hnow : (setParam E.toParamEngine (paramCtx r.1 r.2) .oversample
              e.value).rt.params.oversample =
              E.oversampleOfF32 (sanitizeParamValue E.toParamEngine .oversample e.value) := by
            have hfst := congrArg Prod.fst k4
            rwa [takeFactor_fst] at hfst
          simp only [List.mem_append, List.mem_singleton]
          obtain ⟨hsame, hraw⟩ | ⟨hnew, hraw⟩ := k5
          · obtain ⟨hall, hraw', hfac⟩ | ⟨⟨f, hf, hne⟩, hraw'⟩ := h6
            · refine .inl ⟨fun f hf => ?_, hraw.trans hraw', ?_⟩
              · obtain hf | rfl := hf
                · exact hall f hf
                · exact hsame.trans hfac
              · exact (hnow.trans hsame).trans hfac
            · refine .inr ⟨⟨f, .inl hf, hne⟩, ?_⟩
              show (setParam E.toParamEngine (paramCtx r.1 r.2) .oversample
                e.value).ui.paramOversample.toNat = _
              rw [hraw]
              exact hraw'.trans (congrArg OversampleFactor.code (hnow.trans hsame).symm)
          · refine .inr ⟨?_, hraw.trans (congrArg OversampleFactor.code hnow.symm)⟩
            obtain ⟨hall, -, hfac⟩ | ⟨⟨f, hf, hne⟩, -⟩ := h6
            · exact ⟨_, .inr rfl, fun h => hnew (h.trans hfac.symm)⟩
            · exact ⟨f, .inl hf, hne⟩
      · obtain ⟨k4, k5⟩ := k3 hos
        have hq := hother ({ (putParamCtx r.1 r.2
            (setParam E.toParamEngine (paramCtx r.1 r.2) q e.value)).1 with log := l },
          (putParamCtx r.1 r.2 (setParam E.toParamEngine (paramCtx r.1 r.2) q e.value)).2)
          rfl k2 rfl rfl k4 k5
        cases q <;> first | exact absurd rfl hos | skip
        case activeModel => exact ⟨hother r rfl rfl rfl rfl rfl rfl, rfl⟩
        all_goals simp only [hl, and_true]; exact hq

theorem FlushedTo.events {s : Shared} {p : Processor} (es : List ScheduledEvent) :
    ∀ {fs : List OversampleFactor} {r : (Shared × Processor) × Bool}, FlushedTo s p fs r.1 →
      FlushedTo s p (fs ++ factors E.toParamEngine es) (es.foldl (fun r e =>
          let q := flushInnerEvent E r.1.1 r.1.2 e
          (q.1, r.2 || q.2)) r).1 ∧
        (es.foldl (fun r e =>
          let q := flushInnerEvent E r.1.1 r.1.2 e
          (q.1, r.2 || q.2)) r).2 = (r.2 || es.any (·.flushCounts)) := by
  induction es with
  | nil =>
    intro fs r h
    rw [show factors E.toParamEngine [] = [] from rfl, List.append_nil]
    exact ⟨h, by simp⟩
  | cons e es ih =>
    intro fs r h
    obtain ⟨h1, h2⟩ := h.event E e
    obtain ⟨h3, h4⟩ := ih (r := ((flushInnerEvent E r.1.1 r.1.2 e).1,
      r.2 || (flushInnerEvent E r.1.1 r.1.2 e).2)) h1
    rw [List.foldl_cons, factors_cons, ← List.append_assoc]
    refine ⟨h3, h4.trans ?_⟩
    rw [h2, List.any_cons, Bool.or_assoc]

/-- The synchronization of a flush or a callback. -/
theorem syncGeneration_takes (s : Shared) (p : Processor) :
    (syncGeneration E s p).1.pendingRestartOs = (if s.ui.guiParamGeneration = p.lastSeenGeneration
      then osState (paramCtx s p) else takeFactor s.bufferSize (osState (paramCtx s p))
        (E.oversampleOfF32 (sharedStep E.toParamEngine (paramCtx s p) .oversample))).2 ∧
      (syncGeneration E s p).2.inCallback = p.inCallback := by
  unfold syncGeneration
  split
  · exact ⟨rfl, rfl⟩
  · exact ⟨congrArg Prod.snd (syncParamsFromGui_takes E.toParamEngine (paramCtx s p)), rfl⟩

theorem flushFactors_congr {s t : Shared} (p : Processor) (es : List ScheduledEvent)
    (h : t.ui.paramOversample = s.ui.paramOversample)
    (hg : t.ui.guiParamGeneration = s.ui.guiParamGeneration) :
    flushFactors E t p es = flushFactors E s p es := by
  unfold flushFactors sharedStep
  simp only [paramCtx, UiToRt.load, h, hg]

/-- A flush offers the factors of its events, and then the one of the atomics. -/
theorem flushInner_takes (s : Shared) (p : Processor) (room : Nat) (es : List ScheduledEvent) :
    (flushInner E s p room es).1.pendingRestartOs =
        ((flushFactors E s p es).foldl (takeFactor s.bufferSize) (osState (paramCtx s p))).2 ∧
      (flushInner E s p room es).2.inCallback = p.inCallback := by
  unfold flushInner
  rw [← flushFactors_congr E (t := { s with ui := (writeGuiEvents s.ui room).ui }) p es
    (load_writeGuiEvents s.ui room .oversample) (guiParamGeneration_writeGuiEvents s.ui room)]
  dsimp only
  generalize hs : ({ s with ui := (writeGuiEvents s.ui room).ui } : Shared) = s₁
  have hsize : s.bufferSize = s₁.bufferSize := by rw [← hs]
  have hstate : osState (paramCtx s p) = osState (paramCtx s₁ p) := by rw [← hs]; rfl
  rw [hsize, hstate]
  have hstart : FlushedTo s₁ p [] (s₁, p) :=
    ⟨rfl, rfl, rfl, rfl, rfl, .inl ⟨by simp, rfl, rfl⟩⟩
  obtain ⟨hev, hcount⟩ := FlushedTo.events E es (r := ((s₁, p), false)) hstart
  generalize es.foldl (fun r e =>
    let q := flushInnerEvent E r.1.1 r.1.2 e
    (q.1, r.2 || q.2)) ((s₁, p), false) = r at *
  obtain ⟨⟨s₂, p₂⟩, flag⟩ := r
  dsimp only at hev hcount ⊢
  rw [List.nil_append] at hev
  rw [Bool.false_or] at hcount
  -- the generation the synchronization sees, and the rest as the events left it
  generalize ht : (if flag = true then s₂.bumpGeneration else s₂) = t
  have hgen : t.ui.guiParamGeneration = if es.any (·.flushCounts) then
      s₁.ui.guiParamGeneration + 1 else s₁.ui.guiParamGeneration := by
    rw [← ht, ← hcount, ← hev.generation]
    cases flag <;> rfl
  have hsame : t.bufferSize = s₂.bufferSize ∧ t.ui.paramOversample = s₂.ui.paramOversample ∧
      osState (paramCtx t p₂) = osState (paramCtx s₂ p₂) := by
    rw [← ht]
    cases flag <;> exact ⟨rfl, rfl, rfl⟩
  obtain ⟨hsize', hraw, hstate'⟩ := hsame
  obtain ⟨hpend, hin⟩ := syncGeneration_takes E t p₂
  refine ⟨?_, hin.trans hev.inCallback⟩
  unfold flushFactors
  dsimp only
  rw [hpend, hstate', hev.takes, hsize', hev.size, hev.seen, ← hgen]
  split
  · rename_i hno
    rw [if_neg fun h => h.1 hno]
  · rename_i hmoved
    obtain ⟨hall, hraw', -⟩ | ⟨⟨f, hf, hne⟩, hraw'⟩ := hev.stored
    · have hstep : sharedStep E.toParamEngine (paramCtx t p₂) .oversample =
          sharedStep E.toParamEngine (paramCtx s₁ p) .oversample := by
        have hload : (paramCtx t p₂).ui.paramOversample = (paramCtx s₁ p).ui.paramOversample :=
          hraw.trans hraw'
        simp only [sharedStep, UiToRt.load, hload]
      rw [if_pos ⟨hmoved, hall⟩, List.foldl_append, hstep]
      rfl
    · have hcode : E.oversampleOfF32 (sharedStep E.toParamEngine (paramCtx t p₂) .oversample) =
          p₂.rt.params.oversample :=
        sharedStep_oversample E.toParamEngine ((congrArg BitVec.toNat hraw).trans hraw')
      rw [if_neg fun h => hne (h.2 f hf), hcode, ← hev.takes]
      exact congrArg Prod.snd (takeFactor_of_eq rfl)

end

/-! ## What a callback takes over before its block -/

/-- The factor a command carries. -/
def ClapParamPayload.factor? : ClapParamPayload → Option OversampleFactor
  | .params q => some q.oversample
  | .restoreTxn txn => some txn.params.oversample
  | _ => none

theorem foldl_takeFactor_none {size : Nat} {fs : List OversampleFactor}
    {st : OversampleFactor × PendingRestartOs}
    (h : (fs.foldl (takeFactor size) st).2 = .none) : st.2 = .none := by
  rw [foldl_takeFactor] at h
  dsimp only at h
  split at h
  · cases h
  · exact h

section
variable (E : Engine)

/-- A snapshot offers its factor. -/
theorem applyParams_takes (s : Shared) (p : Processor) (q : RtProcessingParams) :
    osState (paramCtx (applyParams E s p q).1 (applyParams E s p q).2) =
      takeFactor s.bufferSize (osState (paramCtx s p)) q.oversample := by
  obtain ⟨d, hsize, hpend, hos, heq⟩ : ∃ d : ParamCtx, d.bufferSize = s.bufferSize ∧
      d.pendingRestart = s.pendingRestartOs ∧ d.rt.params.oversample = q.oversample ∧
      applyParamsFromSpsc E.toParamEngine (paramCtx s p) q =
        if p.rt.params.oversample ≠ q.oversample then applyOversample d q.oversample else d :=
    ⟨_, rfl, rfl, rfl, rfl⟩
  show osState (applyParamsFromSpsc E.toParamEngine (paramCtx s p) q) = _
  rw [heq]
  split
  · rename_i h
    obtain ⟨-, hrt, hpend'⟩ := applyOversample_takes d q.oversample
    rw [takeFactor_of_ne (Ne.symm h)]
    unfold osState
    rw [hrt, hpend', hos, hsize, hpend]
    rfl
  · rename_i h
    rw [takeFactor_of_eq (not_not.1 h).symm]
    unfold osState
    rw [hos, hpend]
    exact Prod.ext (not_not.1 h).symm rfl

/-- A command offers the factor it carries. -/
theorem applyStructural_takes (s : Shared) (p : Processor) (c : ClapParamPayload) :
    (applyStructural E s p c).1.bufferSize = s.bufferSize ∧
      osState (paramCtx (applyStructural E s p c).1 (applyStructural E s p c).2) =
        c.factor?.toList.foldl (takeFactor s.bufferSize) (osState (paramCtx s p)) := by
  have hcab : ∀ (r : Shared × Processor) (pair : Option CabSimPair),
      (coldLoadCabsim E r.1 r.2 pair).1.bufferSize = r.1.bufferSize ∧
        osState (paramCtx (coldLoadCabsim E r.1 r.2 pair).1 (coldLoadCabsim E r.1 r.2 pair).2) =
          osState (paramCtx r.1 r.2) := by
    intro r pair
    unfold coldLoadCabsim
    split <;> exact ⟨rfl, rfl⟩
  have hframe := congrArg Shared.bufferSize (applyStructural_frame E s p c).shared
  refine ⟨hframe, ?_⟩
  cases c with
  | params q => exact applyParams_takes E s p q
  | loadModel m => rfl
  | loadCabIr pair => exact (hcab (s, p) pair).2
  | setOversample osL osR => rfl
  | restoreTxn txn =>
    obtain ⟨g, model, ir, q⟩ := txn
    cases ir with
    | none => cases model <;> exact applyParams_takes E _ _ q
    | some pair =>
      cases model with
      | none =>
        obtain ⟨h1, h2⟩ := hcab (s, p) pair
        have h3 := applyParams_takes E (coldLoadCabsim E s p pair).1
          (coldLoadCabsim E s p pair).2 q
        rw [h1, h2] at h3
        exact h3
      | some m =>
        obtain ⟨h1, h2⟩ := hcab (coldLoadModel E s p m) pair
        have h3 := applyParams_takes E
          (coldLoadCabsim E (coldLoadModel E s p m).1 (coldLoadModel E s p m).2 pair).1
          (coldLoadCabsim E (coldLoadModel E s p m).1 (coldLoadModel E s p m).2 pair).2 q
        rw [h1, h2] at h3
        exact h3

/-- Nothing an audio thread takes over in a callback clears the pending factor. -/
theorem audioStep_pending {s : Shared} {p : Processor} {a : AudioAction} {r : Shared × Processor}
    (h : audioStep E s p a = some r) (ha : ∀ es, a ≠ .hostEvents es)
    (hn : r.1.pendingRestartOs = .none) : s.pendingRestartOs = .none := by
  have hinstall : ∀ (s : Shared) (p : Processor) (c : ClapParamPayload),
      (applyStructural E s p c).1.pendingRestartOs = .none → s.pendingRestartOs = .none := by
    intro s p c hc
    have htakes := congrArg Prod.snd (applyStructural_takes E s p c).2
    exact foldl_takeFactor_none (htakes.symm.trans hc)
  cases a <;> simp only [audioStep] at h
  case beginEvents room =>
    split_ifs at h
    obtain rfl := Option.some.inj h
    have hall : ∀ (cs : List ClapParamPayload) (r : Shared × Processor),
        (cs.foldl (fun r c => applyStructural E r.1 r.2 c) r).1.pendingRestartOs = .none →
          r.1.pendingRestartOs = .none := by
      intro cs
      induction cs with
      | nil => exact fun _ h => h
      | cons c cs ih => exact fun r h => hinstall r.1 r.2 c (ih _ h)
    exact hall _ _ hn
  case drain m =>
    split_ifs at h
    cases drainMove_spec E h with
    | installDeferred hd => exact hinstall _ _ _ hn
    | discardDeferred hd hr hs => exact hn
    | @applyParams q rest hd hr => exact hinstall (s.popped rest) _ _ hn
    | popCandidate hd hc hr hs => exact hn
    | supersede hd hc hr hs => exact hn
    | installCandidate hd hc => exact hinstall _ _ _ hn
  case endEvents =>
    split_ifs at h
    obtain rfl := Option.some.inj h
    have hsync := (syncGeneration_takes E (endDrain s p).1 (endDrain s p).2).1
    rw [show (endEvents E s p).1.pendingRestartOs = (syncGeneration E (endDrain s p).1
      (endDrain s p).2).1.pendingRestartOs from rfl, hsync] at hn
    split_ifs at hn
    · exact hn
    · exact @foldl_takeFactor_none (endDrain s p).1.bufferSize
        [E.oversampleOfF32 (sharedStep E.toParamEngine (paramCtx (endDrain s p).1 (endDrain s p).2)
          .oversample)] _ hn
  case hostEvents es => exact absurd rfl (ha es)
  case flushInner room es =>
    split_ifs at h
    obtain rfl := Option.some.inj h
    rw [(flushInner_takes E s p room es).1] at hn
    exact foldl_takeFactor_none hn
  case slimmable m =>
    split_ifs at h
    cases slimmableMove_spec h <;> exact hn
  case signalSlimmableRebuild ch =>
    split_ifs at h
    obtain rfl := Option.some.inj h
    exact hn
  case reset =>
    split_ifs at h
    obtain rfl := Option.some.inj h
    exact hn

end

/-! ## Watched sessions -/

/-- A session with the pending factor and the count of requests its last call of the audio thread
began with. A restore that a main thread commits in the middle of a callback requests for itself,
and the call is measured from there. `callOver` says that the last step ended a call. -/
structure Watched where
  session : Session
  since : PendingRestartOs
  before : Nat
  callOver : Bool

namespace Watched

def pending (w : Watched) : PendingRestartOs := w.session.plugin.shared.pendingRestartOs

/-- The call that ended requested one restart for a new pending factor, and none otherwise. -/
def Asked (w : Watched) : Prop :=
  w.callOver = true →
    (w.pending ≠ w.since → w.pending ≠ .none → w.session.restarts = w.before + 1) ∧
      (w.pending = w.since → w.session.restarts = w.before)

end Watched

section
variable (E : Engine) (gate : GateCache)

/-- A step of a watched session. -/
def watchStep (w : Watched) (a : SessionAction) : Option Watched :=
  (sessionStep E gate w.session a).map fun y =>
    let pending := y.plugin.shared.pendingRestartOs
    { session := y
      since :=
        match a with
        | .step (.audio (.beginEvents _)) => w.pending
        | .step (.audio (.flushInner _ _)) => w.pending
        | .step (.main _) => if pending = w.pending then w.since else pending
        | _ => w.since
      before :=
        match a with
        | .step (.audio (.beginEvents _)) => w.session.restarts
        | .step (.audio (.flushInner _ _)) => w.session.restarts
        | _ => w.before
      callOver :=
        match a with
        | .block _ => true
        | .step (.audio (.flushInner _ _)) => true
        | _ => false }

def Watched.init : Watched := ⟨.init E gate, .none, 0, false⟩

/-- The factors a block offers. -/
def DspCall.offers (c : DspCall) (held : Bool) : List OversampleFactor :=
  if c.audio.isSome || held then factors E.toParamEngine c.events else []

/-- A block is due to request: nothing before it changed the pending factor, or the events of the
block change it once more, and not back; and a block whose buffers are refused leaves the pending
factor as the call found it. A flush leaves it too. -/
def AsksDue (w : Watched) : SessionAction → Prop
  | .block c => ∀ p ∈ w.session.plugin.proc,
      let k := paramCtx w.session.plugin.shared p
      let fs := c.offers E (w.session.holds p c)
      if c.audio.isSome then
        k.pendingRestart = w.since ∨ (¬Leaves k fs k.pendingRestart ∧ ¬Leaves k fs w.since)
      else Leaves k fs w.since
  | .step (.audio (.flushInner _ es)) => ∀ p ∈ w.session.plugin.proc,
      let s := w.session.plugin.shared
      Leaves (paramCtx s p) (flushFactors E s p es) s.pendingRestartOs
  | _ => True

/-- The count of requests and the pending factor while a call is in progress. -/
structure WatchInv (w : Watched) : Prop where
  idle : w.session.dspDue = true → ∀ p, w.session.plugin.proc = some p → p.inCallback = false
  before : (w.session.dspDue = true ∨ ∃ p, w.session.plugin.proc = some p ∧ p.inCallback = true) →
    w.session.restarts = w.before ∧ (w.pending = .none → w.since = .none)

theorem WatchInv.init : WatchInv (.init E gate) where
  idle h := by cases h
  before _ := ⟨rfl, fun _ => rfl⟩

/-- An audio step neither begins nor ends a callback unless it is made for that. -/
theorem audioStep_inCallback {s : Shared} {p : Processor} {a : AudioAction}
    {r : Shared × Processor} (h : audioStep E s p a = some r) (hb : ∀ room, a ≠ .beginEvents room)
    (hr : r.2.inCallback = true) : p.inCallback = true := by
  by_cases ha : a.isCommand = false
  · have hframe := congrArg Processor.inCallback (audioStep_frame E ha h).proc
    exact hframe.symm.trans hr
  cases a <;> simp only [AudioAction.isCommand, not_true_eq_false] at ha <;>
    simp only [audioStep] at h
  case beginEvents room => exact absurd rfl (hb room)
  case drain m =>
    split_ifs at h with hin
    exact hin
  case endEvents =>
    split_ifs at h with hin
    exact hin

theorem activate_inCallback {s : Shared} {cfg : AudioConfig} {faults : ActivateCall → Bool}
    {p : Processor} (h : (s.activate E cfg faults).2 = some p) : p.inCallback = false := by
  have hspec := activate_spec E s cfg faults
  generalize s.activate E cfg faults = r at hspec h
  cases hspec with
  | noConsumer => cases h
  | early => cases h
  | adapt => cases h
  | flush hprep hf => cases h
  | ok hprep hf => exact Option.some.inj h ▸ rfl

/-- No call is in progress. -/
theorem WatchInv.outside {u : Watched} (hd : u.session.dspDue = false)
    (hp : ∀ p, u.session.plugin.proc = some p → p.inCallback = false) : WatchInv u := by
  refine ⟨fun hdue => ?_, fun hin => ?_⟩
  · rw [hd] at hdue
    cases hdue
  · obtain hdue | ⟨p, hu, hin⟩ := hin
    · rw [hd] at hdue
      cases hdue
    · rw [hp p hu] at hin
      cases hin

/-- The operations of the audio thread a call begins with. -/
def AudioAction.beginsCall : AudioAction → Bool
  | .beginEvents _ => true
  | .flushInner _ _ => true
  | _ => false

theorem WatchInv.audio {w : Watched} {p : Processor} {a : AudioAction} {r : Shared × Processor}
    (h : WatchInv w) (hp : w.session.plugin.proc = some p)
    (hr : audioStep E w.session.plugin.shared p a = some r) (he : ∀ es, a ≠ .hostEvents es)
    (hd : w.session.dspDue = true → (Action.audio a).awaitsBlock = false) {due : Bool}
    (hdue : due = true → w.session.dspDue = true ∨ a = .endEvents) {rd : Rendering}
    {since : PendingRestartOs} {before : Nat} {callOver : Bool}
    (hcall : if a.beginsCall then since = w.pending ∧ before = w.session.restarts
      else since = w.since ∧ before = w.before) :
    WatchInv ⟨{ w.session with plugin := ⟨r.1, some r.2⟩, rendering := rd, dspDue := due }, since,
      before, callOver⟩ := by
  have hnone := audioStep_pending E hr he
  refine ⟨fun hdue' q hq => ?_, fun hin => ?_⟩
  · obtain rfl := Option.some.inj hq
    obtain hdue' | rfl := hdue hdue'
    · rw [← Bool.not_eq_true]
      intro hin
      have hidle := h.idle hdue' p hp
      rw [audioStep_inCallback E hr (fun room ha => by subst ha; cases hd hdue') hin] at hidle
      cases hidle
    · simp only [audioStep] at hr
      split_ifs at hr
      exact Option.some.inj hr ▸ rfl
  · split at hcall
    · obtain ⟨rfl, rfl⟩ := hcall
      exact ⟨rfl, hnone⟩
    · rename_i hb
      obtain ⟨rfl, rfl⟩ := hcall
      -- the call was in progress before the step
      have hprog : w.session.dspDue = true ∨
          ∃ p, w.session.plugin.proc = some p ∧ p.inCallback = true := by
        obtain hdue' | ⟨q, hq, hin⟩ := hin
        · obtain hdue' | rfl := hdue hdue'
          · exact .inl hdue'
          · simp only [audioStep] at hr
            split_ifs at hr with hin
            exact .inr ⟨p, hp, hin⟩
        · obtain rfl := Option.some.inj hq
          exact .inr ⟨p, hp, audioStep_inCallback E hr
            (fun room ha => by subst ha; exact hb rfl) hin⟩
      obtain ⟨h1, h2⟩ := h.before hprog
      exact ⟨h1, fun hn => h2 (hnone hn)⟩

theorem WatchInv.step {w u : Watched} {a : SessionAction} (h : WatchInv w)
    (hu : watchStep E gate w a = some u) : WatchInv u := by
  obtain ⟨y, hy, rfl⟩ := Option.map_eq_some_iff.1 hu
  cases sessionStep_spec E gate hy with
  | @block c p z hp hd k =>
    have hidle := h.idle hd p hp
    have hcall : ∀ q, y.plugin.proc = some q → q.inCallback = false := by
      intro q hq
      cases k with
      | held hw =>
        obtain rfl := Option.some.inj hq
        exact (dryContainedBlock_takes E _ p _ c).2.2.trans hidle
      | contained hw hn =>
        obtain rfl := Option.some.inj hq
        exact (dryContainedBlock_takes E _ p _ c).2.2.trans hidle
      | wet hw hn hr =>
        obtain rfl := Option.some.inj hq
        exact (wetBlock_takes E hr).2.2.trans hidle
    exact .outside (by cases k <;> rfl) hcall
  | @step b z he hd k =>
    cases b with
    | main m =>
      obtain rfl := Option.some.inj k
      refine ⟨fun hdue => h.idle (by simpa using hdue), fun hin => ?_⟩
      obtain ⟨h1, h2⟩ := h.before (by simpa using hin)
      refine ⟨h1, fun hn => ?_⟩
      dsimp only
      split
      · rename_i hsame
        exact h2 (hsame.symm.trans hn)
      · exact hn
    | audio a =>
      obtain ⟨p, hp, k⟩ := Option.bind_eq_some_iff.1 k
      obtain ⟨r, hr, rfl⟩ := Option.map_eq_some_iff.1 k
      have he : ∀ es, a ≠ .hostEvents es := fun es ha => he es (congrArg _ ha)
      cases a <;> refine h.audio E hp hr he hd (fun hdue => ?_) ⟨rfl, rfl⟩ <;>
        first | exact .inr rfl | exact .inl (by simpa using hdue)
    | activate cfg faults =>
      have hdue : ¬w.session.dspDue = true := fun hdue => by cases hd hdue
      simp only [NamPlug.step] at k
      split_ifs at k
      obtain rfl := Option.some.inj k
      exact .outside (by simpa using hdue) fun p hp => activate_inCallback E hp
    | deactivate =>
      have hdue : ¬w.session.dspDue = true := fun hdue => by cases hd hdue
      simp only [NamPlug.step] at k
      split at k
      · split_ifs at k
        obtain rfl := Option.some.inj k
        exact .outside (by simpa using hdue) fun p hp => by cases hp
      · cases k

/-! ## What is requested -/

/-- A block requests a restart where its own events change the pending factor. -/
theorem Renders.takes {x y : Session} {p : Processor} {c : DspCall} (h : Renders E x p c y) :
    let s := x.plugin.shared
    let o := y.plugin.shared.pendingRestartOs
    o = (((c.offers E (x.holds p c)).foldl (takeFactor s.bufferSize)
        (osState (paramCtx s p))).2) ∧
      y.restarts = x.restarts + (decide (c.audio.isSome = true ∧ o ≠ s.pendingRestartOs ∧
        o ≠ .none)).toNat := by
  unfold Session.holds DspCall.offers
  cases h with
  | held hw =>
    obtain ⟨h1, h2, -⟩ := dryContainedBlock_takes E x.plugin.shared p
      (x.rendering.prewarmStep p c).1 c
    rw [hw, Bool.true_or, Bool.or_true]
    refine ⟨h1, congrArg (x.restarts + Bool.toNat ·) ?_⟩
    rw [Bool.eq_iff_iff, decide_eq_true_eq]
    exact h2
  | contained hw hn =>
    obtain ⟨h1, h2, -⟩ := dryContainedBlock_takes E x.plugin.shared p
      ((x.rendering.prewarmStep p c).1.prewarmReset p) c
    rw [hn, Bool.or_true, Bool.or_true]
    refine ⟨h1, congrArg (x.restarts + Bool.toNat ·) ?_⟩
    rw [Bool.eq_iff_iff, decide_eq_true_eq]
    exact h2
  | wet hw hn hr =>
    obtain ⟨h1, h2, -⟩ := wetBlock_takes E hr
    rw [hw, hn, Bool.or_false, Bool.or_false]
    refine ⟨h1, congrArg (x.restarts + Bool.toNat ·) ?_⟩
    rw [Bool.eq_iff_iff, decide_eq_true_eq]
    exact h2

theorem Watched.asked_iff {w u : Watched} {a : SessionAction} (h : WatchInv w)
    (hu : watchStep E gate w a = some u) : u.Asked ↔ AsksDue E w a := by
  obtain ⟨y, hy, rfl⟩ := Option.map_eq_some_iff.1 hu
  cases sessionStep_spec E gate hy with
  | @block c p z hp hd k =>
    obtain ⟨hreq, hnone⟩ := h.before (.inl hd)
    obtain ⟨hpend, hrest⟩ := k.takes E
    have hkeep : y.plugin.shared.pendingRestartOs = .none → w.pending = .none := fun hn =>
      foldl_takeFactor_none (hpend.symm.trans hn)
    have hleaves := fun o => leaves_iff (paramCtx w.session.plugin.shared p)
      (c.offers E (w.session.holds p c)) o
    have hleaves : ∀ o, Leaves (paramCtx w.session.plugin.shared p)
        (c.offers E (w.session.holds p c)) o ↔ y.plugin.shared.pendingRestartOs = o := by
      intro o
      rw [leaves_iff, hpend]
      rfl
    unfold Watched.Asked AsksDue
    simp only [hp, Option.mem_some_iff, forall_eq', forall_const, hleaves]
    rw [show (paramCtx w.session.plugin.shared p).pendingRestart = w.pending from rfl]
    rw [show w.session.plugin.shared.pendingRestartOs = w.pending from rfl] at hrest
    unfold Watched.pending at *
    generalize y.plugin.shared.pendingRestartOs = o at *
    have hcount : ∀ d : Bool, (w.session.restarts + d.toNat = w.before + 1 ↔ d = true) ∧
        (w.session.restarts + d.toNat = w.before ↔ d = false) := by
      intro d
      cases d <;> simp [hreq]
    rw [hrest, (hcount _).1, (hcount _).2]
    -- a pending factor that is none was none all along
    by_cases ho : o = .none
    · have h1 := hkeep ho
      have h2 := hnone h1
      rw [ho, h1, h2]
      simp
    · cases c.audio.isSome
      · simp [ho]
      · simp only [ho, ne_eq, not_false_eq_true, and_true, true_and, decide_eq_true_eq,
          decide_eq_false_iff_not, not_not, if_true, forall_const]
        constructor
        · rintro ⟨h1, h2⟩
          by_cases hsince : w.session.plugin.shared.pendingRestartOs = w.since
          · exact .inl hsince
          · refine .inr ⟨fun h => ?_, fun h => hsince ((h2 h).symm.trans h)⟩
            exact h1 (fun h' => hsince (h.symm.trans h')) h
        · rintro (h1 | ⟨h1, h2⟩)
          · exact ⟨fun h => h1 ▸ h, fun h => h.trans h1.symm⟩
          · exact ⟨fun _ => h1, fun h => absurd h h2⟩
  | @step b z he hd k =>
    cases b with
    | audio a =>
      cases a with
      | flushInner room es =>
        obtain ⟨p, hp, k⟩ := Option.bind_eq_some_iff.1 k
        obtain ⟨r, hr, rfl⟩ := Option.map_eq_some_iff.1 k
        simp only [audioStep] at hr
        split_ifs at hr
        obtain rfl := Option.some.inj hr
        obtain ⟨hpend, -⟩ := flushInner_takes E w.session.plugin.shared p room es
        have hkeep : (flushInner E w.session.plugin.shared p room es).1.pendingRestartOs = .none →
            w.pending = .none := fun hn => foldl_takeFactor_none (hpend.symm.trans hn)
        unfold AsksDue
        simp only [hp, Option.mem_some_iff, forall_eq', leaves_iff]
        rw [show (paramCtx w.session.plugin.shared p).bufferSize =
          w.session.plugin.shared.bufferSize from rfl, ← hpend]
        refine ⟨fun hasked => ?_, fun hsame _ => ⟨fun hne => absurd hsame hne, fun _ => rfl⟩⟩
        by_contra hne
        have hone := (hasked rfl).1 hne fun hn => hne (hn.trans (hkeep hn).symm)
        exact absurd hone (Nat.ne_of_lt (Nat.lt_succ_self _))
      | _ => exact ⟨fun _ => trivial, fun _ hover => by cases hover⟩
    | _ => exact ⟨fun _ => trivial, fun _ hover => by cases hover⟩

/-- In every run, every call of the audio thread requests one restart for a new pending factor and
none otherwise, if every block and every flush is due to, and only then. -/
theorem restart_requested_once {as : List SessionAction} {w : Watched}
    (h : run (watchStep E gate) (.init E gate) as = some w) :
    (∀ bs u, bs <+: as → run (watchStep E gate) (.init E gate) bs = some u → u.Asked) ↔
      Guarded (watchStep E gate) (AsksDue E) (.init E gate) as :=
  always_iff_guarded (P := fun w => WatchInv w ∧ w.Asked) (Q := Watched.Asked) (fun _ hw => hw.2)
    (fun _ _ _ hw hu => (Watched.asked_iff E gate hw.1 hu).1)
    (fun _ _ _ hw hu hG => ⟨hw.1.step E gate hu, (Watched.asked_iff E gate hw.1 hu).2 hG⟩)
    ⟨.init E gate, fun hover => by cases hover⟩ h

end

/-! ## Runs of the reference engine -/

/-- The host sets the oversampling in a block. -/
def refRequested : List SessionAction :=
  .step refActivate :: refProcess (refCall [.value 5 (some 7) (natDatum 1)])

instance (w : Watched) (a : SessionAction) : Decidable (AsksDue refEngine w a) :=
  match a with
  | .block c => inferInstanceAs (Decidable (∀ p ∈ w.session.plugin.proc,
      let k := paramCtx w.session.plugin.shared p
      let fs := c.offers refEngine (w.session.holds p c)
      if c.audio.isSome then
        k.pendingRestart = w.since ∨ (¬Leaves k fs k.pendingRestart ∧ ¬Leaves k fs w.since)
      else Leaves k fs w.since))
  | .step (.audio (.flushInner _ es)) => inferInstanceAs (Decidable
      (∀ p ∈ w.session.plugin.proc, Leaves (paramCtx w.session.plugin.shared p)
        (flushFactors refEngine w.session.plugin.shared p es)
        w.session.plugin.shared.pendingRestartOs))
  | .step (.main _) => isTrue trivial
  | .step (.activate _ _) => isTrue trivial
  | .step .deactivate => isTrue trivial
  | .step (.audio (.beginEvents _)) => isTrue trivial
  | .step (.audio (.drain _)) => isTrue trivial
  | .step (.audio .endEvents) => isTrue trivial
  | .step (.audio (.hostEvents _)) => isTrue trivial
  | .step (.audio (.slimmable _)) => isTrue trivial
  | .step (.audio (.signalSlimmableRebuild _)) => isTrue trivial
  | .step (.audio .reset) => isTrue trivial

theorem restart_requested_once_block :
    ∃ w, run (watchStep refEngine refGate) (.init refEngine refGate) refRequested = some w ∧
      w.callOver = true ∧ w.since = .none ∧ w.pending = .pending .x2 ∧
      w.session.restarts = w.before + 1 := by
  have hsome : (run (watchStep refEngine refGate) (.init refEngine refGate) refRequested).map
      (fun w => (w.callOver, w.since, w.pending)) = some (true, .none, .pending .x2) := by
    decide +kernel
  obtain ⟨w, hw, hval⟩ := Option.map_eq_some_iff.1 hsome
  simp only [Prod.mk.injEq] at hval
  obtain ⟨hover, hsince, hpend⟩ := hval
  have hasked := (restart_requested_once refEngine refGate hw).2 (by decide +kernel) refRequested w
    (List.prefix_refl _) hw
  refine ⟨w, hw, hover, hsince, hpend, (hasked hover).1 ?_ ?_⟩
  · rw [hpend, hsince]
    decide
  · rw [hpend]
    decide

/-- The oversampling is set in the plugin's own window before a callback. -/
def refGuiOversample : List SessionAction :=
  .step refActivate :: .step (.main (.guiStore (.oversampleChanged 1))) ::
    .step (.main (.guiAnnounce (.oversampleChanged 1))) :: refProcess (refCall [])

/-- The callback takes the factor over before its block, and does not request the restart. -/
theorem restart_not_requested :
    ∃ w, run (watchStep refEngine refGate) (.init refEngine refGate) refGuiOversample = some w ∧
      w.since = .none ∧ w.pending = .pending .x2 ∧ w.session.restarts = 0 ∧ ¬w.Asked := by
  have hsome : (run (watchStep refEngine refGate) (.init refEngine refGate) refGuiOversample).map
      (fun w => (w.callOver, w.since, w.pending, w.session.restarts)) =
        some (true, .none, .pending .x2, 0) := by decide +kernel
  obtain ⟨w, hw, hval⟩ := Option.map_eq_some_iff.1 hsome
  simp only [Prod.mk.injEq] at hval
  obtain ⟨hover, hsince, hpend, hzero⟩ := hval
  refine ⟨w, hw, hsince, hpend, hzero, fun hasked => ?_⟩
  have hone := (hasked hover).1 (by rw [hpend, hsince]; decide) (by rw [hpend]; decide)
  rw [hzero] at hone
  cases hone

end NamPlug
