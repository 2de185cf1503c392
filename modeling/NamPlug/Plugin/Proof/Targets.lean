import NamPlug.Params.Proof.Sync
import NamPlug.Plugin.Proof.Counts
import NamPlug.Plugin.Proof.Process

/-!
# Where the gain smoothers aim

`AtGains E r`: the target of each gain smoother is the lookup of its gain and modulation in force.
Every writer of a gain or of its modulation keeps it: the events of a block, fused or not
(`keeps_atGains`), the flush, the synchronization (which takes a gain over as a whole or not at
all), snapshots and restores. Only `reset` does not, which takes the modulation off and leaves the
targets where they were: it keeps them right where the modulation in force makes no difference to
the gain (`ResetsUnmodulated`). `smoothers_on_target` puts the two together over the runs of a
session, up to the tolerance of the synchronization (`OnTarget`).
-/

namespace NamPlug

open Binary32 Machine

/-- Equal up to the tolerance of the GUI synchronization. -/
def Near (a b : F32) : Prop := a = b ∨ targetsDiffer a b = false

instance (a b : F32) : Decidable (Near a b) := inferInstanceAs (Decidable (_ ∨ _))

/-- The fields a gain smoother is about. -/
def RtParamState.gains (r : RtParamState) : (F32 × F32 × F32) × F32 × F32 × F32 :=
  ((r.smootherIn, r.params.inputGainDb, r.modInputGain),
    r.smootherOut, r.params.outputGainDb, r.modOutputGain)

section
variable (E : ParamEngine)

structure AtGains (r : RtParamState) : Prop where
  input : r.smootherIn = E.dbToLinear (add r.params.inputGainDb r.modInputGain)
  output : r.smootherOut = E.dbToLinear (add r.params.outputGainDb r.modOutputGain)

/-- The same up to the tolerance. -/
structure OnTarget (r : RtParamState) : Prop where
  input : Near r.smootherIn (E.dbToLinear (add r.params.inputGainDb r.modInputGain))
  output : Near r.smootherOut (E.dbToLinear (add r.params.outputGainDb r.modOutputGain))

instance (r : RtParamState) : Decidable (OnTarget E r) :=
  decidable_of_iff (_ ∧ _) ⟨fun h => ⟨h.1, h.2⟩, fun h => ⟨h.1, h.2⟩⟩

variable {E}

theorem AtGains.onTarget {r : RtParamState} (h : AtGains E r) : OnTarget E r :=
  ⟨.inl h.input, .inl h.output⟩

theorem AtGains.congr {r r' : RtParamState} (h : AtGains E r) (hg : r'.gains = r.gains) :
    AtGains E r' := by
  unfold RtParamState.gains at hg
  simp only [Prod.mk.injEq] at hg
  obtain ⟨⟨h1, h2, h3⟩, h4, h5, h6⟩ := hg
  constructor
  · rw [h1, h2, h3]
    exact h.input
  · rw [h4, h5, h6]
    exact h.output

/-- A writer of the input gain or its modulation that retargets. -/
theorem AtGains.retargetIn {r r' : RtParamState} (h : AtGains E r)
    (hin : r'.smootherIn = E.dbToLinear (add r'.params.inputGainDb r'.modInputGain))
    (hout : r'.gains.2 = r.gains.2) : AtGains E r' := by
  unfold RtParamState.gains at hout
  simp only [Prod.mk.injEq] at hout
  obtain ⟨h4, h5, h6⟩ := hout
  refine ⟨hin, ?_⟩
  rw [h4, h5, h6]
  exact h.output

theorem AtGains.retargetOut {r r' : RtParamState} (h : AtGains E r)
    (hout : r'.smootherOut = E.dbToLinear (add r'.params.outputGainDb r'.modOutputGain))
    (hin : r'.gains.1 = r.gains.1) : AtGains E r' := by
  unfold RtParamState.gains at hin
  simp only [Prod.mk.injEq] at hin
  obtain ⟨h1, h2, h3⟩ := hin
  refine ⟨?_, hout⟩
  rw [h1, h2, h3]
  exact h.input

/-! ## Parameters -/

theorem applyModEvent_atGains {c : ParamCtx} (h : AtGains E c.rt) (p : ParamId) (v : F32) :
    AtGains E (applyModEvent E c p v true).1.rt := by
  cases p
  case inputGain => exact h.retargetIn rfl rfl
  case outputGain => exact h.retargetOut rfl rfl
  all_goals exact h.congr rfl

theorem applyValueEvent_atGains {c : ParamCtx} (h : AtGains E c.rt) (p : ParamId) (v : F32) :
    AtGains E (applyValueEvent E c p v true).1.rt := by
  cases p
  case inputGain => exact h.retargetIn rfl rfl
  case outputGain => exact h.retargetOut rfl rfl
  case oversample =>
    unfold applyValueEvent
    dsimp only
    split
    · split <;> exact h.congr rfl
    · exact h
  case activation =>
    unfold applyValueEvent
    dsimp only
    split
    · exact h.congr rfl
    · exact h
  all_goals exact h.congr rfl

theorem applyEvent_atGains {c : ParamCtx} (h : AtGains E c.rt) (e : ScheduledEvent) :
    AtGains E (applyEvent E c e true).1.rt := by
  unfold applyEvent
  split
  · unfold applyScheduledEvent
    split
    · exact applyModEvent_atGains h _ _
    · exact applyValueEvent_atGains h _ _
  · exact h

theorem setParam_atGains {c : ParamCtx} (h : AtGains E c.rt) (p : ParamId) (v : F32) :
    AtGains E (setParam E c p v).rt := by
  cases p
  case inputGain => exact h.retargetIn rfl rfl
  case outputGain => exact h.retargetOut rfl rfl
  case oversample =>
    unfold setParam
    dsimp only
    split
    · rw [applyOversample_rt]
      exact h.congr rfl
    · exact h
  case activation =>
    unfold setParam
    dsimp only
    split
    · exact h.congr rfl
    · exact h
  all_goals exact h.congr rfl

theorem syncParamsFromGui_atGains {c : ParamCtx} (h : AtGains E c.rt) :
    AtGains E (syncParamsFromGui E c).rt := by
  have hin : ∀ {c : ParamCtx}, AtGains E c.rt → AtGains E (syncInputGainFromGui E c).rt := by
    intro c h
    unfold syncInputGainFromGui
    dsimp only
    split
    · exact h.retargetIn rfl rfl
    · exact h
  have hout : ∀ {c : ParamCtx}, AtGains E c.rt → AtGains E (syncOutputGainFromGui E c).rt := by
    intro c h
    unfold syncOutputGainFromGui
    dsimp only
    split
    · exact h.retargetOut rfl rfl
    · exact h
  have hgate : ∀ {c : ParamCtx}, AtGains E c.rt → AtGains E (syncGateThreshFromGui E c).rt := by
    intro c h
    obtain ⟨v, d, -, heq⟩ := syncGateThreshFromGui_eq E c
    rw [heq]
    exact h.congr rfl
  have hbypass : ∀ {c : ParamCtx}, AtGains E c.rt → AtGains E (syncBypassFromGui c).rt := by
    intro c h
    rw [syncBypassFromGui_eq]
    exact h.congr rfl
  have hadaptive : ∀ {c : ParamCtx}, AtGains E c.rt →
      AtGains E (syncAdaptiveComputeFromGui E c).rt := by
    intro c h
    rw [syncAdaptiveComputeFromGui_eq]
    exact h.congr rfl
  have hslim : ∀ {c : ParamCtx}, AtGains E c.rt →
      AtGains E (syncSlimOverrideFromGui E c).rt := by
    intro c h
    rw [syncSlimOverrideFromGui_eq]
    exact h.congr rfl
  have hos : ∀ {c : ParamCtx}, AtGains E c.rt → AtGains E (syncOversampleFromGui E c).rt := by
    intro c h
    obtain ⟨o, r, heq⟩ := syncOversampleFromGui_eq E c
    rw [heq]
    exact h.congr rfl
  have hact : ∀ {c : ParamCtx}, AtGains E c.rt → AtGains E (syncActivationFromGui E c).rt := by
    intro c h
    obtain ⟨t, heq⟩ := syncActivationFromGui_eq E c
    rw [heq]
    exact h.congr rfl
  exact hact (hos (hslim (hadaptive (hbypass (hgate (hout (hin h)))))))

/-- A snapshot retargets both smoothers. -/
theorem applyParamsFromSpsc_atGains (c : ParamCtx) (new : RtProcessingParams) :
    AtGains E (applyParamsFromSpsc E c new).rt := by
  have hset : ∀ r : RtParamState,
      r.smootherIn = E.dbToLinear (add r.params.inputGainDb r.modInputGain) →
      r.smootherOut = E.dbToLinear (add r.params.outputGainDb r.modOutputGain) → AtGains E r :=
    fun _ h1 h2 => ⟨h1, h2⟩
  unfold applyParamsFromSpsc
  dsimp only
  split
  · rw [applyOversample_rt]
    exact hset _ rfl rfl
  · exact hset _ rfl rfl

/-! ## Fused gain events -/

/-- What a gain event leaves where it is fused: its target is that of the gain in force from then
on, and the smoothers wait for their sub-block. -/
theorem applyEvent_fused (c : ParamCtx) {e : ScheduledEvent}
    (h : isFusableGainParam e.paramId = true) :
    ∃ gt, (applyEvent E c e false).2 = some gt ∧
      (applyEvent E c e false).1.rt.smootherIn = c.rt.smootherIn ∧
      (applyEvent E c e false).1.rt.smootherOut = c.rt.smootherOut ∧
      (applyEvent E c e false).1.rt.params.bypass = c.rt.params.bypass ∧
      ((gt.isInput = true ∧ gt.target = E.dbToLinear (add
            (applyEvent E c e false).1.rt.params.inputGainDb
            (applyEvent E c e false).1.rt.modInputGain) ∧
          (applyEvent E c e false).1.rt.gains.2 = c.rt.gains.2) ∨
        (gt.isInput = false ∧ gt.target = E.dbToLinear (add
            (applyEvent E c e false).1.rt.params.outputGainDb
            (applyEvent E c e false).1.rt.modOutputGain) ∧
          (applyEvent E c e false).1.rt.gains.1 = c.rt.gains.1)) := by
  have hid : e.paramId = 0 ∨ e.paramId = 1 := by
    simpa [isFusableGainParam, ParamId.code] using h
  unfold applyEvent applyScheduledEvent
  rcases hid with hid | hid <;> rw [hid] <;> simp only [ParamId.ofCode] <;> split
  · exact ⟨_, rfl, rfl, rfl, rfl, .inl ⟨rfl, rfl, rfl⟩⟩
  · exact ⟨_, rfl, rfl, rfl, rfl, .inl ⟨rfl, rfl, rfl⟩⟩
  · exact ⟨_, rfl, rfl, rfl, rfl, .inr ⟨rfl, rfl, rfl⟩⟩
  · exact ⟨_, rfl, rfl, rfl, rfl, .inr ⟨rfl, rfl, rfl⟩⟩

theorem rampTarget_append (t : F32) (steps : List GainStep) (st : GainStep) (want : Bool) :
    rampTarget t (steps ++ [st]) want =
      if st.isInput = want then st.target else rampTarget t steps want := by
  unfold rampTarget
  rw [List.foldl_append]
  rfl

/-- The steps staged so far would leave the smoothers of `r` on target. -/
structure Aimed (E : ParamEngine) (r : RtParamState) (s : Staged) : Prop where
  input : rampTarget r.smootherIn s.steps true =
    E.dbToLinear (add s.ctx.rt.params.inputGainDb s.ctx.rt.modInputGain)
  output : rampTarget r.smootherOut s.steps false =
    E.dbToLinear (add s.ctx.rt.params.outputGainDb s.ctx.rt.modOutputGain)
  smootherIn : s.ctx.rt.smootherIn = r.smootherIn
  smootherOut : s.ctx.rt.smootherOut = r.smootherOut
  bypass : s.ctx.rt.params.bypass = r.params.bypass

/-- While there is room for a step of every event, staging keeps the aim. -/
theorem stageLoop_aimed {r : RtParamState} {cur stop : Nat} :
    ∀ {es : List ScheduledEvent} {s : Staged},
      (∀ e ∈ es, e.time < stop → isFusableGainParam e.paramId = true) →
      s.steps.length + (es.filter (fun e => decide (e.time < stop))).length ≤ MAX_GAIN_STEPS →
      Aimed E r s → Aimed E r (stageLoop E cur stop es s)
  | [], s, _, _, h => ⟨h.1, h.2, h.3, h.4, h.5⟩
  | e :: es, s, hgain, hroom, h => by
    unfold stageLoop
    split
    · exact ⟨h.1, h.2, h.3, h.4, h.5⟩
    · rename_i hno
      simp only [Bool.or_eq_true, decide_eq_true_eq, not_or, Nat.not_le] at hno
      have hg := hgain e (.head _) hno.1
      rw [List.filter_cons_of_pos (by simpa using hno.1), List.length_cons] at hroom
      obtain ⟨gt, hgt, hin, hout, hbypass, htarget⟩ := applyEvent_fused (E := E) s.ctx hg
      have hlt : s.steps.length < MAX_GAIN_STEPS := by omega
      simp only [hgt, if_pos hlt]
      apply stageLoop_aimed (fun e' he' => hgain e' (.tail _ he'))
      · simp only [List.length_append, List.length_singleton]
        omega
      · obtain ⟨h1, h2, h3, h4, h5⟩ := h
        refine ⟨?_, ?_, hin.trans h3, hout.trans h4, hbypass.trans h5⟩
        · rw [rampTarget_append]
          obtain ⟨hi, ht, -⟩ | ⟨hi, -, hsame⟩ := htarget
          · rw [if_pos hi]
            exact ht
          · rw [if_neg (by simp [hi])]
            unfold RtParamState.gains at hsame
            simp only [Prod.mk.injEq] at hsame
            rw [hsame.2.1, hsame.2.2]
            exact h1
        · rw [rampTarget_append]
          obtain ⟨hi, -, hsame⟩ | ⟨hi, ht, -⟩ := htarget
          · rw [if_neg (by simp [hi])]
            unfold RtParamState.gains at hsame
            simp only [Prod.mk.injEq] at hsame
            rw [hsame.2.1, hsame.2.2]
            exact h2
          · rw [if_pos hi]
            exact ht

/-! ## Sub-blocks -/

section
variable (D : DspEngine)

/-- Without steps a chunk leaves the targets, with steps it leaves them at the last ones where the
wet path runs. -/
theorem processChunk_targets (pos n : Nat) (bypass : Bool) (steps : List GainStep) (s : SubState) :
    (steps = [] → (processChunk D pos n bypass steps s).2.smootherIn = s.smootherIn ∧
      (processChunk D pos n bypass steps s).2.smootherOut = s.smootherOut) ∧
    (s.xfade.active = false → bypass = false →
      (processChunk D pos n bypass steps s).2.smootherIn = rampTarget s.smootherIn steps true ∧
      (processChunk D pos n bypass steps s).2.smootherOut =
        rampTarget s.smootherOut steps false) := by
  unfold processChunk
  refine ⟨fun hs => ?_, fun hx hb => ?_⟩
  · subst hs
    split
    · exact ⟨rfl, rfl⟩
    · split <;> exact ⟨rfl, rfl⟩
  · rw [hx, hb]
    exact ⟨rfl, rfl⟩

theorem processSubBlock_targets (pos n outPos : Nat) (bypass : Bool) (s : SubState) :
    (processSubBlock D pos n outPos bypass [] s).2.smootherIn = s.smootherIn ∧
      (processSubBlock D pos n outPos bypass [] s).2.smootherOut = s.smootherOut := by
  have hchunks : ∀ (fuel pos outPos remaining : Nat) (s : SubState),
      (processChunks D bypass fuel pos outPos remaining s).2.smootherIn = s.smootherIn ∧
        (processChunks D bypass fuel pos outPos remaining s).2.smootherOut = s.smootherOut := by
    intro fuel
    induction fuel with
    | zero => exact fun _ _ _ _ => ⟨rfl, rfl⟩
    | succ fuel ih =>
      intro pos outPos remaining s
      unfold processChunks
      split
      · exact ⟨rfl, rfl⟩
      · obtain ⟨h1, h2⟩ := (processChunk_targets D pos (min remaining D.maxResampBuf) bypass []
          s).1 rfl
        obtain ⟨h3, h4⟩ := ih (pos + min remaining D.maxResampBuf)
          (outPos + (processChunk D pos (min remaining D.maxResampBuf) bypass [] s).1)
          (remaining - min remaining D.maxResampBuf)
          (processChunk D pos (min remaining D.maxResampBuf) bypass [] s).2
        exact ⟨h3.trans h1, h4.trans h2⟩
  unfold processSubBlock
  split
  · exact hchunks n pos outPos n s
  · exact (processChunk_targets D pos n bypass [] s).1 rfl

/-- A sub-block with its gain events fused into it ends on target. -/
theorem advanceTo_fused {b : BlockState} {base n off : Nat} (out : Nat) (h : AtGains E b.ctx.rt)
    (hord : Ordered b) (hoff : off < n) (hhead : ∀ e ∈ b.pending.head?, base + off ≤ e.time)
    (hfuse : b.fuses D n = true) :
    AtGains E (b.advanceTo E D base off (scanEnd true (base + off) base n b.pending 0) out
      true).1.ctx.rt := by
  unfold BlockState.fuses at hfuse
  simp only [Bool.and_eq_true, decide_eq_true_eq, Bool.not_eq_true'] at hfuse
  obtain ⟨⟨⟨⟨-, hsorted⟩, hn⟩, hactive⟩, hbypass⟩ := hfuse
  have hsort := hord hsorted
  obtain ⟨-, hle, hgain, hroom, -⟩ := scanEnd_fused (by omega : base + off ≤ base + n) (by omega)
    hsort (le_of_head hsort hhead) (Nat.zero_le _)
  generalize scanEnd true (base + off) base n b.pending 0 = subEnd at *
  unfold BlockState.advanceTo
  split
  · exact h
  · rw [if_pos rfl]
    have haimed : Aimed E b.ctx.rt
        (stageLoop E (base + off) (base + subEnd) b.pending ⟨b.ctx, [], [], []⟩) :=
      stageLoop_aimed hgain (by simpa using hroom) ⟨h.1, h.2, rfl, rfl, rfl⟩
    generalize stageLoop E (base + off) (base + subEnd) b.pending ⟨b.ctx, [], [], []⟩ = s at *
    obtain ⟨h1, h2, h3, h4, h5⟩ := haimed
    dsimp only [BlockState.process]
    unfold processSubBlock
    rw [if_neg (by omega)]
    obtain ⟨h6, h7⟩ := (processChunk_targets D (base + off) (subEnd - off) s.ctx.rt.params.bypass
      s.steps ⟨b.xfade, s.ctx.rt.smootherIn, s.ctx.rt.smootherOut⟩).2 hactive (h5.trans hbypass)
    refine ⟨?_, ?_⟩
    · dsimp only
      rw [h6, h3]
      exact h1
    · dsimp only
      rw [h7, h4]
      exact h2

/-- The moves of a block keep the smoothers on target. -/
theorem keeps_atGains : Keeps E D (fun b => AtGains E b.ctx.rt ∧ Ordered b) where
  applyNow hb := ⟨applyEvent_atGains hb.1 _, (keeps_ordered (E := E) (D := D)).applyNow hb.2⟩
  advance {b base n off} out hb hoff hhead := by
    refine ⟨?_, keeps_ordered.advance out hb.2 hoff hhead⟩
    cases hf : b.fuses D n with
    | true => exact advanceTo_fused D out hb.1 hb.2 hoff hhead hf
    | false =>
      unfold BlockState.advanceTo
      split
      · exact hb.1
      · rw [if_neg (by simp)]
        obtain ⟨h1, h2⟩ := processSubBlock_targets D (base + off)
          (scanEnd false (base + off) base n b.pending 0 - off) (base + out)
          b.ctx.rt.params.bypass ⟨b.xfade, b.ctx.rt.smootherIn, b.ctx.rt.smootherOut⟩
        refine hb.1.congr ?_
        dsimp only [BlockState.process, RtParamState.gains]
        rw [h1, h2]
  refresh {b} hb := by
    refine ⟨?_, keeps_ordered.refresh (E := E) (D := D) hb.2⟩
    unfold BlockState.triggerBypass BlockState.refreshGate
    split
    · exact hb.1.congr rfl
    · exact hb.1
  anomaly hb := hb
  violation hb := hb

end

end

/-! ## Steps of the audio thread -/

section
variable {E : Engine}

theorem applyStructural_atGains {s : Shared} {p : Processor} (h : AtGains E.toParamEngine p.rt)
    (c : ClapParamPayload) : AtGains E.toParamEngine (applyStructural E s p c).2.rt := by
  have hcab : ∀ (s : Shared) (p : Processor) (pair : Option CabSimPair),
      (coldLoadCabsim E s p pair).2.rt = p.rt := by
    intro s p pair
    unfold coldLoadCabsim
    split <;> rfl
  cases c with
  | params q => exact applyParamsFromSpsc_atGains _ q
  | loadModel m => exact h
  | loadCabIr pair =>
    show AtGains _ (coldLoadCabsim E s p pair).2.rt
    rw [hcab]
    exact h
  | setOversample osL osR => exact h
  | restoreTxn txn => exact applyParamsFromSpsc_atGains _ txn.params

theorem install_atGains {s : Shared} {p : Processor} (h : AtGains E.toParamEngine p.rt)
    (c : ClapParamPayload) : AtGains E.toParamEngine (install E s p c).2.rt := by
  unfold install
  refine applyStructural_atGains ?_ c
  exact h

theorem syncGeneration_atGains {s : Shared} {p : Processor} (h : AtGains E.toParamEngine p.rt) :
    AtGains E.toParamEngine (syncGeneration E s p).2.rt := by
  unfold syncGeneration
  split
  · exact h
  · exact syncParamsFromGui_atGains (c := paramCtx s p) h

/-- The render mode moves no gain. -/
theorem followRenderMode_gains (s : Shared) (p : Processor) :
    (followRenderMode E s p).rt.gains = p.rt.gains := by
  unfold followRenderMode
  dsimp only
  split <;> split
  · rfl
  · rfl
  · split <;> rfl
  · split <;> rfl

theorem flushInnerEvent_atGains {s : Shared} {p : Processor} (h : AtGains E.toParamEngine p.rt)
    (e : ScheduledEvent) : AtGains E.toParamEngine (flushInnerEvent E s p e).1.2.rt := by
  unfold flushInnerEvent
  dsimp only
  split
  · exact h
  · exact setParam_atGains (c := paramCtx s p) h _ _
  · exact applyModEvent_atGains (c := paramCtx s p) h _ _
  · exact h

/-- Every step of the audio thread but a reset keeps the smoothers on target. -/
theorem audioStep_atGains {s : Shared} {p : Processor} {a : AudioAction} {r : Shared × Processor}
    (h : AtGains E.toParamEngine p.rt) (hr : audioStep E s p a = some r) (ha : a ≠ .reset) :
    AtGains E.toParamEngine r.2.rt := by
  cases a <;> simp only [audioStep] at hr
  case beginEvents room =>
    split_ifs at hr
    obtain rfl := Option.some.inj hr
    exact List.foldlRecOn
      (motive := fun r : Shared × Processor => AtGains E.toParamEngine r.2.rt)
      p.recoveredCommands _ h fun r hr c _ => applyStructural_atGains hr c
  case drain m =>
    split_ifs at hr
    cases drainMove_spec E hr with
    | installDeferred hd =>
      refine install_atGains ?_ _
      exact h
    | discardDeferred hd hr hs => exact h
    | applyParams hd hr =>
      refine install_atGains ?_ _
      exact h
    | popCandidate hd hc hr hs => exact h
    | supersede hd hc hr hs => exact h
    | installCandidate hd hc =>
      refine install_atGains ?_ _
      exact h
  case endEvents =>
    split_ifs at hr
    obtain rfl := Option.some.inj hr
    have hdrain : (endDrain s p).2.rt = p.rt := by
      unfold endDrain
      split <;> rfl
    have hsync : AtGains E.toParamEngine
        (syncGeneration E (endDrain s p).1 (endDrain s p).2).2.rt :=
      syncGeneration_atGains (by rw [hdrain]; exact h)
    exact hsync.congr (followRenderMode_gains _ _)
  case hostEvents es =>
    split_ifs at hr
    obtain rfl := Option.some.inj hr
    exact List.foldlRecOn
      (motive := fun r : Shared × Processor => AtGains E.toParamEngine r.2.rt) es _ h fun r hr e _ =>
      applyEvent_atGains (c := paramCtx r.1 r.2) hr e
  case flushInner room es =>
    split_ifs at hr
    obtain rfl := Option.some.inj hr
    refine syncGeneration_atGains ?_
    exact List.foldlRecOn
      (motive := fun r : (Shared × Processor) × Bool => AtGains E.toParamEngine r.1.2.rt) es _ h
      fun r hr e _ => flushInnerEvent_atGains hr e
  case slimmable m =>
    split_ifs at hr
    cases slimmableMove_spec hr <;> exact h
  case signalSlimmableRebuild ch =>
    split_ifs at hr
    obtain rfl := Option.some.inj hr
    exact h
  case reset => exact absurd rfl ha

/-! ## Blocks -/

theorem applyWhile_atGains (cond : ScheduledEvent → Bool) :
    ∀ (es : List ScheduledEvent) {b : BlockState}, AtGains E.toParamEngine b.ctx.rt →
      AtGains E.toParamEngine (applyWhile E.toParamEngine cond es b).1.ctx.rt
  | [], _, h => h
  | e :: es, b, h => by
    unfold applyWhile
    split
    · exact applyWhile_atGains cond es (applyEvent_atGains h e)
    · exact h

theorem refreshGate_gains (b : BlockState) : b.refreshGate.ctx.rt.gains = b.ctx.rt.gains := by
  unfold BlockState.refreshGate
  split <;> rfl

theorem dryContainedBlock_atGains {s : Shared} {p : Processor} (h : AtGains E.toParamEngine p.rt)
    (r : Rendering) (c : DspCall) :
    AtGains E.toParamEngine (dryContainedBlock E s p r c).proc.rt :=
  (applyWhile_atGains (fun _ => true) (scheduleInputEvents c.input).events
    (b := r.block (paramCtx s p)) h).congr (refreshGate_gains _)

theorem wetBlock_atGains {s : Shared} {p : Processor} {r : Rendering} {c : DspCall} {x : Rendered}
    (h : AtGains E.toParamEngine p.rt) (hx : wetBlock E s p r c = some x) :
    AtGains E.toParamEngine x.proc.rt := by
  unfold wetBlock at hx
  split at hx
  · exact Option.some.inj hx ▸ h
  · obtain ⟨b, hb, rfl⟩ := Option.map_eq_some_iff.1 hx
    obtain ⟨b₁, hb₁, -, rfl⟩ := (keeps_atGains (E := E.toParamEngine) c.dsp).processDspAudio
      (b := r.block (paramCtx s p)) ⟨h, scheduleInputEvents_sorted⟩ hb
    show AtGains _ (ite _ _ _ : BlockState).ctx.rt
    split
    · exact hb₁.1
    · exact hb₁.1

/-! ## Runs -/

/-- The smoothers of an active plugin aim where its gains put them. -/
def Session.AtGains (E : Engine) (x : Session) : Prop :=
  ∀ p ∈ x.plugin.proc, NamPlug.AtGains E.toParamEngine p.rt

/-- Every call ends with both smoothers on target. -/
def Session.EndsOnTarget (E : Engine) (x : Session) : Prop :=
  x.dspDue = false → ∀ p ∈ x.plugin.proc, p.inCallback = false →
    NamPlug.OnTarget E.toParamEngine p.rt

/-- The modulation in force makes no difference to the gains. -/
structure Unmodulated (E : ParamEngine) (r : RtParamState) : Prop where
  input : E.dbToLinear (add r.params.inputGainDb r.modInputGain) =
    E.dbToLinear (add r.params.inputGainDb f0)
  output : E.dbToLinear (add r.params.outputGainDb r.modOutputGain) =
    E.dbToLinear (add r.params.outputGainDb f0)

instance (E : ParamEngine) (r : RtParamState) : Decidable (Unmodulated E r) :=
  decidable_of_iff (_ ∧ _) ⟨fun h => ⟨h.1, h.2⟩, fun h => ⟨h.1, h.2⟩⟩

/-- A reset comes with no modulation in force that makes a difference. -/
def ResetsUnmodulated (E : Engine) (x : Session) : SessionAction → Prop
  | .step (.audio .reset) => ∀ p ∈ x.plugin.proc, Unmodulated E.toParamEngine p.rt
  | _ => True

theorem resetProcessor_atGains {p : Processor} (h : AtGains E.toParamEngine p.rt)
    (hmod : Unmodulated E.toParamEngine p.rt) :
    AtGains E.toParamEngine (resetProcessor p).rt := by
  constructor
  · show p.rt.smootherIn = E.dbToLinear (add p.rt.params.inputGainDb f0)
    rw [← hmod.input]
    exact h.input
  · show p.rt.smootherOut = E.dbToLinear (add p.rt.params.outputGainDb f0)
    rw [← hmod.output]
    exact h.output

/-- A new processor aims at its gains, and has no modulation. -/
theorem activate_gains {s : Shared} {cfg : AudioConfig} {faults : ActivateCall → Bool}
    {p : Processor} (h : (s.activate E cfg faults).2 = some p) :
    p.rt.gains = ((E.dbToLinear p.rt.params.inputGainDb, p.rt.params.inputGainDb, f0),
      E.dbToLinear p.rt.params.outputGainDb, p.rt.params.outputGainDb, f0) := by
  have hspec := activate_spec E s cfg faults
  generalize s.activate E cfg faults = r at hspec h
  cases hspec with
  | noConsumer => cases h
  | early => cases h
  | adapt => cases h
  | flush hprep hf => cases h
  | ok hprep hf =>
    obtain rfl := Option.some.inj h
    rfl

theorem activate_atGains (hlut : ∀ x, E.dbToLinear (add x f0) = E.dbToLinear x) {s : Shared}
    {cfg : AudioConfig} {faults : ActivateCall → Bool} {p : Processor}
    (h : (s.activate E cfg faults).2 = some p) : AtGains E.toParamEngine p.rt := by
  have hgains := activate_gains h
  unfold RtParamState.gains at hgains
  simp only [Prod.mk.injEq, true_and] at hgains
  obtain ⟨⟨hin, hmodIn⟩, hout, hmodOut⟩ := hgains
  constructor
  · rw [hin, hmodIn]
    exact (hlut _).symm
  · rw [hout, hmodOut]
    exact (hlut _).symm

theorem Session.AtGains.step (hlut : ∀ x, E.dbToLinear (add x f0) = E.dbToLinear x)
    {gate : GateCache} {x y : Session} {a : SessionAction} (h : x.AtGains E)
    (hy : sessionStep E gate x a = some y) (hG : ResetsUnmodulated E x a) : y.AtGains E := by
  intro q hq
  cases sessionStep_spec E gate hy with
  | @block c p z hp hd k =>
    have hp := h p hp
    cases k with
    | held hw => exact Option.some.inj hq ▸ dryContainedBlock_atGains hp _ c
    | contained hw hn => exact Option.some.inj hq ▸ dryContainedBlock_atGains hp _ c
    | wet hw hn hr => exact Option.some.inj hq ▸ wetBlock_atGains hp hr
  | @step b z he hd k =>
    cases b with
    | main m =>
      obtain rfl := Option.some.inj k
      exact h q hq
    | audio a =>
      obtain ⟨p, hp, k⟩ := Option.bind_eq_some_iff.1 k
      obtain ⟨r, hr, rfl⟩ := Option.map_eq_some_iff.1 k
      obtain rfl := Option.some.inj hq
      by_cases ha : a = .reset
      · subst ha
        simp only [audioStep] at hr
        split_ifs at hr
        obtain rfl := Option.some.inj hr
        exact resetProcessor_atGains (h p hp) (hG p hp)
      · exact audioStep_atGains (h p hp) hr ha
    | activate cfg faults =>
      simp only [NamPlug.step] at k
      split_ifs at k
      obtain rfl := Option.some.inj k
      exact activate_atGains hlut hq
    | deactivate =>
      simp only [NamPlug.step] at k
      split at k
      · split_ifs at k
        obtain rfl := Option.some.inj k
        cases hq
      · cases k

/-- In every run whose resets come with no modulation in force that makes a difference, every call
ends with both smoothers on target. -/
theorem smoothers_on_target (hlut : ∀ x, E.dbToLinear (add x f0) = E.dbToLinear x)
    (gate : GateCache) {as : List SessionAction} {x : Session}
    (hG : Guarded (sessionStep E gate) (ResetsUnmodulated E) (.init E gate) as)
    (h : run (sessionStep E gate) (.init E gate) as = some x) : x.EndsOnTarget E := by
  have hinit : Session.AtGains E (.init E gate) := fun p hp => by cases hp
  have hx : x.AtGains E :=
    run_invariant (fun _ _ _ hy hG hs => hy.step hlut hs hG) hinit hG h
  exact fun _ p hp _ => (hx p hp).onTarget

end

/-! ## Runs of the reference engine -/

/-- The reference engine with a lookup that is the identity but for the sign of a zero. -/
def refLookup : Engine := { refEngine with dbToLinear := fun v => add v f0 }

instance (x : Session) (a : SessionAction) : Decidable (ResetsUnmodulated refLookup x a) :=
  match a with
  | .step (.audio .reset) => inferInstanceAs (Decidable (∀ p ∈ x.plugin.proc,
      Unmodulated refLookup.toParamEngine p.rt))
  | .block _ => isTrue trivial
  | .step (.main _) => isTrue trivial
  | .step (.activate _ _) => isTrue trivial
  | .step .deactivate => isTrue trivial
  | .step (.audio (.beginEvents _)) => isTrue trivial
  | .step (.audio (.drain _)) => isTrue trivial
  | .step (.audio .endEvents) => isTrue trivial
  | .step (.audio (.hostEvents _)) => isTrue trivial
  | .step (.audio (.flushInner _ _)) => isTrue trivial
  | .step (.audio (.slimmable _)) => isTrue trivial
  | .step (.audio (.signalSlimmableRebuild _)) => isTrue trivial

/-- A gain, and then its modulation, are fused into a block; with the modulation taken back the
plugin is reset. -/
def refFusedGains : List SessionAction :=
  .step refActivate ::
    refProcess (refCall [.value 5 (some 0) (natDatum 3), .mod 9 (some 0) (natDatum 2)]) ++
    refProcess (refCall [.mod 7 (some 0) (natDatum 0)]) ++ [.step (.audio .reset)]

theorem smoothers_on_target_fused :
    ∃ x, run (sessionStep refLookup refGate) (.init refLookup refGate) refFusedGains = some x ∧
      (∃ p, x.plugin.proc = some p ∧ p.rt.smootherIn = ofNat 3) ∧ x.EndsOnTarget refLookup := by
  have hsome : (run (sessionStep refLookup refGate) (.init refLookup refGate) refFusedGains).bind
      (fun x => x.plugin.proc.map (·.rt.smootherIn)) = some (ofNat 3) := by decide +kernel
  obtain ⟨x, hx, hval⟩ := Option.bind_eq_some_iff.1 hsome
  refine ⟨x, hx, Option.map_eq_some_iff.1 hval, ?_⟩
  exact smoothers_on_target (E := refLookup) add_add_zero refGate (by decide +kernel) hx

/-- A modulated input gain, and a reset. -/
def refModulatedReset : List SessionAction :=
  .step refActivate :: refProcess (refCall [.mod 5 (some 0) (natDatum 2)]) ++
    [.step (.audio .reset)]

/-- The modulation is taken off, and the smoother keeps the target that had it. -/
theorem reset_off_target :
    ∃ x, run (sessionStep refLookup refGate) (.init refLookup refGate) refModulatedReset = some x ∧
      ¬x.EndsOnTarget refLookup := by
  have hsome : (run (sessionStep refLookup refGate) (.init refLookup refGate)
      refModulatedReset).map (fun x => (x.dspDue, x.plugin.proc.map fun p =>
        (p.inCallback, decide (OnTarget refLookup.toParamEngine p.rt)))) =
      some (false, some (false, false)) := by decide +kernel
  obtain ⟨x, hx, hval⟩ := Option.map_eq_some_iff.1 hsome
  simp only [Prod.mk.injEq, Option.map_eq_some_iff] at hval
  obtain ⟨hdue, p, hp, hin, hoff⟩ := hval
  exact ⟨x, hx, fun h => of_decide_eq_false hoff (h hdue p hp hin)⟩

end NamPlug
