import Mathlib.Data.List.TakeWhile
import NamPlug.Dsp.Proof.Keeps

/-!
# The parameters in force in a block

The events of a block, in a trace, are tags. Here they are tied to the parameters: `applyAll` folds
`apply_scheduled_event` over a list of events, `stageAll` does so without moving the smoothers, and
`gainSteps` are the steps the staging loop records along the way. Moving the smoothers through the
steps after the staging is applying the events (`applyAll_eq_ramp`).

`Folded E c b`: what the events applied so far make of the parameters `c` the block began with is
what the block has now, and is what each sub-block was processed with. Every move of a block keeps
it (`keeps_folded`).
-/

namespace NamPlug

/-- The parameters with the gate thresholds recomputed. -/
def ParamCtx.refreshed (c : ParamCtx) : ParamCtx := { c with rt := { c.rt with gateDirty := false } }

/-- The smoothers moved through gain steps. -/
def ParamCtx.ramp (c : ParamCtx) (steps : List GainStep) : ParamCtx :=
  { c with rt := { c.rt with
    smootherIn := rampTarget c.rt.smootherIn steps true
    smootherOut := rampTarget c.rt.smootherOut steps false } }

@[simp] theorem refreshed_refreshed (c : ParamCtx) : c.refreshed.refreshed = c.refreshed := rfl

@[simp] theorem refreshed_ramp (c : ParamCtx) (steps : List GainStep) :
    (c.ramp steps).refreshed = c.refreshed.ramp steps := rfl

@[simp] theorem ramp_nil (c : ParamCtx) : c.ramp [] = c := rfl

theorem ramp_append (c : ParamCtx) (steps steps' : List GainStep) :
    c.ramp (steps ++ steps') = (c.ramp steps).ramp steps' := by
  simp [ParamCtx.ramp, rampTarget]

section
variable (E : ParamEngine)

/-- The parameters after events. -/
def applyAll (c : ParamCtx) (es : List ScheduledEvent) : ParamCtx :=
  es.foldl (fun c e => (applyEvent E c e true).1) c

/-- The parameters after events that leave the smoothers alone. -/
def stageAll (c : ParamCtx) (es : List ScheduledEvent) : ParamCtx :=
  es.foldl (fun c e => (applyEvent E c e false).1) c

/-- The step of an event in a sub-block that starts at `cur`. -/
def gainStep (cur : Nat) (c : ParamCtx) (e : ScheduledEvent) : Option GainStep :=
  (applyEvent E c e false).2.map fun gt => ⟨e.time - cur, gt.target, gt.isInput⟩

/-- The steps of events in a sub-block that starts at `cur`, each with the target and the side its
event has after the events before it. -/
def gainSteps (cur : Nat) : ParamCtx → List ScheduledEvent → List GainStep
  | _, [] => []
  | c, e :: es =>
    (gainStep E cur c e).toList ++ gainSteps cur (applyEvent E c e false).1 es

end

section
variable {E : ParamEngine}

theorem applyAll_append (c : ParamCtx) (es es' : List ScheduledEvent) :
    applyAll E c (es ++ es') = applyAll E (applyAll E c es) es' := List.foldl_append

/-! ## An event and the smoothers -/

/-- An event is applied alike before and after the gate is refreshed. -/
theorem applyEvent_refreshed (c : ParamCtx) (e : ScheduledEvent) (smooth : Bool) :
    (applyEvent E c.refreshed e smooth).1.refreshed = (applyEvent E c e smooth).1.refreshed ∧
      (applyEvent E c.refreshed e smooth).2 = (applyEvent E c e smooth).2 := by
  unfold applyEvent applyScheduledEvent applyModEvent applyValueEvent ParamCtx.refreshed
  cases ParamId.ofCode e.paramId with
  | none => exact ⟨rfl, rfl⟩
  | some p =>
    cases p <;> cases e.isMod <;> first | exact ⟨rfl, rfl⟩ | grind

/-- Where the smoothers stand does not matter to an event that leaves them alone. -/
theorem applyEvent_ramp (c : ParamCtx) (steps : List GainStep) (e : ScheduledEvent) :
    applyEvent E (c.ramp steps) e false =
      ((applyEvent E c e false).1.ramp steps, (applyEvent E c e false).2) := by
  unfold applyEvent applyScheduledEvent applyModEvent applyValueEvent ParamCtx.ramp
  cases ParamId.ofCode e.paramId with
  | none => rfl
  | some p =>
    cases p <;> cases e.isMod <;> first | rfl | grind

/-- An event that moves its smoother does what its step does. -/
theorem applyEvent_eq_ramp (cur : Nat) (c : ParamCtx) (e : ScheduledEvent) :
    (applyEvent E c e true).1 = (applyEvent E c e false).1.ramp (gainStep E cur c e).toList := by
  unfold gainStep applyEvent applyScheduledEvent applyModEvent applyValueEvent
  cases ParamId.ofCode e.paramId with
  | none => rfl
  | some p =>
    cases p <;> cases e.isMod <;> first | rfl | grind [ramp_nil]

theorem gainStep_ramp (cur : Nat) (c : ParamCtx) (steps : List GainStep) (e : ScheduledEvent) :
    gainStep E cur (c.ramp steps) e = gainStep E cur c e := by
  rw [gainStep, applyEvent_ramp]
  rfl

/-! ## Events and the smoothers -/

theorem stageAll_ramp (steps : List GainStep) : ∀ (es : List ScheduledEvent) (c : ParamCtx),
    stageAll E (c.ramp steps) es = (stageAll E c es).ramp steps
  | [], _ => rfl
  | e :: es, c => by
    have h := stageAll_ramp steps es (applyEvent E c e false).1
    rw [stageAll, List.foldl_cons, applyEvent_ramp]
    exact h

theorem gainSteps_ramp (cur : Nat) (steps : List GainStep) :
    ∀ (es : List ScheduledEvent) (c : ParamCtx),
      gainSteps E cur (c.ramp steps) es = gainSteps E cur c es
  | [], _ => rfl
  | e :: es, c => by
    rw [gainSteps, gainSteps, gainStep_ramp, applyEvent_ramp, gainSteps_ramp cur steps es]

/-- The smoothers moved through the steps of staged events are where the events put them. -/
theorem applyAll_eq_ramp (cur : Nat) : ∀ (es : List ScheduledEvent) (c : ParamCtx),
    applyAll E c es = (stageAll E c es).ramp (gainSteps E cur c es)
  | [], _ => rfl
  | e :: es, c => by
    calc applyAll E c (e :: es) = applyAll E (applyEvent E c e true).1 es := rfl
      _ = applyAll E ((applyEvent E c e false).1.ramp (gainStep E cur c e).toList) es := by
        rw [applyEvent_eq_ramp cur]
      _ = ((stageAll E (applyEvent E c e false).1 es).ramp (gainStep E cur c e).toList).ramp
          (gainSteps E cur (applyEvent E c e false).1 es) := by
        rw [applyAll_eq_ramp cur es, stageAll_ramp, gainSteps_ramp]
      _ = (stageAll E c (e :: es)).ramp (gainSteps E cur c (e :: es)) :=
        (ramp_append _ _ _).symm

/-! ## Events and the gate -/

theorem applyAll_refreshed : ∀ (es : List ScheduledEvent) {c c' : ParamCtx},
    c.refreshed = c'.refreshed → (applyAll E c es).refreshed = (applyAll E c' es).refreshed
  | [], _, _, h => h
  | e :: es, c, c', h => applyAll_refreshed es (by
    rw [← (applyEvent_refreshed c e true).1, h, (applyEvent_refreshed c' e true).1])

theorem stageAll_refreshed : ∀ (es : List ScheduledEvent) {c c' : ParamCtx},
    c.refreshed = c'.refreshed → (stageAll E c es).refreshed = (stageAll E c' es).refreshed
  | [], _, _, h => h
  | e :: es, c, c', h => stageAll_refreshed es (by
    rw [← (applyEvent_refreshed c e false).1, h, (applyEvent_refreshed c' e false).1])

theorem gainSteps_refreshed (cur : Nat) : ∀ (es : List ScheduledEvent) {c c' : ParamCtx},
    c.refreshed = c'.refreshed → gainSteps E cur c es = gainSteps E cur c' es
  | [], _, _, _ => rfl
  | e :: es, c, c', h => by
    have hstep : gainStep E cur c e = gainStep E cur c' e := by
      rw [gainStep, ← (applyEvent_refreshed c e false).2, h, (applyEvent_refreshed c' e false).2]
      rfl
    have hrest : gainSteps E cur (applyEvent E c e false).1 es =
        gainSteps E cur (applyEvent E c' e false).1 es := gainSteps_refreshed cur es (by
      rw [← (applyEvent_refreshed c e false).1, h, (applyEvent_refreshed c' e false).1])
    rw [gainSteps, gainSteps, hstep, hrest]

/-! ## Staging and processing -/

/-- Gain events do not touch the bypass. -/
theorem applyEvent_gain_bypass (c : ParamCtx) {e : ScheduledEvent} (smooth : Bool)
    (h : isFusableGainParam e.paramId = true) :
    (applyEvent E c e smooth).1.rt.params.bypass = c.rt.params.bypass := by
  have hid : e.paramId = 0 ∨ e.paramId = 1 := by
    simpa [isFusableGainParam, ParamId.code] using h
  unfold applyEvent
  rcases hid with hid | hid <;> rw [hid] <;>
    simp only [ParamId.ofCode, applyScheduledEvent] <;> split <;> rfl

theorem stageAll_bypass : ∀ (es : List ScheduledEvent) {c : ParamCtx},
    (∀ e ∈ es, isFusableGainParam e.paramId = true) →
      (stageAll E c es).rt.params.bypass = c.rt.params.bypass
  | [], _, _ => rfl
  | e :: es, c, h => (stageAll_bypass es fun e' he' => h e' (.tail _ he')).trans
    (applyEvent_gain_bypass c false (h e (.head _)))

/-- What the staging loop makes of the parameters, and the steps it records. -/
theorem stageLoop_folded {cur stop : Nat} : ∀ {es : List ScheduledEvent} {s : Staged},
    (∀ e ∈ es, e.time < stop → isFusableGainParam e.paramId = true) →
    s.steps.length + (es.takeWhile (fun e => decide (e.time < stop))).length ≤ MAX_GAIN_STEPS →
    let r := stageLoop E cur stop es s
    let before := es.takeWhile (fun e => decide (e.time < stop))
    r.ctx = stageAll E s.ctx before ∧ r.steps = s.steps ++ gainSteps E cur s.ctx before
  | [], s, _, _ => by simp [stageLoop, stageAll, gainSteps]
  | e :: es, s, hgain, hroom => by
    unfold stageLoop
    by_cases ht : e.time < stop
    · have hg := hgain e (.head _) ht
      have hno : ¬(decide (stop ≤ e.time) || eventRequiresBoundary e.paramId) = true := by
        simp [eventRequiresBoundary, hg, ht]
      obtain ⟨gt, hgt⟩ := Option.isSome_iff_exists.1 (applyEvent_gain (E := E) s.ctx false hg)
      simp only [List.takeWhile_cons, ht, decide_true, if_true, List.length_cons] at hroom ⊢
      have hlt : s.steps.length < MAX_GAIN_STEPS := by omega
      have hstep : (gainStep E cur s.ctx e).toList = [⟨e.time - cur, gt.target, gt.isInput⟩] := by
        rw [gainStep, hgt]
        rfl
      simp only [if_neg hno, hgt, if_pos hlt]
      obtain ⟨h1, h2⟩ := stageLoop_folded (s := { s with
          ctx := (applyEvent E s.ctx e false).1
          fused := s.fused ++ [e]
          steps := s.steps ++ [⟨e.time - cur, gt.target, gt.isInput⟩] })
        (fun e' he' => hgain e' (.tail _ he'))
        (by simp only [List.length_append, List.length_singleton]; omega)
      refine ⟨h1, h2.trans ?_⟩
      rw [gainSteps, hstep, List.append_assoc]
    · have hyes : (decide (stop ≤ e.time) || eventRequiresBoundary e.paramId) = true := by
        simp [Nat.le_of_not_lt ht]
      simp [hyes, ht, stageAll, gainSteps]

end

/-! ## A sub-block -/

section
variable {D : DspEngine}

theorem processChunk_smoothers (pos n : Nat) (bypass : Bool) (s : SubState) :
    (processChunk D pos n bypass [] s).2.smootherIn = s.smootherIn ∧
      (processChunk D pos n bypass [] s).2.smootherOut = s.smootherOut := by
  unfold processChunk
  split
  · exact ⟨rfl, rfl⟩
  · split <;> exact ⟨rfl, rfl⟩

theorem processChunks_smoothers (bypass : Bool) :
    ∀ (fuel pos outPos remaining : Nat) (s : SubState),
      (processChunks D bypass fuel pos outPos remaining s).2.smootherIn = s.smootherIn ∧
        (processChunks D bypass fuel pos outPos remaining s).2.smootherOut = s.smootherOut
  | 0, _, _, _, _ => ⟨rfl, rfl⟩
  | fuel + 1, pos, outPos, remaining, s => by
    unfold processChunks
    split
    · exact ⟨rfl, rfl⟩
    · obtain ⟨h1, h2⟩ := processChunk_smoothers (D := D) pos (min remaining D.maxResampBuf) bypass s
      obtain ⟨h3, h4⟩ := processChunks_smoothers bypass fuel (pos + min remaining D.maxResampBuf)
        (outPos + (processChunk D pos (min remaining D.maxResampBuf) bypass [] s).1)
        (remaining - min remaining D.maxResampBuf)
        (processChunk D pos (min remaining D.maxResampBuf) bypass [] s).2
      exact ⟨h3.trans h1, h4.trans h2⟩

/-- A sub-block without steps leaves the parameters alone. -/
theorem process_ctx_exact (b : BlockState) (start n outPos : Nat) (fused : List ScheduledEvent) :
    (b.process D start n outPos fused []).1.ctx = b.ctx := by
  have h : ∀ s : SubState,
      (processSubBlock D start n outPos b.ctx.rt.params.bypass [] s).2.smootherIn = s.smootherIn ∧
        (processSubBlock D start n outPos b.ctx.rt.params.bypass [] s).2.smootherOut =
          s.smootherOut := by
    intro s
    unfold processSubBlock
    split
    · exact processChunks_smoothers _ _ _ _ _ _
    · exact processChunk_smoothers _ _ _ _
  obtain ⟨h1, h2⟩ := h ⟨b.xfade, b.ctx.rt.smootherIn, b.ctx.rt.smootherOut⟩
  unfold BlockState.process
  dsimp only
  rw [h1, h2]

/-- A sub-block the wet path processes in one piece moves the smoothers through its steps. -/
theorem process_ctx_fused {b : BlockState} {n : Nat} (hn : n ≤ D.maxResampBuf)
    (hx : b.xfade.active = false) (hb : b.ctx.rt.params.bypass = false) (start outPos : Nat)
    (fused : List ScheduledEvent) (steps : List GainStep) :
    (b.process D start n outPos fused steps).1.ctx = b.ctx.ramp steps := by
  unfold BlockState.process processSubBlock processChunk
  simp only [if_neg (Nat.not_lt.2 hn), hx, hb, Bool.false_eq_true, if_false]
  rfl

end

/-! ## The invariant -/

/-- The parameters of a block, and those each of its sub-blocks was processed with, are what the
events applied until then make of the parameters `c`; a sub-block's steps are those of the events
fused into it. -/
structure Folded (E : ParamEngine) (c : ParamCtx) (b : BlockState) : Prop where
  ctx : b.ctx.refreshed = (applyAll E c (applied b.trace)).refreshed
  subs : ∀ {pre start n params fused steps ws post},
    b.trace = pre ++ .sub start n params fused steps ws :: post →
      params.refreshed = (stageAll E (applyAll E c (applied pre)) fused).refreshed ∧
        steps = gainSteps E start (applyAll E c (applied pre)) fused

section
variable {E : ParamEngine} {D : DspEngine} {c : ParamCtx} {b : BlockState}

theorem Folded.congr {b' : BlockState} (h : Folded E c b)
    (hctx : b'.ctx.refreshed = b.ctx.refreshed) (htr : b'.trace = b.trace) : Folded E c b' :=
  ⟨by rw [hctx, htr]; exact h.ctx, fun hsub => h.subs (htr ▸ hsub)⟩

theorem refreshGate_ctx (b : BlockState) : b.refreshGate.ctx.refreshed = b.ctx.refreshed := by
  unfold BlockState.refreshGate
  split <;> rfl

theorem Folded.refresh (h : Folded E c b) : Folded E c b.refreshGate.triggerBypass :=
  h.congr (refreshGate_ctx b) (by simp [BlockState.triggerBypass])

/-- A sub-block of a trace with one more observation is in the trace, or is that observation. -/
theorem concat_eq_split {tr pre post : List Obs} {o o' : Obs}
    (h : tr ++ [o] = pre ++ o' :: post) :
    (∃ post', tr = pre ++ o' :: post') ∨ pre = tr ∧ o' = o := by
  rcases List.eq_nil_or_concat post with rfl | ⟨post', x, rfl⟩
  · obtain ⟨h1, h2⟩ := List.append_inj' h rfl
    exact .inr ⟨h1.symm, (List.cons.inj h2).1.symm⟩
  · rw [List.concat_eq_append, ← List.cons_append, ← List.append_assoc] at h
    exact .inl ⟨post', (List.append_inj' h rfl).1⟩

theorem Folded.applyNow {e : ScheduledEvent} {es : List ScheduledEvent}
    (h : Folded E c { b with pending := e :: es }) :
    Folded E c { b.applyNow E e with pending := es } where
  ctx := by
    have happ : applied (b.trace ++ [.apply e]) = applied b.trace ++ [e] := by
      simp [applied, Obs.events]
    show (applyAll E b.ctx [e]).refreshed = (applyAll E c (applied (b.trace ++ [.apply e]))).refreshed
    rw [happ, applyAll_append]
    exact applyAll_refreshed [e] h.ctx
  subs hsub := by
    rcases concat_eq_split hsub with ⟨post, hsub⟩ | ⟨-, ho⟩
    · exact h.subs hsub
    · cases ho

/-- A sub-block with events staged before it, and their steps. -/
theorem Folded.process {n outPos start : Nat} {fused rest : List ScheduledEvent}
    (h : Folded E c b) {params : ParamCtx} {steps : List GainStep}
    (hparams : params = stageAll E b.ctx fused) (hsteps : steps = gainSteps E start b.ctx fused)
    (hctx : (({ b with ctx := params, pending := rest } : BlockState).process D start n outPos fused
      steps).1.ctx = params.ramp steps) :
    Folded E c (({ b with ctx := params, pending := rest } : BlockState).process D start n outPos
      fused steps).1 where
  ctx := by
    obtain ⟨ws, htr⟩ : ∃ ws, (({ b with ctx := params, pending := rest } : BlockState).process D
        start n outPos fused steps).1.trace = b.trace ++ [.sub start n params fused steps ws] :=
      ⟨_, rfl⟩
    have happ : applied (b.trace ++ [.sub start n params fused steps ws]) =
        applied b.trace ++ fused := by
      simp [applied, Obs.events]
    rw [hctx, htr, happ, applyAll_append, hparams, hsteps, ← applyAll_eq_ramp]
    exact applyAll_refreshed fused h.ctx
  subs hsub := by
    rcases concat_eq_split hsub with ⟨post, hsub⟩ | ⟨rfl, ho⟩
    · exact h.subs hsub
    · obtain ⟨rfl, rfl, rfl, rfl, rfl, rfl⟩ := Obs.sub.inj ho
      exact ⟨hparams ▸ stageAll_refreshed _ h.ctx, hsteps ▸ gainSteps_refreshed _ _ h.ctx⟩

/-- The next sub-block, fused or not. -/
theorem Folded.advance {base n off : Nat} (out : Nat) (h : Folded E c b) (hb : Ordered b)
    (hoff : off < n) (hhead : ∀ e ∈ b.pending.head?, base + off ≤ e.time) :
    Folded E c (b.advanceTo E D base off
      (scanEnd (b.fuses D n) (base + off) base n b.pending 0) out (b.fuses D n)).1 := by
  cases hf : b.fuses D n with
  | false =>
    unfold BlockState.advanceTo
    split
    · exact h
    · have hctx := process_ctx_exact (D := D) b (base + off)
        (scanEnd false (base + off) base n b.pending 0 - off) (base + out) []
      exact h.process rfl rfl hctx
  | true =>
    unfold BlockState.fuses at hf
    simp only [Bool.and_eq_true, Bool.not_eq_true', decide_eq_true_eq] at hf
    obtain ⟨⟨⟨⟨-, hs⟩, hn⟩, hx⟩, hbyp⟩ := hf
    have hsort := hb hs
    obtain ⟨h1, h2, hgain, hroom, -⟩ := scanEnd_fused (by omega : base + off ≤ base + n) (by omega)
      hsort (le_of_head hsort hhead) (Nat.zero_le _)
    generalize scanEnd true (base + off) base n b.pending 0 = stop at h1 h2 hgain hroom ⊢
    generalize hfused : b.pending.takeWhile (fun e => decide (e.time < base + stop)) = fused
    have hbefore : ∀ e ∈ fused, decide (e.time < base + stop) = true := fun e he => by
      rw [← hfused] at he
      simpa using List.mem_takeWhile_imp he
    have hlen : fused.length ≤ MAX_GAIN_STEPS := by
      have hsub := (List.takeWhile_sublist (fun e : ScheduledEvent => decide (e.time < base + stop))
        (l := b.pending)).filter (fun e => decide (e.time < base + stop))
      rw [hfused, List.filter_eq_self.2 hbefore] at hsub
      exact Nat.le_trans hsub.length_le hroom
    have hfuse : ∀ e ∈ fused, isFusableGainParam e.paramId = true := fun e he =>
      hgain e ((List.takeWhile_prefix _).subset (hfused ▸ he))
        (of_decide_eq_true (hbefore e he))
    have hspec := @stageLoop_spec E (base + off) (base + stop) b.pending ⟨b.ctx, [], [], []⟩ hgain
      (by rw [hfused]; simpa using hlen) rfl
    have hfold := @stageLoop_folded E (base + off) (base + stop) b.pending ⟨b.ctx, [], [], []⟩ hgain
      (by rw [hfused]; simpa using hlen)
    rw [hfused] at hspec hfold
    unfold BlockState.advanceTo
    split
    · exact h
    · simp only [if_true]
      generalize stageLoop E (base + off) (base + stop) b.pending ⟨b.ctx, [], [], []⟩ = st
        at hspec hfold ⊢
      obtain ⟨hst, -, -⟩ := hspec
      obtain ⟨hctx, hsteps⟩ := hfold
      rw [List.nil_append] at hst hsteps
      rw [hst]
      have hbypass : st.ctx.rt.params.bypass = false := by
        rw [hctx, stageAll_bypass fused hfuse]
        exact hbyp
      exact h.process hctx hsteps (process_ctx_fused
        (b := { b with ctx := st.ctx, pending := st.pending }) (by omega) hx hbypass _ _ _ _)

/-- The moves of a block keep its parameters what its events make of them. -/
theorem keeps_folded : Keeps E D fun b => Folded E c b ∧ Ordered b where
  applyNow hb := ⟨hb.1.applyNow, keeps_ordered.applyNow (D := D) hb.2⟩
  advance out hb hoff hhead :=
    ⟨hb.1.advance out hb.2 hoff hhead, keeps_ordered.advance out hb.2 hoff hhead⟩
  refresh hb := ⟨hb.1.refresh, keeps_ordered.refresh (E := E) (D := D) hb.2⟩
  anomaly hb := ⟨hb.1.congr rfl rfl, hb.2⟩
  violation hb := ⟨hb.1.congr rfl rfl, hb.2⟩

end

end NamPlug
