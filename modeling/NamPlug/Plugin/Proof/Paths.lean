import NamPlug.Plugin.Proof.Requests
import NamPlug.Plugin.Proof.Targets
import Mathlib.Data.List.Induction

/-!
# The event paths

The same host events reach the parameters on three paths: the scheduled events of a block
(`hostEvents`), the audio-thread flush (`flushInner`) and the main-thread flush, whose snapshot the
audio thread drains (`flushAndDrain`). Where the audio thread holds what the atomics hold
(`Mirrors`), the events of a block leave what `Taken` says, and the audio-thread flush adds one
synchronization. `paths_agree_iff`: the paths agree exactly where that synchronization has nothing to
do (`Settled`) and the main thread's own parameters are no older than the audio thread's
(`MainCurrent`).
-/

namespace NamPlug

open Binary32

/-! ## Raw values -/

/-- A parameter as its atomic holds it. -/
def RtProcessingParams.raw (m : RtProcessingParams) : ParamId → BitVec 32
  | .inputGain => m.inputGainDb
  | .outputGain => m.outputGainDb
  | .gateThresh => m.gateThresholdDb
  | .bypass => bypassBoolToU32 m.bypass
  | .activeModel => 0
  | .adaptiveCompute => BitVec.ofNat 32 m.adaptiveCompute.code
  | .slimOverride => BitVec.ofNat 32 m.slimOverride.code
  | .oversample => BitVec.ofNat 32 m.oversample.code
  | .activation => BitVec.ofNat 32 m.activationPrecision.code

/-- The atomics hold the parameters `m`. -/
def Mirrors (m : RtProcessingParams) (u : UiToRt) : Prop := ∀ q, u.load q = m.raw q

theorem bypassBoolToU32_inj {a b : Bool} (h : bypassBoolToU32 a = bypassBoolToU32 b) : a = b := by
  cases a <;> cases b <;> first | rfl | exact absurd h (by decide)

theorem adaptive_of_raw {a b : AdaptiveComputeMode}
    (h : BitVec.ofNat 32 a.code = BitVec.ofNat 32 b.code) : a = b := by
  cases a <;> cases b <;> first | rfl | exact absurd h (by decide)

theorem slim_of_raw {a b : SlimOverride}
    (h : BitVec.ofNat 32 a.code = BitVec.ofNat 32 b.code) : a = b := by
  cases a <;> cases b <;> first | rfl | exact absurd h (by decide)

theorem oversample_of_raw {a b : OversampleFactor}
    (h : BitVec.ofNat 32 a.code = BitVec.ofNat 32 b.code) : a = b := by
  cases a <;> cases b <;> first | rfl | exact absurd h (by decide)

theorem activation_of_raw {a b : ActivationPrecision}
    (h : BitVec.ofNat 32 a.code = BitVec.ofNat 32 b.code) : a = b := by
  cases a <;> cases b <;> first | rfl | exact absurd h (by decide)

/-- The raw values are all there is to the parameters. -/
theorem RtProcessingParams.raw_ext {a b : RtProcessingParams} (h : ∀ q, a.raw q = b.raw q) :
    a = b := by
  have h1 : a.inputGainDb = b.inputGainDb := h .inputGain
  have h2 : a.outputGainDb = b.outputGainDb := h .outputGain
  have h3 : a.gateThresholdDb = b.gateThresholdDb := h .gateThresh
  have h4 : a.bypass = b.bypass := bypassBoolToU32_inj (h .bypass)
  have h5 : a.adaptiveCompute = b.adaptiveCompute := adaptive_of_raw (h .adaptiveCompute)
  have h6 : a.slimOverride = b.slimOverride := slim_of_raw (h .slimOverride)
  have h7 : a.oversample = b.oversample := oversample_of_raw (h .oversample)
  have h8 : a.activationPrecision = b.activationPrecision := activation_of_raw (h .activation)
  cases a
  cases b
  simp_all only

/-! ## What the events ask for -/

/-- `e` sets the parameter `q`. -/
def ScheduledEvent.Sets (e : ScheduledEvent) (q : ParamId) : Prop :=
  ParamId.ofCode e.paramId = some q ∧ e.isMod = false

instance (e : ScheduledEvent) (q : ParamId) : Decidable (e.Sets q) :=
  inferInstanceAs (Decidable (_ ∧ _))

/-- One of the events sets `q`. -/
def Sets (es : List ScheduledEvent) (q : ParamId) : Prop := ∃ e ∈ es, e.Sets q

/-- One of the events sets or modulates `q`. -/
def Touches (es : List ScheduledEvent) (q : ParamId) : Prop :=
  ∃ e ∈ es, ParamId.ofCode e.paramId = some q

instance (es : List ScheduledEvent) (q : ParamId) : Decidable (Sets es q) :=
  inferInstanceAs (Decidable (∃ e ∈ es, _))

instance (es : List ScheduledEvent) (q : ParamId) : Decidable (Touches es q) :=
  inferInstanceAs (Decidable (∃ e ∈ es, _))

theorem sets_snoc {es : List ScheduledEvent} {e : ScheduledEvent} {q : ParamId} :
    Sets (es ++ [e]) q ↔ Sets es q ∨ e.Sets q := by
  simp [Sets, or_and_right, exists_or]

theorem Sets.touches {es : List ScheduledEvent} {q : ParamId} (h : Sets es q) : Touches es q := by
  obtain ⟨e, he, hq, -⟩ := h
  exact ⟨e, he, hq⟩

section
variable (E : ParamEngine)

/-- The parameters once a value event is taken over. -/
def RtProcessingParams.assign (m : RtProcessingParams) (q : ParamId) (v : F32) :
    RtProcessingParams := (flushParam E m .default q v).1

theorem flushParam_eq (m : RtProcessingParams) (u : UiToRt) (q : ParamId) (v : F32) :
    flushParam E m u q v = (m.assign E q v, u.store q ((m.assign E q v).raw q)) := by
  cases q <;> rfl

/-- The event sets its own parameter, whatever it was. -/
theorem raw_assign_self (m m' : RtProcessingParams) (q : ParamId) (v : F32) :
    (m.assign E q v).raw q = (m'.assign E q v).raw q := by cases q <;> rfl

theorem raw_assign_ne (m : RtProcessingParams) {q r : ParamId} (v : F32) (h : r ≠ q) :
    (m.assign E q v).raw r = m.raw r := by
  cases q <;> cases r <;> first | rfl | exact absurd rfl h

/-- The parameters once an event is taken over. -/
def RtProcessingParams.assignEvent (m : RtProcessingParams) (e : ScheduledEvent) :
    RtProcessingParams :=
  match ParamId.ofCode e.paramId, e.isMod with
  | some q, false => m.assign E q e.value
  | _, _ => m

/-- The parameters once the events are taken over. -/
def assigned (m : RtProcessingParams) (es : List ScheduledEvent) : RtProcessingParams :=
  es.foldl (·.assignEvent E) m

theorem assigned_snoc (m : RtProcessingParams) (es : List ScheduledEvent) (e : ScheduledEvent) :
    assigned E m (es ++ [e]) = (assigned E m es).assignEvent E e := by
  unfold assigned
  rw [List.foldl_append]
  rfl

theorem assignEvent_of_sets {m : RtProcessingParams} {e : ScheduledEvent} {q : ParamId}
    (h : e.Sets q) : m.assignEvent E e = m.assign E q e.value := by
  unfold RtProcessingParams.assignEvent
  rw [h.1, h.2]

theorem raw_assignEvent_of_not_sets {m : RtProcessingParams} {e : ScheduledEvent} {q : ParamId}
    (h : ¬ e.Sets q) : (m.assignEvent E e).raw q = m.raw q := by
  unfold RtProcessingParams.assignEvent
  split
  · rename_i r hr hm
    refine raw_assign_ne E m _ fun hq => h ?_
    subst hq
    exact ⟨hr, hm⟩
  · rfl

/-- A parameter that no event sets stays. -/
theorem raw_assigned_of_not_sets {q : ParamId} (es : List ScheduledEvent) :
    ∀ m : RtProcessingParams, ¬ Sets es q → (assigned E m es).raw q = m.raw q := by
  induction es using List.reverseRecOn with
  | nil => exact fun m _ => rfl
  | append_singleton es e ih =>
    intro m h
    rw [sets_snoc, not_or] at h
    rw [assigned_snoc, raw_assignEvent_of_not_sets E h.2, ih m h.1]

/-- A parameter that an event sets is the last one's, whatever it was. -/
theorem raw_assigned_of_sets {q : ParamId} (m m' : RtProcessingParams)
    (es : List ScheduledEvent) (h : Sets es q) :
    (assigned E m es).raw q = (assigned E m' es).raw q := by
  induction es using List.reverseRecOn with
  | nil =>
    obtain ⟨e, he, -⟩ := h
    cases he
  | append_singleton es e ih =>
    rw [assigned_snoc, assigned_snoc]
    by_cases he : e.Sets q
    · rw [assignEvent_of_sets E he, assignEvent_of_sets E he]
      exact raw_assign_self E _ _ q e.value
    · rw [raw_assignEvent_of_not_sets E he, raw_assignEvent_of_not_sets E he]
      exact ih ((sets_snoc.1 h).resolve_right he)

/-- A float parameter that an event sets passes its check. -/
theorem sanitize_assigned {q : ParamId} {r : F32 × F32} (hq : floatRange E q = some r)
    (m : RtProcessingParams) (es : List ScheduledEvent) (h : Sets es q) :
    sanitizeParamValue E q ((assigned E m es).raw q) = (assigned E m es).raw q := by
  induction es using List.reverseRecOn with
  | nil =>
    obtain ⟨e, he, -⟩ := h
    cases he
  | append_singleton es e ih =>
    rw [assigned_snoc]
    by_cases he : e.Sets q
    · have hraw : ((assigned E m es).assign E q e.value).raw q = sanitizeParamValue E q e.value := by
        cases q <;> first | rfl | cases hq
      rw [assignEvent_of_sets E he, hraw]
      exact sanitize_float_idem E hq e.value
    · rw [raw_assignEvent_of_not_sets E he]
      exact ih ((sets_snoc.1 h).resolve_right he)

/-! ## The events of a block -/

/-- A value event of the audio-thread flush does what it does in a block. -/
theorem setParam_eq (c : ParamCtx) (q : ParamId) (v : F32) :
    setParam E c q v = (applyValueEvent E c q v true).1 := by
  cases q <;> try rfl
  case oversample =>
    unfold setParam applyValueEvent applyOversample
    dsimp only
    split_ifs with h1 h2 h3
    · rfl
    · rw [not_not.1 h3]
    · rfl
    · rfl
  case activation =>
    unfold setParam applyValueEvent
    dsimp only
    split <;> rfl

theorem Mirrors.store {m m' : RtProcessingParams} {u : UiToRt} (h : Mirrors m u) {q : ParamId}
    (hne : ∀ r, r ≠ q → m'.raw r = m.raw r) : Mirrors m' (u.store q (m'.raw q)) := by
  intro r
  by_cases hr : r = q
  · subst hr
    cases r <;> rfl
  · rw [UiToRt.load_store_ne u _ hr, h r, hne r hr]

theorem applyValueEvent_params (c : ParamCtx) (q : ParamId) (v : F32) :
    (applyValueEvent E c q v true).1.rt.params = c.rt.params.assign E q v := by
  cases q <;> try rfl
  case oversample =>
    have hsame : ∀ f, f = c.rt.params.oversample →
        c.rt.params = { c.rt.params with oversample := f } := by rintro _ rfl; rfl
    unfold applyValueEvent
    dsimp only
    split_ifs with h1 h2
    · rfl
    · rfl
    · exact hsame _ (not_not.1 h1)
  case activation =>
    have hsame : ∀ a, a = c.rt.params.activationPrecision →
        c.rt.params = { c.rt.params with activationPrecision := a } := by rintro _ rfl; rfl
    unfold applyValueEvent
    dsimp only
    split_ifs with h
    · rfl
    · exact hsame _ (not_not.1 h)

/-- An event stores what it sets, or leaves the atomics where they hold it. -/
theorem applyValueEvent_mirrors {c : ParamCtx} (h : Mirrors c.rt.params c.ui) (q : ParamId)
    (v : F32) : Mirrors (applyValueEvent E c q v true).1.rt.params
      (applyValueEvent E c q v true).1.ui := by
  have hstore : Mirrors (c.rt.params.assign E q v)
      (c.ui.store q ((c.rt.params.assign E q v).raw q)) :=
    h.store fun r hr => raw_assign_ne E _ v hr
  cases q <;> try exact hstore
  case oversample =>
    unfold applyValueEvent
    dsimp only
    split_ifs
    · exact hstore
    · exact hstore
    · exact h
  case activation =>
    unfold applyValueEvent
    dsimp only
    split_ifs
    · exact hstore
    · exact h

theorem applyValueEvent_generation (c : ParamCtx) (q : ParamId) (v : F32) :
    (applyValueEvent E c q v true).1.ui.guiParamGeneration = c.ui.guiParamGeneration := by
  rw [← setParam_eq]
  exact (setParam_takes E c q v).2.1

theorem applyValueEvent_dirty (c : ParamCtx) (q : ParamId) (v : F32)
    (h : c.rt.gateDirty = true) : (applyValueEvent E c q v true).1.rt.gateDirty = true := by
  cases q
  case gateThresh => rfl
  case oversample => unfold applyValueEvent; dsimp only; split_ifs <;> exact h
  case activation => unfold applyValueEvent; dsimp only; split_ifs <;> exact h
  all_goals exact h

theorem applyValueEvent_gains_in (c : ParamCtx) {q : ParamId} (v : F32) (h : q ≠ .inputGain) :
    (applyValueEvent E c q v true).1.rt.gains.1 = c.rt.gains.1 := by
  cases q
  case inputGain => exact absurd rfl h
  case oversample => unfold applyValueEvent; dsimp only; split_ifs <;> rfl
  case activation => unfold applyValueEvent; dsimp only; split_ifs <;> rfl
  all_goals rfl

theorem applyValueEvent_gains_out (c : ParamCtx) {q : ParamId} (v : F32) (h : q ≠ .outputGain) :
    (applyValueEvent E c q v true).1.rt.gains.2 = c.rt.gains.2 := by
  cases q
  case outputGain => exact absurd rfl h
  case oversample => unfold applyValueEvent; dsimp only; split_ifs <;> rfl
  case activation => unfold applyValueEvent; dsimp only; split_ifs <;> rfl
  all_goals rfl

theorem applyValueEvent_adaptive (c : ParamCtx) (q : ParamId) (v : F32) :
    (q ≠ .adaptiveCompute →
        (applyValueEvent E c q v true).1.rt.adaptive.mode = c.rt.adaptive.mode) ∧
      (q ≠ .slimOverride → (applyValueEvent E c q v true).1.rt.adaptive.slimOverride =
        c.rt.adaptive.slimOverride) := by
  cases q
  case adaptiveCompute => exact ⟨fun h => absurd rfl h, fun _ => rfl⟩
  case slimOverride => exact ⟨fun _ => rfl, fun h => absurd rfl h⟩
  case oversample =>
    unfold applyValueEvent; dsimp only; split_ifs <;> exact ⟨fun _ => rfl, fun _ => rfl⟩
  case activation =>
    unfold applyValueEvent; dsimp only; split_ifs <;> exact ⟨fun _ => rfl, fun _ => rfl⟩
  all_goals exact ⟨fun _ => rfl, fun _ => rfl⟩

/-- The modulation offsets. -/
def RtParamState.mods (r : RtParamState) : F32 × F32 × F32 :=
  (r.modInputGain, r.modOutputGain, r.modGateThresh)

theorem applyValueEvent_mods (c : ParamCtx) (q : ParamId) (v : F32) :
    (applyValueEvent E c q v true).1.rt.mods = c.rt.mods := by
  cases q
  case oversample => unfold applyValueEvent; dsimp only; split_ifs <;> rfl
  case activation => unfold applyValueEvent; dsimp only; split_ifs <;> rfl
  all_goals rfl

/-- Where the events aim a gain smoother: they retarget it, or leave it and its gain. -/
structure Retargeted (touched : Prop) (before after : F32 × F32 × F32) : Prop where
  aimed : touched → after.1 = E.dbToLinear (add after.2.1 after.2.2)
  kept : ¬ touched → after = before

/-- A field of the adaptive controller: it takes what is set, or stays. -/
structure Taking {α : Type} (set : Prop) (value before after : α) : Prop where
  taken : set → after = value
  kept : ¬ set → after = before

/-- What the events `es` leave of `c`. -/
structure Taken (c : ParamCtx) (es : List ScheduledEvent) (d : ParamCtx) : Prop where
  size : d.bufferSize = c.bufferSize
  generation : d.ui.guiParamGeneration = c.ui.guiParamGeneration
  params : d.rt.params = assigned E c.rt.params es
  mirrors : Mirrors d.rt.params d.ui
  factor : osState d = (factors E es).foldl (takeFactor c.bufferSize) (osState c)
  input : Retargeted E (Touches es .inputGain) c.rt.gains.1 d.rt.gains.1
  output : Retargeted E (Touches es .outputGain) c.rt.gains.2 d.rt.gains.2
  gate : Touches es .gateThresh → d.rt.gateDirty = true
  dirty : c.rt.gateDirty = true → d.rt.gateDirty = true
  mode : Taking (Sets es .adaptiveCompute) d.rt.params.adaptiveCompute c.rt.adaptive.mode
    d.rt.adaptive.mode
  slim : Taking (Sets es .slimOverride) d.rt.params.slimOverride c.rt.adaptive.slimOverride
    d.rt.adaptive.slimOverride
  mods : (∀ e ∈ es, e.isMod = false) → d.rt.mods = c.rt.mods

theorem Taken.nil {c : ParamCtx} (h : Mirrors c.rt.params c.ui) : Taken E c [] c where
  size := rfl
  generation := rfl
  params := rfl
  mirrors := h
  factor := rfl
  input := ⟨fun ⟨_, he, _⟩ => (by cases he), fun _ => rfl⟩
  output := ⟨fun ⟨_, he, _⟩ => (by cases he), fun _ => rfl⟩
  gate := fun ⟨_, he, _⟩ => (by cases he)
  dirty := id
  mode := ⟨fun ⟨_, he, _⟩ => (by cases he), fun _ => rfl⟩
  slim := ⟨fun ⟨_, he, _⟩ => (by cases he), fun _ => rfl⟩
  mods := fun _ => rfl

variable {E}

theorem Retargeted.trans {p q : Prop} {a b c : F32 × F32 × F32} (h : Retargeted E p a b)
    (k : Retargeted E q b c) : Retargeted E (p ∨ q) a c := by
  refine ⟨fun hpq => ?_, fun hpq => ?_⟩
  · by_cases hq : q
    · exact k.aimed hq
    · rw [k.kept hq]
      exact h.aimed (hpq.resolve_right hq)
  · rw [not_or] at hpq
    rw [k.kept hpq.2, h.kept hpq.1]

theorem Taking.trans {α : Type} {p q : Prop} {v v' a b c : α} (h : Taking p v a b)
    (k : Taking q v' b c) (hv : ¬ q → v' = v) : Taking (p ∨ q) v' a c := by
  refine ⟨fun hpq => ?_, fun hpq => ?_⟩
  · by_cases hq : q
    · exact k.taken hq
    · rw [k.kept hq, hv hq]
      exact h.taken (hpq.resolve_right hq)
  · rw [not_or] at hpq
    rw [k.kept hpq.2, h.kept hpq.1]

theorem sets_append {es fs : List ScheduledEvent} {q : ParamId} :
    Sets (es ++ fs) q ↔ Sets es q ∨ Sets fs q := by
  simp [Sets, or_and_right, exists_or]

theorem touches_append {es fs : List ScheduledEvent} {q : ParamId} :
    Touches (es ++ fs) q ↔ Touches es q ∨ Touches fs q := by
  simp [Touches, or_and_right, exists_or]

theorem Taken.trans {c d x : ParamCtx} {es fs : List ScheduledEvent} (h : Taken E c es d)
    (k : Taken E d fs x) : Taken E c (es ++ fs) x where
  size := k.size.trans h.size
  generation := k.generation.trans h.generation
  params := by
    rw [k.params, h.params]
    exact (List.foldl_append ..).symm
  mirrors := k.mirrors
  factor := by
    rw [k.factor, h.factor, h.size, factors, factors, factors, List.filterMap_append,
      List.foldl_append]
  input := by
    rw [touches_append]
    exact h.input.trans k.input
  output := by
    rw [touches_append]
    exact h.output.trans k.output
  gate := by
    rw [touches_append]
    rintro (ht | ht)
    · exact k.dirty (h.gate ht)
    · exact k.gate ht
  dirty := fun hd => k.dirty (h.dirty hd)
  mode := by
    rw [sets_append]
    refine h.mode.trans k.mode fun hn => adaptive_of_raw ?_
    rw [k.params]
    exact raw_assigned_of_not_sets E (q := .adaptiveCompute) fs d.rt.params hn
  slim := by
    rw [sets_append]
    refine h.slim.trans k.slim fun hn => slim_of_raw ?_
    rw [k.params]
    exact raw_assigned_of_not_sets E (q := .slimOverride) fs d.rt.params hn
  mods := fun hall => (k.mods fun e he => hall e (List.mem_append_right _ he)).trans
    (h.mods fun e he => hall e (List.mem_append_left _ he))

theorem sets_single {e : ScheduledEvent} {q : ParamId} : Sets [e] q ↔ e.Sets q := by
  simp [Sets]

theorem touches_single {e : ScheduledEvent} {q : ParamId} :
    Touches [e] q ↔ ParamId.ofCode e.paramId = some q := by simp [Touches]

theorem assigned_single (m : RtProcessingParams) (e : ScheduledEvent) :
    assigned E m [e] = m.assignEvent E e := rfl

/-- An event without a parameter of its own. -/
theorem Taken.skip {c : ParamCtx} (h : Mirrors c.rt.params c.ui) {e : ScheduledEvent}
    (hp : ∀ q, q ≠ .activeModel → ParamId.ofCode e.paramId ≠ some q) : Taken E c [e] c := by
  have hset : ∀ q, q ≠ .activeModel → ¬ Sets [e] q := fun q hq hs =>
    hp q hq (sets_single.1 hs).1
  have htouch : ∀ q, q ≠ .activeModel → ¬ Touches [e] q := fun q hq ht =>
    hp q hq (touches_single.1 ht)
  have hfactors : factors E [e] = [] := by
    have hnone : e.factor? E = none := by
      unfold ScheduledEvent.factor?
      split
      · rename_i ho _
        exact absurd ho (hp _ (by decide))
      · rfl
    rw [factors_cons, hnone]
    rfl
  refine ⟨rfl, rfl, ?_, h, ?_, ⟨fun ht => absurd ht (htouch _ (by decide)), fun _ => rfl⟩,
    ⟨fun ht => absurd ht (htouch _ (by decide)), fun _ => rfl⟩,
    fun ht => absurd ht (htouch _ (by decide)), id,
    ⟨fun hs => absurd hs (hset _ (by decide)), fun _ => rfl⟩,
    ⟨fun hs => absurd hs (hset _ (by decide)), fun _ => rfl⟩, fun _ => rfl⟩
  · rw [assigned_single]
    unfold RtProcessingParams.assignEvent
    split
    · rename_i q hq _
      obtain rfl : q = .activeModel := by
        by_contra hne
        exact hp q hne hq
      rfl
    · rfl
  · rw [hfactors]
    rfl

/-- A modulation event. -/
theorem Taken.mod {c : ParamCtx} (h : Mirrors c.rt.params c.ui) {e : ScheduledEvent} {q : ParamId}
    (hp : ParamId.ofCode e.paramId = some q) (hm : e.isMod = true) :
    Taken E c [e] (applyModEvent E c q e.value true).1 := by
  have hset : ∀ r, ¬ Sets [e] r := fun r hs => by
    have := (sets_single.1 hs).2
    rw [hm] at this
    cases this
  have hfactors : factors E [e] = [] := by
    have hnone : e.factor? E = none := by
      unfold ScheduledEvent.factor?
      rw [hp, hm]
      cases q <;> rfl
    rw [factors_cons, hnone]
    rfl
  have hparams : c.rt.params = assigned E c.rt.params [e] := by
    rw [assigned_single]
    unfold RtProcessingParams.assignEvent
    rw [hp, hm]
  have htouch : ∀ r, Touches [e] r ↔ q = r := fun r => by
    rw [touches_single, hp, Option.some.injEq]
  have hsize : (applyModEvent E c q e.value true).1.bufferSize = c.bufferSize := by
    cases q <;> rfl
  have hrt : (applyModEvent E c q e.value true).1.rt.params = c.rt.params ∧
      (applyModEvent E c q e.value true).1.rt.adaptive = c.rt.adaptive := by
    cases q <;> exact ⟨rfl, rfl⟩
  refine ⟨hsize, ?_, hrt.1.trans hparams, ?_, ?_, ⟨fun ht => ?_, fun ht => ?_⟩,
    ⟨fun ht => ?_, fun ht => ?_⟩, fun ht => ?_, fun hd => ?_,
    ⟨fun hs => absurd hs (hset _), fun _ => ?_⟩, ⟨fun hs => absurd hs (hset _), fun _ => ?_⟩,
    fun hall => ?_⟩
  · rw [applyModEvent_ui]
  · rw [applyModEvent_ui, hrt.1]
    exact h
  · rw [hfactors]
    cases q <;> rfl
  · obtain rfl := (htouch _).1 ht
    rfl
  · rw [htouch] at ht
    cases q <;> first | rfl | exact absurd rfl ht
  · obtain rfl := (htouch _).1 ht
    rfl
  · rw [htouch] at ht
    cases q <;> first | rfl | exact absurd rfl ht
  · obtain rfl := (htouch _).1 ht
    rfl
  · cases q <;> first | exact hd | rfl
  · rw [hrt.2]
  · rw [hrt.2]
  · have := hall e (.head _)
    rw [hm] at this
    cases this

/-- A value event. -/
theorem Taken.value {c : ParamCtx} (h : Mirrors c.rt.params c.ui) {e : ScheduledEvent}
    {q : ParamId} (hp : ParamId.ofCode e.paramId = some q) (hm : e.isMod = false) :
    Taken E c [e] (applyValueEvent E c q e.value true).1 := by
  have hevent : (applyEvent E c e true).1 = (applyValueEvent E c q e.value true).1 := by
    unfold applyEvent applyScheduledEvent
    rw [hp, hm]
    rfl
  have htakes := applyEvent_takes E c e true
  rw [hevent] at htakes
  have hset : ∀ r, Sets [e] r ↔ q = r := fun r => by
    rw [sets_single, ScheduledEvent.Sets, hp, hm, Option.some.injEq]
    exact and_iff_left rfl
  have htouch : ∀ r, Touches [e] r ↔ q = r := fun r => by
    rw [touches_single, hp, Option.some.injEq]
  have hfactors : factors E [e] = (e.factor? E).toList := by
    rw [factors_cons]
    exact List.append_nil _
  have hparams : c.rt.params.assign E q e.value = assigned E c.rt.params [e] := by
    rw [assigned_single]
    unfold RtProcessingParams.assignEvent
    rw [hp, hm]
  refine ⟨htakes.1, applyValueEvent_generation E c q e.value,
    (applyValueEvent_params E c q e.value).trans hparams, applyValueEvent_mirrors E h q e.value,
    by rw [hfactors]; exact htakes.2, ⟨fun ht => ?_, fun ht => ?_⟩,
    ⟨fun ht => ?_, fun ht => ?_⟩, fun ht => ?_, fun hd => ?_,
    ⟨fun hs => ?_, fun hs => ?_⟩, ⟨fun hs => ?_, fun hs => ?_⟩,
    fun _ => applyValueEvent_mods E c q e.value⟩
  · obtain rfl := (htouch _).1 ht
    rfl
  · rw [applyValueEvent_gains_in E c e.value fun hq => ht ((htouch _).2 hq)]
  · obtain rfl := (htouch _).1 ht
    rfl
  · rw [applyValueEvent_gains_out E c e.value fun hq => ht ((htouch _).2 hq)]
  · obtain rfl := (htouch _).1 ht
    rfl
  · exact applyValueEvent_dirty E c q e.value hd
  · obtain rfl := (hset _).1 hs
    rfl
  · rw [(applyValueEvent_adaptive E c q e.value).1 fun hq => hs ((hset _).2 hq)]
  · obtain rfl := (hset _).1 hs
    rfl
  · rw [(applyValueEvent_adaptive E c q e.value).2 fun hq => hs ((hset _).2 hq)]

/-- One event of a block. -/
theorem Taken.event {c : ParamCtx} (h : Mirrors c.rt.params c.ui) (e : ScheduledEvent) :
    Taken E c [e] (applyEvent E c e true).1 := by
  unfold applyEvent
  split
  · rename_i q hp
    unfold applyScheduledEvent
    split
    · rename_i hm
      exact .mod h hp hm
    · rename_i hm
      exact .value h hp (Bool.eq_false_iff.2 hm)
  · rename_i hp
    refine .skip h fun q _ hq => ?_
    rw [hp] at hq
    cases hq

/-- All of them. -/
theorem Taken.events {c : ParamCtx} (h : Mirrors c.rt.params c.ui) (es : List ScheduledEvent) :
    Taken E c es (es.foldl (fun c e => (applyEvent E c e true).1) c) := by
  induction es generalizing c with
  | nil => exact .nil E h
  | cons e es ih =>
    have hone := (Taken.event h e : Taken E c [e] _)
    exact hone.trans (ih hone.mirrors)

/-! ## The synchronization after a flush -/

theorem feq_self_of_isFinite {x : F32} (h : isFinite x = true) : feq x x = true := by
  unfold feq
  rw [datum_of_isFinite h]
  exact decide_eq_true rfl

variable (E)

/-- A synchronization has nothing to do. -/
structure AtRest (r : RtParamState) : Prop where
  inputGain : sanitizeParamValue E .inputGain r.params.inputGainDb = r.params.inputGainDb
  inputTarget : Near r.smootherIn (E.dbToLinear (add r.params.inputGainDb r.modInputGain))
  outputGain : sanitizeParamValue E .outputGain r.params.outputGainDb = r.params.outputGainDb
  outputTarget : Near r.smootherOut (E.dbToLinear (add r.params.outputGainDb r.modOutputGain))
  gateThresh :
    sanitizeParamValue E .gateThresh r.params.gateThresholdDb = r.params.gateThresholdDb
  mode : r.adaptive.mode = r.params.adaptiveCompute
  slim : r.adaptive.slimOverride = r.params.slimOverride

theorem toNat_of_raw {u : BitVec 32} {n : Nat} (h : u = BitVec.ofNat 32 n) (hn : n ≤ 2) :
    u.toNat = n := by
  rw [h, BitVec.toNat_ofNat]
  omega

variable {E}

theorem feq_self_of_sanitized {q : ParamId} {r : F32 × F32} (hq : floatRange E q = some r) {v : F32}
    (h : sanitizeParamValue E q v = v) : feq v v = true := by
  have hfin := (sanitize_float E hq v).1
  rw [h] at hfin
  exact feq_self_of_isFinite hfin

theorem sanitize_of_feq {q : ParamId} {r : F32 × F32} (hq : floatRange E q = some r) {v : F32}
    (h : feq (sanitizeParamValue E q v) v = true) : sanitizeParamValue E q v = v := by
  obtain ⟨h1, h2⟩ := floatRange_finite E hq
  exact (sanitize_float_eq_self_iff E hq v).2 ((sanitize_float E hq v).of_feq h1 h2 h)

theorem sync_of_atRest {c : ParamCtx} (h : Mirrors c.rt.params c.ui) (hr : AtRest E c.rt) :
    syncParamsFromGui E c = c := by
  have hsame : ∀ y, c.rt.smootherIn = y → { c with rt := { c.rt with
      params := { c.rt.params with inputGainDb := c.rt.params.inputGainDb }
      smootherIn := y } } = c := by rintro _ rfl; rfl
  have hsame' : ∀ y, c.rt.smootherOut = y → { c with rt := { c.rt with
      params := { c.rt.params with outputGainDb := c.rt.params.outputGainDb }
      smootherOut := y } } = c := by rintro _ rfl; rfl
  have hin : syncInputGainFromGui E c = c := by
    have hraw : c.ui.paramInputGain = c.rt.params.inputGainDb := h .inputGain
    unfold syncInputGainFromGui
    dsimp only
    rw [hraw, hr.inputGain, feq_self_of_sanitized rfl hr.inputGain]
    split_ifs with hd
    · exact hsame _ (hr.inputTarget.resolve_right (by simpa using hd))
    · rfl
  have hout : syncOutputGainFromGui E c = c := by
    have hraw : c.ui.paramOutputGain = c.rt.params.outputGainDb := h .outputGain
    unfold syncOutputGainFromGui
    dsimp only
    rw [hraw, hr.outputGain, feq_self_of_sanitized rfl hr.outputGain]
    split_ifs with hd
    · exact hsame' _ (hr.outputTarget.resolve_right (by simpa using hd))
    · rfl
  have hgate : syncGateThreshFromGui E c = c := by
    have hraw : c.ui.paramGateThresh = c.rt.params.gateThresholdDb := h .gateThresh
    unfold syncGateThreshFromGui
    dsimp only
    rw [hraw, hr.gateThresh, feq_self_of_sanitized rfl hr.gateThresh]
    rfl
  have hbypass : syncBypassFromGui c = c := by
    have hraw : c.ui.paramBypass = bypassBoolToU32 c.rt.params.bypass := h .bypass
    have hb : bypassU32ToBool (bypassBoolToU32 c.rt.params.bypass) = c.rt.params.bypass := by
      cases c.rt.params.bypass <;> rfl
    unfold syncBypassFromGui
    dsimp only
    rw [hraw, hb]
    exact if_neg (not_not.2 rfl)
  have hadaptive : syncAdaptiveComputeFromGui E c = c := by
    unfold syncAdaptiveComputeFromGui
    rw [sharedStep_adaptive E (toNat_of_raw (h .adaptiveCompute)
      (AdaptiveComputeMode.code_le _))]
    exact if_neg (not_or.2 ⟨not_not.2 rfl, not_not.2 hr.mode.symm⟩)
  have hslim : syncSlimOverrideFromGui E c = c := by
    unfold syncSlimOverrideFromGui
    rw [sharedStep_slim E (toNat_of_raw (h .slimOverride) (SlimOverride.code_le _))]
    exact if_neg (not_or.2 ⟨not_not.2 rfl, not_not.2 hr.slim.symm⟩)
  have hos : syncOversampleFromGui E c = c := by
    unfold syncOversampleFromGui
    rw [sharedStep_oversample E (toNat_of_raw (h .oversample) (OversampleFactor.code_le _))]
    exact if_neg (not_not.2 rfl)
  have hact : syncActivationFromGui E c = c := by
    unfold syncActivationFromGui
    rw [sharedStep_activation E (toNat_of_raw (h .activation)
      (Nat.le_succ_of_le (ActivationPrecision.code_le _)))]
    exact if_neg (not_not.2 rfl)
  unfold syncParamsFromGui
  simp only [hin, hout, hgate, hbypass, hadaptive, hslim, hos, hact]

/-- The gains are synchronized on their own; no modulation is touched. -/
theorem syncParamsFromGui_gains (c : ParamCtx) :
    (syncParamsFromGui E c).rt.gains =
        ((syncInputGainFromGui E c).rt.gains.1, (syncOutputGainFromGui E c).rt.gains.2) ∧
      (syncParamsFromGui E c).rt.modGateThresh = c.rt.modGateThresh ∧
      (syncParamsFromGui E c).bufferSize = c.bufferSize := by
  have hout : ∀ gi si, (syncOutputGainFromGui E { c with rt := { c.rt with
      params := { c.rt.params with inputGainDb := gi }, smootherIn := si } }).rt.gains =
      (((si, gi, c.rt.modInputGain) : F32 × F32 × F32),
        (syncOutputGainFromGui E c).rt.gains.2) := by
    intro gi si
    unfold syncOutputGainFromGui
    dsimp only
    split_ifs <;> rfl
  have hmod : (syncOutputGainFromGui E c).rt.modGateThresh = c.rt.modGateThresh := by
    unfold syncOutputGainFromGui
    dsimp only
    split_ifs <;> rfl
  obtain ⟨gi, si, -, h1⟩ := syncInputGainFromGui_eq E c
  have hboth := hout gi si
  unfold syncParamsFromGui
  dsimp only
  rw [h1]
  obtain ⟨go, so, -, h2⟩ := syncOutputGainFromGui_eq E { c with rt := { c.rt with
    params := { c.rt.params with inputGainDb := gi }, smootherIn := si } }
  rw [h2] at hboth ⊢
  obtain ⟨gg, gd, -, h3⟩ := syncGateThreshFromGui_eq E { c with rt := { c.rt with
    params := { c.rt.params with inputGainDb := gi, outputGainDb := go }
    smootherIn := si
    smootherOut := so } }
  rw [h3, syncBypassFromGui_eq, syncAdaptiveComputeFromGui_eq, syncSlimOverrideFromGui_eq]
  generalize hc : (ParamCtx.mk _ _ _ _ _) = c4
  obtain ⟨o, r, h4⟩ := syncOversampleFromGui_eq E c4
  rw [h4]
  subst hc
  obtain ⟨t, h5⟩ := syncActivationFromGui_eq E _
  rw [h5]
  exact ⟨hboth, rfl, rfl⟩

theorem synced_self {q : ParamId} {r : F32 × F32} (hq : floatRange E q = some r) {v w : F32}
    (h : Synced (sanitizeParamValue E q v) w w) (hv : v = w) : sanitizeParamValue E q w = w := by
  subst hv
  obtain h | ⟨h, -⟩ := h
  · exact h.symm
  · exact sanitize_of_feq hq h

/-- Where a synchronization changes nothing that is compared, it had nothing to do. -/
theorem atRest_of_sync {c : ParamCtx} (h : Mirrors c.rt.params c.ui)
    (hp : (syncParamsFromGui E c).rt.params = c.rt.params)
    (ha : (syncParamsFromGui E c).rt.adaptive = c.rt.adaptive)
    (hi : (syncParamsFromGui E c).rt.smootherIn = c.rt.smootherIn)
    (ho : (syncParamsFromGui E c).rt.smootherOut = c.rt.smootherOut) : AtRest E c.rt := by
  obtain ⟨h1, h2, h3, -, -, h5, -, h6, -, -⟩ := syncParamsFromGui_spec E c
  rw [hp] at h1 h2 h3
  rw [hp, ha] at h5 h6
  have hin := synced_self (q := .inputGain) rfl h1 (h .inputGain)
  have hout := synced_self (q := .outputGain) rfl h2 (h .outputGain)
  have hgains := (syncParamsFromGui_gains (E := E) c).1
  have hfin : (syncInputGainFromGui E c).rt.smootherIn = c.rt.smootherIn :=
    (congrArg (fun g => g.1.1) hgains).symm.trans hi
  have hfout : (syncOutputGainFromGui E c).rt.smootherOut = c.rt.smootherOut :=
    (congrArg (fun g => g.2.1) hgains).symm.trans ho
  refine ⟨hin, ?_, hout, ?_, synced_self (q := .gateThresh) rfl h3 (h .gateThresh), h5, h6⟩
  · have hraw : c.ui.paramInputGain = c.rt.params.inputGainDb := h .inputGain
    unfold syncInputGainFromGui at hfin
    dsimp only at hfin
    rw [hraw, hin, feq_self_of_sanitized rfl hin] at hfin
    split_ifs at hfin with hd
    · exact .inl hfin.symm
    · exact .inr (by simpa using hd)
  · have hraw : c.ui.paramOutputGain = c.rt.params.outputGainDb := h .outputGain
    unfold syncOutputGainFromGui at hfout
    dsimp only at hfout
    rw [hraw, hout, feq_self_of_sanitized rfl hout] at hfout
    split_ifs at hfout with hd
    · exact .inl hfout.symm
    · exact .inr (by simpa using hd)

variable (E)

/-- The events leave a synchronization nothing to do: what they do not set is as a synchronization
leaves it. -/
structure Settled (r : RtParamState) (es : List ScheduledEvent) : Prop where
  inputGain : Sets es .inputGain ∨
    sanitizeParamValue E .inputGain r.params.inputGainDb = r.params.inputGainDb
  inputTarget : Touches es .inputGain ∨
    Near r.smootherIn (E.dbToLinear (add r.params.inputGainDb r.modInputGain))
  outputGain : Sets es .outputGain ∨
    sanitizeParamValue E .outputGain r.params.outputGainDb = r.params.outputGainDb
  outputTarget : Touches es .outputGain ∨
    Near r.smootherOut (E.dbToLinear (add r.params.outputGainDb r.modOutputGain))
  gateThresh : Sets es .gateThresh ∨
    sanitizeParamValue E .gateThresh r.params.gateThresholdDb = r.params.gateThresholdDb
  mode : Sets es .adaptiveCompute ∨ r.adaptive.mode = r.params.adaptiveCompute
  slim : Sets es .slimOverride ∨ r.adaptive.slimOverride = r.params.slimOverride

variable {E}

theorem Taken.sanitized_iff {c d : ParamCtx} {es : List ScheduledEvent} (h : Taken E c es d)
    {q : ParamId} {r : F32 × F32} (hq : floatRange E q = some r) :
    sanitizeParamValue E q (d.rt.params.raw q) = d.rt.params.raw q ↔
      Sets es q ∨ sanitizeParamValue E q (c.rt.params.raw q) = c.rt.params.raw q := by
  rw [h.params]
  by_cases hs : Sets es q
  · exact ⟨fun _ => .inl hs, fun _ => sanitize_assigned E hq _ es hs⟩
  · rw [raw_assigned_of_not_sets E es _ hs]
    exact ⟨.inr, fun k => k.resolve_left hs⟩

theorem Retargeted.near_iff {touched : Prop} {b a : F32 × F32 × F32} (h : Retargeted E touched b a) :
    Near a.1 (E.dbToLinear (add a.2.1 a.2.2)) ↔
      touched ∨ Near b.1 (E.dbToLinear (add b.2.1 b.2.2)) := by
  by_cases ht : touched
  · exact ⟨fun _ => .inl ht, fun _ => .inl (h.aimed ht)⟩
  · rw [h.kept ht]
    exact ⟨.inr, fun k => k.resolve_left ht⟩

theorem Taken.atRest_iff {c d : ParamCtx} {es : List ScheduledEvent} (h : Taken E c es d) :
    AtRest E d.rt ↔ Settled E c.rt es := by
  have hi := h.sanitized_iff (q := .inputGain) rfl
  have ho := h.sanitized_iff (q := .outputGain) rfl
  have hg := h.sanitized_iff (q := .gateThresh) rfl
  have hti := Retargeted.near_iff h.input
  have hto := Retargeted.near_iff h.output
  have hm : d.rt.adaptive.mode = d.rt.params.adaptiveCompute ↔
      Sets es .adaptiveCompute ∨ c.rt.adaptive.mode = c.rt.params.adaptiveCompute := by
    by_cases hs : Sets es .adaptiveCompute
    · exact ⟨fun _ => .inl hs, fun _ => h.mode.taken hs⟩
    · have hraw := raw_assigned_of_not_sets E es c.rt.params hs
      rw [← h.params] at hraw
      rw [h.mode.kept hs, adaptive_of_raw hraw]
      exact ⟨.inr, fun k => k.resolve_left hs⟩
  have hl : d.rt.adaptive.slimOverride = d.rt.params.slimOverride ↔
      Sets es .slimOverride ∨ c.rt.adaptive.slimOverride = c.rt.params.slimOverride := by
    by_cases hs : Sets es .slimOverride
    · exact ⟨fun _ => .inl hs, fun _ => h.slim.taken hs⟩
    · have hraw := raw_assigned_of_not_sets E es c.rt.params hs
      rw [← h.params] at hraw
      rw [h.slim.kept hs, slim_of_raw hraw]
      exact ⟨.inr, fun k => k.resolve_left hs⟩
  constructor
  · rintro ⟨h1, h2, h3, h4, h5, h6, h7⟩
    exact ⟨hi.1 h1, hti.1 h2, ho.1 h3, hto.1 h4, hg.1 h5, hm.1 h6, hl.1 h7⟩
  · rintro ⟨h1, h2, h3, h4, h5, h6, h7⟩
    exact ⟨hi.2 h1, hti.2 h2, ho.2 h3, hto.2 h4, hg.2 h5, hm.2 h6, hl.2 h7⟩

/-! ## What is compared -/

/-- What the event paths are compared on: the parameters, the eight atomics, the adaptive
controller, the targets of the gain smoothers and the pending restart factor. -/
structure ParamOutcome where
  params : RtProcessingParams
  atomics : List (BitVec 32)
  adaptive : AdaptiveCompute
  smootherIn : F32
  smootherOut : F32
  pendingRestart : PendingRestartOs
  deriving DecidableEq, Repr

def ParamCtx.outcome (c : ParamCtx) : ParamOutcome where
  params := c.rt.params
  atomics := guiEventParams.map c.ui.load
  adaptive := c.rt.adaptive
  smootherIn := c.rt.smootherIn
  smootherOut := c.rt.smootherOut
  pendingRestart := c.pendingRestart

/-- The same but for the gestures and the generation. -/
structure Alike (c d : ParamCtx) : Prop where
  rt : d.rt = c.rt
  load : ∀ q, d.ui.load q = c.ui.load q
  size : d.bufferSize = c.bufferSize
  pending : d.pendingRestart = c.pendingRestart
  request : d.osRequest = c.osRequest

theorem Alike.outcome {c d : ParamCtx} (h : Alike c d) : d.outcome = c.outcome := by
  have hload : d.ui.load = c.ui.load := funext h.load
  unfold ParamCtx.outcome
  rw [h.rt, hload, h.pending]

theorem Alike.mirrors {c d : ParamCtx} (h : Alike c d) (hm : Mirrors c.rt.params c.ui) :
    Mirrors d.rt.params d.ui := by
  intro q
  rw [h.load, h.rt]
  exact hm q

theorem load_store_congr {u v : UiToRt} (h : ∀ q, v.load q = u.load q) (p : ParamId)
    (x : BitVec 32) : ∀ q, (v.store p x).load q = (u.store p x).load q := by
  intro q
  by_cases hq : q = p
  · subst hq
    cases q <;> rfl
  · rw [UiToRt.load_store_ne v x hq, UiToRt.load_store_ne u x hq, h q]

/-- An event reads neither. -/
theorem Alike.event {c d : ParamCtx} (h : Alike c d) (e : ScheduledEvent) :
    Alike (applyEvent E c e true).1 (applyEvent E d e true).1 := by
  obtain ⟨r, u, n, o, q⟩ := c
  obtain ⟨r', v, n', o', q'⟩ := d
  obtain ⟨h1, h2, h3, h4, h5⟩ := h
  dsimp only at h1 h2 h3 h4 h5
  subst h1 h3 h4 h5
  unfold applyEvent
  cases hp : ParamId.ofCode e.paramId with
  | none => exact ⟨rfl, h2, rfl, rfl, rfl⟩
  | some p =>
    unfold applyScheduledEvent
    cases hm : e.isMod with
    | true => cases p <;> exact ⟨rfl, h2, rfl, rfl, rfl⟩
    | false =>
      cases p
      case activeModel => exact ⟨rfl, h2, rfl, rfl, rfl⟩
      case oversample =>
        simp only [Bool.false_eq_true, if_false, applyValueEvent]
        split_ifs
        · exact ⟨rfl, load_store_congr h2 .oversample _, rfl, rfl, rfl⟩
        · exact ⟨rfl, load_store_congr h2 .oversample _, rfl, rfl, rfl⟩
        · exact ⟨rfl, h2, rfl, rfl, rfl⟩
      case activation =>
        simp only [Bool.false_eq_true, if_false, applyValueEvent]
        split_ifs
        · exact ⟨rfl, load_store_congr h2 .activation _, rfl, rfl, rfl⟩
        · exact ⟨rfl, h2, rfl, rfl, rfl⟩
      all_goals exact ⟨rfl, load_store_congr h2 _ _, rfl, rfl, rfl⟩

theorem Alike.events (es : List ScheduledEvent) : ∀ {c d : ParamCtx}, Alike c d →
    Alike (es.foldl (fun c e => (applyEvent E c e true).1) c)
      (es.foldl (fun c e => (applyEvent E c e true).1) d) := by
  induction es with
  | nil => exact fun h => h
  | cons e es ih => exact fun h => ih (h.event e)

/-- A synchronization after the events changes nothing that is compared exactly where they leave it
nothing to do. -/
theorem Taken.outcome_sync_iff {c d x : ParamCtx} {es : List ScheduledEvent} (h : Taken E c es d)
    (hx : Alike d x) : (syncParamsFromGui E x).outcome = d.outcome ↔ Settled E c.rt es := by
  have hm := hx.mirrors h.mirrors
  rw [← hx.outcome, ← h.atRest_iff, ← hx.rt]
  refine ⟨fun ho => ?_, fun hr => by rw [sync_of_atRest hm hr]⟩
  unfold ParamCtx.outcome at ho
  rw [ParamOutcome.mk.injEq] at ho
  obtain ⟨hp, -, ha, hi, hout, -⟩ := ho
  exact atRest_of_sync hm hp ha hi hout

end

/-! ## The paths of a plugin -/

section
variable (E : Engine)

theorem paramCtx_putParamCtx (s : Shared) (p : Processor) {c : ParamCtx}
    (h : c.bufferSize = s.bufferSize) :
    paramCtx (putParamCtx s p c).1 (putParamCtx s p c).2 = c := by
  unfold paramCtx putParamCtx
  dsimp only
  rw [← h]

theorem noteEvent_ctx (s : Shared) (p : Processor) (id : Nat) (v : F32) :
    paramCtx (s.noteEvent E id v) p = paramCtx s p := by
  unfold Shared.noteEvent
  split <;> rfl

theorem hostEvent_ctx (s : Shared) (p : Processor) (e : ScheduledEvent) :
    paramCtx (hostEvent E s p e).1 (hostEvent E s p e).2 =
      (applyEvent E.toParamEngine (paramCtx s p) e true).1 := by
  have hsize := (applyEvent_takes E.toParamEngine (paramCtx s p) e true).1
  unfold hostEvent
  dsimp only
  split
  · exact paramCtx_putParamCtx s p hsize
  · rw [noteEvent_ctx]
    exact paramCtx_putParamCtx s p hsize

/-- The events of a block. -/
theorem hostEvents_ctx (es : List ScheduledEvent) : ∀ r : Shared × Processor,
    paramCtx (hostEvents E r.1 r.2 es).1 (hostEvents E r.1 r.2 es).2 =
      es.foldl (fun c e => (applyEvent E.toParamEngine c e true).1) (paramCtx r.1 r.2) := by
  induction es with
  | nil => exact fun r => rfl
  | cons e es ih =>
    intro r
    have hrest := ih (hostEvent E r.1 r.2 e)
    rw [hostEvent_ctx] at hrest
    exact hrest

/-- An event of the audio-thread flush does what it does in a block, and counts as a change where it
has a parameter of its own. -/
theorem flushInnerEvent_ctx (s : Shared) (p : Processor) (e : ScheduledEvent) :
    paramCtx (flushInnerEvent E s p e).1.1 (flushInnerEvent E s p e).1.2 =
        (applyEvent E.toParamEngine (paramCtx s p) e true).1 ∧
      (flushInnerEvent E s p e).1.2.lastSeenGeneration = p.lastSeenGeneration ∧
      (flushInnerEvent E s p e).2 = e.flushCounts := by
  have hsize := (applyEvent_takes E.toParamEngine (paramCtx s p) e true).1
  unfold flushInnerEvent ScheduledEvent.flushCounts
  unfold applyEvent applyScheduledEvent at hsize ⊢
  cases hp : ParamId.ofCode e.paramId with
  | none => cases e.isMod <;> exact ⟨rfl, rfl, rfl⟩
  | some q =>
    rw [hp] at hsize
    cases hm : e.isMod with
    | true => cases q <;> exact ⟨rfl, rfl, rfl⟩
    | false =>
      rw [hm] at hsize
      have hctx : paramCtx ((putParamCtx s p (setParam E.toParamEngine (paramCtx s p) q
          e.value)).1.noteEvent E e.paramId e.value) (putParamCtx s p (setParam E.toParamEngine
            (paramCtx s p) q e.value)).2 =
          (applyValueEvent E.toParamEngine (paramCtx s p) q e.value true).1 := by
        rw [noteEvent_ctx, setParam_eq]
        exact paramCtx_putParamCtx s p hsize
      cases q <;> first | exact ⟨hctx, rfl, rfl⟩ | exact ⟨rfl, rfl, rfl⟩

theorem flushInnerEvents_ctx (es : List ScheduledEvent) : ∀ r : (Shared × Processor) × Bool,
    let x := es.foldl (fun r e =>
      let q := flushInnerEvent E r.1.1 r.1.2 e
      (q.1, r.2 || q.2)) r
    paramCtx x.1.1 x.1.2 =
        es.foldl (fun c e => (applyEvent E.toParamEngine c e true).1) (paramCtx r.1.1 r.1.2) ∧
      x.1.2.lastSeenGeneration = r.1.2.lastSeenGeneration ∧
      x.2 = (r.2 || es.any (·.flushCounts)) := by
  induction es with
  | nil => exact fun r => ⟨rfl, rfl, (Bool.or_false _).symm⟩
  | cons e es ih =>
    intro r
    obtain ⟨h1, h2, h3⟩ := flushInnerEvent_ctx E r.1.1 r.1.2 e
    obtain ⟨k1, k2, k3⟩ := ih ((flushInnerEvent E r.1.1 r.1.2 e).1,
      r.2 || (flushInnerEvent E r.1.1 r.1.2 e).2)
    rw [h1] at k1
    refine ⟨k1, k2.trans h2, k3.trans ?_⟩
    rw [h3, List.any_cons, Bool.or_assoc]

/-- The generation moved since the audio thread last synchronized, or the events of a flush move
it. -/
def Resyncs (s : Shared) (p : Processor) (es : List ScheduledEvent) : Prop :=
  (if es.any (·.flushCounts) then s.ui.guiParamGeneration + 1 else s.ui.guiParamGeneration) ≠
    p.lastSeenGeneration

instance (s : Shared) (p : Processor) (es : List ScheduledEvent) : Decidable (Resyncs s p es) :=
  inferInstanceAs (Decidable (_ ≠ _))

/-- The audio-thread flush is the events of a block, with a synchronization where the generation
moved. -/
theorem flushInner_ctx (s : Shared) (p : Processor) (room : Nat) (es : List ScheduledEvent)
    (hm : Mirrors p.rt.params s.ui) :
    ∃ x, Alike (es.foldl (fun c e => (applyEvent E.toParamEngine c e true).1) (paramCtx s p)) x ∧
      paramCtx (flushInner E s p room es).1 (flushInner E s p room es).2 =
        if Resyncs s p es then syncParamsFromGui E.toParamEngine x else x := by
  have hstart : Alike (paramCtx s p)
      (paramCtx { s with ui := (writeGuiEvents s.ui room).ui } p) :=
    ⟨rfl, load_writeGuiEvents s.ui room, rfl, rfl, rfl⟩
  have hgen := guiParamGeneration_writeGuiEvents s.ui room
  have hm' : Mirrors p.rt.params (writeGuiEvents s.ui room).ui := hstart.mirrors hm
  unfold flushInner
  dsimp only
  generalize hs : ({ s with ui := (writeGuiEvents s.ui room).ui } : Shared) = s₁ at hstart
  obtain ⟨h1, h2, h3⟩ := flushInnerEvents_ctx E es ((s₁, p), false)
  generalize es.foldl (fun r e =>
    let q := flushInnerEvent E r.1.1 r.1.2 e
    (q.1, r.2 || q.2)) ((s₁, p), false) = r at *
  obtain ⟨⟨s₂, p₂⟩, flag⟩ := r
  dsimp only at h1 h2 h3 ⊢
  rw [Bool.false_or] at h3
  have htaken := Taken.events (E := E.toParamEngine) (c := paramCtx s₁ p)
    (by rw [← hs]; exact hm') es
  rw [← h1] at htaken
  have halike := hstart.events (E := E.toParamEngine) es
  rw [← h1] at halike
  generalize ht : (if flag = true then s₂.bumpGeneration else s₂) = t
  have hbump : Alike (paramCtx s₂ p₂) (paramCtx t p₂) := by
    rw [← ht]
    split
    · exact ⟨rfl, fun q => UiToRt.load_bumpGeneration _ q, rfl, rfl, rfl⟩
    · exact ⟨rfl, fun _ => rfl, rfl, rfl, rfl⟩
  have hmoves : Resyncs s p es ↔ t.ui.guiParamGeneration ≠ p₂.lastSeenGeneration := by
    have hg : s₂.ui.guiParamGeneration = s.ui.guiParamGeneration := by
      refine htaken.generation.trans ?_
      rw [← hs]
      exact hgen
    unfold Resyncs
    rw [h2, ← ht, ← h3, ← hg]
    cases flag <;> rfl
  refine ⟨paramCtx t p₂, ⟨hbump.rt.trans halike.rt, fun q => (hbump.load q).trans (halike.load q),
    hbump.size.trans halike.size, hbump.pending.trans halike.pending,
    hbump.request.trans halike.request⟩, ?_⟩
  unfold syncGeneration
  split
  · rename_i heq
    rw [if_neg fun h => hmoves.1 h heq]
  · rename_i hne
    rw [if_pos (hmoves.2 hne)]
    exact paramCtx_putParamCtx t p₂ (syncParamsFromGui_gains _).2.2

end

/-! ## The main thread's flush -/

/-- A value event as the main-thread flush reads it. -/
def InputEvent.toValue : InputEvent → Option ParamValueEvent
  | .value _ (some id) v => some ⟨id, v⟩
  | _ => none

def valueEvents (input : List InputEvent) : List ParamValueEvent :=
  input.filterMap InputEvent.toValue

def InputEvent.isMod : InputEvent → Bool
  | .mod .. => true
  | _ => false

/-- What the events leave of the atomics: each parameter they set holds its last value. -/
structure Stored (E : ParamEngine) (m : RtProcessingParams) (u : UiToRt)
    (es : List ScheduledEvent) (r : RtProcessingParams × UiToRt) : Prop where
  params : r.1 = assigned E m es
  set : ∀ q, Sets es q → r.2.load q = r.1.raw q
  kept : ∀ q, ¬ Sets es q → r.2.load q = u.load q

theorem Stored.event {E : ParamEngine} {m : RtProcessingParams} {u : UiToRt}
    {es : List ScheduledEvent} {r : RtProcessingParams × UiToRt} (h : Stored E m u es r)
    (t id : Nat) (v : Datum) :
    Stored E m u (es ++ [⟨t, id, narrow v, false⟩]) (flushEvent E r ⟨id, v⟩) := by
  have hset : ∀ q, (⟨t, id, narrow v, false⟩ : ScheduledEvent).Sets q ↔
      ParamId.ofCode id = some q := fun q => and_iff_left rfl
  unfold flushEvent
  cases hp : ParamId.ofCode id with
  | none =>
    have hnot : ∀ q, ¬ (⟨t, id, narrow v, false⟩ : ScheduledEvent).Sets q := fun q hq => by
      rw [hset, hp] at hq
      cases hq
    refine ⟨?_, fun q hq => h.set q ((sets_snoc.1 hq).resolve_right (hnot q)), fun q hq =>
      h.kept q fun hs => hq (sets_snoc.2 (.inl hs))⟩
    rw [assigned_snoc, ← h.params]
    unfold RtProcessingParams.assignEvent
    rw [hp]
  | some p =>
    dsimp only
    rw [flushParam_eq]
    have hparams : r.1.assign E p (narrow v) = assigned E m (es ++ [⟨t, id, narrow v, false⟩]) := by
      rw [assigned_snoc, ← h.params]
      exact (assignEvent_of_sets E ((hset p).2 hp)).symm
    refine ⟨hparams, fun q hq => ?_, fun q hq => ?_⟩
    · by_cases hqp : q = p
      · subst hqp
        cases q <;> rfl
      · have hs : Sets es q := (sets_snoc.1 hq).resolve_right fun hs => hqp <| by
          rw [hset, hp, Option.some.injEq] at hs
          exact hs.symm
        rw [UiToRt.load_store_ne _ _ hqp, raw_assign_ne E _ _ hqp]
        exact h.set q hs
    · rw [sets_snoc, not_or, hset, hp, Option.some.injEq] at hq
      rw [UiToRt.load_store_ne _ _ (Ne.symm hq.2)]
      exact h.kept q hq.1

/-- The event loop of the main-thread flush, on a list without modulation. -/
theorem flushEvents_stored {E : ParamEngine} (m : RtProcessingParams) (u : UiToRt)
    (input : List InputEvent) (hv : ∀ ev ∈ input, ev.isMod = false) :
    Stored E m u (paramEvents input) (flushEvents E m u (valueEvents input)) ∧
      (valueEvents input).any (·.counts) = (paramEvents input).any (·.flushCounts) ∧
      ∀ e ∈ paramEvents input, e.isMod = false := by
  induction input using List.reverseRecOn with
  | nil =>
    exact ⟨⟨rfl, fun q ⟨_, he, _⟩ => (by cases he), fun _ _ => rfl⟩, rfl,
      fun e he => (by cases he)⟩
  | append_singleton input ev ih =>
    obtain ⟨h1, h2, h3⟩ := ih fun x hx => hv x (List.mem_append_left _ hx)
    have hmod := hv ev (List.mem_append_right _ (.head _))
    unfold valueEvents paramEvents at *
    rw [List.filterMap_append, List.filterMap_append]
    cases ev with
    | mod t id v => cases hmod
    | other t =>
      simp only [List.filterMap_cons, List.filterMap_nil, InputEvent.toValue,
        InputEvent.scheduled, List.append_nil]
      exact ⟨h1, h2, h3⟩
    | value t id v =>
      cases id with
      | none =>
        simp only [List.filterMap_cons, List.filterMap_nil, InputEvent.toValue,
          InputEvent.scheduled, List.append_nil]
        exact ⟨h1, h2, h3⟩
      | some id =>
        simp only [List.filterMap_cons, List.filterMap_nil, InputEvent.toValue,
          InputEvent.scheduled, List.any_append, List.any_cons, List.any_nil, Bool.or_false, h2]
        refine ⟨?_, congrArg _ ?_, fun e he => ?_⟩
        · have hlast := h1.event t id v
          unfold flushEvents at *
          rw [List.foldl_append]
          exact hlast
        · unfold ParamValueEvent.counts ScheduledEvent.flushCounts
          dsimp only
          cases ParamId.ofCode id with
          | none => rfl
          | some q => cases q <;> rfl
        · obtain he | he := List.mem_append.1 he
          · exact h3 e he
          · rw [List.mem_singleton.1 he]

section
variable (E : ParamEngine)

/-- What a snapshot leaves. -/
structure SnapshotTaken (t : ParamCtx) (r : RtProcessingParams) (x : ParamCtx) : Prop where
  params : x.rt.params = sanitizeSnapshot E r
  smootherIn : x.rt.smootherIn =
    E.dbToLinear (add (sanitizeSnapshot E r).inputGainDb t.rt.modInputGain)
  smootherOut : x.rt.smootherOut =
    E.dbToLinear (add (sanitizeSnapshot E r).outputGainDb t.rt.modOutputGain)
  mode : x.rt.adaptive.mode = if t.rt.params.adaptiveCompute ≠ r.adaptiveCompute then
    r.adaptiveCompute else t.rt.adaptive.mode
  slim : x.rt.adaptive.slimOverride = if t.rt.params.slimOverride ≠ r.slimOverride then
    r.slimOverride else t.rt.adaptive.slimOverride
  gateDirty : x.rt.gateDirty = (t.rt.gateDirty ||
    !feq t.rt.params.gateThresholdDb (sanitizeSnapshot E r).gateThresholdDb)
  pending : x.pendingRestart = (takeFactor t.bufferSize (osState t) r.oversample).2

theorem applyParamsFromSpsc_taken (t : ParamCtx) (r : RtProcessingParams) :
    SnapshotTaken E t r (applyParamsFromSpsc E t r) := by
  -- the snapshot before the oversampling policy
  obtain ⟨d, h, hsize, heq⟩ : ∃ d : ParamCtx, (d.rt.params = sanitizeSnapshot E r ∧
      d.rt.smootherIn = E.dbToLinear (add (sanitizeSnapshot E r).inputGainDb t.rt.modInputGain) ∧
      d.rt.smootherOut =
        E.dbToLinear (add (sanitizeSnapshot E r).outputGainDb t.rt.modOutputGain) ∧
      d.rt.adaptive.mode = (if t.rt.params.adaptiveCompute ≠ r.adaptiveCompute then
        r.adaptiveCompute else t.rt.adaptive.mode) ∧
      d.rt.adaptive.slimOverride = (if t.rt.params.slimOverride ≠ r.slimOverride then
        r.slimOverride else t.rt.adaptive.slimOverride) ∧
      d.rt.gateDirty = (t.rt.gateDirty ||
        !feq t.rt.params.gateThresholdDb (sanitizeSnapshot E r).gateThresholdDb)) ∧
      (d.bufferSize = t.bufferSize ∧ d.pendingRestart = t.pendingRestart) ∧
      applyParamsFromSpsc E t r =
        if t.rt.params.oversample ≠ r.oversample then applyOversample d r.oversample else d := by
    refine ⟨_, ⟨?_, ?_, ?_, ?_, ?_, ?_⟩, ⟨?_, ?_⟩, rfl⟩ <;> rfl
  obtain ⟨h1, h2, h3, h4, h5, h6⟩ := h
  rw [heq]
  split
  · rename_i hos
    obtain ⟨-, hrt, hpend⟩ := applyOversample_takes d r.oversample
    refine ⟨?_, ?_, ?_, ?_, ?_, ?_, ?_⟩ <;> try rw [hrt]
    · exact h1
    · exact h2
    · exact h3
    · exact h4
    · exact h5
    · exact h6
    · rw [takeFactor_of_ne (Ne.symm hos), hpend, hsize.1, hsize.2]
  · rename_i hos
    refine ⟨h1, h2, h3, h4, h5, h6, ?_⟩
    rw [takeFactor_of_eq (not_not.1 hos).symm]
    exact hsize.2

/-- The main thread's parameters `m` are no older than what the audio thread holds: every parameter
that the events do not set is the audio thread's, the smoothers are on target, and what the events
set back to the value in force is in force. -/
structure MainCurrent (m : RtProcessingParams) (c : ParamCtx) (es : List ScheduledEvent) :
    Prop where
  params : ∀ q, ¬ Sets es q → (sanitizeSnapshot E m).raw q = c.rt.params.raw q
  inputTarget : ¬ Sets es .inputGain →
    c.rt.smootherIn = E.dbToLinear (add c.rt.params.inputGainDb c.rt.modInputGain)
  outputTarget : ¬ Sets es .outputGain →
    c.rt.smootherOut = E.dbToLinear (add c.rt.params.outputGainDb c.rt.modOutputGain)
  mode : Sets es .adaptiveCompute →
    (assigned E c.rt.params es).adaptiveCompute = c.rt.params.adaptiveCompute →
    c.rt.adaptive.mode = c.rt.params.adaptiveCompute
  slim : Sets es .slimOverride →
    (assigned E c.rt.params es).slimOverride = c.rt.params.slimOverride →
    c.rt.adaptive.slimOverride = c.rt.params.slimOverride
  factor : 0 < c.bufferSize → (∃ f ∈ factors E es, f ≠ c.rt.params.oversample) →
    (factors E es).getLast? = some c.rt.params.oversample →
    c.pendingRestart = .pending c.rt.params.oversample

/-- A snapshot sanitizes the float parameters. -/
theorem raw_sanitizeSnapshot (m : RtProcessingParams) (q : ParamId) :
    (sanitizeSnapshot E m).raw q =
      if (floatRange E q).isSome then sanitizeParamValue E q (m.raw q) else m.raw q := by
  cases q <;> rfl

/-- What the events set passes the check of the snapshot. -/
theorem raw_sanitizeSnapshot_assigned (m m' : RtProcessingParams) {q : ParamId}
    {es : List ScheduledEvent} (h : Sets es q) :
    (sanitizeSnapshot E (assigned E m es)).raw q = (assigned E m' es).raw q := by
  rw [raw_sanitizeSnapshot, raw_assigned_of_sets E m m' es h]
  cases hq : floatRange E q with
  | none => rfl
  | some r =>
    rw [Option.isSome_some, if_pos rfl]
    exact sanitize_assigned E hq m' es h

theorem sanitizeSnapshot_assigned_iff {m m' : RtProcessingParams} {es : List ScheduledEvent} :
    sanitizeSnapshot E (assigned E m es) = assigned E m' es ↔
      ∀ q, ¬ Sets es q → (sanitizeSnapshot E m).raw q = m'.raw q := by
  have hkept : ∀ q, ¬ Sets es q → (sanitizeSnapshot E (assigned E m es)).raw q =
      (sanitizeSnapshot E m).raw q := fun q hq => by
    rw [raw_sanitizeSnapshot, raw_sanitizeSnapshot, raw_assigned_of_not_sets E es m hq]
  constructor
  · intro h q hq
    rw [← hkept q hq, h, raw_assigned_of_not_sets E es m' hq]
  · intro h
    refine RtProcessingParams.raw_ext fun q => ?_
    by_cases hq : Sets es q
    · exact raw_sanitizeSnapshot_assigned E m m' hq
    · rw [hkept q hq, h q hq, raw_assigned_of_not_sets E es m' hq]

theorem touches_of_values {es : List ScheduledEvent} (hv : ∀ e ∈ es, e.isMod = false)
    {q : ParamId} : Touches es q ↔ Sets es q := by
  refine ⟨fun h => ?_, Sets.touches⟩
  obtain ⟨e, he, hp⟩ := h
  exact ⟨e, he, hp, hv e he⟩

variable {E}

theorem Retargeted.eq_iff {set : Prop} {b a : F32 × F32 × F32} (h : Retargeted E set b a)
    (hmod : a.2.2 = b.2.2) :
    E.dbToLinear (add a.2.1 b.2.2) = a.1 ↔
      (¬ set → b.1 = E.dbToLinear (add b.2.1 b.2.2)) := by
  by_cases hs : set
  · rw [h.aimed hs, hmod]
    exact ⟨fun _ hn => absurd hs hn, fun _ => rfl⟩
  · rw [h.kept hs]
    exact ⟨fun heq _ => heq.symm, fun k => (k hs).symm⟩

/-- A field of the adaptive controller after a snapshot, against the events of a block. -/
theorem Taking.eq_iff {α : Type} [DecidableEq α] {set : Prop} {value old before after : α}
    (h : Taking set value before after) (hkept : ¬ set → value = old) :
    (if old ≠ value then value else before) = after ↔ (set → value = old → before = old) := by
  by_cases hs : set
  · rw [h.taken hs]
    split
    · rename_i hne
      exact ⟨fun _ _ heq => absurd heq.symm hne, fun _ => rfl⟩
    · rename_i heq
      rw [not_not] at heq
      subst heq
      exact ⟨fun hb _ _ => hb, fun k => k hs rfl⟩
  · rw [h.kept hs, hkept hs, if_neg (not_not.2 rfl)]
    exact ⟨fun _ hset => absurd hset hs, fun _ => rfl⟩

/-- The factor a snapshot leaves pending, against the events of a block. -/
theorem pending_eq_iff {c : ParamCtx} {fs : List OversampleFactor} :
    (takeFactor c.bufferSize (osState c) (fs.getLast?.getD c.rt.params.oversample)).2 =
        (fs.foldl (takeFactor c.bufferSize) (osState c)).2 ↔
      (0 < c.bufferSize → (∃ f ∈ fs, f ≠ c.rt.params.oversample) →
        fs.getLast? = some c.rt.params.oversample →
        c.pendingRestart = .pending c.rt.params.oversample) := by
  have htake : ∀ g, (takeFactor c.bufferSize (osState c) g).2 =
      if g = c.rt.params.oversample then c.pendingRestart
      else if 0 < c.bufferSize then .pending g else c.pendingRestart := by
    intro g
    unfold takeFactor osState
    dsimp only
    split <;> rfl
  have hfold : (fs.foldl (takeFactor c.bufferSize) (osState c)).2 =
      if 0 < c.bufferSize ∧ ∃ f ∈ fs, f ≠ c.rt.params.oversample then
        .pending (fs.getLast?.getD c.rt.params.oversample) else c.pendingRestart := by
    rw [foldl_takeFactor]
    rfl
  rw [htake, hfold]
  -- without a factor there is no change, and the last one is the one in force
  cases hlast : fs.getLast? with
  | none =>
    obtain rfl := List.getLast?_eq_none_iff.1 hlast
    simp
  | some g =>
    have hmem := List.mem_of_getLast? hlast
    rw [Option.getD_some]
    by_cases hback : g = c.rt.params.oversample
    · rw [if_pos hback]
      subst hback
      by_cases hchange : 0 < c.bufferSize ∧ ∃ f ∈ fs, f ≠ c.rt.params.oversample
      · rw [if_pos hchange]
        exact ⟨fun h _ _ _ => h, fun k => k hchange.1 hchange.2 rfl⟩
      · rw [if_neg hchange]
        exact ⟨fun _ hsize hex => absurd ⟨hsize, hex⟩ hchange, fun _ => rfl⟩
    · have hif : (0 < c.bufferSize ∧ ∃ f ∈ fs, f ≠ c.rt.params.oversample) ↔ 0 < c.bufferSize :=
        and_iff_left ⟨g, hmem, hback⟩
      rw [if_neg hback, if_congr hif rfl rfl]
      exact ⟨fun _ _ _ h => absurd (Option.some.inj h) hback, fun _ => rfl⟩

/-- The snapshot of the main thread leaves what the events of a block leave exactly where the main
thread's parameters are no older. -/
theorem Taken.outcome_main_iff {c d t : ParamCtx} {m r : RtProcessingParams}
    {es : List ScheduledEvent} (h : Taken E c es d) (hv : ∀ e ∈ es, e.isMod = false)
    (hm : Mirrors c.rt.params c.ui) (hs : Stored E m c.ui es (r, t.ui)) (hrt : t.rt = c.rt)
    (hsize : t.bufferSize = c.bufferSize) (hpend : t.pendingRestart = c.pendingRestart) :
    (applyParamsFromSpsc E t r).outcome = d.outcome ↔ MainCurrent E m c es := by
  have hr : r = assigned E m es := hs.params
  have hui := applyParamsFromSpsc_ui E t r
  obtain ⟨h1, h2, h3, h4, h5, -, h6⟩ := applyParamsFromSpsc_taken E t r
  generalize applyParamsFromSpsc E t r = x at *
  rw [hrt] at h2 h3 h4 h5
  rw [show osState t = osState c by unfold osState; rw [hrt, hpend], hsize] at h6
  -- the atomics agree in any case
  have hload : x.ui.load = d.ui.load := by
    refine funext fun q => ?_
    rw [hui, h.mirrors q, h.params]
    by_cases hq : Sets es q
    · rw [hs.set q hq, hr]
      exact raw_assigned_of_sets E m c.rt.params es hq
    · rw [hs.kept q hq, raw_assigned_of_not_sets E es _ hq]
      exact hm q
  have hsplit : x.outcome = d.outcome ↔ x.rt.params = d.rt.params ∧
      x.rt.adaptive.mode = d.rt.adaptive.mode ∧
      x.rt.adaptive.slimOverride = d.rt.adaptive.slimOverride ∧
      x.rt.smootherIn = d.rt.smootherIn ∧ x.rt.smootherOut = d.rt.smootherOut ∧
      x.pendingRestart = d.pendingRestart := by
    have hadaptive : x.rt.adaptive = d.rt.adaptive ↔ x.rt.adaptive.mode = d.rt.adaptive.mode ∧
        x.rt.adaptive.slimOverride = d.rt.adaptive.slimOverride := by
      cases x.rt.adaptive
      cases d.rt.adaptive
      rw [AdaptiveCompute.mk.injEq]
    unfold ParamCtx.outcome
    rw [ParamOutcome.mk.injEq, hload, hadaptive, and_assoc, eq_self, true_and]
  have hparams : x.rt.params = d.rt.params ↔
      ∀ q, ¬ Sets es q → (sanitizeSnapshot E m).raw q = c.rt.params.raw q := by
    rw [h1, h.params, hr]
    exact sanitizeSnapshot_assigned_iff E
  by_cases hp : x.rt.params = d.rt.params
  swap
  · exact ⟨fun ho => absurd (hsplit.1 ho).1 hp, fun k => absurd (hparams.2 k.params) hp⟩
  -- with the same parameters, field by field
  have hrd : sanitizeSnapshot E r = d.rt.params := h1.symm.trans hp
  have hmods := h.mods hv
  have hmode : x.rt.adaptive.mode = d.rt.adaptive.mode ↔ (Sets es .adaptiveCompute →
      (assigned E c.rt.params es).adaptiveCompute = c.rt.params.adaptiveCompute →
      c.rt.adaptive.mode = c.rt.params.adaptiveCompute) := by
    have hval : (sanitizeSnapshot E r).adaptiveCompute = d.rt.params.adaptiveCompute := by rw [hrd]
    change r.adaptiveCompute = _ at hval
    rw [h4, hval, ← h.params]
    refine h.mode.eq_iff fun hn => adaptive_of_raw ?_
    rw [h.params]
    exact raw_assigned_of_not_sets E (q := .adaptiveCompute) es _ hn
  have hslim : x.rt.adaptive.slimOverride = d.rt.adaptive.slimOverride ↔ (Sets es .slimOverride →
      (assigned E c.rt.params es).slimOverride = c.rt.params.slimOverride →
      c.rt.adaptive.slimOverride = c.rt.params.slimOverride) := by
    have hval : (sanitizeSnapshot E r).slimOverride = d.rt.params.slimOverride := by rw [hrd]
    change r.slimOverride = _ at hval
    rw [h5, hval, ← h.params]
    refine h.slim.eq_iff fun hn => slim_of_raw ?_
    rw [h.params]
    exact raw_assigned_of_not_sets E (q := .slimOverride) es _ hn
  have hin : x.rt.smootherIn = d.rt.smootherIn ↔ (¬ Sets es .inputGain →
      c.rt.smootherIn = E.dbToLinear (add c.rt.params.inputGainDb c.rt.modInputGain)) := by
    rw [h2, hrd, ← touches_of_values hv]
    exact h.input.eq_iff (congrArg Prod.fst hmods)
  have hout : x.rt.smootherOut = d.rt.smootherOut ↔ (¬ Sets es .outputGain →
      c.rt.smootherOut = E.dbToLinear (add c.rt.params.outputGainDb c.rt.modOutputGain)) := by
    rw [h3, hrd, ← touches_of_values hv]
    exact h.output.eq_iff (congrArg (fun g => g.2.1) hmods)
  have hos : x.pendingRestart = d.pendingRestart ↔ (0 < c.bufferSize →
      (∃ f ∈ factors E es, f ≠ c.rt.params.oversample) →
      (factors E es).getLast? = some c.rt.params.oversample →
      c.pendingRestart = .pending c.rt.params.oversample) := by
    have hfactor := h.factor
    rw [foldl_takeFactor] at hfactor
    have hval : r.oversample = (factors E es).getLast?.getD c.rt.params.oversample :=
      (congrArg RtProcessingParams.oversample hrd).trans (congrArg Prod.fst hfactor)
    rw [h6, hval, ← pending_eq_iff, ← h.factor]
    rfl
  rw [hsplit, hmode, hslim, hin, hout, hos]
  constructor
  · rintro ⟨-, k1, k2, k3, k4, k5⟩
    exact ⟨hparams.1 hp, k3, k4, k1, k2, k5⟩
  · rintro ⟨-, k3, k4, k1, k2, k5⟩
    exact ⟨hp, k1, k2, k3, k4, k5⟩

end

section
variable (E : Engine)

/-- The main-thread flush, and the audio thread taking over the snapshot it sends. -/
def flushAndDrain (s : Shared) (p : Processor) (room : Nat) (input : List ParamValueEvent) :
    Shared × Processor :=
  let t := s.flush E room input
  if input.any (·.counts) then applyParams E t p t.params.rt else (t, p)

theorem noteEvents_log (input : List ParamValueEvent) : ∀ s : Shared,
    ∃ l, input.foldl (fun s e => s.noteEvent E e.id (narrow e.value)) s = { s with log := l } := by
  induction input with
  | nil => exact fun s => ⟨s.log, rfl⟩
  | cons e es ih =>
    intro s
    obtain ⟨l, hl⟩ : ∃ l, s.noteEvent E e.id (narrow e.value) = { s with log := l } := by
      unfold Shared.noteEvent
      split <;> exact ⟨_, rfl⟩
    obtain ⟨l', hl'⟩ := ih (s.noteEvent E e.id (narrow e.value))
    refine ⟨l', ?_⟩
    rw [List.foldl_cons, hl', hl]

/-- The flush before it sends. -/
theorem flush_eq (s : Shared) (room : Nat) (input : List ParamValueEvent) :
    ∃ t : Shared, t.ring = s.ring ∧ t.bufferSize = s.bufferSize ∧
      t.pendingRestartOs = s.pendingRestartOs ∧ t.osRequest = s.osRequest ∧
      (t.params.rt, t.ui) =
        flushEvents E.toParamEngine s.params.rt (writeGuiEvents s.ui room).ui input ∧
      s.flush E room input =
        if input.any (·.counts) then t.sendParams t.params.rt else t := by
  unfold Shared.flush
  dsimp only
  obtain ⟨l, hl⟩ := noteEvents_log E input { s with
    params := { s.params with
      rt := (flushEvents E.toParamEngine s.params.rt (writeGuiEvents s.ui room).ui input).1 }
    ui := (flushEvents E.toParamEngine s.params.rt (writeGuiEvents s.ui room).ui input).2 }
  rw [hl]
  refine ⟨_, ?_, ?_, ?_, ?_, ?_, rfl⟩ <;> rfl

/-- With an empty ring and nothing parked, the audio thread takes the snapshot over in one move. -/
theorem drain_flush {s : Shared} {p : Processor} {room : Nat} {input : List ParamValueEvent}
    (hring : s.ring = []) (hparked : p.deferred = none) (hcounts : input.any (·.counts) = true) :
    ∃ r, drainMove E (s.flush E room input) p .applyParams = some r ∧
      paramCtx r.1 r.2 = paramCtx (flushAndDrain E s p room input).1
        (flushAndDrain E s p room input).2 := by
  obtain ⟨t, hr, -, -, -, -, ht⟩ := flush_eq E s room input
  rw [if_pos hcounts] at ht
  have hsend : t.sendParams t.params.rt = t.sent [.params t.params.rt] none := by
    obtain h | h := sendParams_cases t t.params.rt
    · exact h
    · rw [Shared.sendParams, Shared.pushParams, Shared.forceFlush]
      dsimp only
      rw [ringPush_spec, if_pos (by rw [hr, hring]; decide)]
      rfl
  unfold flushAndDrain
  rw [if_pos hcounts, ht, hsend]
  unfold drainMove Shared.sent
  dsimp only
  rw [hparked, hr, hring]
  exact ⟨_, rfl, rfl⟩

/-- An event that counts for nothing changes nothing. -/
theorem applyEvent_of_not_counts (c : ParamCtx) {e : ScheduledEvent} (h : e.flushCounts = false) :
    (applyEvent E.toParamEngine c e true).1 = c := by
  unfold ScheduledEvent.flushCounts at h
  unfold applyEvent applyScheduledEvent
  cases hp : ParamId.ofCode e.paramId with
  | none => rfl
  | some q =>
    rw [hp] at h
    cases hm : e.isMod with
    | true =>
      rw [hm] at h
      cases q <;> first | rfl | cases h
    | false =>
      rw [hm] at h
      cases q <;> first | rfl | cases h

theorem events_of_not_counts {es : List ScheduledEvent} (h : es.any (·.flushCounts) = false) :
    ∀ c : ParamCtx, es.foldl (fun c e => (applyEvent E.toParamEngine c e true).1) c = c := by
  induction es with
  | nil => exact fun c => rfl
  | cons e es ih =>
    intro c
    rw [List.any_cons, Bool.or_eq_false_iff] at h
    rw [List.foldl_cons, applyEvent_of_not_counts E c h.1, ih h.2]

/-- What the paths are compared on, of a plugin. -/
def outcome (r : Shared × Processor) : ParamOutcome := (paramCtx r.1 r.2).outcome

/-- A changed threshold invalidates the gate. -/
def Invalidates (p : Processor) (r : Shared × Processor) : Prop :=
  r.2.rt.params.gateThresholdDb ≠ p.rt.params.gateThresholdDb → r.2.rt.gateDirty = true

/-- A block and the audio-thread flush do the same with the events. -/
structure FlushAgrees (s : Shared) (p : Processor) (room : Nat) (input : List InputEvent) :
    Prop where
  outcome : outcome (flushInner E s p room (paramEvents input)) =
    outcome (hostEvents E s p (scheduleInputEvents input).events)
  mods : (flushInner E s p room (paramEvents input)).2.rt.mods =
    (hostEvents E s p (scheduleInputEvents input).events).2.rt.mods
  block : Invalidates p (hostEvents E s p (scheduleInputEvents input).events)
  flush : Invalidates p (flushInner E s p room (paramEvents input))

/-- A block and the main-thread flush do the same with the events. -/
structure MainAgrees (s : Shared) (p : Processor) (room : Nat) (input : List InputEvent) :
    Prop where
  outcome : outcome (flushAndDrain E s p room (valueEvents input)) =
    outcome (hostEvents E s p (scheduleInputEvents input).events)
  main : Invalidates p (flushAndDrain E s p room (valueEvents input))

theorem Taken.invalidates {c d : ParamCtx} {es : List ScheduledEvent}
    (h : Taken E.toParamEngine c es d)
    (hne : d.rt.params.gateThresholdDb ≠ c.rt.params.gateThresholdDb) :
    d.rt.gateDirty = true := by
  refine h.gate (Sets.touches ?_)
  by_contra hs
  refine hne ?_
  rw [h.params]
  exact raw_assigned_of_not_sets E.toParamEngine (q := .gateThresh) es _ hs

theorem feq_comm (x y : F32) : feq x y = feq y x := by
  unfold feq
  cases datum x <;> cases datum y <;> simp [Datum.feq, eq_comm]

/-- Thresholds that compare equal are equal: no threshold in range is a zero. -/
theorem gateThresh_eq_of_feq {u v : F32}
    (h : feq u (sanitizeParamValue E.toParamEngine .gateThresh v) = true) :
    u = sanitizeParamValue E.toParamEngine .gateThresh v := by
  obtain ⟨hfin, -, hhi⟩ := sanitize_float E.toParamEngine (p := .gateThresh) rfl v
  generalize sanitizeParamValue E.toParamEngine .gateThresh v = w at *
  rw [feq_comm] at h
  refine eq_of_feq hfin h fun hzero => ?_
  rw [lt_of_isFinite (by decide +kernel) hfin, hzero] at hhi
  exact absurd hhi (by decide +kernel)

theorem flushAgrees_iff (s : Shared) (p : Processor) (room : Nat) (input : List InputEvent)
    (hlen : (paramEvents input).length ≤ MAX_SCHEDULED_EVENTS) (hm : Mirrors p.rt.params s.ui) :
    FlushAgrees E s p room input ↔
      (Resyncs s p (paramEvents input) → Settled E.toParamEngine p.rt (paramEvents input)) := by
  have htaken := Taken.events (E := E.toParamEngine) (c := paramCtx s p) hm (paramEvents input)
  have hhost := hostEvents_ctx E (paramEvents input) (s, p)
  obtain ⟨x, hx, hflush⟩ := flushInner_ctx E s p room (paramEvents input) hm
  rw [← hhost] at htaken hx
  -- the two flags of the gate, once the flush left what the events left
  have hsame : ∀ y : ParamCtx, paramCtx (flushInner E s p room (paramEvents input)).1
      (flushInner E s p room (paramEvents input)).2 = y → y = x →
      FlushAgrees E s p room input := by
    intro y hy hyx
    subst hyx
    rw [← hy] at hx
    refine ⟨?_, ?_, ?_, ?_⟩
    · rw [scheduleInputEvents_events hlen]
      exact hx.outcome
    · rw [scheduleInputEvents_events hlen]
      exact congrArg RtParamState.mods hx.rt
    · rw [scheduleInputEvents_events hlen]
      exact htaken.invalidates E
    · intro hne
      have hrt : (flushInner E s p room (paramEvents input)).2.rt =
        (hostEvents E s p (paramEvents input)).2.rt := hx.rt
      rw [hrt] at hne ⊢
      exact htaken.invalidates E hne
  by_cases hre : Resyncs s p (paramEvents input)
  · rw [if_pos hre] at hflush
    have hiff := htaken.outcome_sync_iff hx
    constructor
    · intro h _
      have ho := h.outcome
      rw [scheduleInputEvents_events hlen] at ho
      unfold outcome at ho
      rw [hflush] at ho
      exact hiff.1 ho
    · intro h
      have hrest : AtRest E.toParamEngine x.rt := by
        rw [hx.rt]
        exact htaken.atRest_iff.2 (h hre)
      exact hsame _ hflush (sync_of_atRest (hx.mirrors htaken.mirrors) hrest)
  · rw [if_neg hre] at hflush
    exact ⟨fun _ h => absurd h hre, fun _ => hsame _ hflush rfl⟩

theorem mainAgrees_iff (s : Shared) (p : Processor) (room : Nat) (input : List InputEvent)
    (hlen : (paramEvents input).length ≤ MAX_SCHEDULED_EVENTS) (hm : Mirrors p.rt.params s.ui)
    (hv : ∀ ev ∈ input, ev.isMod = false) :
    MainAgrees E s p room input ↔ ((paramEvents input).any (·.flushCounts) = true →
      MainCurrent E.toParamEngine s.params.rt (paramCtx s p) (paramEvents input)) := by
  have htaken := Taken.events (E := E.toParamEngine) (c := paramCtx s p) hm (paramEvents input)
  have hhost := hostEvents_ctx E (paramEvents input) (s, p)
  rw [← hhost] at htaken
  obtain ⟨hstored, hcounts, hvalues⟩ := flushEvents_stored (E := E.toParamEngine) s.params.rt
    (writeGuiEvents s.ui room).ui input hv
  obtain ⟨t, -, h1, h2, hreq, h3, h4⟩ := flush_eq E s room (valueEvents input)
  rw [← h3] at hstored
  have hstart : ∀ q, (writeGuiEvents s.ui room).ui.load q = s.ui.load q :=
    load_writeGuiEvents s.ui room
  by_cases hcount : (paramEvents input).any (·.flushCounts) = true
  · have hsent : ∃ y : Shared, s.flush E room (valueEvents input) = y ∧ y.params = t.params ∧
        y.bufferSize = t.bufferSize ∧ y.pendingRestartOs = t.pendingRestartOs ∧
        ∀ q, y.ui.load q = t.ui.load q := by
      rw [h4, if_pos (hcounts.trans hcount)]
      obtain h | h := sendParams_cases t t.params.rt <;> rw [h]
      · exact ⟨_, rfl, rfl, rfl, rfl, fun _ => rfl⟩
      · exact ⟨_, rfl, rfl, rfl, rfl, fun q => UiToRt.load_bumpGeneration _ q⟩
    obtain ⟨y, hy, k1, k2, k3, k4⟩ := hsent
    have hmain : flushAndDrain E s p room (valueEvents input) = applyParams E y p t.params.rt := by
      unfold flushAndDrain
      rw [if_pos (hcounts.trans hcount), hy, k1]
    have hstored' : Stored E.toParamEngine s.params.rt s.ui (paramEvents input)
        (t.params.rt, y.ui) :=
      ⟨hstored.params, fun q hq => (k4 q).trans (hstored.set q hq),
        fun q hq => (k4 q).trans ((hstored.kept q hq).trans (hstart q))⟩
    have hiff := htaken.outcome_main_iff (t := paramCtx y p) hvalues hm hstored' rfl
      (k2.trans h1) (k3.trans h2)
    have hsnap := applyParamsFromSpsc_taken E.toParamEngine (paramCtx y p) t.params.rt
    have hinv : Invalidates p (flushAndDrain E s p room (valueEvents input)) := by
      intro hne
      rw [hmain] at hne ⊢
      refine hsnap.gateDirty.trans ?_
      rw [Bool.or_eq_true, Bool.not_eq_true']
      refine .inr (Bool.eq_false_iff.2 fun heq => hne ?_)
      refine (congrArg RtProcessingParams.gateThresholdDb hsnap.params).trans ?_
      exact (gateThresh_eq_of_feq E heq).symm
    constructor
    · intro h _
      have ho := h.outcome
      rw [scheduleInputEvents_events hlen, hmain] at ho
      exact hiff.1 ho
    · intro h
      refine ⟨?_, hinv⟩
      rw [scheduleInputEvents_events hlen, hmain]
      exact hiff.2 (h hcount)
  · rw [Bool.not_eq_true] at hcount
    have hidle : paramCtx (hostEvents E s p (paramEvents input)).1
        (hostEvents E s p (paramEvents input)).2 = paramCtx s p := by
      rw [hhost, events_of_not_counts E hcount]
    have hmain : flushAndDrain E s p room (valueEvents input) = (t, p) := by
      unfold flushAndDrain
      rw [if_neg (by rw [hcounts, hcount]; exact Bool.false_ne_true), h4,
        if_neg (by rw [hcounts, hcount]; exact Bool.false_ne_true)]
    have halike : Alike (paramCtx s p) (paramCtx t p) := by
      refine ⟨rfl, fun q => ?_, h1, h2, hreq⟩
      by_cases hq : Sets (paramEvents input) q
      · obtain ⟨e, he, hp, hmod⟩ := hq
        have hno : e.flushCounts = false := by simpa using List.any_eq_false.1 hcount e he
        unfold ScheduledEvent.flushCounts at hno
        rw [hp, hmod] at hno
        cases q <;> first | rfl | cases hno
      · exact (hstored.kept q hq).trans (hstart q)
    refine ⟨fun _ h => absurd h (by rw [hcount]; exact Bool.false_ne_true), fun _ => ⟨?_, ?_⟩⟩
    · rw [scheduleInputEvents_events hlen, hmain]
      unfold outcome
      rw [hidle]
      exact halike.outcome
    · rw [hmain]
      exact fun hne => absurd rfl hne

/-- The event paths agree exactly where the synchronization of the audio-thread flush has nothing to do
and the parameters the main thread sends are no older than what the audio thread holds. Modulation
is compared on the first two, which take it. -/
theorem paths_agree_iff (s : Shared) (p : Processor) (room room' : Nat) (input : List InputEvent)
    (hlen : (paramEvents input).length ≤ MAX_SCHEDULED_EVENTS) (hm : Mirrors p.rt.params s.ui) :
    ((∀ ev ∈ input, ev.isMod = false) →
      (FlushAgrees E s p room input ∧ MainAgrees E s p room' input ↔
        (Resyncs s p (paramEvents input) → Settled E.toParamEngine p.rt (paramEvents input)) ∧
          ((paramEvents input).any (·.flushCounts) = true →
            MainCurrent E.toParamEngine s.params.rt (paramCtx s p) (paramEvents input)))) ∧
      (FlushAgrees E s p room input ↔
        (Resyncs s p (paramEvents input) →
          Settled E.toParamEngine p.rt (paramEvents input))) := by
  have hflush := flushAgrees_iff E s p room input hlen hm
  exact ⟨fun hv => and_congr hflush (mainAgrees_iff E s p room' input hlen hm hv), hflush⟩

end

/-! ## Reference runs -/

/-- The knob of the input gain goes to 1 dB, and a callback takes it over. -/
def refTurned : List Action :=
  [refActivate, .main (.guiStore (.inputGainChanged f1)),
    .main (.guiAnnounce (.inputGainChanged f1)), .audio (.beginEvents 0), .audio .endEvents]

/-- The host switches the bypass on. -/
def refBypassOn : List InputEvent := [.value 0 (some ParamId.bypass.code) (datum f1)]

theorem refActivate_active : (refRun [refActivate]).proc.isSome = true := by decide +kernel

theorem refTurned_active : (refRun refTurned).proc.isSome = true := by decide +kernel

/-- Right after an activation the three paths agree on it. -/
theorem paths_agree_fresh :
    FlushAgrees refEngine (refRun [refActivate]).shared (refProc [refActivate] refActivate_active) 0
        refBypassOn ∧
      MainAgrees refEngine (refRun [refActivate]).shared
        (refProc [refActivate] refActivate_active) 0 refBypassOn := by
  have hm : Mirrors (refProc [refActivate] refActivate_active).rt.params
      (refRun [refActivate]).shared.ui := by
    intro q
    cases q <;> decide +kernel
  refine ((paths_agree_iff refEngine _ _ 0 0 refBypassOn (by decide) hm).1 (by decide)).2
    ⟨fun _ => ⟨?_, ?_, ?_, ?_, ?_, ?_, ?_⟩, fun _ => ⟨fun q => ?_, ?_, ?_, ?_, ?_, ?_⟩⟩
  case refine_8 => cases q <;> decide +kernel
  all_goals decide +kernel

/-- Once the GUI has turned the knob, the snapshot of the main-thread flush turns it back. -/
theorem paths_disagree :
    Mirrors (refProc refTurned refTurned_active).rt.params (refRun refTurned).shared.ui ∧
      (refRun refTurned).shared.renderMode = .realtime ∧
      (refProc refTurned refTurned_active).lastRenderMode = .realtime ∧
      (hostEvents refEngine (refRun refTurned).shared (refProc refTurned refTurned_active)
        (scheduleInputEvents refBypassOn).events).2.rt.params.inputGainDb = f1 ∧
      (flushAndDrain refEngine (refRun refTurned).shared (refProc refTurned refTurned_active) 0
        (valueEvents refBypassOn)).2.rt.params.inputGainDb = f0 ∧
      ¬ MainAgrees refEngine (refRun refTurned).shared (refProc refTurned refTurned_active) 0
        refBypassOn := by
  have hm : Mirrors (refProc refTurned refTurned_active).rt.params
      (refRun refTurned).shared.ui := by
    intro q
    cases q <;> decide +kernel
  have hblock : (hostEvents refEngine (refRun refTurned).shared
      (refProc refTurned refTurned_active)
      (scheduleInputEvents refBypassOn).events).2.rt.params.inputGainDb = f1 := by decide +kernel
  have hmain : (flushAndDrain refEngine (refRun refTurned).shared
      (refProc refTurned refTurned_active) 0
      (valueEvents refBypassOn)).2.rt.params.inputGainDb = f0 := by decide +kernel
  refine ⟨hm, by decide +kernel, by decide +kernel, hblock, hmain, fun h => ?_⟩
  have hgain := congrArg (fun o => o.params.inputGainDb) h.outcome
  exact absurd (hmain.symm.trans (hgain.trans hblock)) (by decide)

end NamPlug
