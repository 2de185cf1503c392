import NamPlug.Params.Proof.Stored

/-!
# What the GUI events tell the host

`writeGuiEvents_truthful_iff`: whoever wrote the parameters, a value event the plugin emits for
one of them carries what `getValue` reports and leaves the parameter as it is when it comes back,
exactly when a float parameter lies in its range and a stepped one stores 0: the events read the
small integer of a stepped parameter as the bits of a float.

* `emitted_value`: a value event carries the raw atomic read as a float.
* `emitted_of_changed`: a pending change is emitted when the queue has room.
* `coded_run`: whoever wrote, the stepped atomics hold their codes.
-/

namespace NamPlug

open Binary32

/-! ## Gesture flags -/

/-- The position of a flag in the bitmap. -/
def gestureIdx (p : ParamId) (f : GestureFlag) : Nat :=
  paramIndex p * GESTURE_BITS_PER_PARAM + f.shift

def UiToRt.hasGesture (u : UiToRt) (p : ParamId) (f : GestureFlag) : Bool :=
  u.gestureFlags.getLsbD (gestureIdx p f)

theorem gestureIdx_lt (p : ParamId) (f : GestureFlag) : gestureIdx p f < 32 := by
  cases p <;> cases f <;> decide

theorem gestureIdx_inj {p q : ParamId} {f g : GestureFlag} (h : gestureIdx p f = gestureIdx q g) :
    p = q ∧ f = g := by
  have hf : f.shift < 3 ∧ g.shift < 3 := by cases f <;> cases g <;> decide
  simp only [gestureIdx, paramIndex, GESTURE_BITS_PER_PARAM] at h
  have hc : p.code = q.code := by omega
  have hs : f.shift = g.shift := by omega
  refine ⟨ParamId.code_inj hc, ?_⟩
  cases f <;> cases g <;> first | rfl | cases hs

theorem gestureBit_eq (p : ParamId) (f : GestureFlag) :
    gestureBit p f = BitVec.twoPow 32 (gestureIdx p f) := (BitVec.twoPow_eq ..).symm

theorem takeGesture_fst (u : UiToRt) (p : ParamId) (f : GestureFlag) :
    (u.takeGesture p f).1 = u.hasGesture p f := by
  simp only [UiToRt.takeGesture, UiToRt.hasGesture, gestureBit_eq, BitVec.and_twoPow]
  split
  · rename_i h
    rw [h, bne_iff_ne]
    intro h0
    have := congrArg (·.getLsbD (gestureIdx p f)) h0
    simp [gestureIdx_lt] at this
  · rename_i h
    simpa using h

theorem hasGesture_takeGesture (u : UiToRt) (p q : ParamId) (f g : GestureFlag)
    (h : ¬(q = p ∧ g = f)) : (u.takeGesture p f).2.hasGesture q g = u.hasGesture q g := by
  simp [UiToRt.takeGesture, UiToRt.hasGesture, gestureBit_eq, gestureIdx_lt]
  exact fun _ he => h (gestureIdx_inj he)

/-! ## The drain -/

/-- What a drain of atomics `u` keeps: the values, no flag that was not there, and value events
only for changes that were. -/
structure DrainInv (u : UiToRt) (d : GuiDrain) : Prop where
  load : ∀ p, d.ui.load p = u.load p
  flags : ∀ p f, d.ui.hasGesture p f = true → u.hasGesture p f = true
  value : ∀ p v, .value p v ∈ d.out → v = datum (u.load p) ∧ u.hasGesture p .changed = true

theorem hasGesture_of_takeGesture {u : UiToRt} {p q : ParamId} {f g : GestureFlag}
    (h : (u.takeGesture p f).2.hasGesture q g = true) : u.hasGesture q g = true := by
  simp only [UiToRt.takeGesture, UiToRt.hasGesture, BitVec.getLsbD_and, Bool.and_eq_true] at h
  exact h.1

theorem hasGesture_setGesture {u : UiToRt} {p q : ParamId} {f g : GestureFlag}
    (h : (u.setGesture p f).hasGesture q g = true) :
    u.hasGesture q g = true ∨ (q = p ∧ g = f) := by
  simp only [UiToRt.setGesture, UiToRt.hasGesture, gestureBit_eq, BitVec.getLsbD_or,
    BitVec.getLsbD_twoPow, Bool.or_eq_true, Bool.and_eq_true, decide_eq_true_eq] at h
  rcases h with h | ⟨-, h⟩
  · exact .inl h
  · obtain ⟨rfl, rfl⟩ := gestureIdx_inj h
    exact .inr ⟨rfl, rfl⟩

theorem DrainInv.flag {u : UiToRt} {d : GuiDrain} (h : DrainInv u d) (p : ParamId)
    (f : GestureFlag) (ev : OutEvent)
    (hev : ∀ q v, ev = .value q v → q = p ∧ f = .changed ∧ v = datum (u.load q)) :
    DrainInv u (d.flag p f ev) := by
  have hl := fun q => UiToRt.load_takeGesture d.ui p q f
  have hf := fun q g (hq : (d.ui.takeGesture p f).2.hasGesture q g = true) =>
    h.flags q g (hasGesture_of_takeGesture hq)
  have ht := takeGesture_fst d.ui p f
  unfold GuiDrain.flag
  split
  · exact h
  split
  · rename_i ui heq
    rw [heq] at hl hf
    exact ⟨fun q => by rw [← h.load q]; exact hl q, hf, h.value⟩
  · rename_i ui heq
    rw [heq] at hl hf ht
    have hset : u.hasGesture p f = true := h.flags p f ht.symm
    split
    · refine ⟨fun q => by rw [UiToRt.load_setGesture, ← h.load q]; exact hl q,
        fun q g hq => ?_, h.value⟩
      rcases hasGesture_setGesture hq with hq | ⟨rfl, rfl⟩
      · exact hf q g hq
      · exact hset
    · refine ⟨fun q => by rw [← h.load q]; exact hl q, hf, fun q v hv => ?_⟩
      rcases List.mem_append.1 hv with hv | hv
      · exact h.value q v hv
      · obtain ⟨rfl, rfl, rfl⟩ := hev q v (List.mem_singleton.1 hv).symm
        exact ⟨rfl, hset⟩

theorem DrainInv.param {u : UiToRt} {d : GuiDrain} (h : DrainInv u d) (p : ParamId) :
    DrainInv u (d.param p) := by
  have h1 := h.flag p .begin_ (.gestureBegin p) (fun _ _ he => by cases he)
  have h2 := h1.flag p .changed (valueEvent (d.flag p .begin_ (.gestureBegin p)).ui p)
    (fun q v he => by cases he; exact ⟨rfl, rfl, by rw [h1.load]⟩)
  exact h2.flag p .end_ (.gestureEnd p) (fun _ _ he => by cases he)

theorem DrainInv.params {u : UiToRt} (ps : List ParamId) {d : GuiDrain} (h : DrainInv u d) :
    DrainInv u (ps.foldl GuiDrain.param d) := by
  induction ps generalizing d with
  | nil => exact h
  | cons p ps ih => exact ih (h.param p)

theorem writeGuiEvents_inv (u : UiToRt) (room : Nat) : DrainInv u (writeGuiEvents u room) := by
  have h0 : DrainInv u ⟨u, room, [], false⟩ := ⟨fun _ => rfl, fun _ _ h => h, fun _ _ h => by cases h⟩
  unfold writeGuiEvents
  split
  · exact h0
  · exact h0.params guiEventParams

/-- A value event carries the raw atomic of its parameter read as a float. -/
theorem emitted_value {u : UiToRt} {room : Nat} {p : ParamId} {v : Datum}
    (h : .value p v ∈ (writeGuiEvents u room).out) : v = datum (u.load p) :=
  ((writeGuiEvents_inv u room).value p v h).1

theorem changed_of_emitted {u : UiToRt} {room : Nat} {p : ParamId} {v : Datum}
    (h : .value p v ∈ (writeGuiEvents u room).out) : u.hasGesture p .changed = true :=
  ((writeGuiEvents_inv u room).value p v h).2

theorem load_writeGuiEvents (u : UiToRt) (room : Nat) (p : ParamId) :
    (writeGuiEvents u room).ui.load p = u.load p := (writeGuiEvents_inv u room).load p

theorem flag_guiParamGeneration (d : GuiDrain) (p : ParamId) (f : GestureFlag) (ev : OutEvent) :
    (d.flag p f ev).ui.guiParamGeneration = d.ui.guiParamGeneration := by
  simp only [GuiDrain.flag, UiToRt.takeGesture]
  split
  · rfl
  · split
    · rename_i ui h
      obtain ⟨-, rfl⟩ := Prod.mk.inj h
      rfl
    · rename_i ui h
      obtain ⟨-, rfl⟩ := Prod.mk.inj h
      split <;> rfl

theorem guiParamGeneration_writeGuiEvents (u : UiToRt) (room : Nat) :
    (writeGuiEvents u room).ui.guiParamGeneration = u.guiParamGeneration := by
  have hparams : ∀ (ps : List ParamId) (d : GuiDrain),
      (ps.foldl GuiDrain.param d).ui.guiParamGeneration = d.ui.guiParamGeneration := by
    intro ps
    induction ps with
    | nil => exact fun d => rfl
    | cons p ps ih =>
      intro d
      refine (ih _).trans ?_
      simp only [GuiDrain.param, flag_guiParamGeneration]
  unfold writeGuiEvents
  split
  · rfl
  · exact hparams ..

/-! ## Pending changes are emitted -/

theorem flag_out_mono {d : GuiDrain} {p : ParamId} {f : GestureFlag} {ev e : OutEvent}
    (h : e ∈ d.out) : e ∈ (d.flag p f ev).out := by
  unfold GuiDrain.flag
  split
  · exact h
  · split
    · exact h
    · split
      · exact h
      · exact List.mem_append_left _ h

theorem params_out_mono {e : OutEvent} (ps : List ParamId) {d : GuiDrain} (h : e ∈ d.out) :
    e ∈ (ps.foldl GuiDrain.param d).out := by
  induction ps generalizing d with
  | nil => exact h
  | cons p ps ih => exact ih (flag_out_mono (flag_out_mono (flag_out_mono h)))

/-- A drain with room for `n` more events that has not stopped and has not reached flag `g` of
`q`. -/
structure Ready (n : Nat) (q : ParamId) (g : GestureFlag) (d : GuiDrain) : Prop where
  room : n ≤ d.room
  going : d.stopped = false
  has : d.ui.hasGesture q g = true

theorem Ready.flag {n : Nat} {q p : ParamId} {g f : GestureFlag} {d : GuiDrain}
    (h : Ready (n + 1) q g d) (ev : OutEvent) (hne : ¬(q = p ∧ g = f)) :
    Ready n q g (d.flag p f ev) := by
  obtain ⟨hroom, hgoing, hhas⟩ := h
  have hkeep := hasGesture_takeGesture d.ui p q f g hne
  unfold GuiDrain.flag
  rw [if_neg (by simp [hgoing])]
  split
  · rename_i ui heq
    rw [heq] at hkeep
    exact ⟨by simp only; omega, hgoing, by simpa [hkeep] using hhas⟩
  · rename_i ui heq
    rw [heq] at hkeep
    rw [if_neg (by omega)]
    exact ⟨by simp only; omega, hgoing, by simpa [hkeep] using hhas⟩

theorem Ready.emit {n : Nat} {q : ParamId} {g : GestureFlag} {d : GuiDrain} {ev : OutEvent}
    (h : Ready (n + 1) q g d) : ev ∈ (d.flag q g ev).out := by
  obtain ⟨hroom, hgoing, hhas⟩ := h
  have htake := takeGesture_fst d.ui q g
  unfold GuiDrain.flag
  rw [if_neg (by simp [hgoing])]
  split
  · rename_i ui heq
    rw [heq] at htake
    simp only [hhas, Bool.false_eq_true] at htake
  · rw [if_neg (by omega)]
    simp

theorem Ready.emit_params {q : ParamId} {ps : List ParamId} {d : GuiDrain} (hq : q ∈ ps)
    (h : Ready (3 * ps.length) q .changed d) :
    ∃ v, .value q v ∈ (ps.foldl GuiDrain.param d).out := by
  induction ps generalizing d with
  | nil => cases hq
  | cons p ps ih =>
    have hlen : 3 * (p :: ps).length = 3 * ps.length + 1 + 1 + 1 := by simp; omega
    rw [hlen] at h
    have h1 := h.flag (p := p) (f := .begin_) (.gestureBegin p) (fun h => by cases h.2)
    by_cases hpq : q = p
    · subst hpq
      exact ⟨_, params_out_mono ps (flag_out_mono h1.emit)⟩
    · have h2 := h1.flag (p := p) (f := .changed)
        (valueEvent (d.flag p .begin_ (.gestureBegin p)).ui p) (fun h => hpq h.1)
      have h3 := h2.flag (p := p) (f := .end_) (.gestureEnd p) (fun h => hpq h.1)
      exact ih ((List.mem_cons.1 hq).resolve_left hpq) h3

theorem mem_guiEventParams {p : ParamId} (h : p ≠ .activeModel) : p ∈ guiEventParams := by
  cases p <;> first | decide | exact absurd rfl h

/-- A pending change is emitted into a queue with room for a whole drain. -/
theorem emitted_of_changed {u : UiToRt} {p : ParamId} (hp : p ≠ .activeModel)
    (h : u.hasGesture p .changed = true) :
    .value p (datum (u.load p)) ∈ (writeGuiEvents u 24).out := by
  have hready : Ready (3 * guiEventParams.length) p .changed ⟨u, 24, [], false⟩ :=
    ⟨Nat.le_refl 24, rfl, h⟩
  have hne : u.gestureFlags ≠ 0 := by
    intro h0
    simp [UiToRt.hasGesture, h0] at h
  obtain ⟨v, hv⟩ : ∃ v, .value p v ∈ (writeGuiEvents u 24).out := by
    unfold writeGuiEvents
    rw [if_neg hne]
    exact hready.emit_params (mem_guiEventParams hp)
  rw [emitted_value hv] at hv
  exact hv

/-! ## Histories of writers -/

/-- A step of a parameter history: a GUI callback, a host event on one of its three paths, or the
audio thread taking over the atomics or a snapshot. -/
inductive Writer where
  | gui (e : GuiEdit)
  | process (e : ParamValueEvent)
  | audioFlush (e : ParamValueEvent)
  | mainFlush (e : ParamValueEvent)
  | sync
  | snapshot (r : RtProcessingParams)

/-- The audio thread's parameters, the shared state and the main thread's own values. -/
structure ParamSystem where
  ctx : ParamCtx
  main : RtProcessingParams

def Writer.run (E : ParamEngine) (s : ParamSystem) : Writer → ParamSystem
  | .gui e => { s with ctx := { s.ctx with ui := guiCallback s.ctx.ui e } }
  | .process e =>
    match ParamId.ofCode e.id with
    | some p => { s with ctx := (applyScheduledEvent E s.ctx p (narrow e.value) false true).1 }
    | none => s
  | .audioFlush e =>
    match ParamId.ofCode e.id with
    | some p => { s with ctx := setParam E s.ctx p (narrow e.value) }
    | none => s
  | .mainFlush e =>
    let mu := flushEvent E (s.main, s.ctx.ui) e
    { ctx := { s.ctx with ui := mu.2 }, main := mu.1 }
  | .sync => { s with ctx := syncParamsFromGui E s.ctx }
  | .snapshot r => { s with ctx := applyParamsFromSpsc E s.ctx r }

theorem coded_writer (E : ParamEngine) {s : ParamSystem} (h : Coded s.ctx.ui) (w : Writer) :
    Coded (w.run E s).ctx.ui := by
  cases w with
  | gui e => exact coded_guiCallback h e
  | process e =>
    simp only [Writer.run]
    split
    · exact coded_applyScheduledEvent E h _ _ _ _
    · exact h
  | audioFlush e =>
    simp only [Writer.run]
    split
    · exact coded_setParam E h _ _
    · exact h
  | mainFlush e => exact @coded_flushEvent E (s.main, s.ctx.ui) h e
  | sync => simpa only [Writer.run, syncParamsFromGui_ui] using h
  | snapshot r => simpa only [Writer.run, applyParamsFromSpsc_ui] using h

theorem coded_run (E : ParamEngine) (ws : List Writer) {s : ParamSystem} (h : Coded s.ctx.ui) :
    Coded (ws.foldl (Writer.run E) s).ctx.ui := by
  induction ws generalizing s with
  | nil => exact h
  | cons w ws ih => exact ih (coded_writer E h w)

/-! ## Truthful events -/

/-- What the audio thread holds for a parameter, as the host would read it. -/
def rtValue (r : RtProcessingParams) : ParamId → Datum
  | .inputGain => datum r.inputGainDb
  | .outputGain => datum r.outputGainDb
  | .gateThresh => datum r.gateThresholdDb
  | .bypass => natDatum (bypassBoolToU32 r.bypass).toNat
  | .activeModel => natDatum 0
  | .adaptiveCompute => natDatum r.adaptiveCompute.code
  | .slimOverride => natDatum r.slimOverride.code
  | .oversample => natDatum r.oversample.code
  | .activation => natDatum r.activationPrecision.code

/-- Every value event the plugin can emit for `p` in `c` carries what `getValue` reports, and after
it came back through the audio thread the host still reads the same and the audio thread holds
it. -/
def Truthful (E : ParamEngine) (c : ParamCtx) (p : ParamId) : Prop :=
  ∀ room v, .value p v ∈ (writeGuiEvents c.ui room).out →
    v = getValue c.ui 0 p ∧
    let fed := (applyScheduledEvent E { c with ui := (writeGuiEvents c.ui room).ui } p (narrow v)
      false true).1
    getValue fed.ui 0 p = getValue c.ui 0 p ∧ rtValue fed.rt.params p = getValue c.ui 0 p

/-- A float parameter in its range, or a stepped one that stores 0. -/
def EventSafe (E : ParamEngine) (u : UiToRt) (p : ParamId) : Prop :=
  match floatRange E p with
  | some r => InRange r (u.load p)
  | none => u.load p = 0

theorem datum_small_eq {x : BitVec 32} (hx : x.toNat ≤ 2) :
    datum x = natDatum x.toNat ↔ x = 0 := by
  have h : x = 0#32 ∨ x = 1#32 ∨ x = 2#32 := by
    rcases Nat.lt_or_ge x.toNat 1 with h | h
    · exact .inl (BitVec.eq_of_toNat_eq (by simp; omega))
    · rcases Nat.lt_or_ge x.toNat 2 with h2 | h2
      · exact .inr (.inl (BitVec.eq_of_toNat_eq (by simp; omega)))
      · exact .inr (.inr (BitVec.eq_of_toNat_eq (by simp; omega)))
  rcases h with rfl | rfl | rfl <;> decide +kernel

theorem getValue_float {E : ParamEngine} {p : ParamId} {r : F32 × F32}
    (h : floatRange E p = some r) (u : UiToRt) (k : Nat) : getValue u k p = datum (u.load p) := by
  cases p <;> first | rfl | cases h

theorem getValue_step {E : ParamEngine} {p : ParamId} (hp : p ≠ .activeModel)
    (h : floatRange E p = none) (u : UiToRt) (k : Nat) :
    getValue u k p = natDatum (u.load p).toNat := by
  cases p <;> first | exact absurd rfl hp | rfl | cases h

/-- A value event of a float parameter stores the sanitized value in the atomic and on the audio
thread. -/
theorem fed_float {E : ParamEngine} {p : ParamId} {r : F32 × F32} (h : floatRange E p = some r)
    (c : ParamCtx) (v : F32) :
    (applyScheduledEvent E c p v false true).1.ui.load p = sanitizeParamValue E p v ∧
      rtValue (applyScheduledEvent E c p v false true).1.rt.params p =
        datum (sanitizeParamValue E p v) := by
  cases p <;> first | exact ⟨rfl, rfl⟩ | cases h

/-- Feeding 0 to a stepped parameter that stores 0 keeps it. -/
theorem fed_zero {E : ParamEngine} {p : ParamId} (hp : p ≠ .activeModel)
    (h : floatRange E p = none) {c : ParamCtx} (h0 : c.ui.load p = 0) :
    (applyScheduledEvent E c p f0 false true).1.ui.load p = 0 ∧
      rtValue (applyScheduledEvent E c p f0 false true).1.rt.params p = natDatum 0 := by
  have hz : ∀ d, sanitizeStep d f2 f0 = ofNat 0 := fun d => by
    rw [← ofNat_zero]; exact sanitizeStep_ofNat_two (Nat.zero_le _)
  have hz1 : ∀ d, sanitizeStep d f1 f0 = ofNat 0 := fun d => by
    rw [← ofNat_zero]; exact sanitizeStep_ofNat_one (Nat.zero_le _)
  cases p <;> simp only [floatRange, reduceCtorEq] at h <;>
    simp only [applyScheduledEvent, applyValueEvent, Bool.false_eq_true, if_false,
      sanitizeParamValue]
  case bypass =>
    rw [show finiteOr f0 (fun v => if le f0_5 v then f1 else f0) f0 = f0 by decide +kernel,
      show bypassF32ToBool f0 = false by decide +kernel]
    exact ⟨rfl, rfl⟩
  case activeModel => exact absurd rfl hp
  case adaptiveCompute =>
    rw [hz, show E.adaptiveOfF32 (ofNat 0) = .off from E.adaptive_code .off]
    exact ⟨rfl, rfl⟩
  case slimOverride =>
    rw [hz, show E.slimOfF32 (ofNat 0) = .auto from E.slim_code .auto]
    exact ⟨rfl, rfl⟩
  case oversample =>
    have hoff : E.oversampleOfF32 (ofNat 0) = .off := E.oversample_code .off
    simp only [hz, hoff]
    split
    · split <;> exact ⟨rfl, rfl⟩
    · rename_i hr
      exact ⟨h0, by simp only [rtValue]; rw [← not_ne_iff.1 hr]; rfl⟩
  case activation =>
    have hfast : E.activationOfF32 (ofNat 0) = .fast := E.activation_code .fast
    simp only [hz1, hfast]
    split
    · exact ⟨rfl, rfl⟩
    · rename_i hr
      exact ⟨h0, by simp only [rtValue]; rw [← not_ne_iff.1 hr]; rfl⟩

/-- The atomics at their defaults, whatever the audio thread and the main thread hold. -/
def ParamSystem.init (c : ParamCtx) (m : RtProcessingParams) : ParamSystem where
  ctx := { c with ui := UiToRt.default }
  main := m

theorem step_of_floatRange_none {E : ParamEngine} {p : ParamId} (h : floatRange E p = none) :
    ∃ n ≤ 2, stepMax p = some n := by
  cases p <;> first | exact ⟨_, by decide, rfl⟩ | cases h

/-- A float parameter the host gets back unchanged lies in its range. -/
theorem inRange_of_fed {E : ParamEngine} {p : ParamId} {r : F32 × F32} {x : F32}
    (h : floatRange E p = some r) (hx : datum (sanitizeParamValue E p (narrow (datum x))) = datum x) :
    InRange r x := by
  obtain ⟨hfin, -, -⟩ := sanitize_float E h (narrow (datum x))
  have hxfin : isFinite x = true := by
    rw [datum_of_isFinite hfin] at hx
    exact isFinite_of_datum hx.symm
  have hxnan := isNaN_of_isFinite hxfin
  rw [narrow_datum hxnan] at hx hfin
  exact (sanitize_float_eq_self_iff E h x).1 (datum_inj (isNaN_of_isFinite hfin) hxnan hx)

/-- The events of a parameter are truthful exactly when it has no change to emit, or its stored
value is safe to read as a float. -/
theorem writeGuiEvents_truthful_iff (E : ParamEngine) (c₀ : ParamCtx) (m : RtProcessingParams)
    (ws : List Writer) (p : ParamId) (hp : p ∈ guiEventParams) :
    let c := (ws.foldl (Writer.run E) (.init c₀ m)).ctx
    Truthful E c p ↔ (c.ui.hasGesture p .changed = true → EventSafe E c.ui p) := by
  intro c
  have hpm : p ≠ .activeModel := by rintro rfl; exact absurd hp (by decide)
  have hcoded : Coded c.ui := coded_run E ws (s := .init c₀ m) coded_default
  constructor
  · intro ht hchanged
    obtain ⟨hv, hfed, -⟩ := ht 24 _ (emitted_of_changed hpm hchanged)
    unfold EventSafe
    split
    · rename_i r hr
      rw [getValue_float hr, getValue_float hr, (fed_float hr _ _).1] at hfed
      exact inRange_of_fed hr hfed
    · rename_i hr
      obtain ⟨n, hn, hstep⟩ := step_of_floatRange_none hr
      rw [getValue_step hpm hr] at hv
      exact (datum_small_eq (Nat.le_trans (hcoded p n hstep) hn)).1 hv
  · intro hsafe room v hv
    have hval := emitted_value hv
    have hsafe := hsafe (changed_of_emitted hv)
    unfold EventSafe at hsafe
    split at hsafe
    · rename_i r hr
      have hnan := isNaN_of_isFinite hsafe.1
      have hsan := (sanitize_float_eq_self_iff E hr _).2 hsafe
      subst hval
      refine ⟨(getValue_float hr _ _).symm, ?_⟩
      simp only [getValue_float hr, narrow_datum hnan]
      rw [(fed_float hr _ _).1, (fed_float hr _ _).2, hsan]
      exact ⟨rfl, rfl⟩
    · rename_i hr
      have hd : datum (0 : BitVec 32) = natDatum (0 : BitVec 32).toNat :=
        (datum_small_eq (by decide)).2 rfl
      have hnar : narrow (datum (0 : BitVec 32)) = f0 := narrow_datum (by decide +kernel)
      subst hval
      have hload := load_writeGuiEvents c.ui room p
      rw [hsafe] at hload
      obtain ⟨h1, h2⟩ := fed_zero (E := E) (c := { c with ui := (writeGuiEvents c.ui room).ui })
        hpm hr hload
      simp only [getValue_step hpm hr, hsafe, hnar]
      exact ⟨hd, by rw [h1], h2⟩

/-- A GUI input gain of 1 dB reaches the host as 1 dB. -/
theorem truthful_inputGain_one :
    Truthful refParamEngine (([.gui (.inputGainChanged f1)] : List Writer).foldl
      (Writer.run refParamEngine) (.init refCtx refParams)).ctx .inputGain :=
  (writeGuiEvents_truthful_iff refParamEngine refCtx refParams [.gui (.inputGainChanged f1)]
    .inputGain (by decide)).2 (fun _ => show InRange _ _ by decide +kernel)

/-- A bypass switched on in the GUI reaches the host as the float with bit pattern 1. -/
theorem not_truthful_toggleBypass :
    ¬Truthful refParamEngine (([.gui .toggleBypass] : List Writer).foldl
      (Writer.run refParamEngine) (.init refCtx refParams)).ctx .bypass := by
  intro h
  have hv := (h 24 (datum 1) (by decide +kernel)).1
  exact absurd hv (by decide +kernel)

end NamPlug
