import NamPlug.Plugin.Proof.Activates
import NamPlug.Plugin.Proof.Outcomes

/-!
# Failed activations

`activate_failed_iff`: exactly when an activation that fails leaves the plugin as it was
(`RolledBack`). A failure before the staged items are adapted always does. One during the
adaptation does where nothing was adapted before it (`StagedLeft`), and one at the flush of the
retained model where there was nothing to use up (`NothingUsed`).
-/

namespace NamPlug

open Machine

/-! ## Rolled back -/

/-- A pending model, or the model of a ring that supersedes it. -/
def NewestPending (ring : List ClapParamPayload) (p q : Option PendingModel) : Prop :=
  q = p ∨ ∃ m, .loadModel m ∈ ring ∧ q = some m.toPending ∧
    (∀ r, p = some r → r.generation < m.generation) ∧
    ∀ n, .loadModel n ∈ ring → n.generation ≤ m.generation

/-- `t` holds what `s` held: nothing taken is missing, and the commands of the ring that left it
are in the recovered list or, for models, superseded by the pending model. -/
structure RolledBack (s t : Shared) : Prop where
  paramRx : t.paramRx = s.paramRx
  gcTx : t.gcTx = s.gcTx
  slimmableRx : t.slimmableRx = s.slimmableRx
  deactivatedDsp : t.deactivatedDsp = s.deactivatedDsp
  pendingRestartOs : t.pendingRestartOs = s.pendingRestartOs
  stagedRestore : t.stagedRestore = s.stagedRestore
  stagedSwap : t.stagedSwap = s.stagedSwap
  pendingModel : NewestPending s.ring s.pendingModel t.pendingModel
  recovered : ∃ drained, t.recoveredCommands = drained ++ s.recoveredCommands ∧
    drained.Sublist s.ring
  kept : ∀ c ∈ s.ring, c ∈ t.ring ∨ c ∈ t.recoveredCommands ∨
    ∃ m p, c = .loadModel m ∧ t.pendingModel = some p ∧ m.generation ≤ p.generation
  sampleRate : t.sampleRate = s.sampleRate
  bufferSize : t.bufferSize = s.bufferSize
  latencies : (t.currentStreamLatency, t.currentCabsimLatency, t.currentLatency) =
    (s.currentStreamLatency, s.currentCabsimLatency, s.currentLatency)
  unpublished : (t.params, t.ui, t.modelSampleRate, t.irPath, t.irHash, t.irRawSamples,
    t.lastAppliedGeneration) = (s.params, s.ui, s.modelSampleRate, s.irPath, s.irHash,
      s.irRawSamples, s.lastAppliedGeneration)

theorem RolledBack.refl (s : Shared) : RolledBack s s where
  paramRx := rfl
  gcTx := rfl
  slimmableRx := rfl
  deactivatedDsp := rfl
  pendingRestartOs := rfl
  stagedRestore := rfl
  stagedSwap := rfl
  pendingModel := .inl rfl
  recovered := ⟨[], rfl, List.nil_sublist _⟩
  kept _ hc := .inl hc
  sampleRate := rfl
  bufferSize := rfl
  latencies := rfl
  unpublished := rfl

theorem recoverRing_pendingModel (s : Shared) :
    NewestPending s.ring s.pendingModel s.recoverRing.pendingModel := by
  rcases newestModel_spec s.ring with ⟨hmem, hle⟩
  unfold Shared.recoverRing
  dsimp only
  cases hn : newestModel s.ring with
  | none => exact .inl rfl
  | some p =>
    rcases hmem p hn with ⟨m, hm, rfl⟩
    dsimp only
    split_ifs with hall
    · refine .inr ⟨m, hm, rfl, fun r hr => ?_, fun n hn' => ?_⟩
      · rw [hr] at hall
        have hlt : r.generation < m.toPending.generation := by simpa using hall
        exact hlt
      · rcases hle n hn' with ⟨q, hq, hgen⟩
        obtain rfl := Option.some.inj (hn.symm.trans hq)
        exact hgen
    · exact .inl rfl

/-- The pending model of a recovered ring is as new as every model of the ring. -/
theorem recoverRing_superseded (s : Shared) {m : LoadModelPayload} (h : .loadModel m ∈ s.ring) :
    ∃ p, s.recoverRing.pendingModel = some p ∧ m.generation ≤ p.generation := by
  rcases (newestModel_spec s.ring).2 m h with ⟨p, hp, hle⟩
  simp only [Shared.recoverRing, hp]
  split_ifs with hall
  · exact ⟨p, rfl, hle⟩
  · cases hs : s.pendingModel with
    | none => rw [hs] at hall; exact absurd rfl hall
    | some q =>
      rw [hs] at hall
      have hlt : ¬q.generation < p.generation := by simpa using hall
      exact ⟨q, rfl, by omega⟩

/-- A recovered ring loses no command but superseded models. -/
theorem recoverRing_kept (s : Shared) {c : ClapParamPayload} (hc : c ∈ s.ring) :
    c ∈ s.recoverRing.recoveredCommands ∨
      ∃ m p, c = .loadModel m ∧ s.recoverRing.pendingModel = some p ∧
        m.generation ≤ p.generation := by
  by_cases hm : c.isLoadModel = true
  · cases c with
    | loadModel m =>
      rcases recoverRing_superseded s hc with ⟨p, hp, hle⟩
      exact .inr ⟨m, p, rfl, hp, hle⟩
    | _ => cases hm
  · exact .inl (List.mem_append_left _ (List.mem_filter.2 ⟨hc, by simpa using hm⟩))

theorem rolledBack_recoverRing (s : Shared) : RolledBack s s.recoverRing :=
  { RolledBack.refl s with
    pendingModel := recoverRing_pendingModel s
    recovered := ⟨_, rfl, List.filter_sublist⟩
    kept := fun _ hc => .inr (recoverRing_kept s hc) }

/-! ## Adapted -/

/-- The models of a payload have a buffer size. -/
def Sized (n : Nat) (m : Option StaticModel) : Prop := ∀ l, m = some l → l.maxBuffer = n

theorem map_setMaxBufferSize_iff {n : Nat} {m : Option StaticModel} :
    m.map (·.setMaxBufferSize n) = m ↔ Sized n m := by
  cases m with
  | none => simp [Sized]
  | some l =>
    rcases l with ⟨a, b⟩
    simp [Sized, StaticModel.setMaxBufferSize, eq_comm]

/-- A resize leaves the models as they are: they have the size, or the one that has not fails. -/
def ResizeLeft (failL failR : Bool) (n : Nat) (l r : Option StaticModel) : Prop :=
  (l.isSome ∧ failL = true) ∨ (Sized n l ∧ ((r.isSome ∧ failR = true) ∨ Sized n r))

theorem resizeModels_left {failL failR : Bool} {n : Nat} {l r : Option StaticModel} :
    (resizeModels failL failR n l r).2 = (l, r) ↔ ResizeLeft failL failR n l r := by
  unfold resizeModels ResizeLeft
  by_cases hl : (l.isSome && failL) = true
  · rw [if_pos hl]
    have hl : l.isSome ∧ failL = true := by simpa using hl
    exact iff_of_true rfl (.inl hl)
  · rw [if_neg hl]
    have hl : ¬(l.isSome ∧ failL = true) := by simpa using hl
    by_cases hr : (r.isSome && failR) = true
    · rw [if_pos hr]
      have hr : r.isSome ∧ failR = true := by simpa using hr
      simp only [Prod.mk.injEq, and_true, map_setMaxBufferSize_iff, hl, hr, false_or, true_or]
    · rw [if_neg hr]
      have hr : ¬(r.isSome ∧ failR = true) := by simpa using hr
      simp only [Prod.mk.injEq, map_setMaxBufferSize_iff, hl, hr, false_or]

theorem resizeModels_fails (failL failR : Bool) (n : Nat) (l r : Option StaticModel) :
    (resizeModels failL failR n l r).1 = false ↔
      (l.isSome ∧ failL = true) ∨ (r.isSome ∧ failR = true) := by
  unfold resizeModels
  by_cases hl : (l.isSome && failL) = true
  · rw [if_pos hl]
    have hl : l.isSome ∧ failL = true := by simpa using hl
    exact iff_of_true rfl (.inl hl)
  · rw [if_neg hl]
    have hl : ¬(l.isSome ∧ failL = true) := by simpa using hl
    by_cases hr : (r.isSome && failR) = true
    · rw [if_pos hr]
      have hr : r.isSome ∧ failR = true := by simpa using hr
      exact iff_of_true rfl (.inr hr)
    · rw [if_neg hr]
      have hr : ¬(r.isSome ∧ failR = true) := by simpa using hr
      exact iff_of_false (by simp) (not_or.2 ⟨hl, hr⟩)

/-- A staged model is left as it is: it is built for the configuration, its resampler or stream
cannot be built, or it has all that an adaptation would give it. -/
def ModelLeft (cfg : AudioConfig) (fRes fStream fL fR : Bool) (m : LoadModelPayload) : Prop :=
  (m.newStream.hostRate = cfg.hostRate ∧ m.newStream.maxBlock = cfg.maxFrames) ∨
  fRes = true ∨ fStream = true ∨
  (ResizeLeft fL fR cfg.maxFrames m.modelL m.modelR ∧
    ((m.modelL.isSome ∧ fL = true) ∨ (m.modelR.isSome ∧ fR = true) ∨
      (m.newResampler = ⟨cfg.hostRate, m.newStream.modelRate⟩ ∧
        m.newStream = buildStreamAdapter cfg.hostRate m.newStream.modelRate cfg.maxFrames)))

theorem adaptModel_left {cfg : AudioConfig} {fRes fStream fL fR : Bool} {m : LoadModelPayload} :
    (adaptModel m cfg fRes fStream fL fR).2 = m ↔ ModelLeft cfg fRes fStream fL fR m := by
  obtain ⟨gen, ml, mr, res, st, rate⟩ := m
  unfold adaptModel ModelLeft
  dsimp only
  by_cases hm : st.hostRate ≠ cfg.hostRate ∨ st.maxBlock ≠ cfg.maxFrames
  · rw [if_pos hm]
    have hm : ¬(st.hostRate = cfg.hostRate ∧ st.maxBlock = cfg.maxFrames) :=
      fun h => hm.elim (· h.1) (· h.2)
    by_cases hf : (fRes || fStream) = true
    · rw [if_pos hf]
      have hf : fRes = true ∨ fStream = true := by simpa using hf
      exact iff_of_true rfl (.inr (hf.imp id .inl))
    · rw [if_neg hf]
      have hf : ¬fRes = true ∧ ¬fStream = true := by simpa using hf
      have hfails := resizeModels_fails fL fR cfg.maxFrames ml mr
      simp only [← resizeModels_left, hm, hf.1, hf.2, false_or, ← or_assoc, ← hfails]
      rcases resizeModels fL fR cfg.maxFrames ml mr with ⟨_ | _, l, r⟩
      · simp
      · simp [and_assoc, eq_comm]
  · rw [if_neg hm]
    have hm : st.hostRate = cfg.hostRate ∧ st.maxBlock = cfg.maxFrames := by simpa using hm
    exact iff_of_true rfl (.inl hm)

/-- Whether the adaptation of a staged model fails. -/
def ModelFails (cfg : AudioConfig) (fRes fStream fL fR : Bool) (m : LoadModelPayload) : Prop :=
  (m.newStream.hostRate ≠ cfg.hostRate ∨ m.newStream.maxBlock ≠ cfg.maxFrames) ∧
  (fRes = true ∨ fStream = true ∨ (m.modelL.isSome ∧ fL = true) ∨ (m.modelR.isSome ∧ fR = true))

theorem adaptModel_fails {cfg : AudioConfig} {fRes fStream fL fR : Bool} {m : LoadModelPayload} :
    (adaptModel m cfg fRes fStream fL fR).1 = false ↔ ModelFails cfg fRes fStream fL fR m := by
  unfold adaptModel ModelFails
  by_cases hm : m.newStream.hostRate ≠ cfg.hostRate ∨ m.newStream.maxBlock ≠ cfg.maxFrames
  · rw [if_pos hm]
    by_cases hf : (fRes || fStream) = true
    · rw [if_pos hf]
      have hf : fRes = true ∨ fStream = true := by simpa using hf
      exact iff_of_true rfl ⟨hm, hf.imp id .inl⟩
    · rw [if_neg hf]
      have hf : ¬fRes = true ∧ ¬fStream = true := by simpa using hf
      have hfails := resizeModels_fails fL fR cfg.maxFrames m.modelL m.modelR
      simp only [hm, hf.1, hf.2, true_and, ← hfails]
      rcases resizeModels fL fR cfg.maxFrames m.modelL m.modelR with ⟨_ | _, l, r⟩ <;> simp
  · rw [if_neg hm]
    exact iff_of_false (by simp) fun h => hm h.1

/-- A staged pair is left as it is: it is built for the configuration, there is nothing to build
it from, or it cannot be built. -/
def IrLeft (s : Shared) (override : Option IrSamples) (cfg : AudioConfig) (fault : Bool)
    (ir : CabSimPair) : Prop :=
  (ir.sampleRate = cfg.hostRate ∧ ir.partitionSize = cfg.maxFrames) ∨
  cfg.maxFrames = 0 ∨ override.or s.irRawSamples = none ∨ fault = true

theorem adaptIr_left {s : Shared} {override : Option IrSamples} {cfg : AudioConfig} {fault : Bool}
    {ir : Option (Option CabSimPair)} :
    (adaptIr s ir override cfg fault).2 = ir ↔
      ∀ a, ir = some (some a) → IrLeft s override cfg fault a := by
  rcases ir with _ | _ | a
  · simp [adaptIr]
  · simp [adaptIr]
  unfold adaptIr IrLeft
  dsimp only
  by_cases hm : a.sampleRate ≠ cfg.hostRate ∨ a.partitionSize ≠ cfg.maxFrames
  · rw [if_pos hm]
    have hm : ¬(a.sampleRate = cfg.hostRate ∧ a.partitionSize = cfg.maxFrames) :=
      fun h => hm.elim (· h.1) (· h.2)
    unfold buildCabSimFromRawSamples
    by_cases h0 : cfg.maxFrames = 0
    · simp [h0]
    · rw [if_neg h0]
      cases hr : override.or s.irRawSamples with
      | none => simp
      | some r =>
        cases fault with
        | true => simp
        | false =>
          refine iff_of_false (fun h => hm ?_) fun h => ?_
          · simp only [Bool.false_eq_true, if_false, Option.some.injEq] at h
            exact ⟨by rw [← h], by rw [← h]⟩
          · simpa [hm, h0] using h a rfl
  · rw [if_neg hm]
    have hm : a.sampleRate = cfg.hostRate ∧ a.partitionSize = cfg.maxFrames := by simpa using hm
    refine iff_of_true rfl fun b hb => ?_
    obtain rfl := Option.some.inj (Option.some.inj hb)
    exact .inl hm

/-- Whether the adaptation of a staged pair fails. -/
def IrFails (s : Shared) (override : Option IrSamples) (cfg : AudioConfig) (fault : Bool)
    (ir : CabSimPair) : Prop :=
  (ir.sampleRate ≠ cfg.hostRate ∨ ir.partitionSize ≠ cfg.maxFrames) ∧
  cfg.maxFrames ≠ 0 ∧ override.or s.irRawSamples ≠ none ∧ fault = true

theorem adaptIr_fails {s : Shared} {override : Option IrSamples} {cfg : AudioConfig} {fault : Bool}
    {ir : Option (Option CabSimPair)} :
    (adaptIr s ir override cfg fault).1 = false ↔
      ∃ a, ir = some (some a) ∧ IrFails s override cfg fault a := by
  rcases ir with _ | _ | a
  · simp [adaptIr]
  · simp [adaptIr]
  simp only [Option.some.injEq, exists_eq_left']
  unfold adaptIr IrFails
  dsimp only
  by_cases hm : a.sampleRate ≠ cfg.hostRate ∨ a.partitionSize ≠ cfg.maxFrames
  · rw [if_pos hm]
    unfold buildCabSimFromRawSamples
    by_cases h0 : cfg.maxFrames = 0
    · simp [h0]
    · rw [if_neg h0]
      cases hr : override.or s.irRawSamples <;> cases fault <;> simp [hm, h0]
  · rw [if_neg hm]
    exact iff_of_false (by simp) fun h => hm h.1

/-! ### Staged items -/

/-- The calls that adapt one staged item. -/
structure AdaptFaults where
  resampler : Bool
  stream : Bool
  resizeL : Bool
  resizeR : Bool
  cabsim : Bool

def restoreFaults (faults : ActivateCall → Bool) : AdaptFaults :=
  ⟨faults .restoreResampler, faults .restoreStream, faults .restoreResizeL, faults .restoreResizeR,
    faults .restoreCabsim⟩

def swapFaults (faults : ActivateCall → Bool) : AdaptFaults :=
  ⟨faults .swapResampler, faults .swapStream, faults .swapResizeL, faults .swapResizeR,
    faults .swapCabsim⟩

/-- Whether the model of a staged item cannot be adapted. -/
def ItemModelFails (cfg : AudioConfig) (f : AdaptFaults) (model : Option LoadModelPayload) : Prop :=
  ∃ m, model = some m ∧ ModelFails cfg f.resampler f.stream f.resizeL f.resizeR m

def ItemFails (s : Shared) (override : Option IrSamples) (cfg : AudioConfig) (f : AdaptFaults)
    (model : Option LoadModelPayload) (ir : Option (Option CabSimPair)) : Prop :=
  ItemModelFails cfg f model ∨ ∃ a, ir = some (some a) ∧ IrFails s override cfg f.cabsim a

/-- The model and the pair of a staged item are left as they are, the pair also where the model
cannot be adapted. -/
def ItemLeft (s : Shared) (override : Option IrSamples) (cfg : AudioConfig) (f : AdaptFaults)
    (model : Option LoadModelPayload) (ir : Option (Option CabSimPair)) : Prop :=
  (∀ m, model = some m → ModelLeft cfg f.resampler f.stream f.resizeL f.resizeR m) ∧
  (ItemModelFails cfg f model ∨ ∀ a, ir = some (some a) → IrLeft s override cfg f.cabsim a)

theorem adaptModel?_left {cfg : AudioConfig} {f : AdaptFaults} {m : Option LoadModelPayload} :
    (adaptModel? m cfg f.resampler f.stream f.resizeL f.resizeR).2 = m ↔
      ∀ n, m = some n → ModelLeft cfg f.resampler f.stream f.resizeL f.resizeR n := by
  cases m with
  | none => simp [adaptModel?]
  | some m => simp [adaptModel?, adaptModel_left]

theorem adaptModel?_fails {cfg : AudioConfig} {f : AdaptFaults} {m : Option LoadModelPayload} :
    (adaptModel? m cfg f.resampler f.stream f.resizeL f.resizeR).1 = false ↔
      ItemModelFails cfg f m := by
  cases m with
  | none => simp [adaptModel?, ItemModelFails]
  | some m => simp [adaptModel?, ItemModelFails, adaptModel_fails]

theorem adaptRestore_left {s : Shared} {r : StagedRestore} {cfg : AudioConfig}
    {faults : ActivateCall → Bool} :
    (adaptRestore s r cfg faults).2 = r ↔
      ItemLeft s r.publish.irRawSamples cfg (restoreFaults faults) r.txn.model r.txn.ir := by
  obtain ⟨⟨gen, model, ir, params⟩, pub⟩ := r
  unfold adaptRestore ItemLeft
  rw [← adaptModel?_left, ← adaptModel?_fails]
  dsimp only [restoreFaults]
  rcases adaptModel? model cfg (faults .restoreResampler) (faults .restoreStream)
    (faults .restoreResizeL) (faults .restoreResizeR) with ⟨_ | _, m⟩
  · simp
  · simp [← adaptIr_left]

theorem adaptRestore_fails {s : Shared} {r : StagedRestore} {cfg : AudioConfig}
    {faults : ActivateCall → Bool} :
    (adaptRestore s r cfg faults).1 = false ↔
      ItemFails s r.publish.irRawSamples cfg (restoreFaults faults) r.txn.model r.txn.ir := by
  unfold adaptRestore ItemFails
  rw [← adaptModel?_fails]
  dsimp only [restoreFaults]
  rcases adaptModel? r.txn.model cfg (faults .restoreResampler) (faults .restoreStream)
    (faults .restoreResizeL) (faults .restoreResizeR) with ⟨_ | _, m⟩
  · simp
  · simp [← adaptIr_fails]

theorem adaptSwap_left {s : Shared} {w : StagedSwap} {cfg : AudioConfig}
    {faults : ActivateCall → Bool} :
    (adaptSwap s w cfg faults).2 = w ↔ ItemLeft s none cfg (swapFaults faults) w.model w.ir := by
  obtain ⟨model, ir⟩ := w
  unfold adaptSwap ItemLeft
  rw [← adaptModel?_left, ← adaptModel?_fails]
  dsimp only [swapFaults]
  rcases adaptModel? model cfg (faults .swapResampler) (faults .swapStream)
    (faults .swapResizeL) (faults .swapResizeR) with ⟨_ | _, m⟩
  · simp
  · simp [← adaptIr_left]

theorem adaptSwap_fails {s : Shared} {w : StagedSwap} {cfg : AudioConfig}
    {faults : ActivateCall → Bool} :
    (adaptSwap s w cfg faults).1 = false ↔
      ItemFails s none cfg (swapFaults faults) w.model w.ir := by
  unfold adaptSwap ItemFails
  rw [← adaptModel?_fails]
  dsimp only [swapFaults]
  rcases adaptModel? w.model cfg (faults .swapResampler) (faults .swapStream)
    (faults .swapResizeL) (faults .swapResizeR) with ⟨_ | _, m⟩
  · simp
  · simp [← adaptIr_fails]

/-- A staged restore that cannot be adapted. -/
def RestoreFails (s : Shared) (cfg : AudioConfig) (faults : ActivateCall → Bool) : Prop :=
  ∃ r, s.stagedRestore = some r ∧
    ItemFails s r.publish.irRawSamples cfg (restoreFaults faults) r.txn.model r.txn.ir

/-- The staged items are left as they are, the swap also where the restore cannot be adapted. -/
def StagedLeft (s : Shared) (cfg : AudioConfig) (faults : ActivateCall → Bool) : Prop :=
  (∀ r, s.stagedRestore = some r →
    ItemLeft s r.publish.irRawSamples cfg (restoreFaults faults) r.txn.model r.txn.ir) ∧
  (RestoreFails s cfg faults ∨
    ∀ w, s.stagedSwap = some w → ItemLeft s none cfg (swapFaults faults) w.model w.ir)

theorem adaptStaged_left {s : Shared} {cfg : AudioConfig} {faults : ActivateCall → Bool} :
    (adaptStaged s cfg faults).2 = (s.stagedRestore, s.stagedSwap) ↔ StagedLeft s cfg faults := by
  unfold adaptStaged StagedLeft RestoreFails
  cases hr : s.stagedRestore with
  | none =>
    cases hw : s.stagedSwap with
    | none => simp
    | some w => simp [adaptSwap_left]
  | some r =>
    simp only [Option.map_some, Option.some.injEq, forall_eq', exists_eq_left',
      ← adaptRestore_left, ← adaptRestore_fails]
    rcases adaptRestore s r cfg faults with ⟨_ | _, r'⟩
    · simp
    · cases hw : s.stagedSwap with
      | none => simp
      | some w => simp [adaptSwap_left]

/-- A staged item cannot be adapted. -/
def StagedFails (s : Shared) (cfg : AudioConfig) (faults : ActivateCall → Bool) : Prop :=
  RestoreFails s cfg faults ∨
  ∃ w, s.stagedSwap = some w ∧ ItemFails s none cfg (swapFaults faults) w.model w.ir

theorem adaptStaged_fails {s : Shared} {cfg : AudioConfig} {faults : ActivateCall → Bool} :
    (adaptStaged s cfg faults).1 = false ↔ StagedFails s cfg faults := by
  unfold adaptStaged StagedFails RestoreFails
  cases hr : s.stagedRestore with
  | none =>
    cases hw : s.stagedSwap with
    | none => simp
    | some w => simp [← adaptSwap_fails]
  | some r =>
    simp only [Option.map_some, Option.some.injEq, exists_eq_left', ← adaptRestore_fails]
    rcases adaptRestore s r cfg faults with ⟨_ | _, r'⟩
    · simp
    · cases hw : s.stagedSwap with
      | none => simp
      | some w => simp [← adaptSwap_fails]

/-! ## Used up -/

section
variable (E : Engine)

/-- The stream, cab-sim and effective latency of a pipeline built anew, without a staged model. -/
def Shared.freshLatencies (s : Shared) (cfg : AudioConfig) : Nat × Nat × Nat :=
  let stream := E.streamLatency (buildStreamAdapter cfg.hostRate
    (if s.modelSampleRate = 0 then 48000 else s.modelSampleRate) cfg.maxFrames)
  let cabsim := if s.irRawSamples = none then 0 else cfg.maxFrames
  (stream, cabsim, stream + E.osLatency ⟨s.activateOsFactor E⟩ + cabsim)

/-- A failure at the flush of the retained model finds nothing that an activation uses up, the
configuration it publishes published before, and leaves the retained model as it is, unless the
ring supersedes that. -/
structure NothingUsed (s : Shared) (cfg : AudioConfig) (faults : ActivateCall → Bool) : Prop where
  deactivatedDsp : s.deactivatedDsp = none
  stagedRestore : s.stagedRestore = none
  stagedSwap : s.stagedSwap = none
  sampleRate : cfg.hostRate = s.sampleRate
  bufferSize : cfg.maxFrames = s.bufferSize
  latencies : s.freshLatencies E cfg =
    (s.currentStreamLatency, s.currentCabsimLatency, s.currentLatency)
  pendingModel : ∀ p, s.pendingModel = some p →
    (∃ m, .loadModel m ∈ s.ring ∧ p.generation < m.generation) ∨
    faults (.flush .resampler) = true ∨ faults (.flush .stream) = true ∨
    ResizeLeft (faults (.flush .resizeL)) (faults (.flush .resizeR)) cfg.maxFrames p.model p.modelR

theorem buildCabSim_latency {s : Shared} {n rate : Nat} {fault : Bool} {pair : Option CabSimPair}
    (h : buildCabSimFromRawSamples s none n rate fault = some pair) :
    cabsimLatency pair = if s.irRawSamples = none then 0 else n := by
  unfold buildCabSimFromRawSamples at h
  by_cases h0 : n = 0
  · rw [if_pos h0] at h
    obtain rfl := Option.some.inj h
    rw [h0, ite_self]
    rfl
  · rw [if_neg h0, Option.none_or] at h
    cases hs : s.irRawSamples with
    | none =>
      rw [hs] at h
      obtain rfl := Option.some.inj h
      rfl
    | some r =>
      rw [hs] at h
      cases fault with
      | true => cases h
      | false =>
        obtain rfl := Option.some.inj h
        rfl

/-- Without a deactivated DSP and staged items an activation builds everything. -/
theorem Prepared.fresh {s : Shared} {cfg : AudioConfig} {faults : ActivateCall → Bool}
    {restore : Option StagedRestore} {swap : Option StagedSwap} {pipe : Pipeline} {a : Assembly}
    (h : Prepared E s cfg faults restore swap pipe a) (hd : s.deactivatedDsp = none)
    (hr : s.stagedRestore = none) (hw : s.stagedSwap = none) :
    restore = none ∧ (E.streamLatency a.stream, cabsimLatency a.cabsimPair, a.latency E) =
      s.freshLatencies E cfg := by
  have hadapt := h.adapted
  simp only [adaptStaged, hr, hw, Option.map_none, Prod.mk.injEq, true_and] at hadapt
  obtain ⟨rfl, rfl⟩ := hadapt
  have hpipe := h.pipeline
  have hasm := h.assembled
  simp only [hd, buildPipeline, Option.any_none, Bool.false_and, Bool.not_false, Bool.true_and,
    Bool.false_eq_true, if_false] at hpipe
  split at hpipe
  · cases hpipe
  obtain ⟨cab, hcab, rfl⟩ := Option.map_eq_some_iff.1 hpipe
  obtain ⟨pair, hpair, rfl⟩ := Option.map_eq_some_iff.1 hcab
  simp only [hd, assemble, stagedModel, stagedIr, Option.bind_none, Option.none_or,
    Option.some_or] at hasm
  obtain rfl := Option.some.inj hasm
  refine ⟨rfl, ?_⟩
  simp only [Shared.freshLatencies, Assembly.latency, buildCabSim_latency hpair]

/-- A retained model that cannot be flushed stays, its channels resized or not. -/
theorem flushPendingModel_fails {s t : Shared} {faults : EngineCall → Bool}
    (h : s.flushPendingModel faults = (t, false)) :
    ∃ p q, s.pendingModel = some p ∧ t = { s with pendingModel := some q } ∧
      q.generation = p.generation ∧
      (q = p ↔ faults .resampler = true ∨ faults .stream = true ∨
        ResizeLeft (faults .resizeL) (faults .resizeR) s.bufferSize p.model p.modelR) := by
  unfold Shared.flushPendingModel at h
  split at h
  · cases h
  · rename_i p hp
    by_cases hb : s.bufferSize = 0
    · rw [if_pos hb] at h
      cases h
    rw [if_neg hb] at h
    by_cases hf : (faults .resampler || faults .stream) = true
    · rw [if_pos hf] at h
      obtain rfl := (Prod.mk.inj h).1
      have hf : faults .resampler = true ∨ faults .stream = true := by simpa using hf
      exact ⟨p, p, hp, by rw [← hp], rfl, iff_of_true rfl (hf.imp id .inl)⟩
    · rw [if_neg hf] at h
      have hf : ¬faults .resampler = true ∧ ¬faults .stream = true := by simpa using hf
      split at h
      · rename_i l r hr
        obtain rfl := (Prod.mk.inj h).1
        refine ⟨p, _, hp, rfl, rfl, ?_⟩
        rw [← resizeModels_left, hr]
        obtain ⟨gen, ml, mr, rate⟩ := p
        simp [hf.1, hf.2]
      · cases h

/-- The pending model after the ring is recovered, where a resize came before. -/
theorem newestPending_resized {ring : List ClapParamPayload} {p q : PendingModel}
    {x : Option PendingModel} (hg : q.generation = p.generation)
    (hx : NewestPending ring (some q) x)
    (hk : ∀ m, .loadModel m ∈ ring → ∃ r, x = some r ∧ m.generation ≤ r.generation) :
    NewestPending ring (some p) x ↔
      (∃ m, .loadModel m ∈ ring ∧ p.generation < m.generation) ∨ q = p := by
  constructor
  · rintro (rfl | ⟨m, hm, -, hlt, -⟩)
    · rcases hx with hx | ⟨m, hm, -, hlt, -⟩
      · exact .inr (Option.some.inj hx).symm
      · exact .inl ⟨m, hm, hg ▸ hlt q rfl⟩
    · exact .inl ⟨m, hm, hlt p rfl⟩
  · rintro (⟨m, hm, hlt⟩ | rfl)
    · rcases hx with rfl | ⟨n, hn, hx, hgt, hmax⟩
      · rcases hk m hm with ⟨r, hr, hle⟩
        obtain rfl := Option.some.inj hr
        omega
      · refine .inr ⟨n, hn, hx, fun r hr => ?_, hmax⟩
        obtain rfl := Option.some.inj hr
        exact hg ▸ hgt q rfl
    · exact hx

/-- A failure before the staged items are adapted. -/
def FailsEarly (s : Shared) (cfg : AudioConfig) (faults : ActivateCall → Bool) : Prop :=
  s.paramRx = false ∨ s.gcTx = false ∨ s.slimmableRx = false ∨ faults .buffers = true ∨
    buildPipeline s s.deactivatedDsp cfg (s.activateOsFactor E) faults = none

theorem Prepared.notEarly {s : Shared} {cfg : AudioConfig} {faults : ActivateCall → Bool}
    {restore : Option StagedRestore} {swap : Option StagedSwap} {pipe : Pipeline} {a : Assembly}
    (h : Prepared E s cfg faults restore swap pipe a) : ¬FailsEarly E s cfg faults := by
  rintro (hf | hf | hf | hf | hf)
  · rw [h.paramRx] at hf; cases hf
  · rw [h.gcTx] at hf; cases hf
  · rw [h.slimmableRx] at hf; cases hf
  · rw [h.buffers] at hf; cases hf
  · rw [h.pipeline] at hf; cases hf

/-- A failure at the flush of the retained model. -/
theorem rolledBack_flush_iff {s t : Shared} {cfg : AudioConfig} {faults : ActivateCall → Bool}
    {restore : Option StagedRestore} {swap : Option StagedSwap} {pipe : Pipeline} {a : Assembly}
    (h : Prepared E s cfg faults restore swap pipe a)
    (hf : (s.published E cfg restore a).flushPendingModel (fun c => faults (.flush c)) =
      (t, false)) :
    RolledBack s (t.rollback ⟨true, true, s.pendingRestartOs, none⟩) ↔
      NothingUsed E s cfg faults := by
  obtain ⟨p, q, hp, rfl, hg, hq⟩ := flushPendingModel_fails hf
  have hnone : (s.published E cfg restore a).deactivatedDsp = none ∧
      (s.published E cfg restore a).stagedRestore = none ∧
      (s.published E cfg restore a).stagedSwap = none := by
    cases restore with
    | none => exact ⟨rfl, rfl, rfl⟩
    | some r =>
      simp only [Shared.published, Shared.publishStaged]
      rw [publishRestore_eq]
      exact ⟨rfl, rfl, rfl⟩
  by_cases hu : s.deactivatedDsp = none ∧ s.stagedRestore = none ∧ s.stagedSwap = none
  · obtain ⟨hd, hr, hw⟩ := hu
    obtain ⟨rfl, hlat⟩ := h.fresh E hd hr hw
    replace hp : s.pendingModel = some p := hp
    replace hq : q = p ↔ faults (.flush .resampler) = true ∨ faults (.flush .stream) = true ∨
      ResizeLeft (faults (.flush .resizeL)) (faults (.flush .resizeR)) cfg.maxFrames p.model
        p.modelR := hq
    -- the ring and the retained model after the rollback, whichever the latter is
    have hpend := newestPending_resized hg
      (recoverRing_pendingModel { s.published E cfg none a with pendingModel := some q })
      fun m hm => recoverRing_superseded _ hm
    rw [hq] at hpend
    constructor
    · intro hR
      refine ⟨hd, hr, hw, hR.sampleRate, hR.bufferSize, hlat.symm.trans hR.latencies,
        fun p' hp' => ?_⟩
      obtain rfl := Option.some.inj (hp.symm.trans hp')
      have hpm := hR.pendingModel
      rw [hp] at hpm
      exact hpend.1 hpm
    · intro hN
      exact {
        paramRx := h.paramRx.symm
        gcTx := h.gcTx.symm
        slimmableRx := h.slimmableRx.symm
        deactivatedDsp := hd.symm
        pendingRestartOs := ite_not_none s.pendingRestartOs
        stagedRestore := hr.symm
        stagedSwap := hw.symm
        pendingModel := by
          rw [hp]
          exact hpend.2 (hN.pendingModel p hp)
        recovered := ⟨_, rfl, List.filter_sublist⟩
        kept := fun c hc => .inr (recoverRing_kept
          { s.published E cfg none a with pendingModel := some q } hc)
        sampleRate := hN.sampleRate
        bufferSize := hN.bufferSize
        latencies := hlat.trans hN.latencies
        unpublished := rfl }
  · refine iff_of_false (fun hR => hu ?_) fun hN => hu ⟨hN.1, hN.2, hN.3⟩
    exact ⟨hR.deactivatedDsp.symm.trans hnone.1, hR.stagedRestore.symm.trans hnone.2.1,
      hR.stagedSwap.symm.trans hnone.2.2⟩

/-- An activation that fails leaves the plugin as it was exactly if it fails before the staged items
are adapted, or at a staged item with nothing adapted before, or at the flush of the retained model
with nothing used up before. -/
theorem activate_failed_iff (s : Shared) (cfg : AudioConfig) (faults : ActivateCall → Bool)
    (h : (s.activate E cfg faults).2 = none) :
    RolledBack s (s.activate E cfg faults).1 ↔
      FailsEarly E s cfg faults ∨ (StagedFails s cfg faults ∧ StagedLeft s cfg faults) ∨
        (¬StagedFails s cfg faults ∧ NothingUsed E s cfg faults) := by
  have hspec := activate_spec E s cfg faults
  generalize s.activate E cfg faults = r at *
  cases hspec with
  | noConsumer hp => exact iff_of_true (.refl s) (.inl (.inl hp))
  | early hp he => exact iff_of_true (rolledBack_recoverRing s) (.inl (.inr he))
  | @adapt restore swap hp hg hl hb hpipe ha =>
    have hearly : ¬FailsEarly E s cfg faults := by
      rintro (h | h | h | h | h)
      · rw [hp] at h; cases h
      · rw [hg] at h; cases h
      · rw [hl] at h; cases h
      · rw [hb] at h; cases h
      · rw [h] at hpipe; cases hpipe
    have hfails : StagedFails s cfg faults := adaptStaged_fails.1 (by rw [ha])
    have hleft := @adaptStaged_left s cfg faults
    rw [ha] at hleft
    simp only [hearly, hfails, not_true_eq_false, false_and, or_false, false_or, true_and, ← hleft,
      Prod.mk.injEq]
    constructor
    · exact fun h => ⟨h.stagedRestore, h.stagedSwap⟩
    · rintro ⟨rfl, rfl⟩
      exact rolledBack_recoverRing s
  | @flush restore swap pipe a t hprep hf =>
    have hearly := hprep.notEarly
    have hok : ¬StagedFails s cfg faults := by
      rw [← adaptStaged_fails, hprep.adapted]
      simp
    simp only [hearly, hok, false_and, false_or, not_false_eq_true, true_and]
    exact rolledBack_flush_iff E hprep hf
  | ok => cases h

end

/-- A model that was sent and never drained, in an instance that is deactivated. -/
def refUndrained : List Action :=
  [refActivate, .main (.loadModel (refFile "amp.nam") noFaults), .deactivate]

/-- A failure to allocate the buffers leaves the plugin as it was. -/
theorem activate_failed_buffers :
    RolledBack (refRun refUndrained).shared
      ((refRun refUndrained).shared.activate refEngine refConfig (· = .buffers)).1 :=
  (activate_failed_iff refEngine _ refConfig (· = .buffers) (by decide +kernel)).2
    (.inl (.inr (.inr (.inr (.inl rfl)))))

/-- After it the model is retained. A failure to rebuild it loses the deactivated DSP. -/
theorem activate_failed_flush :
    ((refRun (refUndrained ++ [.activate refConfig (· = .buffers)])).shared.activate refEngine
      refConfig (· = .flush .resampler)).2 = none ∧
    ¬RolledBack (refRun (refUndrained ++ [.activate refConfig (· = .buffers)])).shared
      ((refRun (refUndrained ++ [.activate refConfig (· = .buffers)])).shared.activate refEngine
        refConfig (· = .flush .resampler)).1 := by
  refine ⟨by decide +kernel, fun h => ?_⟩
  exact absurd h.deactivatedDsp (by decide +kernel)

end NamPlug
