import Mathlib.Data.List.Induction
import NamPlug.Plugin.Proof.Frame

/-!
# The outcomes of an activation

`activate_spec`: where an activation ends and with what (`Activates`). Up to the adaptation of the
staged items a failure puts back what was taken, so that only the ring is recovered and, of the
staged items, what was adapted stays adapted. After that only the flush of the retained model can
fail, with the staged items and the deactivated DSP used up.
-/

namespace NamPlug

/-! ## The newest model of a ring -/

theorem newestModel_append (ring : List ClapParamPayload) (c : ClapParamPayload) :
    newestModel (ring ++ [c]) = match c with
      | .loadModel m =>
        if (newestModel ring).all (fun p : PendingModel => p.generation < m.generation) then
          some m.toPending
        else newestModel ring
      | _ => newestModel ring := by
  unfold newestModel
  rw [List.foldl_append]
  cases c <;> rfl

/-- The newest model of a ring is one of its models, and no model of the ring is newer. -/
theorem newestModel_spec (ring : List ClapParamPayload) :
    (∀ p, newestModel ring = some p → ∃ m, .loadModel m ∈ ring ∧ p = m.toPending) ∧
    ∀ m, .loadModel m ∈ ring → ∃ p, newestModel ring = some p ∧ m.generation ≤ p.generation := by
  induction ring using List.reverseRecOn with
  | nil => exact ⟨fun p h => (by cases h), fun m h => (by cases h)⟩
  | append_singleton ring c ih =>
    rcases ih with ⟨hmem, hle⟩
    by_cases hc : ∃ m, c = .loadModel m ∧
        (newestModel ring).all (fun p : PendingModel => p.generation < m.generation) = true
    · rcases hc with ⟨m, rfl, hall⟩
      rw [newestModel_append]
      simp only [hall, if_true]
      refine ⟨fun p hp => ⟨m, by simp, (Option.some.inj hp).symm⟩, fun m' hm' => ⟨_, rfl, ?_⟩⟩
      rcases List.mem_append.1 hm' with hm' | hm'
      · rcases hle m' hm' with ⟨p, hp, hgen⟩
        rw [hp] at hall
        have hlt : p.generation < m.generation := by simpa using hall
        exact Nat.le_of_lt (Nat.lt_of_le_of_lt hgen hlt)
      · obtain rfl := ClapParamPayload.loadModel.inj (List.mem_singleton.1 hm')
        exact Nat.le_refl _
    · have hkeep : newestModel (ring ++ [c]) = newestModel ring := by
        rw [newestModel_append]
        cases c with
        | loadModel m => exact if_neg fun h => hc ⟨m, rfl, h⟩
        | _ => rfl
      rw [hkeep]
      refine ⟨fun p hp => ?_, fun m' hm' => ?_⟩
      · rcases hmem p hp with ⟨m, hm, rfl⟩
        exact ⟨m, List.mem_append_left _ hm, rfl⟩
      · rcases List.mem_append.1 hm' with hm' | hm'
        · exact hle m' hm'
        · obtain rfl := List.mem_singleton.1 hm'
          cases hn : newestModel ring with
          | none => exact absurd ⟨m', rfl, by rw [hn]; rfl⟩ hc
          | some p =>
            refine ⟨p, rfl, Nat.le_of_not_lt fun hlt => hc ⟨m', rfl, ?_⟩⟩
            rw [hn]
            simpa using hlt

/-! ## Adapting -/

/-- A staged model rebuilt for a configuration. -/
def LoadModelPayload.rebuilt (m : LoadModelPayload) (cfg : AudioConfig) : LoadModelPayload :=
  { m with
    modelL := m.modelL.map (·.setMaxBufferSize cfg.maxFrames)
    modelR := m.modelR.map (·.setMaxBufferSize cfg.maxFrames)
    newResampler := ⟨cfg.hostRate, m.newStream.modelRate⟩
    newStream := buildStreamAdapter cfg.hostRate m.newStream.modelRate cfg.maxFrames }

/-- The adaptation of a staged model: it was built for the configuration, it is rebuilt, or that
fails, with the left channel resized or not. -/
theorem adaptModel_cases (m : LoadModelPayload) (cfg : AudioConfig)
    (fRes fStream fL fR : Bool) :
    (adaptModel m cfg fRes fStream fL fR = (true, m) ∧ m.newStream.hostRate = cfg.hostRate ∧
      m.newStream.maxBlock = cfg.maxFrames) ∨
    adaptModel m cfg fRes fStream fL fR = (true, m.rebuilt cfg) ∨
    ∃ l, (l = m.modelL ∨ l = m.modelL.map (·.setMaxBufferSize cfg.maxFrames)) ∧
      adaptModel m cfg fRes fStream fL fR = (false, { m with modelL := l }) := by
  unfold adaptModel
  split_ifs with hm hf
  · exact .inr (.inr ⟨m.modelL, .inl rfl, rfl⟩)
  · obtain h | ⟨l, hl, h⟩ := resizeModels_cases fL fR cfg.maxFrames m.modelL m.modelR <;> rw [h]
    · exact .inr (.inl rfl)
    · exact .inr (.inr ⟨l, hl, rfl⟩)
  · exact .inl ⟨rfl, by simpa using hm⟩

theorem adaptStaged_restore {s : Shared} {cfg : AudioConfig} {faults : ActivateCall → Bool}
    {ok : Bool} {restore : Option StagedRestore} {swap : Option StagedSwap}
    (h : adaptStaged s cfg faults = (ok, restore, swap)) :
    restore = s.stagedRestore.map fun r => (adaptRestore s r cfg faults).2 := by
  unfold adaptStaged at h
  cases hr : s.stagedRestore with
  | none =>
    rw [hr] at h
    cases hw : s.stagedSwap with
    | none =>
      rw [hw] at h
      cases h
      rfl
    | some w =>
      rw [hw] at h
      cases h
      rfl
  | some r =>
    rw [hr] at h
    simp only [Option.map_some] at h ⊢
    rcases ha : adaptRestore s r cfg faults with ⟨_ | _, r'⟩
    · rw [ha] at h
      cases h
      rfl
    · rw [ha] at h
      cases hw : s.stagedSwap with
      | none =>
        rw [hw] at h
        cases h
        rfl
      | some w =>
        rw [hw] at h
        cases h
        rfl

theorem adaptStaged_swap {s : Shared} {cfg : AudioConfig} {faults : ActivateCall → Bool}
    {ok : Bool} {restore : Option StagedRestore} {swap : Option StagedSwap}
    (h : adaptStaged s cfg faults = (ok, restore, swap)) :
    swap = s.stagedSwap.map (fun w => (adaptSwap s w cfg faults).2) ∨
      (ok = false ∧ swap = s.stagedSwap) := by
  unfold adaptStaged at h
  split at h
  · cases h
    exact .inr ⟨rfl, rfl⟩
  · left
    cases hw : s.stagedSwap with
    | none =>
      rw [hw] at h
      cases h
      rfl
    | some w =>
      rw [hw] at h
      cases h
      rfl

/-- The adaptation of a staged pair that works: it stays, because it fits or because there is
nothing to build it from, or it is built anew. -/
theorem adaptIr_cases {s : Shared} {ir ir' : Option (Option CabSimPair)} {q : Option IrSamples}
    {cfg : AudioConfig} {fault : Bool} (h : adaptIr s ir q cfg fault = (true, ir')) :
    (ir' = ir ∧ ∀ c, ir = some (some c) → c.partitionSize = cfg.maxFrames ∨ cfg.maxFrames = 0 ∨
      q.or s.irRawSamples = none) ∨
    ∃ c b, ir = some (some c) ∧ ir' = some (some b) ∧ b.partitionSize = cfg.maxFrames := by
  unfold adaptIr at h
  split at h
  · rename_i c
    split_ifs at h with hm
    · unfold buildCabSimFromRawSamples at h
      by_cases hb : cfg.maxFrames = 0
      · rw [if_pos hb] at h
        cases h
        exact .inl ⟨rfl, fun _ _ => .inr (.inl hb)⟩
      · rw [if_neg hb] at h
        cases hr : q.or s.irRawSamples with
        | none =>
          rw [hr] at h
          cases h
          exact .inl ⟨rfl, fun _ _ => .inr (.inr rfl)⟩
        | some r =>
          rw [hr] at h
          cases fault
          · cases h
            exact .inr ⟨c, _, rfl, rfl, rfl⟩
          · cases h
    · cases h
      refine .inl ⟨rfl, ?_⟩
      rintro _ ⟨⟩
      exact .inl (by_contra fun hc => hm (.inr hc))
  · cases h
    rename_i hn
    exact .inl ⟨rfl, fun c hc => absurd hc (hn c)⟩

/-- The samples a staged pair is built anew from. -/
def Shared.stagedRaw (s : Shared) : Option IrSamples :=
  (s.stagedRestore.bind (·.publish.irRawSamples)).or s.irRawSamples

theorem adaptRestore_ir {s : Shared} {r r' : StagedRestore} {cfg : AudioConfig}
    {faults : ActivateCall → Bool} (h : adaptRestore s r cfg faults = (true, r')) :
    adaptIr s r.txn.ir r.publish.irRawSamples cfg (faults .restoreCabsim) = (true, r'.txn.ir) := by
  unfold adaptRestore at h
  split at h
  · cases h
  · obtain ⟨hok, rfl⟩ := Prod.mk.inj h
    exact Prod.ext hok rfl

theorem adaptSwap_ir {s : Shared} {w w' : StagedSwap} {cfg : AudioConfig}
    {faults : ActivateCall → Bool} (h : adaptSwap s w cfg faults = (true, w')) :
    adaptIr s w.ir none cfg (faults .swapCabsim) = (true, w'.ir) := by
  unfold adaptSwap at h
  split at h
  · cases h
  · obtain ⟨hok, rfl⟩ := Prod.mk.inj h
    exact Prod.ext hok rfl

/-- The items of an activation are the adaptations of those that were staged. -/
theorem adaptStaged_items {s : Shared} {cfg : AudioConfig} {faults : ActivateCall → Bool}
    {restore : Option StagedRestore} {swap : Option StagedSwap}
    (h : adaptStaged s cfg faults = (true, restore, swap)) :
    (∀ r, s.stagedRestore = some r → ∃ r', restore = some r' ∧
      adaptRestore s r cfg faults = (true, r')) ∧
    (s.stagedRestore = none → restore = none ∧
      (s.stagedSwap = none ∧ swap = none ∨ ∃ w w', s.stagedSwap = some w ∧ swap = some w' ∧
        adaptSwap s w cfg faults = (true, w'))) := by
  have hrestore := adaptStaged_restore h
  unfold adaptStaged at h
  cases hr : s.stagedRestore with
  | none =>
    refine ⟨fun r hr => (by cases hr), fun _ => ?_⟩
    rw [hr] at h
    cases hw : s.stagedSwap with
    | none =>
      rw [hw] at h
      cases h
      exact ⟨rfl, .inl ⟨rfl, rfl⟩⟩
    | some w =>
      rcases ha : adaptSwap s w cfg faults with ⟨ok, w'⟩
      rw [hw, Option.map_some, ha] at h
      cases h
      exact ⟨rfl, .inr ⟨w, w', rfl, rfl, ha⟩⟩
  | some r =>
    refine ⟨fun q hq => ?_, fun hn => (by cases hn)⟩
    obtain rfl := Option.some.inj hq
    rcases ha : adaptRestore s r cfg faults with ⟨_ | _, r'⟩
    · rw [hr, Option.map_some, ha] at h
      cases h
    · rw [hr, Option.map_some, ha] at hrestore
      exact ⟨r', hrestore, rfl⟩

/-- The staged pair of an activation is the adaptation of the one that was staged. -/
theorem adaptStaged_ir {s : Shared} {cfg : AudioConfig} {faults : ActivateCall → Bool}
    {restore : Option StagedRestore} {swap : Option StagedSwap}
    (h : adaptStaged s cfg faults = (true, restore, swap)) :
    ∃ q fault, q.or s.irRawSamples = s.stagedRaw ∧
      adaptIr s (stagedIr s.stagedRestore s.stagedSwap) q cfg fault =
        (true, stagedIr restore swap) := by
  obtain ⟨hrestore, hswap⟩ := adaptStaged_items h
  unfold Shared.stagedRaw
  cases hr : s.stagedRestore with
  | none =>
    obtain ⟨rfl, ⟨hw, rfl⟩ | ⟨w, w', hw, rfl, ha⟩⟩ := hswap hr
    · rw [hw]
      exact ⟨none, faults .swapCabsim, rfl, rfl⟩
    · rw [hw]
      exact ⟨none, faults .swapCabsim, rfl, adaptSwap_ir ha⟩
  | some r =>
    obtain ⟨r', rfl, ha⟩ := hrestore r hr
    exact ⟨r.publish.irRawSamples, faults .restoreCabsim, rfl, adaptRestore_ir ha⟩

/-- The adaptation of a staged model that works. -/
theorem adaptModel?_cases {m m' : Option LoadModelPayload} {cfg : AudioConfig}
    {fRes fStream fL fR : Bool} (h : adaptModel? m cfg fRes fStream fL fR = (true, m')) :
    (m = none ∧ m' = none) ∨ ∃ n, m = some n ∧
      (m' = some n ∧ n.newStream.hostRate = cfg.hostRate ∧ n.newStream.maxBlock = cfg.maxFrames ∨
        m' = some (n.rebuilt cfg)) := by
  cases m with
  | none =>
    cases h
    exact .inl ⟨rfl, rfl⟩
  | some n =>
    obtain ⟨hok, rfl⟩ := Prod.mk.inj h
    refine .inr ⟨n, rfl, ?_⟩
    obtain ⟨ha, hhost, hblock⟩ | ha | ⟨l, -, ha⟩ := adaptModel_cases n cfg fRes fStream fL fR <;>
      rw [ha] at hok ⊢
    · exact .inl ⟨rfl, hhost, hblock⟩
    · exact .inr rfl
    · cases hok

theorem adaptRestore_model {s : Shared} {r r' : StagedRestore} {cfg : AudioConfig}
    {faults : ActivateCall → Bool} (h : adaptRestore s r cfg faults = (true, r')) :
    adaptModel? r.txn.model cfg (faults .restoreResampler) (faults .restoreStream)
      (faults .restoreResizeL) (faults .restoreResizeR) = (true, r'.txn.model) := by
  unfold adaptRestore at h
  split at h
  · cases h
  · rename_i m hm
    obtain ⟨-, rfl⟩ := Prod.mk.inj h
    exact hm

theorem adaptSwap_model {s : Shared} {w w' : StagedSwap} {cfg : AudioConfig}
    {faults : ActivateCall → Bool} (h : adaptSwap s w cfg faults = (true, w')) :
    adaptModel? w.model cfg (faults .swapResampler) (faults .swapStream) (faults .swapResizeL)
      (faults .swapResizeR) = (true, w'.model) := by
  unfold adaptSwap at h
  split at h
  · cases h
  · rename_i m hm
    obtain ⟨-, rfl⟩ := Prod.mk.inj h
    exact hm

/-- The staged model of an activation is the adaptation of the one that was staged. -/
theorem adaptStaged_model {s : Shared} {cfg : AudioConfig} {faults : ActivateCall → Bool}
    {restore : Option StagedRestore} {swap : Option StagedSwap}
    (h : adaptStaged s cfg faults = (true, restore, swap)) :
    ∃ fRes fStream fL fR, adaptModel? (stagedModel s.stagedRestore s.stagedSwap) cfg fRes fStream
      fL fR = (true, stagedModel restore swap) := by
  obtain ⟨hrestore, hswap⟩ := adaptStaged_items h
  cases hr : s.stagedRestore with
  | some r =>
    obtain ⟨r', rfl, ha⟩ := hrestore r hr
    exact ⟨_, _, _, _, adaptRestore_model ha⟩
  | none =>
    obtain ⟨rfl, ⟨hw, rfl⟩ | ⟨w, w', hw, rfl, ha⟩⟩ := hswap hr
    · rw [hw]
      exact ⟨false, false, false, false, rfl⟩
    · rw [hw]
      exact ⟨_, _, _, _, adaptSwap_model ha⟩

/-! ## Outcomes -/

/-- What an activation has taken once the staged items are adapted. -/
def Shared.taken (s : Shared) : Shared :=
  { s with
    paramRx := false
    gcTx := false
    slimmableRx := false
    pendingRestartOs := .none
    deactivatedDsp := none
    stagedRestore := none
    stagedSwap := none }

section
variable (E : Engine)

/-- The state at the flush of the retained model. -/
def Shared.published (s : Shared) (cfg : AudioConfig) (restore : Option StagedRestore)
    (a : Assembly) : Shared := (s.taken.publishStaged restore).publishActivation E cfg a

/-- An activation that got past the adaptation of the staged items. -/
structure Prepared (s : Shared) (cfg : AudioConfig) (faults : ActivateCall → Bool)
    (restore : Option StagedRestore) (swap : Option StagedSwap) (pipe : Pipeline)
    (a : Assembly) : Prop where
  paramRx : s.paramRx = true
  gcTx : s.gcTx = true
  slimmableRx : s.slimmableRx = true
  buffers : faults .buffers = false
  pipeline : buildPipeline s s.deactivatedDsp cfg (s.activateOsFactor E) faults = some pipe
  adapted : adaptStaged s cfg faults = (true, restore, swap)
  assembled : assemble pipe s.deactivatedDsp (stagedModel restore swap) (stagedIr restore swap) =
    some a

/-- The outcomes of an activation. -/
inductive Activates (s : Shared) (cfg : AudioConfig) (faults : ActivateCall → Bool) :
    Shared × Option Processor → Prop where
  /-- The command consumer is not there. -/
  | noConsumer (h : s.paramRx = false) : Activates s cfg faults (s, none)
  /-- A failure before the staged items are taken. -/
  | early (hp : s.paramRx = true)
    (h : s.gcTx = false ∨ s.slimmableRx = false ∨ faults .buffers = true ∨
      buildPipeline s s.deactivatedDsp cfg (s.activateOsFactor E) faults = none) :
    Activates s cfg faults (s.recoverRing, none)
  /-- A staged item cannot be adapted. -/
  | adapt {restore swap} (hp : s.paramRx = true) (hg : s.gcTx = true)
    (hl : s.slimmableRx = true) (hb : faults .buffers = false)
    (hpipe : (buildPipeline s s.deactivatedDsp cfg (s.activateOsFactor E) faults).isSome)
    (ha : adaptStaged s cfg faults = (false, restore, swap)) :
    Activates s cfg faults
      ({ s with stagedRestore := restore, stagedSwap := swap }.recoverRing, none)
  /-- The retained model cannot be flushed. -/
  | flush {restore swap pipe a t} (h : Prepared E s cfg faults restore swap pipe a)
    (hf : (s.published E cfg restore a).flushPendingModel (fun c => faults (.flush c)) =
      (t, false)) :
    Activates s cfg faults (t.rollback ⟨true, true, s.pendingRestartOs, none⟩, none)
  | ok {restore swap pipe a t} (h : Prepared E s cfg faults restore swap pipe a)
    (hf : (s.published E cfg restore a).flushPendingModel (fun c => faults (.flush c)) =
      (t, true)) :
    Activates s cfg faults
      ({ t with recoveredCommands := [] }, some (a.processor E t cfg (s.activateOsFactor E)))

/-- What a pipeline leaves out a deactivated DSP has. -/
theorem assemble_isSome {s : Shared} {deact : Option DeactivatedDspState} {cfg : AudioConfig}
    {osFactor : OversampleFactor} {faults : ActivateCall → Bool} {pipe : Pipeline}
    (h : buildPipeline s deact cfg osFactor faults = some pipe) (model : Option LoadModelPayload)
    (ir : Option (Option CabSimPair)) : ∃ a, assemble pipe deact model ir = some a := by
  obtain ⟨res, st, cab, os⟩ := pipe
  cases deact with
  | some d =>
    cases model <;> cases ir <;> cases res <;> cases st <;> cases cab <;> cases os <;>
      exact ⟨_, rfl⟩
  | none =>
    simp only [buildPipeline, Option.any_none, Bool.false_and, Bool.not_false, Bool.true_and,
      Bool.false_eq_true, if_false] at h
    split at h
    · cases h
    · simp only [Option.map_map, Option.map_eq_some_iff] at h
      obtain ⟨c, -, hc⟩ := h
      simp only [Function.comp_apply, Pipeline.mk.injEq] at hc
      obtain ⟨rfl, rfl, rfl, rfl⟩ := hc
      cases model <;> cases ir <;> exact ⟨_, rfl⟩

/-- The cab-sim pair of an assembly: the staged one, a fresh one, or the one that was kept. -/
def AssemblesIr (pipe : Pipeline) (deact : Option DeactivatedDspState)
    (ir : Option (Option CabSimPair)) (pair : Option CabSimPair) : Prop :=
  ir = some pair ∨ (ir = none ∧ (pipe.newCabsim = some pair ∨
    (pipe.newCabsim = none ∧ ∃ d, deact = some d ∧ d.cabsimPair = pair)))

/-- The model of an assembly that is not staged: the one that was kept or none, with its stream and
resampler or fresh ones. -/
structure AssemblesKept (pipe : Pipeline) (deact : Option DeactivatedDspState) (a : Assembly) :
    Prop where
  modelL : a.modelL = deact.bind (·.modelL)
  modelR : a.modelR = deact.bind (·.modelR)
  modelGeneration : a.modelGeneration = (deact.map (·.modelGeneration)).getD 0
  resampler : pipe.newResampler.or (deact.map (·.resampler)) = some a.resampler
  stream : pipe.newStream.or (deact.map (·.stream)) = some a.stream

theorem assemble_spec {pipe : Pipeline} {deact : Option DeactivatedDspState}
    {model : Option LoadModelPayload} {ir : Option (Option CabSimPair)} {a : Assembly}
    (h : assemble pipe deact model ir = some a) :
    pipe.newOs.or (deact.map fun d => (d.osL, d.osR)) = some (a.osL, a.osR) ∧
    AssemblesIr pipe deact ir a.cabsimPair ∧
    (∀ m, model = some m → a.modelL = m.modelL ∧ a.modelR = m.modelR ∧
      a.modelGeneration = m.generation ∧ a.resampler = m.newResampler ∧ a.stream = m.newStream) ∧
    (model = none → AssemblesKept pipe deact a) := by
  have hir : ∀ pair, ir.or (pipe.newCabsim.or (deact.map (·.cabsimPair))) = some pair →
      AssemblesIr pipe deact ir pair := by
    intro pair hp
    cases hi : ir with
    | some i =>
      rw [hi, Option.some_or] at hp
      exact .inl hp
    | none =>
      rw [hi, Option.none_or] at hp
      refine .inr ⟨rfl, ?_⟩
      cases hc : pipe.newCabsim with
      | some c =>
        rw [hc, Option.some_or] at hp
        exact .inl hp
      | none =>
        rw [hc, Option.none_or] at hp
        exact .inr ⟨rfl, Option.map_eq_some_iff.1 hp⟩
  simp only [assemble, Option.bind_eq_bind, Option.bind_eq_some_iff] at h
  obtain ⟨os, hos, pair, hpair, h⟩ := h
  cases model with
  | some m =>
    obtain rfl := Option.some.inj h
    exact ⟨hos, hir pair hpair, by rintro _ ⟨⟩; exact ⟨rfl, rfl, rfl, rfl, rfl⟩, by rintro ⟨⟩⟩
  | none =>
    simp only [Option.bind_eq_some_iff] at h
    obtain ⟨res, hres, st, hst, h⟩ := h
    obtain rfl := Option.some.inj h
    exact ⟨hos, hir pair hpair, by rintro _ ⟨⟩, fun _ => ⟨rfl, rfl, rfl, hres, hst⟩⟩

/-- A rollback puts back what was taken. -/
theorem rollback_taken {s : Shared} {g : ActivateRollbackGuard} {b c : Bool}
    {o : PendingRestartOs} {d : Option DeactivatedDspState} (hp : s.paramRx = true)
    (hg : (b || g.gcTx) = s.gcTx) (hl : (c || g.slimmableRx) = s.slimmableRx)
    (ho : (if g.pendingRestartOs ≠ .none then g.pendingRestartOs else o) = s.pendingRestartOs)
    (hd : g.deactivated.or d = s.deactivatedDsp) :
    { s with
      paramRx := false
      gcTx := b
      slimmableRx := c
      pendingRestartOs := o
      deactivatedDsp := d }.rollback g = s.recoverRing := by
  cases hg' : g.deactivated with
  | none =>
    rw [hg', Option.none_or] at hd
    simp only [Shared.rollback, Shared.recoverRing, hg, hl, ho, hg', hd, hp]
  | some x =>
    rw [hg', Option.some_or] at hd
    simp only [Shared.rollback, Shared.recoverRing, hg, hl, ho, hg', ← hd, hp]

theorem finishActivate_eq {s : Shared} {cfg : AudioConfig} {faults : ActivateCall → Bool}
    {restore : Option StagedRestore} {swap : Option StagedSwap} {pipe : Pipeline} {a : Assembly}
    (ha : assemble pipe s.deactivatedDsp (stagedModel restore swap) (stagedIr restore swap) =
      some a) :
    s.taken.finishActivate E ⟨true, true, s.pendingRestartOs, s.deactivatedDsp⟩ cfg
      (s.activateOsFactor E) pipe restore swap faults =
      match (s.published E cfg restore a).flushPendingModel (fun c => faults (.flush c)) with
      | (t, false) => (t.rollback ⟨true, true, s.pendingRestartOs, none⟩, none)
      | (t, true) =>
        ({ t with recoveredCommands := [] }, some (a.processor E t cfg (s.activateOsFactor E))) := by
  simp only [Shared.finishActivate, ha]
  rfl

theorem finishActivate_spec {s : Shared} {cfg : AudioConfig} {faults : ActivateCall → Bool}
    {restore : Option StagedRestore} {swap : Option StagedSwap} {pipe : Pipeline}
    (h : ∀ a, assemble pipe s.deactivatedDsp (stagedModel restore swap) (stagedIr restore swap) =
      some a → Prepared E s cfg faults restore swap pipe a)
    (hpipe : buildPipeline s s.deactivatedDsp cfg (s.activateOsFactor E) faults = some pipe) :
    Activates E s cfg faults (s.taken.finishActivate E
      ⟨true, true, s.pendingRestartOs, s.deactivatedDsp⟩ cfg (s.activateOsFactor E) pipe restore
      swap faults) := by
  obtain ⟨a, ha⟩ := assemble_isSome hpipe (stagedModel restore swap) (stagedIr restore swap)
  have hprep := h a ha
  rw [finishActivate_eq E ha]
  rcases hf : (s.published E cfg restore a).flushPendingModel (fun c => faults (.flush c)) with
    ⟨t, _ | _⟩
  · exact .flush hprep hf
  · exact .ok hprep hf

theorem ite_not_none (o : PendingRestartOs) :
    (if o ≠ .none then o else .none) = o := by
  by_cases h : o = .none
  · rw [if_neg (not_not.2 h), h]
  · rw [if_pos h]

theorem activate_spec (s : Shared) (cfg : AudioConfig) (faults : ActivateCall → Bool) :
    Activates E s cfg faults (s.activate E cfg faults) := by
  have hos := ite_not_none s.pendingRestartOs
  have hdeact : s.deactivatedDsp.or none = s.deactivatedDsp := by cases s.deactivatedDsp <;> rfl
  unfold Shared.activate
  by_cases hp : s.paramRx = true
  · rw [if_neg (by simp [hp])]
    dsimp only
    by_cases hg : s.gcTx = true
    · rw [if_neg (by simp [hg])]
      by_cases hl : s.slimmableRx = true
      · rw [if_neg (by simp [hl])]
        by_cases hb : faults .buffers = true
        · rw [if_pos hb, rollback_taken hp (by simp [hg]) (by simp [hl]) rfl (by simp)]
          exact .early hp (.inr (.inr (.inl hb)))
        · rw [if_neg hb]
          have hb : faults .buffers = false := by simpa using hb
          split
          · rename_i hpipe
            rw [rollback_taken hp (by simp [hg]) (by simp [hl]) hos hdeact]
            exact .early hp (.inr (.inr (.inr hpipe)))
          · rename_i pipe hpipe
            split
            · rename_i restore swap ha
              have hr := rollback_taken
                (s := { s with stagedRestore := restore, stagedSwap := swap })
                (g := ⟨true, true, s.pendingRestartOs, s.deactivatedDsp⟩) (b := false)
                (c := false) (o := .none) (d := none) hp (by simp [hg]) (by simp [hl]) hos hdeact
              exact hr ▸ .adapt hp hg hl hb (Option.isSome_of_eq_some hpipe) ha
            · rename_i restore swap ha
              exact finishActivate_spec E (fun a h => ⟨hp, hg, hl, hb, hpipe, ha, h⟩) hpipe
      · rw [if_pos (by simp [hl]),
          rollback_taken hp (by simp [hg]) (by simp) rfl (by simp)]
        exact .early hp (.inr (.inl (by simpa using hl)))
    · rw [if_pos (by simp [hg]), rollback_taken hp (by simp) (by simp) rfl (by simp)]
      exact .early hp (.inl (by simpa using hg))
  · rw [if_pos (by simp [hp])]
    exact .noConsumer (by simpa using hp)

/-- The models of a successful activation: the staged ones, or those that were kept. -/
theorem Prepared.models {s : Shared} {cfg : AudioConfig} {faults : ActivateCall → Bool}
    {restore : Option StagedRestore} {swap : Option StagedSwap} {pipe : Pipeline} {a : Assembly}
    (h : Prepared E s cfg faults restore swap pipe a) :
    (∃ m, stagedModel restore swap = some m ∧ a.modelL = m.modelL ∧ a.modelR = m.modelR ∧
      a.modelGeneration = m.generation ∧ a.stream = m.newStream) ∨
    (stagedModel restore swap = none ∧ AssemblesKept pipe s.deactivatedDsp a) := by
  obtain ⟨-, -, hm, hk⟩ := assemble_spec h.assembled
  cases hs : stagedModel restore swap with
  | some m =>
    obtain ⟨hl, hr, hg, -, hst⟩ := hm m hs
    exact .inl ⟨m, rfl, hl, hr, hg, hst⟩
  | none => exact .inr ⟨rfl, hk hs⟩

/-- The pair of a successful activation. -/
inductive ActivatesPair (s : Shared) (cfg : AudioConfig) : Option CabSimPair → Prop where
  | none : ActivatesPair s cfg none
  | fits {c : CabSimPair} (hc : c.partitionSize = cfg.maxFrames) : ActivatesPair s cfg (some c)
  /-- A staged pair that does not fit stays where there is nothing to build it from. -/
  | staged {c} (hi : stagedIr s.stagedRestore s.stagedSwap = some (some c))
    (hr : cfg.maxFrames = 0 ∨ s.stagedRaw = none) : ActivatesPair s cfg (some c)
  /-- A pair that was kept is reused at its host rate. -/
  | kept {c d} (hi : stagedIr s.stagedRestore s.stagedSwap = none)
    (hd : s.deactivatedDsp = some d) (hr : d.sampleRate = cfg.hostRate)
    (hc : d.cabsimPair = some c) : ActivatesPair s cfg (some c)

theorem buildCabSim_size {s : Shared} {q : Option IrSamples} {n rate : Nat} {fault : Bool}
    {c : CabSimPair} (h : buildCabSimFromRawSamples s q n rate fault = some (some c)) :
    c.partitionSize = n := by
  unfold buildCabSimFromRawSamples at h
  by_cases hn : n = 0
  · rw [if_pos hn] at h
    cases h
  · rw [if_neg hn] at h
    cases hr : q.or s.irRawSamples with
    | none =>
      rw [hr] at h
      cases h
    | some r =>
      rw [hr] at h
      cases fault
      · cases h
        rfl
      · cases h

theorem buildPipeline_cabsim {s : Shared} {deact : Option DeactivatedDspState} {cfg : AudioConfig}
    {osFactor : OversampleFactor} {faults : ActivateCall → Bool} {pipe : Pipeline}
    (h : buildPipeline s deact cfg osFactor faults = some pipe) :
    (∀ c, pipe.newCabsim = some (some c) → c.partitionSize = cfg.maxFrames) ∧
    (pipe.newCabsim = none → ∀ d, deact = some d → d.sampleRate = cfg.hostRate) := by
  unfold buildPipeline at h
  dsimp only at h
  split at h
  · cases h
  · obtain ⟨cab, hcab, rfl⟩ := Option.map_eq_some_iff.1 h
    dsimp only
    split at hcab
    · rename_i hm
      cases hcab
      refine ⟨fun c hc => (by cases hc), fun _ d hd => ?_⟩
      subst hd
      simp only [Option.any_some, Bool.and_eq_true, decide_eq_true_eq] at hm
      exact hm.2
    · obtain ⟨pair, hp, rfl⟩ := Option.map_eq_some_iff.1 hcab
      refine ⟨fun c hc => ?_, fun hn => (by cases hn)⟩
      obtain rfl := Option.some.inj hc
      exact buildCabSim_size hp

theorem Prepared.pair {s : Shared} {cfg : AudioConfig} {faults : ActivateCall → Bool}
    {restore : Option StagedRestore} {swap : Option StagedSwap} {pipe : Pipeline} {a : Assembly}
    (h : Prepared E s cfg faults restore swap pipe a) : ActivatesPair s cfg a.cabsimPair := by
  obtain ⟨-, hir, -⟩ := assemble_spec h.assembled
  obtain ⟨q, fault, hq, hadapt⟩ := adaptStaged_ir h.adapted
  obtain ⟨hfresh, hkept⟩ := buildPipeline_cabsim h.pipeline
  cases hc : a.cabsimPair with
  | none => exact .none
  | some c =>
    rw [hc] at hir
    rcases hir with hs | ⟨hs, hn | ⟨hn, d, hd, hdc⟩⟩
    · rw [hs] at hadapt
      obtain ⟨he, hfit⟩ | ⟨b, b', hb, he, hsize⟩ := adaptIr_cases hadapt
      · rcases hfit c he.symm with hsize | hz | hraw
        · exact .fits hsize
        · exact .staged he.symm (.inl hz)
        · exact .staged he.symm (.inr (hq.symm.trans hraw))
      · obtain rfl := Option.some.inj (Option.some.inj he)
        exact .fits hsize
    · exact .fits (hfresh c hn)
    · refine .kept ?_ hd (hkept hn d hd) hdc
      rw [hs] at hadapt
      obtain ⟨he, -⟩ | ⟨b, b', hb, he, -⟩ := adaptIr_cases hadapt
      · exact he.symm
      · cases he

end

end NamPlug
