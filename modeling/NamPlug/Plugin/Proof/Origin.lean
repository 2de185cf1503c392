import NamPlug.Plugin.Proof.Slimming

/-!
# Where a slimmed model was cut from

A request for a slimmed model names the generation that runs, and the build cuts the full model the
main thread published last. `rebuild_origin`: if every build finds the model of the requested
generation published (`CutsRequested`), the audio thread installs a slimmed model only on the model
whose full weights it was cut from.
-/

namespace NamPlug

open Machine

/-! ## Full weights -/

/-- A full model that is published has all the weights of a file. -/
def FullOf (o : Option StaticModel) : Prop :=
  ∀ w, o = some w → ∃ f : ModelFile, f.channels.isSome = true ∧ w = f.modelL

theorem FullOf.none : FullOf none := fun _ h => by cases h

theorem fullOf_file (f : ModelFile) : FullOf f.modelL.fullWavenet := by
  intro w hw
  unfold StaticModel.fullWavenet at hw
  split at hw
  · exact ⟨f, ‹_›, (Option.some.inj hw).symm⟩
  · cases hw

theorem fullOf_publish (s : Shared) (v : ValidatedRestore) (mode : RestoreMode) :
    FullOf (restorePublish s v mode).fullWavenet := by
  intro w hw
  obtain ⟨f, -, hf⟩ := Option.bind_eq_some_iff.1 hw
  exact fullOf_file f w hf

/-- The full models that are published or wait with a restore. -/
structure Whole (s : Shared) : Prop where
  published : FullOf s.slim.fullWavenetModel
  pendingRestore : ∀ r, s.pendingRestore = some r → FullOf r.publish.fullWavenet
  stagedRestore : ∀ r, s.stagedRestore = some r → FullOf r.publish.fullWavenet

/-- An operation that leaves the restores alone, or clears the staged one. -/
theorem Whole.republish {s t : Shared} (h : Whole s) (hf : FullOf t.slim.fullWavenetModel)
    (hp : t.pendingRestore = s.pendingRestore)
    (hr : t.stagedRestore = s.stagedRestore ∨ t.stagedRestore = none) : Whole t where
  published := hf
  pendingRestore := by rw [hp]; exact h.pendingRestore
  stagedRestore r hs := by
    obtain hr | hr := hr
    · exact h.stagedRestore r (hr.symm.trans hs)
    · exact absurd (hr.symm.trans hs) (by simp)

theorem publishRestore_full {s : Shared} {pub : RestorePublish}
    (h : FullOf s.slim.fullWavenetModel) (hp : FullOf pub.fullWavenet) :
    FullOf (s.publishRestore pub).slim.fullWavenetModel := by
  unfold Shared.publishRestore
  cases pub.model with
  | some rate => cases pub.irPathOnDisk <;> cases pub.modeFull <;> exact hp
  | none =>
    cases hm : pub.modeFull with
    | true => cases pub.irPathOnDisk <;> exact .none
    | false => cases pub.irPathOnDisk <;> exact h

theorem Swaps.whole {s t : Shared} {m : LoadModelPayload} (h : Swaps s m t) (hs : Whole s) :
    Whole t := by
  cases h with
  | sent hf => exact hs.republish hs.published rfl (.inr rfl)
  | retained hf => exact hs.republish hs.published rfl (.inr rfl)
  | staged => exact hs.republish hs.published rfl (.inr rfl)

theorem Commits.whole {s t : Shared} {prep : PreparedModel} {g : Nat} (h : Commits s prep g t)
    (hs : Whole s) : Whole t := by
  cases h with
  | inactive hb => exact hs.republish (fullOf_file prep.file) rfl (.inl rfl)
  | failed => exact hs
  | swapped hb hg ha ht hm =>
    exact (ht.whole hs).republish (fullOf_file prep.file) rfl (.inl rfl)

theorem Clears.whole {s t : Shared} (h : Clears s t) (hs : Whole s) : Whole t := by
  have hc : Whole s.cleared := hs.republish .none rfl (.inl rfl)
  cases h with
  | inactive hb => exact hs.republish .none rfl (.inl rfl)
  | failed hb => exact hc
  | swapped hb hg ha ht hm =>
    have ht := ht.whole hc
    exact ht.republish ht.published rfl (.inl rfl)

theorem publishIfAcked_whole {s : Shared} (hs : Whole s) : Whole s.publishIfAcked := by
  obtain h | ⟨r, hr, -, -, h⟩ := publishIfAcked_cases s <;> rw [h]
  · exact hs
  · rw [acknowledged_eq]
    exact
      { published := publishRestore_full (s := { s with pendingRestore := none }) hs.published
          (hs.pendingRestore r hr)
        pendingRestore := fun r hr => by cases hr
        stagedRestore := hs.stagedRestore }

theorem FlushesRestore.whole {s t : Shared} (h : FlushesRestore s t) (hs : Whole s) : Whole t := by
  cases h with
  | idle h => exact hs
  | waiting hr ht => exact publishIfAcked_whole hs
  | @sent r txn ps hr ht hf =>
    refine publishIfAcked_whole ⟨hs.published, fun q hq => ?_, hs.stagedRestore⟩
    obtain rfl := Option.some.inj hq
    exact hs.pendingRestore r hr
  | kept hr ht hf => exact hs.republish hs.published rfl (.inl rfl)

theorem Restores.whole {s t : Shared} {v : ValidatedRestore} {mode : RestoreMode}
    (h : Restores s v mode t) (hs : Whole s) : Whole t := by
  have hnote : ∀ {u : Shared} (txn : RestoreTxn), Whole u → Whole (u.noteRestore txn) := by
    intro u txn hu
    rw [noteRestore_eq]
    exact hu.republish hu.published rfl (.inl rfl)
  cases h with
  | failed => exact hs
  | @staged t publish txn o hp =>
    refine hnote txn ⟨by rw [hp.state]; exact hs.published, by rw [hp.state]; exact hs.pendingRestore,
      fun r hr => ?_⟩
    obtain rfl := Option.some.inj hr
    rw [hp.publication]
    exact fullOf_publish s v mode
  | @sent t publish txn ps hp hf =>
    refine hnote txn ⟨by rw [hp.state]; exact hs.published, fun r hr => ?_, fun r hr => by cases hr⟩
    obtain rfl := Option.some.inj hr
    rw [hp.publication]
    exact fullOf_publish s v mode
  | @kept t publish txn ps c hp hf =>
    refine hnote txn ⟨by rw [hp.state]; exact hs.published, fun r hr => ?_, fun r hr => by cases hr⟩
    obtain rfl := Option.some.inj hr
    rw [hp.publication]
    exact fullOf_publish s v mode

theorem localCommit_whole {s : Shared} (hs : Whole s) (v : ValidatedRestore) (mode : RestoreMode) :
    Whole (s.localCommit v mode) := by
  have hm : Whole (s.localModel v mode) := by
    unfold Shared.localModel
    split
    · exact hs.republish (fullOf_file _) rfl (.inl rfl)
    · exact hs.republish .none rfl (.inl rfl)
    · exact hs
  have hi : Whole ((s.localModel v mode).localIr v mode) := by
    unfold Shared.localIr
    split
    · exact hm.republish hm.published rfl (.inl rfl)
    · exact hm.republish hm.published rfl (.inl rfl)
    · exact hm
  exact hi.republish hi.published rfl (.inl rfl)

section
variable (E : Engine)

theorem loadModel_whole {s : Shared} (hs : Whole s) (file : ModelFile)
    (faults : EngineCall → Bool) : Whole (s.loadModel E file faults) := by
  obtain h | ⟨prep, h, -⟩ := loadModel_spec E s file faults
  · rw [h]
    exact hs
  · exact h.whole (hs.republish hs.published rfl (.inl rfl))

theorem mainStep_whole {s : Shared} (hs : Whole s) (a : MainAction) : Whole (mainStep E s a) := by
  by_cases hq : a.isQuiet = true
  · have q := mainStep_quiet E s hq
    refine hs.republish ?_ q.pendingRestore (.inl q.stagedRestore)
    by_cases hslim : a.isSlimmable = true
    · obtain ⟨x, hx, he⟩ := mainStep_slims E s hslim
      rw [he]
      cases hx <;> exact hs.published
    · rw [quiet_slim E s hq (Bool.not_eq_true _ ▸ hslim)]
      exact hs.published
  cases a with
  | loadModel file faults => exact loadModel_whole E hs file faults
  | clearModel faults => exact (clearModel_spec E s faults).whole hs
  | dispatchModelLoadSync file faults =>
    show Whole (s.dispatchModelLoadSync E file faults)
    obtain ⟨jobs, hd⟩ | ⟨jobs, f, hd⟩ := dispatchModelLoadSync_spec E s file faults <;> rw [hd]
    · exact hs.republish hs.published rfl (.inl rfl)
    · have hj : Whole { s with pendingAsyncLoads := jobs } :=
        hs.republish hs.published rfl (.inl rfl)
      exact loadModel_whole E hj f faults
  | pollModelLoaderResult faults =>
    have hspec := pollModelLoaderResult_spec E s faults
    show Whole (s.pollModelLoaderResult E faults)
    generalize s.pollModelLoaderResult E faults = t at hspec
    cases hspec with
    | idle h => exact hs
    | dropped => exact hs.republish hs.published rfl (.inl rfl)
    | commits hr hg h0 ho ht => exact ht.whole (hs.republish hs.published rfl (.inl rfl))
  | flushPendingModel faults =>
    have hspec := flushPendingModel_spec s faults
    show Whole (s.flushPendingModel faults).1
    generalize s.flushPendingModel faults = r at hspec
    cases hspec <;> exact hs.republish hs.published rfl (.inl rfl)
  | handlePendingIr ir faults =>
    have hspec := loadCabsim_spec { s with uiPendingIr := none } ir faults
    show Whole ({ s with uiPendingIr := none }.loadCabsim ir faults)
    generalize Shared.loadCabsim _ ir faults = t at hspec
    cases hspec with
    | recorded h => exact hs.republish hs.published rfl (.inl rfl)
    | _ => exact hs.republish hs.published rfl (.inr rfl)
  | clearIr =>
    show Whole s.clearIr
    unfold Shared.clearIr
    split <;> exact hs.republish hs.published rfl (.inl rfl)
  | restore v mode faults =>
    show Whole (s.commitRestore E v mode faults)
    unfold Shared.commitRestore
    split
    · exact localCommit_whole hs v mode
    · exact (atomicCommit_spec E s v mode faults).whole hs
  | flushPendingRestore => exact (flushPendingRestore_spec s).whole hs
  | _ => exact absurd rfl hq

/-! ## The audio thread and the lifecycle -/

theorem audioStep_whole {s : Shared} {p : Processor} {a : AudioAction} {r : Shared × Processor}
    (hs : Whole s) (h : audioStep E s p a = some r) : Whole r.1 := by
  have hfull : r.1.slim.fullWavenetModel = s.slim.fullWavenetModel := by
    by_cases ha : a.isSlimmable = true
    · cases a <;> simp only [AudioAction.isSlimmable, Bool.false_eq_true] at ha
      case slimmable m =>
        simp only [audioStep] at h
        split_ifs at h
        cases slimmableMove_spec h <;> rfl
      case signalSlimmableRebuild ch =>
        simp only [audioStep] at h
        split_ifs at h
        obtain rfl := Option.some.inj h
        rfl
    · rw [(audioStep_slim E h (Bool.not_eq_true _ ▸ ha)).1]
  refine hs.republish (hfull ▸ hs.published) ?_ (.inl ?_) <;> rw [audioStep_shared E h] <;> rfl

theorem adaptRestore_publish (s : Shared) (r : StagedRestore) (cfg : AudioConfig)
    (faults : ActivateCall → Bool) : (adaptRestore s r cfg faults).2.publish = r.publish := by
  unfold adaptRestore
  split <;> rfl

theorem Activates.whole {s : Shared} {cfg : AudioConfig} {faults : ActivateCall → Bool}
    {r : Shared × Option Processor} (h : Activates E s cfg faults r) (hs : Whole s) :
    Whole r.1 := by
  have hrestore : ∀ {ok restore swap}, adaptStaged s cfg faults = (ok, restore, swap) →
      ∀ q, restore = some q → FullOf q.publish.fullWavenet := by
    intro ok restore swap ha q hq
    rw [adaptStaged_restore ha, Option.map_eq_some_iff] at hq
    obtain ⟨r, hr, rfl⟩ := hq
    rw [adaptRestore_publish]
    exact hs.stagedRestore r hr
  have hflush : ∀ {restore swap a} (r : Shared × Bool),
      adaptStaged s cfg faults = (true, restore, swap) →
      (s.published E cfg restore a).flushPendingModel (fun c => faults (.flush c)) = r →
      Whole r.1 := by
    rintro restore swap a _ ha rfl
    have hp : Whole (s.published E cfg restore a) := by
      have ht : Whole s.taken := hs.republish hs.published rfl (.inr rfl)
      cases restore with
      | none => exact ht.republish ht.published rfl (.inl rfl)
      | some q =>
        simp only [Shared.published, Shared.publishStaged]
        have hf : FullOf (s.taken.publishRestore q.publish).slim.fullWavenetModel :=
          publishRestore_full ht.published (hrestore ha q rfl)
        rw [publishRestore_eq]
        exact ht.republish hf rfl (.inl rfl)
    have hspec := flushPendingModel_spec (s.published E cfg restore a) fun c => faults (.flush c)
    generalize Shared.flushPendingModel _ _ = r at hspec ⊢
    cases hspec <;> exact hp.republish hp.published rfl (.inl rfl)
  cases h with
  | noConsumer h => exact hs
  | early hp h => exact hs.republish hs.published rfl (.inl rfl)
  | adapt hp hg hl hb hpipe ha => exact ⟨hs.published, hs.pendingRestore, hrestore ha⟩
  | flush hprep hf =>
    have ht := hflush _ hprep.adapted hf
    exact ht.republish ht.published rfl (.inl rfl)
  | ok hprep hf =>
    have ht := hflush _ hprep.adapted hf
    exact ht.republish ht.published rfl (.inl rfl)

theorem step_whole {x y : Plugin} {a : Action} (hx : Whole x.shared) (h : step E x a = some y) :
    Whole y.shared := by
  cases a with
  | main a =>
    obtain rfl := Option.some.inj h
    exact mainStep_whole E hx a
  | audio a =>
    obtain ⟨p, hp, h⟩ := Option.bind_eq_some_iff.1 h
    obtain ⟨r, hr, rfl⟩ := Option.map_eq_some_iff.1 h
    exact audioStep_whole E hx hr
  | activate cfg faults =>
    simp only [step] at h
    split_ifs at h
    obtain rfl := Option.some.inj h
    exact (activate_spec E x.shared cfg faults).whole E hx
  | deactivate =>
    simp only [step] at h
    split at h
    · rename_i p hp
      split_ifs at h
      obtain rfl := Option.some.inj h
      have hd : (deactivate x.shared p).pendingRestore = x.shared.pendingRestore ∧
          (deactivate x.shared p).stagedRestore = x.shared.stagedRestore := by
        unfold deactivate
        cases p.deferred <;> exact ⟨rfl, rfl⟩
      refine hx.republish ?_ hd.1 (.inl hd.2)
      show FullOf (deactivate x.shared p).slim.fullWavenetModel
      rw [deactivate_slim]
      exact hx.published
    · cases h

/-! ## The model of a generation -/

/-- Models have the weights their generation was adopted with. -/
def assetCarriage : Carriage where
  Payload log m := .model m.generation (m.modelL.map StaticModel.asset) ∈ log
  Pending log p := .model p.generation (p.model.map StaticModel.asset) ∈ log
  Result _ := True
  payload_mono h := List.mem_append_right _ h
  pending_mono h := List.mem_append_right _ h
  prepared _ := trivial
  adapt := by
    intro log prep s faults g m _ ha hg
    obtain ⟨h, hm⟩ := adapt_spec ha
    rw [h, hm]
    exact hg
  retained := by
    intro log prep g _ hg
    show Event.model g (prep.modelL.map StaticModel.asset) ∈ log
    rw [prep.modelL_asset]
    exact hg
  clearPayload h := h
  clearPending h := h
  restorePayload := by
    intro log s f g hg
    show Event.model g ((restoreModel s f g).modelL.map StaticModel.asset) ∈ log
    rw [restoreModel_asset]
    exact hg
  restorePending h := h
  toPending h := h
  rebuilt := by
    intro log p s h
    show Event.model p.generation ((p.model.map _).map StaticModel.asset) ∈ log
    rw [Option.map_map]
    exact h
  rebuiltStaged := by
    intro log m cfg h
    show Event.model m.generation ((m.modelL.map _).map StaticModel.asset) ∈ log
    rw [Option.map_map]
    exact h
  resizedPending := by
    intro log p n h
    show Event.model p.generation ((p.model.map _).map StaticModel.asset) ∈ log
    rw [Option.map_map]
    exact h
  resizedPayload := by
    intro log m n h
    show Event.model m.generation ((m.modelL.map _).map StaticModel.asset) ∈ log
    rw [Option.map_map]
    exact h

/-- A model that runs or is kept is the one its generation was adopted with, or there is none. -/
def Named (log : List Event) (m : Option StaticModel) (g : Nat) : Prop :=
  (m = none ∧ g = 0) ∨ .model g (m.map StaticModel.asset) ∈ log

theorem Named.mono {log l : List Event} {m : Option StaticModel} {g : Nat} (h : Named log m g) :
    Named (l ++ log) m g := h.imp id (List.mem_append_right _)

/-- A slimmed model is a slice of all the weights of a file, the one its generation was adopted
with. -/
def SlimmableRebuild.CutFrom (r : SlimmableRebuild) (log : List Event) (f : ModelFile) : Prop :=
  .model r.generation (some f.asset) ∈ log ∧ f.channels.isSome = true ∧
    ∃ ch n resized, r.model = sliceWavenetModel f.modelL ch n resized

def SlimmableRebuild.Origin (r : SlimmableRebuild) (log : List Event) : Prop :=
  ∃ f, r.CutFrom log f

theorem SlimmableRebuild.Origin.mono {log l : List Event} {r : SlimmableRebuild}
    (h : r.Origin log) : r.Origin (l ++ log) := by
  obtain ⟨f, hlog, hcut⟩ := h
  exact ⟨f, List.mem_append_right _ hlog, hcut⟩

/-- The slimmed models that are built, and the models that run or are kept. -/
structure OriginInv (x : Plugin) : Prop where
  numbered : Numbered x
  carried : assetCarriage.Holds x
  whole : Whole x.shared
  slot : ∀ r, x.shared.slim.slot = some (.ready r) → r.Origin x.shared.log
  ring : ∀ r ∈ x.shared.slim.ring, r.Origin x.shared.log
  deferred : ∀ p r, x.proc = some p → p.slim.deferred = some r → r.Origin x.shared.log
  installed : ∀ p, x.proc = some p → Named x.shared.log p.modelL p.modelGeneration
  kept : ∀ d, x.shared.deactivatedDsp = some d → Named x.shared.log d.modelL d.modelGeneration

/-- The full model that is published is the one the generation `g` was adopted with. -/
def Shared.Publishes (s : Shared) (g : Nat) : Prop :=
  ∀ w, s.slim.fullWavenetModel = some w → .model g (some w.asset) ∈ s.log

/-- A build that cuts a model finds the model of the requested generation published. -/
def CutsRequested (x : Plugin) : Action → Prop
  | .main (.publishSlimmable true _) =>
    match x.shared.slim.worker with
    | .building ch g => 4 ≤ ch → x.shared.Publishes g
    | .idle => True
  | .main (.handleSlimmableRebuildInline true _) =>
    x.shared.slim.needsRebuild = true → 4 ≤ x.shared.slim.requestedCh →
      x.shared.Publishes x.shared.slim.requestedGeneration
  | _ => True

/-! ## Steps -/

/-- What was built stays as long as it is where it was. -/
theorem OriginInv.builds {x : Plugin} (hx : OriginInv x) {t : SlimmableShared} {log : List Event}
    (hslot : t.slot = x.shared.slim.slot) (hring : t.ring = x.shared.slim.ring)
    (hlog : ∃ l, log = l ++ x.shared.log) :
    (∀ r, t.slot = some (.ready r) → r.Origin log) ∧ ∀ r ∈ t.ring, r.Origin log := by
  obtain ⟨l, rfl⟩ := hlog
  rw [hslot, hring]
  exact ⟨fun r hr => (hx.slot r hr).mono, fun r hr => (hx.ring r hr).mono⟩

/-- A build that cuts the model of the requested generation. -/
theorem origin_built {s : Shared} {ch g : Nat} {sliced resized : Bool} {r : SlimmableRebuild}
    (h : buildSlimmable s ch g sliced resized = .ready r) (hs : Whole s)
    (hG : sliced = true → 4 ≤ ch → s.Publishes g) : r.Origin s.log := by
  obtain ⟨hch, hsl, w, hw, rfl⟩ := buildSlimmable_ready h
  obtain ⟨f, hf, rfl⟩ := hs.published w hw
  exact ⟨f, hG hsl hch _ hw, hf, ch, s.bufferSize, resized, rfl⟩

theorem origin_main {x : Plugin} {a : MainAction} (hx : OriginInv x)
    (hG : CutsRequested x (.main a)) :
    OriginInv { x with shared := mainStep E x.shared a } := by
  have hstep : step E x (.main a) = some { x with shared := mainStep E x.shared a } := rfl
  have hframe := mainStep_frame E x.shared a
  obtain ⟨l, hl⟩ := hframe.log
  have hbuilt : (∀ r, (mainStep E x.shared a).slim.slot = some (.ready r) →
      r.Origin (mainStep E x.shared a).log) ∧
      ∀ r ∈ (mainStep E x.shared a).slim.ring, r.Origin (mainStep E x.shared a).log := by
    by_cases hslim : a.isSlimmable = true
    · obtain ⟨t, ht, he⟩ := mainStep_slims E x.shared hslim
      rw [he]
      show (∀ r, t.slot = some (.ready r) → r.Origin x.shared.log) ∧
        ∀ r ∈ t.ring, r.Origin x.shared.log
      cases ht with
      | idle a => exact ⟨hx.slot, hx.ring⟩
      | polled hw => exact ⟨hx.slot, hx.ring⟩
      | @built ch g sliced resized hw =>
        refine ⟨fun r hr => ?_, hx.ring⟩
        refine origin_built (Option.some.inj hr) hx.whole fun hs hch => ?_
        subst hs
        simp only [CutsRequested, hw] at hG
        exact hG hch
      | @drained r hf hd hs =>
        refine ⟨fun r hr => (by cases hr), fun q hq => ?_⟩
        obtain hq | hq := List.mem_append.1 hq
        · exact hx.ring q hq
        · exact List.mem_singleton.1 hq ▸ hx.slot r hs
      | dropped hf hd => exact ⟨fun r hr => (by cases hr), hx.ring⟩
      | @inlined r sliced resized hf hd hb =>
        refine ⟨hx.slot, fun q hq => ?_⟩
        obtain hq | hq := List.mem_append.1 hq
        · exact hx.ring q hq
        · rw [List.mem_singleton.1 hq]
          refine origin_built hb hx.whole fun hs hch => ?_
          subst hs
          exact hG hf hch
      | refused hf hd => exact ⟨hx.slot, hx.ring⟩
      | lowered hd => exact ⟨hx.slot, hx.ring⟩
    · have hr := mainStep_slim E x.shared (Bool.not_eq_true _ ▸ hslim)
      unfold Shared.Republished at hr
      refine hx.builds ?_ ?_ ⟨l, hl⟩ <;> rw [hr]
  refine ⟨numbered_step E hx.numbered hstep, Carriage.holds_step E hx.carried hstep,
    mainStep_whole E hx.whole a, hbuilt.1, hbuilt.2, fun p r hp hr => ?_, fun p hp => ?_,
    fun d hd => ?_⟩
  · show r.Origin (mainStep E x.shared a).log
    rw [hl]
    exact (hx.deferred p r hp hr).mono
  · show Named (mainStep E x.shared a).log _ _
    rw [hl]
    exact (hx.installed p hp).mono
  · show Named (mainStep E x.shared a).log _ _
    rw [hl]
    exact (hx.kept d (hframe.deactivatedDsp ▸ hd)).mono

/-- What the audio thread installs is the model of its generation. -/
theorem named_audio {s : Shared} {p : Processor} {a : AudioAction} {r : Shared × Processor}
    (hn : Named s.log p.modelL p.modelGeneration) (hp : assetCarriage.HoldsRt s.log p)
    (h : audioStep E s p a = some r) (ha : a ≠ .slimmable .install) :
    Named s.log r.2.modelL r.2.modelGeneration := by
  refine audioStep_chain_invariant E (I := fun c => Named s.log c.modelL c.modelGeneration) h hn
    fun c hc op hop => ?_
  cases op with
  | command d =>
    show Named s.log (c.install E _ d).modelL (c.install E _ d).modelGeneration
    obtain ⟨m, hm, hl, -, hg, -⟩ | ⟨-, hl, -, hg, -⟩ := c.install_model E s.sampleRate d <;>
      rw [hl, hg]
    · exact .inr (hp.ops hop m hm)
    · exact hc
  | slimmable q => exact absurd (audioOps_slimmable hop).1 ha
  | request ch => exact hc
  | reset => exact hc

theorem origin_audio {x y : Plugin} {a : AudioAction} (hx : OriginInv x)
    (h : step E x (.audio a) = some y) : OriginInv y := by
  have hn := numbered_step E hx.numbered h
  have hc := Carriage.holds_step E hx.carried h
  have hw := step_whole E hx.whole h
  obtain ⟨p, hp, h⟩ := Option.bind_eq_some_iff.1 h
  obtain ⟨r, hr, rfl⟩ := Option.map_eq_some_iff.1 h
  obtain ⟨l, hl, -⟩ := (audioStep_moves E hr).log
  have hdeact : r.1.deactivatedDsp = x.shared.deactivatedDsp := by
    rw [audioStep_shared E hr]
    rfl
  have hkept : ∀ d, r.1.deactivatedDsp = some d → Named r.1.log d.modelL d.modelGeneration := by
    intro d hd
    rw [hl]
    exact (hx.kept d (hdeact ▸ hd)).mono
  by_cases ha : a.isSlimmable = true
  · cases a <;> simp only [AudioAction.isSlimmable, Bool.false_eq_true] at ha
    case slimmable m =>
      simp only [audioStep] at hr
      split_ifs at hr
      cases slimmableMove_spec hr with
      | @take q rest hd hring =>
        have hrest : ∀ e ∈ rest, e.Origin x.shared.log := fun e he =>
          hx.ring e (hring ▸ List.mem_cons_of_mem q he)
        refine ⟨hn, hc, hw, hx.slot, hrest, fun p' e hp' he => ?_, fun p' hp' => ?_, hkept⟩
        · obtain rfl := Option.some.inj hp'
          obtain rfl := Option.some.inj he
          exact hx.ring q (hring ▸ List.mem_cons_self)
        · obtain rfl := Option.some.inj hp'
          exact hx.installed p hp
      | @install q hd hg =>
        refine ⟨hn, hc, hw, hx.slot, hx.ring, fun p' e hp' he => ?_, fun p' hp' => ?_, hkept⟩
        · obtain rfl := Option.some.inj hp'
          cases he
        · obtain rfl := Option.some.inj hp'
          obtain ⟨f, hlog, -, ch, n, resized, hm⟩ := hx.deferred p q hp hd
          refine .inr ?_
          show Event.model p.modelGeneration (some q.model.asset) ∈ x.shared.log
          rw [← hg, hm]
          exact hlog
      | @discard q hd hg =>
        refine ⟨hn, hc, hw, hx.slot, hx.ring, fun p' e hp' he => ?_, fun p' hp' => ?_, hkept⟩
        · obtain rfl := Option.some.inj hp'
          cases he
        · obtain rfl := Option.some.inj hp'
          exact hx.installed p hp
    case signalSlimmableRebuild ch =>
      simp only [audioStep] at hr
      split_ifs at hr
      obtain rfl := Option.some.inj hr
      refine ⟨hn, hc, hw, hx.slot, hx.ring, fun p' e hp' he => ?_, fun p' hp' => ?_, hkept⟩
      · obtain rfl := Option.some.inj hp'
        exact hx.deferred p e hp he
      · obtain rfl := Option.some.inj hp'
        exact hx.installed p hp
  · have ha := Bool.not_eq_true _ ▸ ha
    obtain ⟨hslim, hdef⟩ := audioStep_slim E hr ha
    have hb := hx.builds (t := r.1.slim) (by rw [hslim]) (by rw [hslim]) ⟨l, hl⟩
    refine ⟨hn, hc, hw, hb.1, hb.2, fun p' e hp' he => ?_, fun p' hp' => ?_, hkept⟩
    · obtain rfl := Option.some.inj hp'
      show e.Origin r.1.log
      rw [hl]
      exact (hx.deferred p e hp (hdef ▸ he)).mono
    · obtain rfl := Option.some.inj hp'
      show Named r.1.log r.2.modelL r.2.modelGeneration
      rw [hl]
      refine Named.mono (named_audio E (hx.installed p hp) (hx.carried.proc p hp) hr ?_)
      rintro rfl
      cases ha

/-- The model an activation starts with is the one its generation was adopted with. -/
theorem Prepared.named {s : Shared} {cfg : AudioConfig} {faults : ActivateCall → Bool}
    {restore : Option StagedRestore} {swap : Option StagedSwap} {pipe : Pipeline} {a : Assembly}
    (hs : assetCarriage.HoldsAt s.log s)
    (hd : ∀ d, s.deactivatedDsp = some d → Named s.log d.modelL d.modelGeneration)
    (h : Prepared E s cfg faults restore swap pipe a) :
    Named s.log a.modelL a.modelGeneration := by
  obtain ⟨-, -, hm, hk⟩ := assemble_spec h.assembled
  cases hst : stagedModel restore swap with
  | some m =>
    obtain ⟨hl, -, hg, -⟩ := hm m hst
    rw [hl, hg]
    exact .inr (Carriage.stagedModel_payload (hs.adaptStaged h.adapted) hst)
  | none =>
    have hk := hk hst
    rw [hk.modelL, hk.modelGeneration]
    cases hdeact : s.deactivatedDsp with
    | none => exact .inl ⟨rfl, rfl⟩
    | some d => exact hd d hdeact

/-- A deactivation keeps the model that runs, and leaves the commands alone. -/
theorem deactivate_kept (s : Shared) (p : Processor) :
    (∃ d, (deactivate s p).deactivatedDsp = some d ∧ d.modelL = p.modelL ∧
      d.modelGeneration = p.modelGeneration) ∧
    (deactivate s p).recoveredCommands = s.recoveredCommands ∧ (deactivate s p).ring = s.ring ∧
    (deactivate s p).log = s.log := by
  unfold deactivate
  cases p.deferred <;> exact ⟨⟨_, rfl, rfl, rfl⟩, rfl, rfl, rfl⟩

theorem origin_step {x y : Plugin} {a : Action} (hx : OriginInv x) (hG : CutsRequested x a)
    (h : step E x a = some y) : OriginInv y := by
  cases a with
  | main a =>
    obtain rfl := Option.some.inj h
    exact origin_main E hx hG
  | audio a => exact origin_audio E hx h
  | activate cfg faults =>
    have hn := numbered_step E hx.numbered h
    have hc := Carriage.holds_step E hx.carried h
    have hw := step_whole E hx.whole h
    simp only [step] at h
    split_ifs at h with hp
    obtain rfl := Option.some.inj h
    have hspec := activate_spec E x.shared cfg faults
    have hlog : (x.shared.activate E cfg faults).1.log = x.shared.log := hspec.log
    have hslim : (x.shared.activate E cfg faults).1.slim.slot = x.shared.slim.slot ∧
        (x.shared.activate E cfg faults).1.slim.ring = x.shared.slim.ring := by
      obtain hs | ⟨restore, swap, -, hs⟩ := hspec.slim
      · rw [hs]
        exact ⟨rfl, rfl⟩
      · have := publishStaged_republished x.shared restore
        unfold Shared.Republished at this
        rw [hs, this]
        exact ⟨rfl, rfl⟩
    have hb := hx.builds hslim.1 hslim.2 ⟨[], hlog⟩
    have hkept : ∀ d, (x.shared.activate E cfg faults).1.deactivatedDsp = some d →
        Named x.shared.log d.modelL d.modelGeneration := by
      intro d hd
      obtain he | he := activates_deactivated E hspec
      · exact hx.kept d (he ▸ hd)
      · rw [he] at hd
        cases hd
    have hproc : ∀ p, (x.shared.activate E cfg faults).2 = some p →
        p.slim.deferred = none ∧ Named x.shared.log p.modelL p.modelGeneration := by
      generalize x.shared.activate E cfg faults = r at hspec
      cases hspec with
      | ok hprep hf =>
        rintro p ⟨⟩
        exact ⟨rfl, hprep.named E hx.carried.shared hx.kept⟩
      | _ => rintro p ⟨⟩
    refine ⟨hn, hc, hw, hb.1, hb.2, fun p r hp hr => ?_, fun p hp => ?_, fun d hd => ?_⟩
    · rw [(hproc p hp).1] at hr
      cases hr
    · show Named (x.shared.activate E cfg faults).1.log _ _
      rw [hlog]
      exact (hproc p hp).2
    · show Named (x.shared.activate E cfg faults).1.log _ _
      rw [hlog]
      exact hkept d hd
  | deactivate =>
    have hn := numbered_step E hx.numbered h
    have hc := Carriage.holds_step E hx.carried h
    have hw := step_whole E hx.whole h
    simp only [step] at h
    split at h
    · rename_i p hp
      split_ifs at h
      obtain rfl := Option.some.inj h
      have hslim := deactivate_slim x.shared p
      obtain ⟨⟨d, hd, hl, hg⟩, -, -, hlog⟩ := deactivate_kept x.shared p
      have hb := hx.builds (t := (deactivate x.shared p).slim) (by rw [hslim]) (by rw [hslim])
        ⟨[], hlog⟩
      refine ⟨hn, hc, hw, hb.1, hb.2, fun q r hq => (by cases hq), fun q hq => (by cases hq),
        fun e he => ?_⟩
      obtain rfl := Option.some.inj (hd.symm.trans he)
      show Named (deactivate x.shared p).log _ _
      rw [hlog, hl, hg]
      exact hx.installed p hp
    · cases h

theorem origin_init : OriginInv (.init E.toParamEngine) where
  numbered := numbered_init E
  carried := Carriage.holds_init E
  whole := ⟨.none, fun _ h => (by cases h), fun _ h => (by cases h)⟩
  slot _ h := by cases h
  ring _ h := by cases h
  deferred _ _ h := by cases h
  installed _ h := by cases h
  kept _ h := by cases h

/-! ## Runs -/

/-- In a run whose builds cut the model of the requested generation, a slimmed model is installed on
the model whose full weights it was cut from. -/
theorem rebuild_origin {as : List Action} {x y : Plugin} {p : Processor} {r : SlimmableRebuild}
    (h : run (step E) (.init E.toParamEngine) as = some x)
    (hG : Guarded (step E) CutsRequested (.init E.toParamEngine) as) (hp : x.proc = some p)
    (hr : p.slim.deferred = some r) (hs : step E x (.audio (.slimmable .install)) = some y) :
    ∃ f, .model p.modelGeneration (some f.asset) ∈ x.shared.log ∧
      p.modelL.map StaticModel.asset = some f.asset ∧ r.CutFrom x.shared.log f := by
  have hx : OriginInv x := run_invariant (fun _ _ _ hI hG h => origin_step E hI hG h)
    (origin_init E) hG h
  obtain ⟨q, hq, hs⟩ := Option.bind_eq_some_iff.1 hs
  obtain rfl := Option.some.inj (hp.symm.trans hq)
  obtain ⟨z, hz, -⟩ := Option.map_eq_some_iff.1 hs
  simp only [audioStep] at hz
  split_ifs at hz
  have hgen : r.generation = p.modelGeneration := by
    cases slimmableMove_spec hz with
    | install hd hg => exact Option.some.inj (hr.symm.trans hd) ▸ hg
  obtain ⟨f, hlog, hcut⟩ := hx.deferred p r hp hr
  rw [hgen] at hlog
  refine ⟨f, hlog, ?_, hgen ▸ hlog, hcut⟩
  obtain ⟨-, h0⟩ | hnamed := hx.installed p hp
  · have := hx.numbered.positive hlog
    omega
  · exact hx.numbered.unique hnamed hlog

end

/-! ## Runs on fixed inputs -/

instance (s : Shared) (g : Nat) : Decidable (s.Publishes g) :=
  inferInstanceAs (Decidable (∀ w ∈ s.slim.fullWavenetModel, .model g (some w.asset) ∈ s.log))

instance (x : Plugin) : ∀ a, Decidable (CutsRequested x a)
  | .main (.publishSlimmable true _) =>
    match h : x.shared.slim.worker with
    | .building ch g => decidable_of_iff (4 ≤ ch → x.shared.Publishes g) (by
        simp only [CutsRequested, h])
    | .idle => isTrue (by simp only [CutsRequested, h])
  | .main (.handleSlimmableRebuildInline true _) =>
    inferInstanceAs (Decidable (x.shared.slim.needsRebuild = true →
      4 ≤ x.shared.slim.requestedCh → x.shared.Publishes x.shared.slim.requestedGeneration))
  | .main (.publishSlimmable false _) | .main (.handleSlimmableRebuildInline false _)
  | .main (.loadModel ..) | .main (.clearModel ..) | .main (.acceptModelRequest ..)
  | .main .dispatchModelLoad | .main (.dispatchModelLoadSync ..) | .main (.finishModelLoad ..)
  | .main (.pollModelLoaderResult ..) | .main (.flushPendingModel ..)
  | .main (.handlePendingIr ..) | .main .clearIr | .main (.restore ..)
  | .main .flushPendingRestore | .main (.flush ..) | .main .flushInFlightParams
  | .main .handleOversampleRebuild | .main .snapshotParams | .main (.guiStore ..)
  | .main (.guiAnnounce ..) | .main (.setRenderMode ..) | .main .pollSlimmable
  | .main .drainSlimmableRebuild | .main .lowerSlimmableFlag | .audio _ | .activate .. | .deactivate =>
    isTrue trivial

/-- The model that runs is slimmed, after the operations `as`. -/
def refCutAfter (as : List Action) : List Action := refWideInstalled ++ as ++ refCut 8

/-- The slimmed model that is about to be installed. -/
theorem refCutAfter_held {as : List Action} (hp : (refRun (refCutAfter as)).proc.isSome = true)
    (hr : (refProc (refCutAfter as) hp).slim.deferred.isSome = true)
    (hs : (step refEngine (refRun (refCutAfter as))
      (.audio (.slimmable .install))).isSome = true) :
    ∃ p r y, (refRun (refCutAfter as)).proc = some p ∧ p = refProc (refCutAfter as) hp ∧
      p.slim.deferred = some r ∧
      step refEngine (refRun (refCutAfter as)) (.audio (.slimmable .install)) = some y := by
  obtain ⟨r, hr⟩ := Option.isSome_iff_exists.1 hr
  obtain ⟨y, hy⟩ := Option.isSome_iff_exists.1 hs
  exact ⟨_, r, y, refProc_eq hp, rfl, hr, hy⟩

theorem rebuild_origin_same : ∃ p r f,
    (refRun (refCutAfter [])).proc = some p ∧ p.slim.deferred = some r ∧
      .model p.modelGeneration (some f.asset) ∈ (refRun (refCutAfter [])).shared.log ∧
      p.modelL.map StaticModel.asset = some f.asset ∧
      r.CutFrom (refRun (refCutAfter [])).shared.log f := by
  have hrun := @run_refRun (refCutAfter []) (by decide +kernel)
  obtain ⟨p, r, y, hp, -, hr, hs⟩ := @refCutAfter_held [] (by decide +kernel) (by decide +kernel)
    (by decide +kernel)
  obtain ⟨f, h⟩ := rebuild_origin refEngine hrun (by decide +kernel) hp hr hs
  exact ⟨p, r, f, hp, hr, h⟩

/-- A model of another rate is staged for a restart. Its weights are cut for the model that runs. -/
theorem rebuild_crossed :
    ¬∀ (E : Engine) (as : List Action) (x y : Plugin) (p : Processor) (r : SlimmableRebuild),
      run (step E) (.init E.toParamEngine) as = some x → x.proc = some p →
      p.slim.deferred = some r → step E x (.audio (.slimmable .install)) = some y →
      ∃ f, .model p.modelGeneration (some f.asset) ∈ x.shared.log ∧
        p.modelL.map StaticModel.asset = some f.asset ∧ r.CutFrom x.shared.log f := by
  intro h
  have hrun := @run_refRun (refCutAfter
    [.main (.loadModel { refWide "two.nam" with rate := 32000 } noFaults)]) (by decide +kernel)
  obtain ⟨p, r, y, hp, he, hr, hs⟩ := @refCutAfter_held
    [.main (.loadModel { refWide "two.nam" with rate := 32000 } noFaults)] (by decide +kernel)
    (by decide +kernel) (by decide +kernel)
  obtain ⟨f, -, hasset, -, -, ch, n, resized, hm⟩ := h _ _ _ _ _ _ hrun hp hr hs
  have hsame : p.modelL.map StaticModel.asset =
      p.slim.deferred.map fun r => r.model.asset := by
    rw [hasset, hr, Option.map_some, hm]
    rfl
  rw [he] at hsame
  exact absurd hsame (by decide +kernel)

end NamPlug
