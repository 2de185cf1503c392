import NamPlug.Plugin.Proof.Acknowledge
import NamPlug.Plugin.Proof.Origin
import NamPlug.Plugin.Proof.Outcomes
import NamPlug.State.Save

/-!
# The identity that is saved

`save_never_refused`: the guard of a save never fires. Every path by which an asset is adopted
records its digest with it, so wherever a run leads the parameters name a model with its basename, its
digest and its directory or none at all (`ModelNamed`), and so does whatever waits to be published.
-/

namespace NamPlug

open Machine Binary32

/-! ## Named assets -/

/-- The part of the parameters that names the model. -/
def ProcessingParams.modelIdentity (p : ProcessingParams) :
    Option Path × Option String × List Path × Option String :=
  (p.modelPath, p.modelBasename, p.modelSearchPaths, p.modelHash)

/-- A file as a model of it is recorded. -/
def ProcessingParams.namesModel (p : ProcessingParams) (a : Option Asset) : Prop :=
  p.modelPath = a.map Asset.path ∧ p.modelBasename = a.bind (·.path.fileName) ∧
    p.modelHash = a.map Asset.hash ∧
      ∀ d, a.bind (·.path.parent) = some d → d ∈ p.modelSearchPaths

def Asset.WellHashed (a : Asset) : Prop := isValidSha256Hex a.hash = true

def ProcessingParams.ModelNamed (p : ProcessingParams) : Prop :=
  ∃ a, p.namesModel a ∧ ∀ m, a = some m → m.WellHashed

/-- An impulse response, or none, with its digest. -/
def IrNamed (path : Option Path) (hash : Option String) : Prop :=
  ∃ a : Option Asset, path = a.map Asset.path ∧ hash = a.map Asset.hash ∧
    ∀ ir, a = some ir → ir.WellHashed

/-- A publication that names what it carries. -/
structure RestorePublish.Named (pub : RestorePublish) : Prop where
  model : ∃ a, pub.modelPathOnDisk = a.map Asset.path ∧
    pub.modelBasename = a.bind (·.path.fileName) ∧ pub.modelHash = a.map Asset.hash ∧
      pub.modelSearchPathToAdd = a.bind (·.path.parent) ∧ ∀ m, a = some m → m.WellHashed
  ir : IrNamed pub.irPathOnDisk pub.irHash

structure Identified (s : Shared) : Prop where
  model : s.params.ModelNamed
  ir : IrNamed s.irPath s.irHash
  pending : ∀ r, s.pendingRestore = some r → r.publish.Named
  staged : ∀ r, s.stagedRestore = some r → r.publish.Named
  loaded : ∀ r prep, s.modelResultSlot = some r → r.outcome = some prep → prep.file.asset.WellHashed

theorem ProcessingParams.ModelNamed.congr {p q : ProcessingParams} (h : p.ModelNamed)
    (hq : q.modelIdentity = p.modelIdentity) : q.ModelNamed := by
  obtain ⟨a, ⟨h1, h2, h3, h4⟩, hv⟩ := h
  simp only [ProcessingParams.modelIdentity, Prod.mk.injEq] at hq
  obtain ⟨k1, k2, k3, k4⟩ := hq
  exact ⟨a, ⟨k1.trans h1, k2.trans h2, k4.trans h3, fun d hd => k3 ▸ h4 d hd⟩, hv⟩

theorem IrNamed.none : IrNamed none none := ⟨.none, rfl, rfl, fun _ h => by cases h⟩

theorem IrNamed.some {ir : Asset} (h : ir.WellHashed) :
    IrNamed (Option.some ir.path) (Option.some ir.hash) :=
  ⟨Option.some ir, rfl, rfl, fun _ h' => Option.some.inj h' ▸ h⟩

/-- What a restore publishes is named where its assets are. -/
theorem restorePublish_named (s : Shared) {v : ValidatedRestore} (mode : RestoreMode)
    (hm : ∀ f, v.model = some f → f.asset.WellHashed) (hi : ∀ ir, v.ir = some ir → ir.WellHashed) :
    (restorePublish s v mode).Named := by
  refine ⟨⟨v.model.map ModelFile.asset, ?_, ?_, ?_, ?_, fun m h => ?_⟩, v.ir, rfl, rfl, hi⟩
  · exact (Option.map_map ..).symm
  · cases hv : v.model <;> simp [restorePublish, hv]
  · exact (Option.map_map ..).symm
  · cases hv : v.model <;> simp [restorePublish, hv]
  · obtain ⟨f, hf, rfl⟩ := Option.map_eq_some_iff.1 h
    exact hm f hf

/-! ## Operations -/

section
variable {s t : Shared}

/-- What leaves the identities alone, and holds back nothing new. -/
theorem Identified.of_eq (h : Identified s) (hp : t.params.modelIdentity = s.params.modelIdentity)
    (hi : t.irPath = s.irPath) (hh : t.irHash = s.irHash)
    (hr : ∀ r, t.pendingRestore = some r → s.pendingRestore = some r)
    (hg : ∀ r, t.stagedRestore = some r → s.stagedRestore = some r)
    (hl : ∀ r, t.modelResultSlot = some r → s.modelResultSlot = some r) : Identified t :=
  ⟨h.model.congr hp, by rw [hi, hh]; exact h.ir, fun r hr' => h.pending r (hr r hr'),
    fun r hg' => h.staged r (hg r hg'), fun r prep hl' => h.loaded r prep (hl r hl')⟩

theorem mem_searchPaths {ds : List Path} {o : Option Path} :
    ∀ d, o = some d → d ∈ (match o with
      | some d => if d ∈ ds then ds else ds ++ [d]
      | none => ds) := by
  rintro d rfl
  dsimp only
  split
  · assumption
  · exact List.mem_append_right _ (List.mem_singleton_self d)

theorem Identified.publishModelIdentity (h : Identified s) {file : ModelFile}
    (hf : file.asset.WellHashed) : Identified (s.publishModelIdentity file) where
  model := ⟨some file.asset, ⟨rfl, rfl, rfl, fun d hd => mem_searchPaths d hd⟩,
    fun _ hm => Option.some.inj hm ▸ hf⟩
  ir := h.ir
  pending := h.pending
  staged := h.staged
  loaded := h.loaded

theorem RestorePublish.Named.withModelIdentity {pub : RestorePublish} (h : pub.Named)
    (p : ProcessingParams) : (p.withModelIdentity pub).ModelNamed := by
  obtain ⟨a, h1, h2, h3, h4, hv⟩ := h.model
  refine ⟨a, ⟨h1, h2, h3, fun d hd => ?_⟩, hv⟩
  exact mem_searchPaths d (h4.trans hd)

/-- The parameter section of a publication names what it publishes, or leaves the model alone. -/
theorem Identified.publishParams (h : Identified s) {pub : RestorePublish} (hp : pub.Named) :
    Identified (s.publishParams pub) := by
  have hother : s.params.ModelNamed → (s.publishParams pub).params.ModelNamed := by
    intro hm
    simp only [Shared.publishParams]
    split
    · exact hp.withModelIdentity pub.params
    · exact hm.congr rfl
  exact ⟨hother h.model, h.ir, h.pending, h.staged, h.loaded⟩

theorem Identified.withIr (h : Identified s) {path : Option Path} {hash : Option String}
    (hi : IrNamed path hash) {q : Option IrSamples} {o : Option StagedSwap} :
    Identified { s with
      stagedSwap := o
      irPath := path
      irHash := hash
      irRawSamples := q
      params := { s.params with irPath := path, irHash := hash } } :=
  ⟨h.model.congr rfl, hi, h.pending, h.staged, h.loaded⟩

theorem Identified.publishRestore (h : Identified s) {pub : RestorePublish} (hp : pub.Named) :
    Identified (s.publishRestore pub) := by
  have hmodel : ∀ (rate : Nat) (w : Option StaticModel), Identified { s with
      modelSampleRate := rate, slim := { s.slim with fullWavenetModel := w } } := fun rate w =>
    h.of_eq rfl rfl rfl (fun _ h => h) (fun _ h => h) fun _ h => h
  have hir : ∀ t : Shared, Identified t → Identified (match pub.irPathOnDisk with
      | some path =>
        { t with
          irPath := some path
          irHash := pub.irHash
          irRawSamples := pub.irRawSamples
          params := { t.params with irPath := some path, irHash := pub.irHash } }
      | none =>
        if pub.modeFull then
          { t with
            irPath := none
            irHash := none
            irRawSamples := none
            params := { t.params with irPath := none, irHash := none } }
        else t) := by
    intro t ht
    have hn := hp.ir
    split
    · rename_i path hpath
      rw [hpath] at hn
      exact ht.withIr (o := t.stagedSwap) hn
    · split
      · exact ht.withIr (o := t.stagedSwap) .none
      · exact ht
  refine (hir _ ?_).publishParams hp
  split
  · exact hmodel _ _
  · split
    · exact hmodel _ _
    · exact h

theorem Swaps.identified {m : LoadModelPayload} (hs : Swaps s m t) (h : Identified s) :
    Identified t := by
  cases hs with
  | sent hf => exact h.of_eq rfl rfl rfl (fun _ h => h) (fun _ h => by cases h) fun _ h => h
  | retained hf => exact h.of_eq rfl rfl rfl (fun _ h => h) (fun _ h => by cases h) fun _ h => h
  | staged => exact h.of_eq rfl rfl rfl (fun _ h => h) (fun _ h => by cases h) fun _ h => h

theorem Identified.note (h : Identified s) (e : Event) : Identified (s.note e) :=
  h.of_eq rfl rfl rfl (fun _ h => h) (fun _ h => h) fun _ h => h

theorem Commits.identified {prep : PreparedModel} {g : Nat} (hc : Commits s prep g t)
    (h : Identified s) (hf : prep.file.asset.WellHashed) : Identified t := by
  cases hc with
  | inactive hb =>
    have hpend : Identified { s with
        pendingModel := some ⟨g, prep.modelL, prep.modelR, prep.file.rate⟩ } :=
      h.of_eq rfl rfl rfl (fun _ h => h) (fun _ h => h) fun _ h => h
    exact (hpend.publishModelIdentity hf).note _
  | failed => exact h
  | swapped hb hg ha ht hm => exact ((ht.identified h).publishModelIdentity hf).note _

theorem Identified.cleared (h : Identified s) : Identified s.cleared :=
  ⟨⟨none, ⟨rfl, rfl, rfl, fun _ h => by cases h⟩, fun _ h => by cases h⟩, h.ir, h.pending, h.staged,
    h.loaded⟩

theorem Clears.identified (hc : Clears s t) (h : Identified s) : Identified t := by
  cases hc with
  | inactive hb => exact h.cleared.of_eq rfl rfl rfl (fun _ h => h) (fun _ h => h) fun _ h => h
  | failed hb => exact h.cleared
  | swapped hb hg ha ht hm => exact (ht.identified h.cleared).note _

theorem Polls.identified (hp : Polls s t) (h : Identified s) : Identified t := by
  have hdrop : Identified { s with
      modelResultSlot := none, dispatchedModelGeneration := 0, dispatchedModelIsGui := false } :=
    h.of_eq rfl rfl rfl (fun _ h => h) (fun _ h => h) fun _ h => by cases h
  cases hp with
  | idle hs => exact h
  | dropped => exact hdrop
  | commits hr hg h0 ho ht => exact ht.identified hdrop (h.loaded _ _ hr ho)

theorem FlushesModel.identified {r : Shared × Bool} (hf : FlushesModel s r) (h : Identified s) :
    Identified r.1 := by
  cases hf with
  | idle hi => exact h
  | _ => exact h.of_eq rfl rfl rfl (fun _ h => h) (fun _ h => h) fun _ h => h

theorem Identified.adoptIr (h : Identified s) {ir : Asset} (hi : ir.WellHashed) (rate : Nat) :
    Identified (s.adoptIr ir rate) :=
  (h.withIr (o := s.stagedSwap) (q := some ⟨ir, rate⟩) (.some hi)).note _

theorem LoadsIr.identified {ir : Asset} (hl : LoadsIr s ir t) (h : Identified s)
    (hi : ir.WellHashed) : Identified t := by
  have hun : ∀ (o : Option StagedSwap) (ps : List ClapParamPayload) (c : Option RtProcessingParams)
      (u : Option Path), Identified { { s with stagedRestore := none, stagedSwap := o }.sent ps c with
        uiPendingIr := u } := fun o ps c u =>
    h.of_eq rfl rfl rfl (fun _ h => h) (fun _ h => by cases h) fun _ h => h
  cases hl with
  | recorded ha => exact h.adoptIr hi _
  | failed ha hb => exact h.of_eq rfl rfl rfl (fun _ h => h) (fun _ h => by cases h) fun _ h => h
  | sent ha hb hf hc => exact (hun _ _ _ s.uiPendingIr).adoptIr hi _
  | kept ha hb hf => exact hun _ _ _ _
  | staged ha hb =>
    exact (h.of_eq (t := { s with
      stagedRestore := none
      stagedSwap := some { s.stagedSwap.getD .empty with
        ir := some (some ⟨ir, s.hostRate, s.bufferSize⟩) } }) rfl rfl rfl (fun _ h => h)
      (fun _ h => by cases h) fun _ h => h).adoptIr hi _

theorem Packaged.identified {v : ValidatedRestore} {mode : RestoreMode} {publish : RestorePublish}
    {txn : RestoreTxn} (hp : Packaged s v mode t publish txn) (h : Identified s) : Identified t := by
  rw [hp.state]
  exact h.of_eq rfl rfl rfl (fun _ h => h) (fun _ h => h) fun _ h => h

theorem Identified.noteRestore (h : Identified s) (txn : RestoreTxn) :
    Identified (s.noteRestore txn) := by
  rw [noteRestore_eq]
  exact h.of_eq rfl rfl rfl (fun _ h => h) (fun _ h => h) fun _ h => h

/-- A restore that was validated carries digests. -/
structure ValidatedRestore.WellHashed (v : ValidatedRestore) : Prop where
  model : ∀ f, v.model = some f → f.asset.WellHashed
  ir : ∀ ir, v.ir = some ir → ir.WellHashed

theorem Restores.identified {v : ValidatedRestore} {mode : RestoreMode} (hr : Restores s v mode t)
    (h : Identified s) (hv : v.WellHashed) : Identified t := by
  have hpub := restorePublish_named s mode hv.model hv.ir
  cases hr with
  | failed => exact h
  | staged hp =>
    have ht := hp.identified h
    rw [← hp.publication] at hpub
    refine Identified.noteRestore ?_ _
    exact ⟨ht.model, ht.ir, ht.pending, fun r hr => Option.some.inj hr ▸ hpub, ht.loaded⟩
  | sent hp hf =>
    have ht := hp.identified h
    rw [← hp.publication] at hpub
    refine Identified.noteRestore ?_ _
    exact ⟨ht.model, ht.ir, fun r hr => Option.some.inj hr ▸ hpub, fun r hr => (by cases hr),
      ht.loaded⟩
  | kept hp hf =>
    have ht := hp.identified h
    rw [← hp.publication] at hpub
    refine Identified.noteRestore ?_ _
    exact ⟨ht.model, ht.ir, fun r hr => Option.some.inj hr ▸ hpub, fun r hr => (by cases hr),
      ht.loaded⟩

theorem Identified.publishIfAcked (h : Identified s) : Identified s.publishIfAcked := by
  obtain he | ⟨r, hr, -, -, he⟩ := publishIfAcked_cases s <;> rw [he]
  · exact h
  · have hclear : Identified { s with pendingRestore := none } :=
      h.of_eq rfl rfl rfl (fun _ h => by cases h) (fun _ h => h) fun _ h => h
    exact (hclear.publishRestore (h.pending r hr)).note _

theorem FlushesRestore.identified (hf : FlushesRestore s t) (h : Identified s) : Identified t := by
  cases hf with
  | idle hi => exact h
  | waiting hr ht => exact h.publishIfAcked
  | @sent r txn ps hr ht hf =>
    refine Identified.publishIfAcked ?_
    exact ⟨h.model, h.ir, fun r' hr' => Option.some.inj hr' ▸ h.pending r hr, h.staged, h.loaded⟩
  | kept hr ht hf => exact h.of_eq rfl rfl rfl (fun _ h => h) (fun _ h => h) fun _ h => h

theorem localCommit_identified {v : ValidatedRestore} (mode : RestoreMode) (h : Identified s)
    (hv : v.WellHashed) : Identified (s.localCommit v mode) := by
  have hm : Identified (s.localModel v mode) := by
    unfold Shared.localModel
    split
    · exact h.of_eq rfl rfl rfl (fun _ h => h) (fun _ h => h) fun _ h => h
    · exact h.of_eq rfl rfl rfl (fun _ h => h) (fun _ h => h) fun _ h => h
    · exact h
  have hi : Identified ((s.localModel v mode).localIr v mode) := by
    unfold Shared.localIr
    split
    · rename_i ir hir
      exact (hm.withIr (.some (hv.ir ir hir))).note _
    · exact (hm.withIr .none).note _
    · exact hm
  exact (hi.publishParams (restorePublish_named s mode hv.model hv.ir)).note _

end

/-! ## Runs -/

/-- The files an action brings in were hashed. -/
def MainAction.WellHashed : MainAction → Prop
  | .loadModel file _ => file.asset.WellHashed
  | .dispatchModelLoadSync file _ => ∀ f, file = some f → f.asset.WellHashed
  | .finishModelLoad file _ => ∀ f, file = some f → f.asset.WellHashed
  | .handlePendingIr ir _ => ir.WellHashed
  | .restore v _ _ => v.WellHashed
  | _ => True

def Action.WellHashed : Action → Prop
  | .main a => a.WellHashed
  | _ => True

section
variable {E : Engine}

theorem prepareModel_file {file : ModelFile} {epoch : AudioEpoch} {faults : EngineCall → Bool}
    {prep : PreparedModel} (h : prepareModel file epoch faults = some prep) : prep.file = file := by
  cases prepareModel_spec h with
  | unsized hb hf => exact hf
  | sized hb hf => exact hf

theorem loadModel_identified {s : Shared} (h : Identified s) {file : ModelFile}
    (hf : file.asset.WellHashed) (faults : EngineCall → Bool) :
    Identified (s.loadModel E file faults) := by
  obtain he | ⟨prep, hc, hp⟩ := loadModel_spec E s file faults
  · rw [he]
    exact h
  · have hs : Identified s.allocateModelGeneration :=
      h.of_eq rfl rfl rfl (fun _ h => h) (fun _ h => h) fun _ h => h
    exact hc.identified hs (by rw [prepareModel_file hp]; exact hf)

theorem sendParams_identified {s : Shared} (h : Identified s) (q : RtProcessingParams) :
    Identified (s.sendParams q) := by
  obtain he | he := sendParams_cases s q <;> rw [he]
  · exact h.of_eq rfl rfl rfl (fun _ h => h) (fun _ h => h) fun _ h => h
  · exact h.of_eq rfl rfl rfl (fun _ h => h) (fun _ h => h) fun _ h => h

theorem noteEvents_identified (input : List ParamValueEvent) {s : Shared} (h : Identified s) :
    Identified (input.foldl (fun s e => s.noteEvent E e.id (narrow e.value)) s) := by
  induction input generalizing s with
  | nil => exact h
  | cons e es ih =>
    refine ih ?_
    show Identified (s.noteEvent E e.id (narrow e.value))
    unfold Shared.noteEvent
    split
    · exact h
    · exact h.note _
    · exact h

theorem mainStep_identified {s : Shared} {a : MainAction} (h : Identified s)
    (ha : a.WellHashed) : Identified (mainStep E s a) := by
  have hsame : ∀ t : Shared, t.params.modelIdentity = s.params.modelIdentity → t.irPath = s.irPath →
      t.irHash = s.irHash → t.pendingRestore = s.pendingRestore →
      t.stagedRestore = s.stagedRestore → t.modelResultSlot = s.modelResultSlot → Identified t :=
    fun t hp hi hh hr hg hl => h.of_eq hp hi hh (fun r => hr ▸ id) (fun r => hg ▸ id) fun r => hl ▸ id
  cases a <;> simp only [mainStep]
  case loadModel file faults => exact loadModel_identified h ha faults
  case clearModel faults => exact (clearModel_spec E s faults).identified h
  case acceptModelRequest path isGui => exact hsame _ rfl rfl rfl rfl rfl rfl
  case dispatchModelLoad =>
    unfold Shared.dispatchModelLoad
    split
    · exact h
    · split <;> exact hsame _ rfl rfl rfl rfl rfl rfl
  case dispatchModelLoadSync file faults =>
    unfold Shared.dispatchModelLoadSync
    split
    · exact h
    · split
      · exact h
      · exact hsame _ rfl rfl rfl rfl rfl rfl
      · dsimp only
        split
        · refine loadModel_identified ?_ (ha _ rfl) faults
          exact hsame _ rfl rfl rfl rfl rfl rfl
        · exact hsame _ rfl rfl rfl rfl rfl rfl
  case finishModelLoad file faults =>
    unfold Shared.finishModelLoad
    split
    · exact h
    · refine ⟨h.model, h.ir, h.pending, h.staged, fun r prep hr ho => ?_⟩
      obtain rfl := Option.some.inj hr
      obtain ⟨f, hf, hp⟩ := Option.bind_eq_some_iff.1 ho
      rw [prepareModel_file hp]
      exact ha f (Option.filter_eq_some_iff.1 hf).1
  case pollModelLoaderResult faults => exact (pollModelLoaderResult_spec E s faults).identified h
  case flushPendingModel faults => exact (flushPendingModel_spec s faults).identified h
  case handlePendingIr ir faults =>
    refine (loadCabsim_spec { s with uiPendingIr := none } ir faults).identified ?_ ha
    exact hsame _ rfl rfl rfl rfl rfl rfl
  case clearIr =>
    unfold Shared.clearIr
    split
    · exact h.note _
    · exact ⟨h.model, .none, h.pending, h.staged, h.loaded⟩
  case restore v mode faults =>
    unfold Shared.commitRestore
    split
    · exact localCommit_identified mode h ha
    · exact (atomicCommit_spec E s v mode faults).identified h ha
  case flushPendingRestore => exact (flushPendingRestore_spec s).identified h
  case flush room input =>
    unfold Shared.flush
    dsimp only
    have hin : ∀ (q : RtProcessingParams) (u : UiToRt), Identified
        (input.foldl (fun s e => s.noteEvent E e.id (narrow e.value))
          { s with params := { s.params with rt := q }, ui := u }) := fun q u =>
      noteEvents_identified input (hsame _ rfl rfl rfl rfl rfl rfl)
    split
    · exact sendParams_identified (hin _ _) _
    · exact hin _ _
  case flushInFlightParams =>
    unfold Shared.flushInFlightParams
    split
    · refine sendParams_identified ?_ _
      exact hsame _ rfl rfl rfl rfl rfl rfl
    · exact h
  case handleOversampleRebuild =>
    unfold Shared.handleOversampleRebuild
    split
    · exact h
    · rename_i f _
      obtain ⟨ps, hf, hp⟩ | ⟨ps, c, hf, hp⟩ :=
        tryPushCommand_cases s (.setOversample ⟨f⟩ ⟨f⟩) <;> rw [hp]
      · exact hsame _ rfl rfl rfl rfl rfl rfl
      · exact hsame _ rfl rfl rfl rfl rfl rfl
  case publishSlimmable sliced resized =>
    rw [publishSlimmable_eq]
    exact hsame _ rfl rfl rfl rfl rfl rfl
  case handleSlimmableRebuildInline sliced resized =>
    rw [handleSlimmableRebuildInline_eq]
    exact hsame _ rfl rfl rfl rfl rfl rfl
  all_goals exact hsame _ rfl rfl rfl rfl rfl rfl

theorem Activates.identified {s : Shared} {cfg : AudioConfig} {faults : ActivateCall → Bool}
    {r : Shared × Option Processor} (ha : Activates E s cfg faults r) (h : Identified s) :
    Identified r.1 := by
  have hstaged : ∀ {ok restore swap}, adaptStaged s cfg faults = (ok, restore, swap) →
      ∀ q, restore = some q → q.publish.Named := by
    intro ok restore swap hs q hq
    rw [adaptStaged_restore hs, Option.map_eq_some_iff] at hq
    obtain ⟨r, hr, rfl⟩ := hq
    rw [adaptRestore_publish]
    exact h.staged r hr
  have hrecover : ∀ t : Shared, Identified t → Identified t.recoverRing := fun t ht =>
    ht.of_eq rfl rfl rfl (fun _ h => h) (fun _ h => h) fun _ h => h
  have hflush : ∀ {restore swap a t ok}, adaptStaged s cfg faults = (true, restore, swap) →
      (s.published E cfg restore a).flushPendingModel (fun c => faults (.flush c)) = (t, ok) →
      Identified t := by
    intro restore swap a t ok hs hf
    have htaken : Identified s.taken :=
      h.of_eq rfl rfl rfl (fun _ h => h) (fun _ h => by cases h) fun _ h => h
    have hpub : Identified (s.published E cfg restore a) := by
      cases restore with
      | none => exact htaken.of_eq rfl rfl rfl (fun _ h => h) (fun _ h => h) fun _ h => h
      | some q =>
        have hq := htaken.publishRestore (hstaged hs q rfl)
        exact hq.of_eq rfl rfl rfl (fun _ h => h) (fun _ h => h) fun _ h => h
    have ht := (flushPendingModel_spec (s.published E cfg restore a)
      fun c => faults (.flush c)).identified hpub
    rwa [hf] at ht
  cases ha with
  | noConsumer hc => exact h
  | early hp he => exact hrecover s h
  | adapt hp hg hl hb hpipe hs =>
    refine hrecover _ ⟨h.model, h.ir, h.pending, fun q hq => ?_, h.loaded⟩
    exact hstaged hs q hq
  | flush hprep hf =>
    exact (hflush hprep.adapted hf).of_eq rfl rfl rfl (fun _ h => h) (fun _ h => h) fun _ h => h
  | ok hprep hf =>
    exact (hflush hprep.adapted hf).of_eq rfl rfl rfl (fun _ h => h) (fun _ h => h) fun _ h => h

theorem identified_step {x y : Plugin} {a : Action} (h : Identified x.shared)
    (ha : a.WellHashed) (hs : step E x a = some y) : Identified y.shared := by
  cases a with
  | main a =>
    obtain rfl := Option.some.inj hs
    exact mainStep_identified h ha
  | audio a =>
    obtain ⟨p, -, hs⟩ := Option.bind_eq_some_iff.1 hs
    obtain ⟨r, hr, rfl⟩ := Option.map_eq_some_iff.1 hs
    show Identified r.1
    rw [audioStep_shared E hr]
    exact h.of_eq rfl rfl rfl (fun _ h => h) (fun _ h => h) fun _ h => h
  | activate cfg faults =>
    simp only [step] at hs
    split_ifs at hs
    obtain rfl := Option.some.inj hs
    exact (activate_spec E x.shared cfg faults).identified h
  | deactivate =>
    simp only [step] at hs
    split at hs
    · rename_i p hp
      split_ifs at hs
      obtain rfl := Option.some.inj hs
      show Identified (deactivate x.shared p)
      unfold deactivate
      cases p.deferred <;>
        exact h.of_eq rfl rfl rfl (fun _ h => h) (fun _ h => h) fun _ h => h
    · cases hs

theorem identified_init : Identified (Plugin.init E.toParamEngine).shared where
  model := ⟨none, ⟨rfl, rfl, rfl, fun _ h => by cases h⟩, fun _ h => by cases h⟩
  ir := .none
  pending _ h := by cases h
  staged _ h := by cases h
  loaded _ _ h := by cases h

theorem identified_run {as : List Action} {x : Plugin}
    (hx : run (step E) (.init E.toParamEngine) as = some x) (ha : ∀ a ∈ as, a.WellHashed) :
    Identified x.shared :=
  run_invariant (I := fun x : Plugin => Identified x.shared)
    (G := fun _ a => a.WellHashed ∧ True) (fun _ _ _ hI hG hs => identified_step hI hG.1 hs)
    identified_init ((Guarded.of_forall (fun _ _ => trivial) _ as).and_forall ha) hx

/-! ## The guard of a save -/

/-- The parameters a save snapshots. -/
theorem Identified.snapshot {s : Shared} (h : Identified s) (E : ParamEngine) :
    (s.snapshotParams E).params.ModelNamed ∧
      IrNamed (s.snapshotParams E).params.irPath (s.snapshotParams E).params.irHash := by
  refine ⟨h.model.congr rfl, ?_⟩
  obtain ⟨a, hp, hh, hv⟩ := h.ir
  refine ⟨a, hp, ?_, hv⟩
  simp only [Shared.snapshotParams, hp, hh]
  cases a <;> rfl

/-- The guard passes on parameters that name their assets. -/
theorem ensureAssetHashes_named {p : ProcessingParams} (hm : p.ModelNamed)
    (hi : IrNamed p.irPath p.irHash) (mode : RestoreMode) :
    ensureAssetHashes (mode.savedParams p) (mode = .forPreset) = .ok () := by
  obtain ⟨a, ⟨h1, h2, h3, -⟩, hv⟩ := hm
  obtain ⟨b, k1, k2, kv⟩ := hi
  have hmodel : a = none ∨ ∃ m, a = some m ∧ isValidSha256Hex m.hash = true := by
    cases a with
    | none => exact .inl rfl
    | some m => exact .inr ⟨m, rfl, hv m rfl⟩
  have hir : b = none ∨ ∃ ir, b = some ir ∧ isValidSha256Hex ir.hash = true := by
    cases b with
    | none => exact .inl rfl
    | some ir => exact .inr ⟨ir, rfl, kv ir rfl⟩
  unfold ensureAssetHashes
  cases mode with
  | full =>
    obtain rfl | ⟨m, rfl, hm⟩ := hmodel <;> obtain rfl | ⟨ir, rfl, hir⟩ := hir <;>
      simp [RestoreMode.savedParams, *]
  | forPreset =>
    obtain rfl | ⟨m, rfl, hm⟩ := hmodel <;> simp [RestoreMode.savedParams, *]

/-- Wherever a run leads, the guard of a save does not refuse, and what is saved names its assets by
path, basename and digest, or has none. -/
theorem save_never_refused {as : List Action} {x : Plugin}
    (hx : run (step E) (.init E.toParamEngine) as = some x) (ha : ∀ a ∈ as, a.WellHashed)
    (writer : StateWriter) (write : ByteArray → Except String Unit) (mode : RestoreMode) :
    (x.shared.save E.toParamEngine writer write mode).2 = (do
      let bytes ← serializeEnvelope writer
        (mode.savedParams (x.shared.snapshotParams E.toParamEngine).params)
      (write bytes).mapError .writeStream) ∧
    (x.shared.snapshotParams E.toParamEngine).params.ModelNamed ∧
    IrNamed (x.shared.snapshotParams E.toParamEngine).params.irPath
      (x.shared.snapshotParams E.toParamEngine).params.irHash := by
  obtain ⟨hm, hi⟩ := (identified_run hx ha).snapshot E.toParamEngine
  refine ⟨?_, hm, hi⟩
  simp only [Shared.save, savedBytes, ensureAssetHashes_named hm hi mode]
  rfl

end

/-! ## A run on fixed inputs -/

def refAmp : ModelFile :=
  { refFile "amp.nam" with asset := ⟨⟨true, ["amps", "amp.nam"]⟩, String.ofList (List.replicate 64 'a')⟩ }

/-- A model is loaded before the activation, and a preset without a model is restored after it. -/
def refAmpLoaded : List Action :=
  [.main (.loadModel refAmp noFaults), refActivate,
    .main (.restore refPreset .forPreset noFaults)]

theorem save_never_refused_amp :
    (refRun refAmpLoaded).shared.params.modelBasename = some "amp.nam" ∧
      ((refRun refAmpLoaded).shared.save refParamEngine (fun _ => .ok .empty) (fun _ => .ok ())
        .full).2 = .ok () := by
  have hhashed : ∀ a ∈ refAmpLoaded, a.WellHashed := by
    have hamp : refAmp.asset.WellHashed := by
      show isValidSha256Hex _ = true
      decide +kernel
    have hpreset : refPreset.WellHashed := ⟨fun _ h => (by cases h), fun _ h => (by cases h)⟩
    simp only [refAmpLoaded, List.forall_mem_cons]
    exact ⟨hamp, trivial, hpreset, fun _ h => by cases h⟩
  refine ⟨by decide +kernel, ?_⟩
  exact (save_never_refused (run_refRun (by decide +kernel)) hhashed _ _ .full).1

end NamPlug
