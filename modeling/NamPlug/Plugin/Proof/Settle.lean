import NamPlug.Plugin.Proof.Acknowledge
import NamPlug.Plugin.Proof.Backlog
import NamPlug.Plugin.Proof.Sequence
import NamPlug.Params.Proof.Sync

/-!
# Nothing stays stuck

Each move of a drain makes its rank smaller (`drainMove_rank`), so callbacks that make a move wherever
there is one come to an end of what waits, whatever budget they have (`callback_returns`). `nothing_stuck`:
two rounds of such callbacks, each with the housekeeping of the main thread after it, deliver and
acknowledge all that was asked for. `activation_available`: after any history, failed activations
included, an activation whose engine calls succeed succeeds.
-/

namespace NamPlug

open Machine Binary32

/-! ## The main thread -/

/-- A snapshot that waits for the ring is still in flight, and a restore that was sent has the
sequence number it was sent with. -/
structure Shared.Orderly (s : Shared) : Prop where
  snapshot : s.coalescing.isSome = true → s.inFlightParams.isSome = true
  awaited : ∀ r, s.pendingRestore = some r → r.txn = none → 0 < r.seq ∧ r.seq ≤ s.cmdNextSeq

/-- What keeps the channel ends in their places, and the waiting items in order. -/
structure Tidy (s t : Shared) : Prop where
  paramRx : t.paramRx = s.paramRx
  gcTx : t.gcTx = s.gcTx
  slimmableRx : t.slimmableRx = s.slimmableRx
  orderly : s.Orderly → t.Orderly

theorem Tidy.refl (s : Shared) : Tidy s s := ⟨rfl, rfl, rfl, id⟩

section
variable {s t u : Shared}

theorem Tidy.trans (h : Tidy s t) (k : Tidy t u) : Tidy s u :=
  ⟨k.paramRx.trans h.paramRx, k.gcTx.trans h.gcTx, k.slimmableRx.trans h.slimmableRx,
    k.orderly ∘ h.orderly⟩

/-- An operation that sends nothing and leaves the pending restore alone. -/
theorem Tidy.of_eq (hp : t.paramRx = s.paramRx) (hg : t.gcTx = s.gcTx)
    (hl : t.slimmableRx = s.slimmableRx) (hc : t.coalescing = s.coalescing)
    (hf : t.inFlightParams = s.inFlightParams) (hr : t.pendingRestore = s.pendingRestore)
    (hn : t.cmdNextSeq = s.cmdNextSeq) : Tidy s t :=
  ⟨hp, hg, hl, fun h => ⟨by rw [hc, hf]; exact h.snapshot, by rw [hr, hn]; exact h.awaited⟩⟩

/-- A push leaves no snapshot behind, or the one that waited. -/
theorem Tidy.sent {ps d : List ClapParamPayload} {c : Option RtProcessingParams}
    (hf : Flushed u ps c) (hu : u.coalescing = s.coalescing) : Tidy s (s.sent d c) := by
  refine ⟨rfl, rfl, rfl, fun h => ⟨fun hc => ?_, fun r hr ht => ?_⟩⟩
  · obtain ⟨q, hq⟩ := Option.isSome_iff_exists.1 hc
    refine h.snapshot ?_
    rw [← hu, hf.left q hq]
    rfl
  · exact (h.awaited r hr ht).imp id fun h => Nat.le_trans h (Nat.le_add_right ..)

theorem Tidy.note (s : Shared) (e : Event) : Tidy s (s.note e) :=
  .of_eq rfl rfl rfl rfl rfl rfl rfl

theorem Swaps.tidy {m : LoadModelPayload} (h : Swaps s m t) : Tidy s t := by
  have hun : Tidy s s.unstaged := .of_eq rfl rfl rfl rfl rfl rfl rfl
  cases h with
  | sent hf => exact hun.trans (.sent hf rfl)
  | @retained ps c hf =>
    refine Tidy.trans (t := s.unstaged.sent ps c) (hun.trans (.sent hf rfl)) ?_
    exact .of_eq rfl rfl rfl rfl rfl rfl rfl
  | staged => exact .of_eq rfl rfl rfl rfl rfl rfl rfl

theorem Commits.tidy {prep : PreparedModel} {g : Nat} (h : Commits s prep g t) : Tidy s t := by
  cases h with
  | inactive h => exact .of_eq rfl rfl rfl rfl rfl rfl rfl
  | failed => exact .refl s
  | swapped hb hg ha ht hm =>
    refine ht.tidy.trans ?_
    exact .of_eq rfl rfl rfl rfl rfl rfl rfl

theorem Clears.tidy (h : Clears s t) : Tidy s t := by
  have hc : Tidy s s.cleared := .of_eq rfl rfl rfl rfl rfl rfl rfl
  cases h with
  | inactive h => exact .of_eq rfl rfl rfl rfl rfl rfl rfl
  | failed h => exact hc
  | swapped hb hg ha ht hm => exact (hc.trans ht.tidy).trans (.note _ _)

theorem Polls.tidy (h : Polls s t) : Tidy s t := by
  cases h with
  | idle h => exact .refl s
  | dropped => exact .of_eq rfl rfl rfl rfl rfl rfl rfl
  | commits hr hg h0 ho ht =>
    refine Tidy.trans ?_ ht.tidy
    exact .of_eq rfl rfl rfl rfl rfl rfl rfl

theorem FlushesModel.tidy {r : Shared × Bool} (h : FlushesModel s r) : Tidy s r.1 := by
  cases h with
  | idle h => exact .refl s
  | failed hp hb hg ha hq => exact .of_eq rfl rfl rfl rfl rfl rfl rfl
  | sent hp hb hg ha hf hm =>
    refine Tidy.trans (t := { s with pendingModel := none }) ?_ (.sent hf rfl)
    exact .of_eq rfl rfl rfl rfl rfl rfl rfl
  | @kept p q ps c hp hb hg ha hf hq =>
    refine Tidy.trans (t := s.sent ps c) (.sent hf rfl) ?_
    exact .of_eq rfl rfl rfl rfl rfl rfl rfl

theorem LoadsIr.tidy {ir : Asset} (h : LoadsIr s ir t) : Tidy s t := by
  have hun : Tidy s s.unstagedIr := .of_eq rfl rfl rfl rfl rfl rfl rfl
  have hadopt : ∀ u : Shared, Tidy u (u.adoptIr ir s.hostRate) := fun u =>
    .of_eq rfl rfl rfl rfl rfl rfl rfl
  cases h with
  | recorded h => exact hadopt s
  | failed h hb => exact .of_eq rfl rfl rfl rfl rfl rfl rfl
  | sent h hb hf hl => exact (hun.trans (.sent hf rfl)).trans (hadopt _)
  | @kept ps c h hb hf =>
    refine Tidy.trans (t := s.unstagedIr.sent ps c) (hun.trans (.sent hf rfl)) ?_
    exact .of_eq rfl rfl rfl rfl rfl rfl rfl
  | staged h hb =>
    refine Tidy.trans ?_ (hadopt _)
    exact .of_eq rfl rfl rfl rfl rfl rfl rfl

/-- A restore that waits for its acknowledgement is counted. -/
theorem Tidy.pending (h : Tidy s t) {r : PendingRestore}
    (hr : r.txn = none → 0 < r.seq ∧ r.seq ≤ t.cmdNextSeq) :
    Tidy s { t with pendingRestore := some r } :=
  ⟨h.paramRx, h.gcTx, h.slimmableRx, fun hs => ⟨(h.orderly hs).snapshot, fun r' hr' ht => by
    obtain rfl := Option.some.inj hr'
    exact hr ht⟩⟩

theorem Tidy.publishRestore (s : Shared) (pub : RestorePublish) : Tidy s (s.publishRestore pub) := by
  rw [publishRestore_eq]
  exact .of_eq rfl rfl rfl rfl rfl rfl rfl

theorem Tidy.noteRestore (s : Shared) (txn : RestoreTxn) : Tidy s (s.noteRestore txn) := by
  rw [noteRestore_eq]
  exact .of_eq rfl rfl rfl rfl rfl rfl rfl

theorem Packaged.tidy {v : ValidatedRestore} {mode : RestoreMode} {publish : RestorePublish}
    {txn : RestoreTxn} (h : Packaged s v mode t publish txn) : Tidy s t := by
  rw [h.state]
  exact .of_eq rfl rfl rfl rfl rfl rfl rfl

theorem Restores.tidy {v : ValidatedRestore} {mode : RestoreMode} (h : Restores s v mode t) :
    Tidy s t := by
  cases h with
  | failed => exact .refl s
  | @staged t publish txn o hp =>
    refine (hp.tidy.trans ?_).trans (.noteRestore _ txn)
    exact .of_eq rfl rfl rfl rfl rfl rfl rfl
  | @sent t publish txn ps hp hf =>
    have hun : Tidy s { t with stagedRestore := none, stagedSwap := none } :=
      hp.tidy.trans (.of_eq rfl rfl rfl rfl rfl rfl rfl)
    have hc : s.coalescing = ({ t with stagedRestore := none, stagedSwap := none } :
      Shared).coalescing := by rw [hp.state]
    have hn : t.cmdNextSeq = s.cmdNextSeq := by rw [hp.state]
    refine ((hun.trans (.sent (d := ps ++ [.restoreTxn txn]) hf hc)).pending fun _ => ?_).trans
      (.noteRestore _ txn)
    simp [Shared.sent, hn]
  | @kept t publish txn ps c hp hf =>
    have hun : Tidy s { t with stagedRestore := none, stagedSwap := none } :=
      hp.tidy.trans (.of_eq rfl rfl rfl rfl rfl rfl rfl)
    have hc : s.coalescing = ({ t with stagedRestore := none, stagedSwap := none } :
      Shared).coalescing := by rw [hp.state]
    refine ((hun.trans (.sent hf hc)).pending ?_).trans (.noteRestore _ txn)
    intro h
    cases h

theorem Tidy.publishIfAcked (s : Shared) : Tidy s s.publishIfAcked := by
  obtain h | ⟨r, -, -, -, h⟩ := publishIfAcked_cases s <;> rw [h]
  · exact .refl s
  · refine Tidy.trans (t := { s with pendingRestore := none }) ?_
      ((Tidy.publishRestore _ _).trans (.note _ _))
    exact ⟨rfl, rfl, rfl, fun h => ⟨h.snapshot, fun r hr => by cases hr⟩⟩

theorem FlushesRestore.tidy (h : FlushesRestore s t) : Tidy s t := by
  cases h with
  | idle h => exact .refl s
  | waiting hr ht => exact .publishIfAcked s
  | @sent r txn ps hr ht hf =>
    refine ((Tidy.sent (d := ps ++ [.restoreTxn txn]) hf rfl).pending fun _ => ?_).trans
      (.publishIfAcked _)
    simp [Shared.sent]
  | kept hr ht hf => exact .sent hf rfl

/-- A snapshot that is sent goes out, or it is in flight. -/
theorem Tidy.sendParams {o : Option RtProcessingParams} (q : RtProcessingParams) :
    Tidy s ({ s with inFlightParams := o }.sendParams q) := by
  obtain h | h := sendParams_cases { s with inFlightParams := o } q <;> rw [h]
  · refine ⟨rfl, rfl, rfl, fun h => ⟨fun hc => (by cases hc), fun r hr ht => ?_⟩⟩
    exact (h.awaited r hr ht).imp id fun h => Nat.le_trans h (Nat.le_add_right ..)
  · exact ⟨rfl, rfl, rfl, fun h => ⟨fun _ => rfl, h.awaited⟩⟩

theorem Tidy.sent_params (s : Shared) (q : RtProcessingParams) : Tidy s (s.sendParams q) :=
  .sendParams (o := s.inFlightParams) q

theorem localCommit_tidy (s : Shared) (v : ValidatedRestore) (mode : RestoreMode) :
    Tidy s (s.localCommit v mode) := by
  have hm : Tidy s (s.localModel v mode) := by
    unfold Shared.localModel
    split
    · exact .of_eq rfl rfl rfl rfl rfl rfl rfl
    · exact .of_eq rfl rfl rfl rfl rfl rfl rfl
    · exact .refl s
  have hi : ∀ t : Shared, Tidy t (t.localIr v mode) := by
    intro t
    unfold Shared.localIr
    split
    · exact .of_eq rfl rfl rfl rfl rfl rfl rfl
    · exact .of_eq rfl rfl rfl rfl rfl rfl rfl
    · exact .refl t
  exact (hm.trans (hi _)).trans (.of_eq rfl rfl rfl rfl rfl rfl rfl)

end

section
variable (E : Engine)

theorem Tidy.noteEvents (input : List ParamValueEvent) (s : Shared) :
    Tidy s (input.foldl (fun s e => s.noteEvent E e.id (narrow e.value)) s) := by
  induction input generalizing s with
  | nil => exact .refl s
  | cons e es ih =>
    refine Tidy.trans ?_ (ih _)
    show Tidy s (s.noteEvent E e.id (narrow e.value))
    unfold Shared.noteEvent
    split
    · exact .refl s
    · exact .note s _
    · exact .refl s

theorem flush_tidy (s : Shared) (room : Nat) (input : List ParamValueEvent) :
    Tidy s (s.flush E room input) := by
  unfold Shared.flush
  dsimp only
  have hedit : ∀ (q : ProcessingParams) (u : UiToRt), Tidy s { s with params := q, ui := u } :=
    fun q u => .of_eq rfl rfl rfl rfl rfl rfl rfl
  split
  · exact ((hedit _ _).trans (.noteEvents E input _)).trans (.sent_params _ _)
  · exact (hedit _ _).trans (.noteEvents E input _)

theorem loadModel_tidy (s : Shared) (file : ModelFile) (faults : EngineCall → Bool) :
    Tidy s (s.loadModel E file faults) := by
  obtain h | ⟨prep, h, -⟩ := loadModel_spec E s file faults
  · rw [h]
    exact .refl s
  · refine Tidy.trans ?_ h.tidy
    exact .of_eq rfl rfl rfl rfl rfl rfl rfl

theorem mainStep_tidy (s : Shared) (a : MainAction) : Tidy s (mainStep E s a) := by
  cases a <;> simp only [mainStep]
  case loadModel file faults => exact loadModel_tidy E s file faults
  case clearModel faults => exact (clearModel_spec E s faults).tidy
  case acceptModelRequest path isGui => exact .of_eq rfl rfl rfl rfl rfl rfl rfl
  case dispatchModelLoad =>
    unfold Shared.dispatchModelLoad
    split
    · exact .refl s
    · split <;> exact .of_eq rfl rfl rfl rfl rfl rfl rfl
  case dispatchModelLoadSync file faults =>
    obtain ⟨jobs, h⟩ | ⟨jobs, f, h⟩ := dispatchModelLoadSync_spec E s file faults <;> rw [h]
    · exact .of_eq rfl rfl rfl rfl rfl rfl rfl
    · refine Tidy.trans ?_ (loadModel_tidy E _ f faults)
      exact .of_eq rfl rfl rfl rfl rfl rfl rfl
  case finishModelLoad file faults =>
    unfold Shared.finishModelLoad
    split <;> exact .of_eq rfl rfl rfl rfl rfl rfl rfl
  case pollModelLoaderResult faults => exact (pollModelLoaderResult_spec E s faults).tidy
  case flushPendingModel faults => exact (flushPendingModel_spec s faults).tidy
  case handlePendingIr ir faults =>
    refine Tidy.trans ?_ (loadCabsim_spec { s with uiPendingIr := none } ir faults).tidy
    exact .of_eq rfl rfl rfl rfl rfl rfl rfl
  case clearIr =>
    unfold Shared.clearIr
    split <;> exact .of_eq rfl rfl rfl rfl rfl rfl rfl
  case restore v mode faults =>
    unfold Shared.commitRestore
    split
    · exact localCommit_tidy s v mode
    · exact (atomicCommit_spec E s v mode faults).tidy
  case flushPendingRestore => exact (flushPendingRestore_spec s).tidy
  case flush room input => exact flush_tidy E s room input
  case flushInFlightParams =>
    unfold Shared.flushInFlightParams
    split
    · exact .sendParams _
    · exact .refl s
  case handleOversampleRebuild =>
    unfold Shared.handleOversampleRebuild
    split
    · exact .refl s
    · rename_i f _
      obtain ⟨ps, hf, hp⟩ | ⟨ps, c, hf, hp⟩ :=
        tryPushCommand_cases s (.setOversample ⟨f⟩ ⟨f⟩) <;> rw [hp]
      · refine Tidy.trans (t := s.sent (ps ++ [.setOversample ⟨f⟩ ⟨f⟩]) none) (.sent hf rfl) ?_
        exact .of_eq rfl rfl rfl rfl rfl rfl rfl
      · exact .sent hf rfl
  case publishSlimmable sliced resized =>
    rw [publishSlimmable_eq]
    exact .of_eq rfl rfl rfl rfl rfl rfl rfl
  case handleSlimmableRebuildInline sliced resized =>
    rw [handleSlimmableRebuildInline_eq]
    exact .of_eq rfl rfl rfl rfl rfl rfl rfl
  all_goals exact .of_eq rfl rfl rfl rfl rfl rfl rfl

/-! ## Availability -/

/-- The ends of the channels are in cold storage. -/
structure Shared.Stored (s : Shared) : Prop where
  paramRx : s.paramRx = true
  gcTx : s.gcTx = true
  slimmableRx : s.slimmableRx = true

structure SettleInv (x : Plugin) : Prop where
  orderly : x.shared.Orderly
  stored : x.proc = none → x.shared.Stored

variable {E}

theorem Shared.Orderly.of_eq {s t : Shared} (h : s.Orderly) (hc : t.coalescing = s.coalescing)
    (hf : t.inFlightParams = s.inFlightParams) (hr : t.pendingRestore = s.pendingRestore)
    (hn : t.cmdNextSeq = s.cmdNextSeq) : t.Orderly :=
  ⟨by rw [hc, hf]; exact h.snapshot, by rw [hr, hn]; exact h.awaited⟩

theorem Shared.Orderly.audio {s : Shared} {p : Processor} {a : AudioAction}
    {r : Shared × Processor} (h : s.Orderly) (hr : audioStep E s p a = some r) : r.1.Orderly := by
  rw [audioStep_shared E hr]
  exact h.of_eq rfl rfl rfl rfl

theorem published_tidy (s : Shared) (cfg : AudioConfig) (restore : Option StagedRestore)
    (a : Assembly) : s.Orderly → (s.published E cfg restore a).Orderly := by
  intro h
  have hp : ((s.taken.publishStaged restore).publishActivation E cfg a).Orderly := by
    cases restore with
    | none => exact h.of_eq rfl rfl rfl rfl
    | some r =>
      simp only [Shared.publishStaged]
      rw [publishRestore_eq]
      exact h.of_eq rfl rfl rfl rfl
  exact hp

theorem SettleInv.activates {s : Shared} {cfg : AudioConfig} {faults : ActivateCall → Bool}
    {r : Shared × Option Processor} (h : Activates E s cfg faults r) (ho : s.Orderly)
    (hs : s.Stored) : SettleInv ⟨r.1, r.2⟩ := by
  have hflush : ∀ {restore a t ok}, (s.published E cfg restore a).flushPendingModel
      (fun c => faults (.flush c)) = (t, ok) → t.Orderly := by
    intro restore a t ok hf
    have ht := (flushPendingModel_spec (s.published E cfg restore a)
      fun c => faults (.flush c)).tidy.orderly (published_tidy s cfg restore a ho)
    rwa [hf] at ht
  cases h with
  | noConsumer h => exact ⟨ho, fun _ => hs⟩
  | early hp h => exact ⟨ho.of_eq rfl rfl rfl rfl, fun _ => ⟨hs.paramRx, hs.gcTx, hs.slimmableRx⟩⟩
  | adapt hp hg hl hb hpipe ha =>
    exact ⟨ho.of_eq rfl rfl rfl rfl, fun _ => ⟨hs.paramRx, hs.gcTx, hs.slimmableRx⟩⟩
  | flush hprep hf =>
    refine ⟨(hflush hf).of_eq rfl rfl rfl rfl, fun _ => ⟨rfl, ?_, ?_⟩⟩
    · exact Bool.or_true _
    · exact Bool.or_true _
  | ok hprep hf => exact ⟨(hflush hf).of_eq rfl rfl rfl rfl, fun h => by cases h⟩

theorem deactivate_orderly {s : Shared} (h : s.Orderly) (p : Processor) :
    (deactivate s p).Orderly := by
  unfold deactivate
  cases p.deferred <;> exact h.of_eq rfl rfl rfl rfl

theorem deactivate_stored (s : Shared) (p : Processor) : (deactivate s p).Stored := by
  unfold deactivate
  exact ⟨rfl, rfl, rfl⟩

theorem settleInv_step {x y : Plugin} {a : Action} (hx : SettleInv x) (h : step E x a = some y) :
    SettleInv y := by
  cases a with
  | main a =>
    obtain rfl := Option.some.inj h
    have ht := mainStep_tidy E x.shared a
    refine ⟨ht.orderly hx.orderly, fun hp => ?_⟩
    have hs := hx.stored hp
    exact ⟨ht.paramRx.trans hs.paramRx, ht.gcTx.trans hs.gcTx, ht.slimmableRx.trans hs.slimmableRx⟩
  | audio a =>
    obtain ⟨p, hp, h⟩ := Option.bind_eq_some_iff.1 h
    obtain ⟨r, hr, rfl⟩ := Option.map_eq_some_iff.1 h
    exact ⟨hx.orderly.audio hr, fun h => by cases h⟩
  | activate cfg faults =>
    simp only [step] at h
    split_ifs at h with hp
    obtain rfl := Option.some.inj h
    exact .activates (activate_spec E x.shared cfg faults) hx.orderly
      (hx.stored (Option.not_isSome_iff_eq_none.1 hp))
  | deactivate =>
    simp only [step] at h
    split at h
    · split_ifs at h
      obtain rfl := Option.some.inj h
      exact ⟨deactivate_orderly hx.orderly _, fun _ => deactivate_stored _ _⟩
    · cases h

theorem settleInv_init : SettleInv (.init E.toParamEngine) where
  orderly := ⟨fun h => (by cases h), fun r h => (by cases h)⟩
  stored _ := ⟨rfl, rfl, rfl⟩

/-! ### Without faults -/

theorem buildCabSim_noFault (s : Shared) (q : Option IrSamples) (n rate : Nat) :
    ∃ c, buildCabSimFromRawSamples s q n rate false = some c := by
  unfold buildCabSimFromRawSamples
  split
  · exact ⟨_, rfl⟩
  · split <;> exact ⟨_, rfl⟩

theorem buildPipeline_noFaults (s : Shared) (deact : Option DeactivatedDspState) (cfg : AudioConfig)
    (f : OversampleFactor) : ∃ pipe, buildPipeline s deact cfg f (fun _ => false) = some pipe := by
  obtain ⟨c, hc⟩ := buildCabSim_noFault s none cfg.maxFrames cfg.hostRate
  have hpair : ∀ b : Bool, ∃ d, (if b = true then some none else some (some c)) = some d := by
    intro b
    cases b <;> exact ⟨_, rfl⟩
  obtain ⟨d, hd⟩ := hpair
    (deact.any (·.cabsimPair.isSome) && deact.any (·.sampleRate = cfg.hostRate))
  unfold buildPipeline
  simp only [Bool.and_false, Bool.or_false, Bool.false_eq_true, if_false, hc, Option.map_some, hd]
  exact ⟨_, rfl⟩

theorem adaptModel?_noFaults (m : Option LoadModelPayload) (cfg : AudioConfig) :
    (adaptModel? m cfg false false false false).1 = true := by
  cases m with
  | none => rfl
  | some m =>
    simp only [adaptModel?, adaptModel, resizeModels, Bool.and_false, Bool.or_false,
      Bool.false_eq_true, if_false]
    split <;> rfl

theorem adaptIr_noFault (s : Shared) (ir : Option (Option CabSimPair)) (q : Option IrSamples)
    (cfg : AudioConfig) : (adaptIr s ir q cfg false).1 = true := by
  obtain ⟨c, hc⟩ := buildCabSim_noFault s q cfg.maxFrames cfg.hostRate
  unfold adaptIr
  split
  · split
    · rw [hc]
      cases c <;> rfl
    · rfl
  · rfl

theorem adaptRestore_noFaults (s : Shared) (r : StagedRestore) (cfg : AudioConfig) :
    (adaptRestore s r cfg fun _ => false).1 = true := by
  have hm := adaptModel?_noFaults r.txn.model cfg
  unfold adaptRestore
  rcases ha : adaptModel? r.txn.model cfg false false false false with ⟨_ | _, m⟩
  · rw [ha] at hm
    cases hm
  · exact adaptIr_noFault s r.txn.ir r.publish.irRawSamples cfg

theorem adaptSwap_noFaults (s : Shared) (w : StagedSwap) (cfg : AudioConfig) :
    (adaptSwap s w cfg fun _ => false).1 = true := by
  have hm := adaptModel?_noFaults w.model cfg
  unfold adaptSwap
  rcases ha : adaptModel? w.model cfg false false false false with ⟨_ | _, m⟩
  · rw [ha] at hm
    cases hm
  · exact adaptIr_noFault s w.ir none cfg

theorem adaptStaged_noFaults (s : Shared) (cfg : AudioConfig) :
    (adaptStaged s cfg fun _ => false).1 = true := by
  unfold adaptStaged
  cases hr : s.stagedRestore with
  | none =>
    cases hw : s.stagedSwap with
    | none => rfl
    | some w => exact adaptSwap_noFaults s w cfg
  | some r =>
    have h := adaptRestore_noFaults s r cfg
    rcases ha : adaptRestore s r cfg fun _ => false with ⟨_ | _, r'⟩
    · rw [ha] at h
      cases h
    · rw [Option.map_some, ha]
      cases hw : s.stagedSwap with
      | none => rfl
      | some w => exact adaptSwap_noFaults s w cfg

theorem flushPendingModel_noFaults (s : Shared) :
    (s.flushPendingModel fun _ => false).2 = true := by
  unfold Shared.flushPendingModel
  split
  · rfl
  · split
    · rfl
    · simp only [resizeModels, Bool.and_false, Bool.or_false, Bool.false_eq_true, if_false]

/-- Whatever happened before, an activation whose engine calls succeed gives a processor for its
configuration. -/
theorem activation_available {as : List Action} {x : Plugin}
    (hx : run (step E) (.init E.toParamEngine) as = some x) (hp : x.proc = none)
    (cfg : AudioConfig) : ∃ y p, step E x (.activate cfg fun _ => false) = some y ∧
      y.proc = some p ∧ y.shared.sampleRate = cfg.hostRate ∧
        y.shared.bufferSize = cfg.maxFrames := by
  have hinv : SettleInv x := run_always (fun _ _ _ => settleInv_step) settleInv_init hx
  have hs := hinv.stored hp
  have hspec := activate_spec E x.shared cfg fun _ => false
  have hstep : step E x (.activate cfg fun _ => false) =
      some ⟨(x.shared.activate E cfg fun _ => false).1,
        (x.shared.activate E cfg fun _ => false).2⟩ := by
    simp only [step, hp, Option.isSome_none, Bool.false_eq_true, if_false]
  generalize x.shared.activate E cfg (fun _ => false) = r at hspec hstep
  cases hspec with
  | noConsumer h => rw [hs.paramRx] at h; cases h
  | early hrx h =>
    obtain h | h | h | h := h
    · rw [hs.gcTx] at h; cases h
    · rw [hs.slimmableRx] at h; cases h
    · cases h
    · obtain ⟨pipe, hpipe⟩ := buildPipeline_noFaults x.shared x.shared.deactivatedDsp cfg
        (x.shared.activateOsFactor E)
      rw [hpipe] at h
      cases h
  | adapt hrx hg hl hb hpipe ha =>
    have h := adaptStaged_noFaults x.shared cfg
    rw [ha] at h
    cases h
  | @flush restore swap pipe a t hprep hf =>
    have h := flushPendingModel_noFaults (x.shared.published E cfg restore a)
    rw [hf] at h
    cases h
  | @ok restore swap pipe a t hprep hf =>
    have h := (flushPendingModel_spec (x.shared.published E cfg restore a) fun _ => false).frame
    rw [hf] at h
    exact ⟨_, _, hstep, rfl, h.sampleRate.trans rfl, h.bufferSize.trans rfl⟩

/-- A model is loaded, its activation fails, and so does the one after it. -/
def refFailedTwice : List Action :=
  [.main (.loadModel (refFile "one.nam") noFaults), .activate refConfig (· == .buffers),
    .activate refConfig (· == .stream)]

theorem activation_available_twice : (refRun refFailedTwice).shared.stagedSwap.isSome = false ∧
    ∃ y p, step refEngine (refRun refFailedTwice) refActivate = some y ∧ y.proc = some p ∧
      y.shared.sampleRate = 48000 ∧ y.shared.bufferSize = 512 :=
  ⟨by decide +kernel,
    activation_available (run_refRun (by decide +kernel)) (by decide +kernel) refConfig⟩

end

/-! ## Drains come to an end -/

/-- What a drain makes smaller. -/
def drainRank (r : Shared × Processor) : Nat :=
  2 * r.1.ring.length + r.2.deferred.toList.length + r.2.candidate.toList.length

section
variable (E : Engine)

theorem install_drainRank (s : Shared) (p : Processor) (c : ClapParamPayload) :
    drainRank (install E s p c) = drainRank (s, p) := by
  have h := applyStructural_frame E s { p with resolved := p.resolved + 1 } c
  unfold drainRank install
  rw [h.shared, h.proc]
  rfl

theorem drainMove_rank {s : Shared} {p : Processor} {m : DrainMove} {r : Shared × Processor}
    (h : drainMove E s p m = some r) : drainRank r < drainRank (s, p) := by
  cases drainMove_spec E h with
  | installDeferred hd =>
    rw [install_drainRank]
    simp [drainRank, Processor.unpark, hd]
  | discardDeferred hd hr hs => simp [drainRank, discard, Processor.unpark, hd]
  | applyParams hd hr =>
    rw [install_drainRank]
    simp [drainRank, Processor.pop, Shared.popped, hr]
  | popCandidate hd hc hr hs =>
    simp [drainRank, Processor.pop, Shared.popped, hr, hc]
    omega
  | supersede hd hc hr hs => simp [drainRank, discard, Processor.pop, Shared.popped, hr, hc]
  | installCandidate hd hc =>
    rw [install_drainRank]
    simp [drainRank, hc]

/-! ### Oversampling requests -/

theorem applyOversample_request {c : ParamCtx} (hb : 0 < c.bufferSize) (rt : RtParamState)
    (f : OversampleFactor) : (applyOversample { c with rt } f).osRequest = c.osRequest := by
  unfold applyOversample
  rw [if_pos hb]
  split <;> rfl

theorem applyParamsFromSpsc_request {c : ParamCtx} (hb : 0 < c.bufferSize)
    (q : RtProcessingParams) :
    (applyParamsFromSpsc E.toParamEngine c q).osRequest = c.osRequest := by
  unfold applyParamsFromSpsc
  dsimp only
  split
  · exact applyOversample_request hb _ _
  · rfl

theorem syncParamsFromGui_request {c : ParamCtx} (hb : 0 < c.bufferSize) :
    (syncParamsFromGui E.toParamEngine c).osRequest = c.osRequest := by
  have hrest : ∀ rt : RtParamState, (syncActivationFromGui E.toParamEngine
      (syncOversampleFromGui E.toParamEngine { c with rt })).osRequest = c.osRequest := by
    intro rt
    obtain ⟨t, ht⟩ := syncActivationFromGui_eq E.toParamEngine
      (syncOversampleFromGui E.toParamEngine { c with rt })
    rw [ht]
    unfold syncOversampleFromGui
    dsimp only
    split
    · exact applyOversample_request hb _ _
    · rfl
  unfold syncParamsFromGui
  dsimp only
  obtain ⟨gi, si, -, h1⟩ := syncInputGainFromGui_eq E.toParamEngine c
  rw [h1]
  obtain ⟨go, so, -, h2⟩ := syncOutputGainFromGui_eq E.toParamEngine { c with rt := _ }
  rw [h2]
  obtain ⟨g, d, -, h3⟩ := syncGateThreshFromGui_eq E.toParamEngine { c with rt := _ }
  rw [h3, syncBypassFromGui_eq, syncAdaptiveComputeFromGui_eq, syncSlimOverrideFromGui_eq]
  exact hrest _

theorem applyStructural_request {s : Shared} (hb : 0 < s.bufferSize) (p : Processor)
    (c : ClapParamPayload) :
    (applyStructural E s p c).1.osRequest = s.osRequest ∧
      (applyStructural E s p c).1.bufferSize = s.bufferSize := by
  have hsize : (applyStructural E s p c).1.bufferSize = s.bufferSize := by
    rw [(applyStructural_frame E s p c).shared]
    rfl
  refine ⟨?_, hsize⟩
  have hcab : ∀ (r : Shared × Processor) (pair : Option CabSimPair),
      (coldLoadCabsim E r.1 r.2 pair).1.osRequest = r.1.osRequest := by
    intro r pair
    unfold coldLoadCabsim
    split <;> rfl
  cases c with
  | params q => exact applyParamsFromSpsc_request E (c := paramCtx s p) hb q
  | loadModel m => rfl
  | loadCabIr pair => exact hcab (s, p) pair
  | setOversample osL osR => rfl
  | restoreTxn txn =>
    rw [applyStructural, coldApplyRestoreTxn_eq]
    obtain ⟨r, hr⟩ : ∃ r, coldApplyIr E (coldApplyModel E (s, p) txn.model) txn.ir = r := ⟨_, rfl⟩
    have hmodel : (coldApplyModel E (s, p) txn.model).1.osRequest = s.osRequest ∧
        (coldApplyModel E (s, p) txn.model).1.bufferSize = s.bufferSize := by
      cases txn.model <;> exact ⟨rfl, rfl⟩
    have hreq : r.1.osRequest = s.osRequest := by
      rw [← hr, coldApplyIr_eq E (fun r => r.1.osRequest) hcab]
      exact hmodel.1
    have hbuf : r.1.bufferSize = s.bufferSize := by
      rw [← hr, coldApplyIr_eq E (fun r => r.1.bufferSize) fun r pair => by
        unfold coldLoadCabsim
        split <;> rfl]
      exact hmodel.2
    rw [hr, ← hreq]
    have hb' : 0 < r.1.bufferSize := by rwa [hbuf]
    exact applyParamsFromSpsc_request E (c := paramCtx r.1 r.2) hb' txn.params

/-! ### A callback -/

/-- A callback with the moves `ms` of its drain. -/
def callback (room : Nat) (ms : List DrainMove) : List Action :=
  .audio (.beginEvents room) :: (ms.map fun m => .audio (.drain m)) ++ [.audio .endEvents]

/-- A callback makes a move, if there is one. Its budget may keep it from making all. -/
def Eager (x : Plugin) (room : Nat) (ms : List DrainMove) : Prop :=
  ms = [] → ∀ y m, step E x (.audio (.beginEvents room)) = some y →
    step E y (.audio (.drain m)) = none

theorem Shared.audio_trans {s t u : Shared} (h : t = s.audio t) (k : u = t.audio u) :
    u = s.audio u := k.trans (congrArg (·.audio u) h)

/-- A callback in its drain. -/
structure Draining (s t : Shared) (q : Processor) : Prop where
  inCallback : q.inCallback = true
  recovered : q.recoveredCommands = []
  counts : Counts t q
  shared : t = s.audio t
  request : t.osRequest = s.osRequest

variable {E}

theorem Draining.begin {s : Shared} {p : Processor} (hc : Counts s p) (hb : 0 < s.bufferSize)
    (hidle : p.inCallback = false) (room : Nat) :
    Draining s (beginEvents E s p room).1 (beginEvents E s p room).2 := by
  have hstep : audioStep E s p (.beginEvents room) = some (beginEvents E s p room) := by
    simp only [audioStep, hidle, Bool.false_eq_true, if_false]
  have hf := replayRecovered_frame E { s with ui := (writeGuiEvents s.ui room).ui }
    { p with inCallback := true }
  have hreq : ∀ (cs : List ClapParamPayload) (r : Shared × Processor), 0 < r.1.bufferSize →
      (cs.foldl (fun r c => applyStructural E r.1 r.2 c) r).1.osRequest = r.1.osRequest := by
    intro cs
    induction cs with
    | nil => exact fun r _ => rfl
    | cons c cs ih =>
      intro r hr
      obtain ⟨h1, h2⟩ := applyStructural_request E hr r.2 c
      exact (ih _ (h2.symm ▸ hr)).trans h1
  refine ⟨?_, ?_, hc.beginEvents E room hidle, audioStep_shared E hstep, hreq _ _ hb⟩
  · unfold beginEvents
    rw [hf.proc]
    rfl
  · unfold beginEvents
    rw [hf.proc]
    rfl

theorem Draining.drain {s t : Shared} {q : Processor} {m : DrainMove} {r : Shared × Processor}
    (h : Draining s t q) (hb : 0 < s.bufferSize) (hr : audioStep E t q (.drain m) = some r) :
    Draining s r.1 r.2 := by
  have hsize : 0 < t.bufferSize := by
    rw [h.shared]
    exact hb
  have hshared := audioStep_shared E hr
  have hcounts := h.counts.audio E hr
  have hrec := audioStep_replayed (fun _ => h.recovered) hr
  simp only [audioStep, h.inCallback, if_true] at hr
  have hinstall : ∀ (u : Shared) (o : Processor) (c : ClapParamPayload), 0 < u.bufferSize →
      o.inCallback = true → (install E u o c).2.inCallback = true ∧
        (install E u o c).1.osRequest = u.osRequest := by
    intro u o c hu ho
    refine ⟨?_, (applyStructural_request E hu _ c).1⟩
    unfold install
    rw [(applyStructural_frame E u { o with resolved := o.resolved + 1 } c).proc]
    exact ho
  have hboth : r.2.inCallback = true ∧ r.1.osRequest = t.osRequest := by
    cases drainMove_spec E hr with
    | installDeferred hd => exact hinstall _ _ _ hsize h.inCallback
    | discardDeferred hd hr hs => exact ⟨h.inCallback, rfl⟩
    | applyParams hd hr => exact hinstall _ _ _ hsize h.inCallback
    | popCandidate hd hc hr hs => exact ⟨h.inCallback, rfl⟩
    | supersede hd hc hr hs => exact ⟨h.inCallback, rfl⟩
    | installCandidate hd hc => exact hinstall _ _ _ hsize h.inCallback
  exact ⟨hboth.1, hrec hboth.1, hcounts, Shared.audio_trans h.shared hshared,
    hboth.2.trans h.request⟩

/-- A callback is done. -/
structure Returned (s t : Shared) (q : Processor) : Prop where
  idle : q.inCallback = false
  recovered : q.recoveredCommands = []
  counts : Counts t q
  shared : t = s.audio t
  request : t.osRequest = s.osRequest

theorem Draining.finish {s t : Shared} {q : Processor} (h : Draining s t q)
    (hb : 0 < s.bufferSize) : Returned s (endEvents E t q).1 (endEvents E t q).2 := by
  have hsize : 0 < t.bufferSize := by
    rw [h.shared]
    exact hb
  obtain ⟨-, -, -, -, -, ki⟩ := endEvents_commands E t q
  have hstep : audioStep E t q .endEvents = some (endEvents E t q) := by
    simp only [audioStep, h.inCallback, if_true]
  have hrec : (endEvents E t q).2.recoveredCommands = [] := by
    refine List.eq_nil_iff_forall_not_mem.2 fun c hmem => ?_
    have := (audioStep_moves E hstep).recovered c hmem
    rw [h.recovered] at this
    cases this
  have hreq : (endEvents E t q).1.osRequest = t.osRequest := by
    have hsync : ∀ (u : Shared) (o : Processor), 0 < u.bufferSize →
        (syncGeneration E u o).1.osRequest = u.osRequest := by
      intro u o hu
      unfold syncGeneration
      split
      · rfl
      · exact syncParamsFromGui_request E (c := paramCtx u o) hu
    exact hsync _ _ hsize
  exact ⟨ki, hrec, h.counts.audio E hstep, Shared.audio_trans h.shared (audioStep_shared E hstep),
    hreq.trans h.request⟩

theorem beginEvents_drainRank (s : Shared) (p : Processor) (room : Nat) :
    drainRank (beginEvents E s p room) = drainRank (s, p) := by
  have h := replayRecovered_frame E { s with ui := (writeGuiEvents s.ui room).ui }
    { p with inCallback := true }
  unfold drainRank beginEvents
  rw [h.shared, h.proc]
  rfl

theorem endEvents_drainRank {s : Shared} {p : Processor} (h : Counts s p) :
    drainRank (endEvents E s p) = drainRank (s, p) := by
  obtain ⟨hr, -, -, hd, hc, -⟩ := endEvents_commands E s p
  unfold drainRank
  dsimp only
  rw [hr, hd, hc]
  obtain h | h := h.single
  · cases hc : p.candidate <;> simp [h]
  · rw [h]
    rfl

theorem drainRank_eq_zero {s : Shared} {p : Processor} (h : drainRank (s, p) = 0) :
    s.ring = [] ∧ p.deferred = none ∧ p.candidate = none := by
  simp only [drainRank] at h
  refine ⟨List.length_eq_zero_iff.1 (by omega), ?_, ?_⟩
  · exact Option.toList_eq_nil_iff.1 (List.length_eq_zero_iff.1 (by omega))
  · exact Option.toList_eq_nil_iff.1 (List.length_eq_zero_iff.1 (by omega))

/-- Where no move is left nothing waits for the drain. -/
theorem drain_exhausted {s : Shared} {p : Processor} (h : ∀ m, drainMove E s p m = none) :
    drainRank (s, p) = 0 := by
  have hd : p.deferred = none := by
    cases hd : p.deferred with
    | none => rfl
    | some d =>
      -- the head of the ring supersedes the parked command, or not
      have hi := h .installDeferred
      have hs := h .discardDeferred
      simp only [drainMove, hd] at hi hs
      split at hi
      · rename_i hsup
        rw [if_pos hsup] at hs
        cases hs
      · cases hi
  have hc : p.candidate = none := by
    cases hc : p.candidate with
    | none => rfl
    | some c =>
      have hi := h .installCandidate
      simp only [drainMove, hd, hc] at hi
      cases hi
  cases hr : s.ring with
  | nil => simp [drainRank, hd, hc, hr]
  | cons c rest =>
    have hp := h .popCandidate
    simp only [drainMove, hd, hc, hr] at hp
    split at hp
    · cases hp
    · rename_i hs
      cases c with
      | params q =>
        have ha := h .applyParams
        simp only [drainMove, hd, hr] at ha
        cases ha
      | _ => exact absurd rfl hs

/-- The measure of a drain. -/
def Plugin.drainRank (x : Plugin) : Nat := (x.proc.map fun p => NamPlug.drainRank (x.shared, p)).getD 0

theorem Plugin.drainRank_of {x : Plugin} {p : Processor} (h : x.proc = some p) :
    x.drainRank = NamPlug.drainRank (x.shared, p) := by rw [Plugin.drainRank, h]; rfl

theorem drain_rank_lt (x : Plugin) (m : DrainMove) (y : Plugin)
    (h : step E x (.audio (.drain m)) = some y) : y.drainRank < x.drainRank := by
  obtain ⟨p, hp, h⟩ := Option.bind_eq_some_iff.1 h
  obtain ⟨r, hr, rfl⟩ := Option.map_eq_some_iff.1 h
  simp only [audioStep] at hr
  split_ifs at hr
  have hlt := drainMove_rank E hr
  simpa only [Plugin.drainRank, hp, Option.map_some, Option.getD_some] using hlt

theorem step_beginEvents {x : Plugin} {p : Processor} (hp : x.proc = some p)
    (hidle : p.inCallback = false) (room : Nat) :
    step E x (.audio (.beginEvents room)) =
      some ⟨(beginEvents E x.shared p room).1, some (beginEvents E x.shared p room).2⟩ := by
  simp only [step, hp, Option.bind_some, audioStep, hidle, Bool.false_eq_true, if_false,
    Option.map_some]

theorem step_endEvents {x : Plugin} {p : Processor} (hp : x.proc = some p)
    (hcb : p.inCallback = true) :
    step E x (.audio .endEvents) =
      some ⟨(endEvents E x.shared p).1, some (endEvents E x.shared p).2⟩ := by
  simp only [step, hp, Option.bind_some, audioStep, hcb, if_true, Option.map_some]

/-- The moves of a drain each make its rank smaller. -/
theorem drains {x z : Plugin} {s : Shared} {p : Processor} {ms : List DrainMove}
    (hp : x.proc = some p) (hd : Draining s x.shared p) (hb : 0 < s.bufferSize)
    (hz : run (step E) x (ms.map fun m => .audio (.drain m)) = some z) :
    ∃ q, z.proc = some q ∧ Draining s z.shared q ∧ ms.length + z.drainRank ≤ x.drainRank := by
  rw [run_map] at hz
  obtain ⟨q, hq, hd⟩ : ∃ q, z.proc = some q ∧ Draining s z.shared q := by
    refine run_always (I := fun z : Plugin => ∃ q, z.proc = some q ∧ Draining s z.shared q) ?_
      ⟨p, hp, hd⟩ hz
    rintro u m v ⟨q, hq, hd⟩ hs
    obtain ⟨q', hq', hs⟩ := Option.bind_eq_some_iff.1 hs
    obtain rfl := Option.some.inj (hq.symm.trans hq')
    obtain ⟨r, hr, rfl⟩ := Option.map_eq_some_iff.1 hs
    exact ⟨r.2, rfl, hd.drain hb hr⟩
  exact ⟨q, hq, hd, run_length_le drain_rank_lt hz⟩

/-- An eager callback makes the rank smaller, until nothing is left. -/
theorem callback_returns {x y : Plugin} {p : Processor} {room : Nat} {ms : List DrainMove}
    (hp : x.proc = some p) (hc : Counts x.shared p) (hb : 0 < x.shared.bufferSize)
    (hidle : p.inCallback = false) (h : run (step E) x (callback room ms) = some y)
    (he : Eager E x room ms) : ∃ q, y.proc = some q ∧ Returned x.shared y.shared q ∧
      (y.drainRank < x.drainRank ∨ y.drainRank = 0) := by
  obtain ⟨z, hz, h⟩ := run_append.1 h
  obtain ⟨x1, h1, hz⟩ := run_cons.1 hz
  have hbegin := (step_beginEvents (E := E) hp hidle room).symm.trans h1
  obtain rfl := Option.some.inj hbegin
  obtain ⟨q, hq, hd, hle⟩ := drains rfl (.begin hc hb hidle room) hb hz
  have hrank : Plugin.drainRank ⟨(beginEvents E x.shared p room).1,
      some (beginEvents E x.shared p room).2⟩ = x.drainRank :=
    (beginEvents_drainRank x.shared p room).trans (Plugin.drainRank_of hp).symm
  rw [hrank] at hle
  obtain ⟨y', h2, h⟩ := run_cons.1 h
  obtain rfl := Option.some.inj h
  obtain rfl := Option.some.inj ((step_endEvents hq hd.inCallback).symm.trans h2)
  refine ⟨_, rfl, hd.finish hb, ?_⟩
  have hend : Plugin.drainRank ⟨(endEvents E z.shared q).1, some (endEvents E z.shared q).2⟩ =
      z.drainRank := (endEvents_drainRank hd.counts).trans (Plugin.drainRank_of hq).symm
  rw [hend]
  cases ms with
  | cons m ms =>
    rw [List.length_cons] at hle
    exact .inl (by omega)
  | nil =>
    obtain rfl := Option.some.inj hz
    refine .inr (drain_exhausted (E := E) fun m => ?_)
    have hnone := he rfl _ m h1
    simpa only [step, Option.bind_some, audioStep, (Option.some.inj hq ▸ hd.inCallback :
      (beginEvents E x.shared p room).2.inCallback = true), if_true, Option.map_eq_none_iff]
      using hnone

end

/-! ## Housekeeping -/

/-- The retries of the housekeeping, in its order, with engine calls that succeed. -/
def housekeeping : List Action :=
  [.main .flushInFlightParams, .main .flushPendingRestore, .main (.flushPendingModel fun _ => false),
    .main .handleOversampleRebuild]

/-- A push with room for the snapshot that waits and for the command. -/
theorem tryPushCommand_room {s : Shared} (h : s.ring.length + 1 < CMD_QUEUE_CAPACITY)
    (hc : s.coalescing = none) (cmd : ClapParamPayload) :
    s.tryPushCommand cmd = (s.sent [cmd] none, true) := by
  simp only [Shared.tryPushCommand, Shared.forceFlush, hc, ringPush_spec]
  rw [if_pos (by omega)]

theorem pushModel_room {s : Shared} (h : s.ring.length + 1 < CMD_QUEUE_CAPACITY)
    (hc : s.coalescing = none) (m : LoadModelPayload) :
    s.pushModel m = s.sent [.loadModel m] none := by
  unfold Shared.pushModel
  rw [tryPushCommand_room h hc]

/-- What the retries of the housekeeping take care of, with at most `n` commands in the ring. -/
structure Roomy (n : Nat) (s : Shared) : Prop where
  ring : s.ring.length ≤ n
  coalescing : s.coalescing = none
  inFlight : s.inFlightParams = none
  size : 0 < s.bufferSize

section
variable {s : Shared} {n : Nat}

theorem flushInFlightParams_roomy (ho : s.Orderly) (hr : s.ring.length ≤ n)
    (hn : n < CMD_QUEUE_CAPACITY) (hb : 0 < s.bufferSize) :
    Roomy (n + 1) s.flushInFlightParams ∧
      s.flushInFlightParams.pendingModel = s.pendingModel ∧
      s.flushInFlightParams.pendingRestore = s.pendingRestore ∧
      (s.inFlightParams = none → s.flushInFlightParams = s) := by
  unfold Shared.flushInFlightParams
  cases hf : s.inFlightParams with
  | none =>
    have hc : s.coalescing = none := by
      cases hc : s.coalescing with
      | none => rfl
      | some q =>
        have := ho.snapshot (by rw [hc]; rfl)
        rw [hf] at this
        cases this
    exact ⟨⟨Nat.le_succ_of_le hr, hc, hf, hb⟩, rfl, rfl, fun _ => rfl⟩
  | some q =>
    have hroom : { s with inFlightParams := none }.ring.length < CMD_QUEUE_CAPACITY :=
      Nat.lt_of_le_of_lt hr hn
    have hsend : { s with inFlightParams := none }.sendParams q =
        { s with inFlightParams := none }.sent [.params q] none := by
      simp only [Shared.sendParams, Shared.pushParams, Shared.forceFlush, ringPush_spec]
      rw [if_pos hroom]
      rfl
    dsimp only
    rw [hsend]
    refine ⟨⟨?_, rfl, rfl, hb⟩, rfl, rfl, fun h => (by cases h)⟩
    simp only [Shared.sent, List.length_append, List.length_singleton]
    omega

theorem Roomy.flushPendingRestore (h : Roomy n s) (hn : n + 1 < CMD_QUEUE_CAPACITY) :
    Roomy (n + 1) s.flushPendingRestore ∧
      s.flushPendingRestore.pendingModel = s.pendingModel ∧
      (∀ r, s.flushPendingRestore.pendingRestore = some r → r.txn = none) := by
  have hpub : ∀ u : Shared, Roomy (n + 1) u → Roomy (n + 1) u.publishIfAcked ∧
      u.publishIfAcked.pendingModel = u.pendingModel ∧
      ((∀ r, u.pendingRestore = some r → r.txn = none) →
        ∀ r, u.publishIfAcked.pendingRestore = some r → r.txn = none) := by
    intro u hu
    obtain he | ⟨r, -, -, -, he⟩ := publishIfAcked_cases u <;> rw [he]
    · exact ⟨hu, rfl, id⟩
    · rw [acknowledged_eq]
      exact ⟨⟨hu.ring, hu.coalescing, hu.inFlight, hu.size⟩, rfl, fun _ r h => by cases h⟩
  unfold Shared.flushPendingRestore
  cases hp : s.pendingRestore with
  | none => exact ⟨⟨Nat.le_succ_of_le h.ring, h.2, h.3, h.4⟩, rfl, fun r hr => by
      rw [hp] at hr
      cases hr⟩
  | some r =>
    dsimp only
    cases ht : r.txn with
    | none =>
      obtain ⟨h1, h2, h3⟩ := hpub s ⟨Nat.le_succ_of_le h.ring, h.2, h.3, h.4⟩
      refine ⟨h1, h2, h3 fun r' hr' => ?_⟩
      rw [hp] at hr'
      exact Option.some.inj hr' ▸ ht
    | some txn =>
      have hring := h.ring
      dsimp only
      rw [tryPushCommand_room (Nat.lt_of_le_of_lt (Nat.succ_le_succ h.ring) hn) h.coalescing]
      have hsent : Roomy (n + 1) { s.sent [.restoreTxn txn] none with
          pendingRestore := some { r with
            txn := none, seq := (s.sent [.restoreTxn txn] none).cmdNextSeq } } :=
        ⟨by simpa [Shared.sent] using hring, rfl, h.inFlight, h.size⟩
      obtain ⟨h1, h2, h3⟩ := hpub _ hsent
      refine ⟨h1, h2, h3 fun r' hr' => ?_⟩
      obtain rfl := Option.some.inj hr'
      rfl

/-- A restore that is acknowledged is published. -/
theorem flushPendingRestore_acked (ho : s.Orderly) (hack : s.cmdLastAck = s.cmdNextSeq)
    (htxn : ∀ r, s.pendingRestore = some r → r.txn = none) :
    s.flushPendingRestore.pendingRestore = none ∧ s.flushPendingRestore.ring = s.ring ∧
      s.flushPendingRestore.cmdLastAck = s.cmdLastAck ∧
      s.flushPendingRestore.cmdNextSeq = s.cmdNextSeq ∧
      s.flushPendingRestore.osRequest = s.osRequest := by
  unfold Shared.flushPendingRestore
  cases hp : s.pendingRestore with
  | none => exact ⟨hp, rfl, rfl, rfl, rfl⟩
  | some r =>
    have ht := htxn r hp
    obtain ⟨h0, hle⟩ := ho.awaited r hp ht
    dsimp only
    rw [ht]
    have hpub : s.publishIfAcked = s.acknowledged r := by
      unfold Shared.publishIfAcked
      rw [hp]
      exact if_pos ⟨h0, hack ▸ hle⟩
    dsimp only
    rw [hpub, acknowledged_eq]
    exact ⟨rfl, rfl, rfl, rfl, rfl⟩

theorem Roomy.flushPendingModel (h : Roomy n s) (hn : n + 1 < CMD_QUEUE_CAPACITY) :
    Roomy (n + 1) (s.flushPendingModel fun _ => false).1 ∧
      (s.flushPendingModel fun _ => false).1.pendingModel = none ∧
      (s.flushPendingModel fun _ => false).1.pendingRestore = s.pendingRestore := by
  have hle := Nat.le_succ_of_le h.ring
  have hroom : { s with pendingModel := none }.ring.length + 1 < CMD_QUEUE_CAPACITY :=
    Nat.lt_of_le_of_lt (Nat.succ_le_succ h.ring) hn
  unfold Shared.flushPendingModel
  cases hp : s.pendingModel with
  | none => exact ⟨⟨hle, h.2, h.3, h.4⟩, hp, rfl⟩
  | some m =>
    have hb : s.bufferSize ≠ 0 := Nat.pos_iff_ne_zero.1 h.size
    simp only [hb, if_false, resizeModels, Bool.and_false, Bool.or_false, Bool.false_eq_true]
    rw [pushModel_room hroom h.coalescing]
    refine ⟨⟨?_, rfl, h.inFlight, h.size⟩, rfl, rfl⟩
    simp only [Shared.sent, List.length_append, List.length_singleton]
    exact Nat.succ_le_succ h.ring

theorem Roomy.handleOversampleRebuild (h : Roomy n s) (hn : n + 1 < CMD_QUEUE_CAPACITY) :
    Roomy (n + 1) s.handleOversampleRebuild ∧ s.handleOversampleRebuild.osRequest = none ∧
      s.handleOversampleRebuild.pendingModel = s.pendingModel ∧
      s.handleOversampleRebuild.pendingRestore = s.pendingRestore := by
  have hle := Nat.le_succ_of_le h.ring
  have hroom := Nat.lt_of_le_of_lt (Nat.succ_le_succ h.ring) hn
  unfold Shared.handleOversampleRebuild
  cases ho : s.osRequest with
  | none => exact ⟨⟨hle, h.2, h.3, h.4⟩, ho, rfl, rfl⟩
  | some f =>
    dsimp only
    rw [tryPushCommand_room hroom h.coalescing]
    refine ⟨⟨?_, rfl, h.inFlight, h.size⟩, rfl, rfl, rfl⟩
    simp only [Shared.sent, List.length_append, List.length_singleton]
    exact Nat.succ_le_succ h.ring

end

/-- What the retries make of the main thread's state. -/
def Shared.housekept (s : Shared) : Shared :=
  (s.flushInFlightParams.flushPendingRestore.flushPendingModel fun _ => false).1.handleOversampleRebuild

theorem run_housekeeping (E : Engine) (x : Plugin) :
    run (step E) x housekeeping = some { x with shared := x.shared.housekept } := rfl

/-- With the ring drained, the retries send all that waits. -/
theorem housekept_clears {s : Shared} (ho : s.Orderly) (hr : s.ring = []) (hb : 0 < s.bufferSize) :
    Roomy 4 s.housekept ∧ s.housekept.pendingModel = none ∧ s.housekept.osRequest = none ∧
      ∀ r, s.housekept.pendingRestore = some r → r.txn = none := by
  obtain ⟨h1, -, -, -⟩ := flushInFlightParams_roomy (n := 0) ho (by rw [hr]; exact Nat.le_refl 0)
    (by decide) hb
  obtain ⟨h2, -, ht⟩ := h1.flushPendingRestore (by decide)
  obtain ⟨h3, hm, hp⟩ := h2.flushPendingModel (by decide)
  obtain ⟨h4, hq, hm', hp'⟩ := h3.handleOversampleRebuild (by decide)
  exact ⟨h4, hm'.trans hm, hq, fun r h => ht r (by rw [← hp, ← hp']; exact h)⟩

/-- With all commands acknowledged and nothing left to send, they publish what waited for its
acknowledgement. -/
theorem housekept_acked {s : Shared} {n : Nat} (ho : s.Orderly) (h : Roomy n s)
    (hn : n + 1 < CMD_QUEUE_CAPACITY) (hack : s.cmdLastAck = s.cmdNextSeq)
    (hm : s.pendingModel = none) (hq : s.osRequest = none)
    (ht : ∀ r, s.pendingRestore = some r → r.txn = none) :
    s.housekept = s.flushPendingRestore := by
  have h1 : s.flushInFlightParams = s :=
    (flushInFlightParams_roomy ho h.ring (Nat.lt_of_succ_lt hn) h.size).2.2.2 h.inFlight
  obtain ⟨-, hm', -⟩ := h.flushPendingRestore hn
  obtain ⟨-, -, -, -, hq'⟩ := flushPendingRestore_acked ho hack ht
  have h2 : (s.flushPendingRestore.flushPendingModel fun _ => false).1 = s.flushPendingRestore := by
    unfold Shared.flushPendingModel
    rw [hm', hm]
  have h3 : s.flushPendingRestore.handleOversampleRebuild = s.flushPendingRestore := by
    unfold Shared.handleOversampleRebuild
    rw [hq', hq]
  unfold Shared.housekept
  rw [h1, h2, h3]

/-! ## Two rounds -/

/-- A number of callbacks, each of them eager. -/
inductive Callbacks (E : Engine) : Nat → Plugin → Plugin → Prop
  | none (x : Plugin) : Callbacks E 0 x x
  | next {x y z : Plugin} {n room : Nat} {ms : List DrainMove} (he : Eager E x room ms)
      (h : run (step E) x (callback room ms) = some y) (hn : Callbacks E n y z) :
      Callbacks E (n + 1) x z

/-- More callbacks than the rank of what waits, and the retries of the main thread after them. -/
def Round (E : Engine) (x y : Plugin) : Prop :=
  ∃ n z, Callbacks E n x z ∧ x.drainRank < n ∧ run (step E) z housekeeping = some y

/-- Nothing that was asked for is still on its way or waits to be published. -/
structure NothingWaits (s : Shared) (p : Processor) : Prop where
  backlog : backlog s p = []
  coalescing : s.coalescing = none
  inFlightParams : s.inFlightParams = none
  pendingModel : s.pendingModel = none
  pendingRestore : s.pendingRestore = none
  osRequest : s.osRequest = none
  acked : s.cmdLastAck = s.cmdNextSeq

section
variable {E : Engine} {x y z : Plugin} {p : Processor}

/-- Between two callbacks of an active plugin. -/
structure Between (x : Plugin) (p : Processor) : Prop where
  orderly : x.shared.Orderly
  counts : Counts x.shared p
  proc : x.proc = some p
  idle : p.inCallback = false
  size : 0 < x.shared.bufferSize

theorem Returned.between {s : Shared} {q : Processor} (h : Returned s x.shared q)
    (ho : s.Orderly) (hb : 0 < s.bufferSize) (hq : x.proc = some q) : Between x q := by
  refine ⟨?_, h.counts, hq, h.idle, ?_⟩ <;> rw [h.shared]
  · exact ho.of_eq rfl rfl rfl rfl
  · exact hb

theorem Returned.trans {s t u : Shared} {p q : Processor} (h : Returned s t p)
    (k : Returned t u q) : Returned s u q :=
  ⟨k.idle, k.recovered, k.counts, Shared.audio_trans h.shared k.shared, k.request.trans h.request⟩

theorem Returned.acked {s t : Shared} {q : Processor} (h : Returned s t q)
    (h0 : drainRank (t, q) = 0) : t.cmdLastAck = t.cmdNextSeq := by
  obtain ⟨hr, hd, hc⟩ := drainRank_eq_zero h0
  have hack := h.counts.ack
  rw [(h.counts.idle h.idle).2, hr, hd, hc] at hack
  simpa using hack

theorem Callbacks.returns {n : Nat} (h : Callbacks E n x y) (hx : Between x p) (hn : 0 < n) :
    ∃ q, y.proc = some q ∧ Returned x.shared y.shared q ∧
      (y.drainRank + n ≤ x.drainRank ∨ y.drainRank = 0) := by
  induction h generalizing p with
  | none x => cases hn
  | @next x y z n room ms he h hrest ih =>
    obtain ⟨q, hq, hret, hlt⟩ := callback_returns hx.proc hx.counts hx.size hx.idle h he
    cases n with
    | zero =>
      cases hrest
      exact ⟨q, hq, hret, hlt.imp_left id⟩
    | succ n =>
      obtain ⟨q', hq', hret', hlt'⟩ :=
        ih (hret.between hx.orderly hx.size hq) (Nat.succ_pos n)
      exact ⟨q', hq', hret.trans hret', by omega⟩

/-- So many callbacks leave nothing on its way. -/
theorem Between.round (hx : Between x p) (h : Round E x y) :
    ∃ t q, Returned x.shared t q ∧ drainRank (t, q) = 0 ∧ y = ⟨t.housekept, some q⟩ := by
  obtain ⟨n, w, hw, hn, h⟩ := h
  obtain ⟨q, hq, hret, hrank⟩ := hw.returns hx (Nat.zero_lt_of_lt hn)
  rw [run_housekeeping] at h
  refine ⟨w.shared, q, hret, ?_, by rw [← Option.some.inj h, ← hq]⟩
  rw [← Plugin.drainRank_of hq]
  omega

theorem Between.housekept (E : Engine) (hx : Between x p) (hr : x.shared.ring = []) :
    Between ⟨x.shared.housekept, some p⟩ p := by
  have hrun := run_housekeeping E ⟨x.shared, some p⟩
  have hs : SettleInv ⟨x.shared, some p⟩ := ⟨hx.orderly, fun h => by cases h⟩
  have hc : PluginCounts x.shared (some p) := hx.counts
  refine ⟨(run_always (fun _ _ _ => settleInv_step) hs hrun).orderly,
    run_always (I := fun x : Plugin => PluginCounts x.shared x.proc) (fun _ _ _ h => h.step E) hc hrun,
    rfl, hx.idle, ?_⟩
  exact (housekept_clears hx.orderly hr hx.size).1.size

/-- After one round all that waited was sent. -/
theorem Between.first (hx : Between x p) (h : Round E x y) :
    ∃ q, Between y q ∧ Roomy 4 y.shared ∧ y.shared.pendingModel = none ∧
      y.shared.osRequest = none ∧ ∀ r, y.shared.pendingRestore = some r → r.txn = none := by
  obtain ⟨t, q, hret, h0, rfl⟩ := hx.round h
  have ht : Between ⟨t, some q⟩ q := hret.between (x := ⟨t, some q⟩) hx.orderly hx.size rfl
  have hr := (drainRank_eq_zero h0).1
  exact ⟨q, ht.housekept E hr, housekept_clears ht.orderly hr ht.size⟩

/-- After the next it is delivered and acknowledged. -/
theorem Between.second (hx : Between x p) (hr : Roomy 4 x.shared)
    (hm : x.shared.pendingModel = none) (hq : x.shared.osRequest = none)
    (ht : ∀ r, x.shared.pendingRestore = some r → r.txn = none) (h : Round E x y) :
    ∃ q, y.proc = some q ∧ NothingWaits y.shared q := by
  obtain ⟨t, q, hret, h0, rfl⟩ := hx.round h
  have hb : Between ⟨t, some q⟩ q := hret.between (x := ⟨t, some q⟩) hx.orderly hx.size rfl
  obtain ⟨hring, hd, hc⟩ := drainRank_eq_zero h0
  have hack := hret.acked h0
  have hroomy : Roomy 4 t := by
    refine ⟨by rw [hring]; exact Nat.zero_le 4, ?_, ?_, hb.size⟩
    · rw [hret.shared]
      exact hr.coalescing
    · rw [hret.shared]
      exact hr.inFlight
  have htxn : ∀ r, t.pendingRestore = some r → r.txn = none := by
    rw [hret.shared]
    exact ht
  have hmodel : t.pendingModel = none := by
    rw [hret.shared]
    exact hm
  obtain ⟨h1, h2, h3, h4, h5⟩ := flushPendingRestore_acked hb.orderly hack htxn
  obtain ⟨hkept, hkeptm, -⟩ := hroomy.flushPendingRestore (by decide)
  refine ⟨q, rfl, ?_⟩
  rw [housekept_acked hb.orderly hroomy (by decide) hack hmodel (hret.request.trans hq) htxn]
  refine ⟨?_, hkept.coalescing, hkept.inFlight, hkeptm.trans hmodel, h1,
    h5.trans (hret.request.trans hq), h3.trans (hack.trans h4.symm)⟩
  simp only [backlog, hret.recovered, hd, hc, h2, hring, Option.toList_none, List.append_nil]

/-! ### There are such rounds -/

theorem Between.exists_callback (hx : Between x p) :
    ∃ y ms q, Eager E x 0 ms ∧ run (step E) x (callback 0 ms) = some y ∧ Between y q := by
  obtain ⟨x1, h1⟩ : ∃ x1, step E x (.audio (.beginEvents 0)) = some x1 :=
    ⟨_, step_beginEvents hx.proc hx.idle 0⟩
  obtain ⟨x2, ms, h2, he⟩ : ∃ x2 ms, run (step E) x1 (ms.map fun m => .audio (.drain m)) = some x2 ∧
      Eager E x 0 ms := by
    by_cases hm : ∃ m y, step E x1 (.audio (.drain m)) = some y
    · obtain ⟨m, y, hy⟩ := hm
      exact ⟨y, [m], run_cons.2 ⟨y, hy, rfl⟩, fun h => by cases h⟩
    · refine ⟨x1, [], rfl, fun _ y m hy => ?_⟩
      obtain rfl := Option.some.inj (h1.symm.trans hy)
      exact Option.eq_none_iff_forall_ne_some.2 fun z hz => hm ⟨m, z, hz⟩
  have hbegin := (step_beginEvents (E := E) hx.proc hx.idle 0).symm.trans h1
  obtain ⟨q, hq, hd, -⟩ := drains (E := E) (x := x1) (by rw [← Option.some.inj hbegin])
    (by rw [← Option.some.inj hbegin]; exact .begin hx.counts hx.size hx.idle 0) hx.size h2
  have hrun : run (step E) x (callback 0 ms) = some _ :=
    run_append.2 ⟨x2, run_cons.2 ⟨x1, h1, h2⟩, run_cons.2 ⟨_, step_endEvents hq hd.inCallback, rfl⟩⟩
  obtain ⟨q', hq', hret, -⟩ := callback_returns hx.proc hx.counts hx.size hx.idle hrun he
  exact ⟨_, ms, q', he, hrun, hret.between hx.orderly hx.size hq'⟩

theorem Between.exists_callbacks (hx : Between x p) (n : Nat) : ∃ y, Callbacks E n x y := by
  induction n generalizing x p with
  | zero => exact ⟨x, .none x⟩
  | succ n ih =>
    obtain ⟨y, ms, q, he, h, hy⟩ := hx.exists_callback (E := E)
    obtain ⟨z, hz⟩ := ih hy
    exact ⟨z, .next he h hz⟩

theorem Between.exists_round (hx : Between x p) : ∃ y, Round E x y := by
  obtain ⟨z, hz⟩ := hx.exists_callbacks (E := E) (x.drainRank + 1)
  exact ⟨_, _, z, hz, Nat.lt_succ_self _, run_housekeeping E z⟩

/-- From wherever a run leads between two callbacks: two rounds of callbacks, each with the retries of
the main thread after it, deliver and acknowledge all that waits, however little of the drain each
callback has the budget for. There are two such rounds. -/
theorem nothing_stuck {as : List Action} (hx : run (step E) (.init E.toParamEngine) as = some x)
    (hp : x.proc = some p) (hidle : p.inCallback = false) (hb : 0 < x.shared.bufferSize) :
    (∃ y z, Round E x y ∧ Round E y z) ∧
      ∀ y z, Round E x y → Round E y z → ∃ q, z.proc = some q ∧ NothingWaits z.shared q := by
  have hs := run_always (fun _ _ _ => settleInv_step) settleInv_init hx
  have h0 : PluginCounts (Plugin.init E.toParamEngine).shared (Plugin.init E.toParamEngine).proc := rfl
  have hc : PluginCounts x.shared x.proc :=
    run_always (I := fun x : Plugin => PluginCounts x.shared x.proc) (fun _ _ _ h => h.step E) h0 hx
  rw [hp] at hc
  have hx : Between x p := ⟨hs.orderly, hc, hp, hidle, hb⟩
  constructor
  · obtain ⟨y, hy⟩ := hx.exists_round (E := E)
    obtain ⟨q, hq, -⟩ := hx.first hy
    obtain ⟨z, hz⟩ := hq.exists_round (E := E)
    exact ⟨y, z, hy, hz⟩
  · intro y z hy hz
    obtain ⟨q, hq, hroomy, hm, ho, ht⟩ := hx.first hy
    exact hq.second hroomy hm ho ht hz

/-- A model is loaded and parked by a callback, then a preset is restored. -/
def refParked : List Action :=
  [refActivate, .main (.loadModel (refFile "one.nam") noFaults), .audio (.beginEvents 0),
    .audio (.drain .popCandidate), .audio .endEvents,
    .main (.restore refPreset .forPreset noFaults)]

theorem nothing_stuck_parked : ∃ p y z q, (refRun refParked).proc = some p ∧ p.deferred.isSome = true ∧
    (refRun refParked).shared.pendingRestore.isSome = true ∧ Round refEngine (refRun refParked) y ∧
      Round refEngine y z ∧ z.proc = some q ∧ NothingWaits z.shared q := by
  have hp := @refProc_eq refParked (by decide +kernel)
  obtain ⟨⟨y, z, hy, hz⟩, hall⟩ := nothing_stuck (@run_refRun refParked (by decide +kernel)) hp
    (by decide +kernel) (by decide +kernel)
  obtain ⟨q, hq, hw⟩ := hall y z hy hz
  exact ⟨_, y, z, q, hp, by decide +kernel, by decide +kernel, hy, hz, hq, hw⟩

end

end NamPlug
