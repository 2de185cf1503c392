import NamPlug.Plugin.Proof.Carried

/-!
# The chain fits the configuration

A stream and its models are built for a host rate and a block. What the main thread sends while the
plugin is active is built for the configuration of the activation, and an activation adapts the
model that is staged. The rest of what is left over from before it takes as it is: the commands, the
package of a restore, and the models of a deactivated DSP, which it gives a new stream at most.
`chain_fits`: in a run whose activations find leftovers that fit (`LeftoversFit`) and whose slimmed
models fit the chain they meet, the chain always fits.
-/

namespace NamPlug

open Machine

/-! ## Built for a configuration -/

/-- A model, if there is one, is sized for `block` frames. -/
def SizedFor (block : Nat) (m : Option StaticModel) : Prop := ∀ n ∈ m, block ≤ n.maxBuffer

/-- A stream and the two models beside it fit a host rate and a block. -/
structure FitsConfig (rate block : Nat) (st : StreamingResampleBuffer) (l r : Option StaticModel) :
    Prop where
  hostRate : st.hostRate = rate
  maxBlock : block ≤ st.maxBlock
  ratedL : RatedAt st.modelRate l
  ratedR : RatedAt st.modelRate r
  sizedL : SizedFor block l
  sizedR : SizedFor block r

/-- A model that is carried was built for a host rate and a block. -/
structure LoadModelPayload.BuiltFor (rate block : Nat) (m : LoadModelPayload) : Prop where
  hostRate : m.newStream.hostRate = rate
  maxBlock : block ≤ m.newStream.maxBlock
  sizedL : SizedFor block m.modelL
  sizedR : SizedFor block m.modelR

def ClapParamPayload.BuiltFor (rate block : Nat) (c : ClapParamPayload) : Prop :=
  ∀ m ∈ c.model?, m.BuiltFor rate block

theorem SizedFor.none (block : Nat) : SizedFor block none := fun _ h => by cases h

theorem SizedFor.resized (block : Nat) (m : Option StaticModel) :
    SizedFor block (m.map (·.setMaxBufferSize block)) := by
  intro n hn
  obtain ⟨k, -, rfl⟩ := Option.map_eq_some_iff.1 hn
  exact Nat.le_refl _

theorem FitsConfig.of_payload {rate block : Nat} {log : List Event} {m : LoadModelPayload}
    (h : m.BuiltFor rate block) (hr : rateCarriage.Payload log m) :
    FitsConfig rate block m.newStream m.modelL m.modelR := by
  obtain ⟨hst, hl, hr⟩ := hr
  exact ⟨h.hostRate, h.maxBlock, hst ▸ hl, hst ▸ hr, h.sizedL, h.sizedR⟩

theorem le_maxBlock (rate modelRate block : Nat) :
    block ≤ (buildStreamAdapter rate modelRate block).maxBlock := Nat.le_max_left block 1

/-- What the loader prepares is sized for its stream. -/
def sizeCarriage : Carriage where
  Payload _ _ := True
  Pending _ _ := True
  Result prep := ∀ st ∈ prep.newStream, SizedFor st.maxBlock prep.modelL ∧
    SizedFor st.maxBlock prep.modelR
  payload_mono h := h
  pending_mono h := h
  prepared := by
    intro file epoch faults prep h st hst
    cases prepareModel_spec h with
    | unsized hb hf hl hr hn =>
      rw [hn] at hst
      cases hst
    | @sized host hb hf hl hr hn =>
      rw [hn] at hst
      obtain rfl := Option.some.inj hst
      have hmax : (buildStreamAdapter host file.rate epoch.bufferSize).maxBlock =
          epoch.bufferSize := by
        simp only [buildStreamAdapter]
        omega
      rw [hmax, hl, hr]
      exact ⟨.resized _ (some file.modelL), .resized _ file.modelR⟩
  adapt _ _ _ := trivial
  retained _ _ := trivial
  clearPayload _ := trivial
  clearPending _ := trivial
  restorePayload _ := trivial
  restorePending _ := trivial
  toPending _ := trivial
  rebuilt _ := trivial
  rebuiltStaged _ := trivial
  resizedPending _ := trivial
  resizedPayload _ := trivial

/-- A prepared model is adopted for the configuration: it was prepared for it, or it is rebuilt. -/
theorem builtFor_adapt {prep : PreparedModel} {s : Shared} {faults : EngineCall → Bool} {g : Nat}
    {m : LoadModelPayload} (hp : sizeCarriage.Result prep)
    (h : prep.adapt s faults g = some m) : m.BuiltFor s.sampleRate s.bufferSize := by
  obtain rfl | ⟨hd, res, st, -, hst, rfl⟩ := adapt_cases h
  · exact ⟨rfl, le_maxBlock .., .resized _ _, .resized _ _⟩
  · obtain ⟨hhost, hblock⟩ := divergent_stream hd hst
    obtain ⟨hl, hr⟩ := hp st hst
    rw [hblock] at hl hr
    exact ⟨hhost, hblock.ge, hl, hr⟩

theorem builtFor_clear {s : Shared} (hs : s.sampleRate ≠ 0) :
    s.clearPayload.BuiltFor s.sampleRate s.bufferSize :=
  ⟨if_neg hs, le_maxBlock .., .none _, .none _⟩

theorem builtFor_rebuilt (p : PendingModel) (s : Shared) :
    (p.rebuilt s).BuiltFor s.sampleRate s.bufferSize :=
  ⟨rfl, le_maxBlock .., .resized _ _, .resized _ _⟩

theorem builtFor_restore {s : Shared} (hs : s.sampleRate ≠ 0) (f : ModelFile) (g : Nat) :
    (restoreModel s f g).BuiltFor s.sampleRate s.bufferSize := by
  refine ⟨if_neg hs, le_maxBlock .., ?_, ?_⟩
  · simp only [restoreModel]
    split_ifs with hb
    · exact .resized _ (some f.modelL)
    · exact fun n _ => by omega
  · simp only [restoreModel]
    split_ifs with hb
    · exact .resized _ f.modelR
    · exact fun n _ => by omega

theorem builtFor_restoreClear {s : Shared} (hs : s.sampleRate ≠ 0) (g : Nat) :
    (restoreClear s g).BuiltFor s.sampleRate s.bufferSize :=
  ⟨if_neg hs, le_maxBlock .., .none _, .none _⟩

/-! ## The main thread -/

/-- What waits for the audio thread was built for a host rate and a block. -/
structure Shared.Awaits (rate block : Nat) (s : Shared) : Prop where
  ring : ∀ c ∈ s.ring, c.BuiltFor rate block
  pendingRestore : ∀ r ∈ s.pendingRestore, ∀ txn ∈ r.txn,
    (ClapParamPayload.restoreTxn txn).BuiltFor rate block

section
variable {rate block : Nat} {s t : Shared}

theorem ClapParamPayload.BuiltFor.quiet {c : ClapParamPayload} (h : c.Quiet) :
    c.BuiltFor rate block := by
  obtain ⟨q, rfl⟩ | ⟨osL, osR, rfl⟩ := h <;> rintro _ ⟨⟩

theorem Shared.Awaits.of_eq (h : s.Awaits rate block) (hr : t.ring = s.ring)
    (hp : t.pendingRestore = s.pendingRestore) : t.Awaits rate block where
  ring := hr ▸ h.ring
  pendingRestore := hp ▸ h.pendingRestore

theorem Shared.Awaits.sent (h : s.Awaits rate block) {ps : List ClapParamPayload}
    (c : Option RtProcessingParams) (hp : ∀ x ∈ ps, x.BuiltFor rate block) :
    (s.sent ps c).Awaits rate block where
  ring x hx := (List.mem_append.1 hx).elim (h.ring x) (hp x)
  pendingRestore := h.pendingRestore

theorem Flushed.builtFor {u : Shared} {ps : List ClapParamPayload}
    {c : Option RtProcessingParams} (h : Flushed u ps c) {d : ClapParamPayload}
    (hd : d.BuiltFor rate block) : ∀ x ∈ ps ++ [d], x.BuiltFor rate block := by
  intro x hx
  obtain hx | hx := List.mem_append.1 hx
  · exact .quiet (h.quiet x hx)
  · exact List.mem_singleton.1 hx ▸ hd

theorem Shared.Awaits.swaps {m : LoadModelPayload} (h : s.Awaits rate block)
    (hm : m.BuiltFor rate block) (k : Swaps s m t) : t.Awaits rate block := by
  have hu : s.unstaged.Awaits rate block := h.of_eq rfl rfl
  cases k with
  | sent hf =>
    refine hu.sent none (hf.builtFor (d := .loadModel m) ?_)
    rintro _ ⟨⟩
    exact hm
  | @retained ps c hf => exact (hu.sent c fun x hx => .quiet (hf.quiet x hx)).of_eq rfl rfl
  | staged => exact h.of_eq rfl rfl

theorem Shared.Awaits.commits {prep : PreparedModel} {g : Nat}
    (h : s.Awaits s.sampleRate s.bufferSize) (hp : sizeCarriage.Result prep)
    (k : Commits s prep g t) : t.Awaits s.sampleRate s.bufferSize := by
  cases k with
  | inactive hb => exact h.of_eq rfl rfl
  | failed => exact h
  | swapped hb hg ha ht hm => exact (h.swaps (builtFor_adapt hp hm) ht).of_eq rfl rfl

theorem Shared.Awaits.clears (h : s.Awaits s.sampleRate s.bufferSize) (hs : s.sampleRate ≠ 0)
    (k : Clears s t) : t.Awaits s.sampleRate s.bufferSize := by
  have hc : s.cleared.Awaits s.sampleRate s.bufferSize := h.of_eq rfl rfl
  cases k with
  | inactive hb => exact hc.of_eq rfl rfl
  | failed hb => exact hc
  | swapped hb hg ha ht hm => exact (hc.swaps (hm ▸ builtFor_clear hs) ht).of_eq rfl rfl

theorem Shared.Awaits.polls (h : s.Awaits s.sampleRate s.bufferSize)
    (hc : sizeCarriage.HoldsAt s.log s) (k : Polls s t) :
    t.Awaits s.sampleRate s.bufferSize := by
  cases k with
  | idle h' => exact h
  | dropped => exact h.of_eq rfl rfl
  | commits hr hg h0 ho ht =>
    exact Shared.Awaits.commits (s := { s with
      modelResultSlot := none, dispatchedModelGeneration := 0, dispatchedModelIsGui := false })
      (h.of_eq rfl rfl) (hc.result _ _ hr ho) ht

theorem Shared.Awaits.flushesModel {r : Shared × Bool} (h : s.Awaits s.sampleRate s.bufferSize)
    (k : FlushesModel s r) : r.1.Awaits s.sampleRate s.bufferSize := by
  cases k with
  | idle h' => exact h
  | failed => exact h.of_eq rfl rfl
  | @sent p m ps hp hb hg ha hf hm =>
    have hn : { s with pendingModel := none }.Awaits s.sampleRate s.bufferSize := h.of_eq rfl rfl
    refine hn.sent none (Flushed.builtFor hf (d := .loadModel m) ?_)
    rintro _ ⟨⟩
    exact hm ▸ builtFor_rebuilt p s
  | @kept p q ps c hp hb hg ha hf hq =>
    exact (h.sent c fun x hx => .quiet (hf.quiet x hx)).of_eq rfl rfl

theorem Shared.Awaits.loadsIr {ir : Asset} (h : s.Awaits rate block) (k : LoadsIr s ir t) :
    t.Awaits rate block := by
  have hu : s.unstagedIr.Awaits rate block := h.of_eq rfl rfl
  cases k with
  | recorded h' => exact h.of_eq rfl rfl
  | failed h' hb => exact h.of_eq rfl rfl
  | sent h' hb hf =>
    refine (hu.sent none (hf.builtFor ?_)).of_eq rfl rfl
    rintro _ ⟨⟩
  | @kept ps c h' hb hf => exact (hu.sent c fun x hx => .quiet (hf.quiet x hx)).of_eq rfl rfl
  | staged h' hb => exact h.of_eq rfl rfl

/-- What a restore packs is built for the configuration. -/
theorem Packaged.builtFor {v : ValidatedRestore} {mode : RestoreMode} {publish : RestorePublish}
    {txn : RestoreTxn} (h : Packaged s v mode t publish txn) (hs : s.sampleRate ≠ 0) :
    (ClapParamPayload.restoreTxn txn).BuiltFor s.sampleRate s.bufferSize := by
  intro m hm
  obtain ⟨f, -, rfl⟩ | rfl := h.built m hm
  · exact builtFor_restore hs f _
  · exact builtFor_restoreClear hs _

theorem Shared.Awaits.restores {v : ValidatedRestore} {mode : RestoreMode}
    (h : s.Awaits s.sampleRate s.bufferSize) (hs : s.sampleRate ≠ 0) (k : Restores s v mode t) :
    t.Awaits s.sampleRate s.bufferSize := by
  have hnote : ∀ (u : Shared) (txn : RestoreTxn), u.Awaits s.sampleRate s.bufferSize →
      (u.noteRestore txn).Awaits s.sampleRate s.bufferSize := by
    intro u txn hu
    rw [noteRestore_eq]
    exact hu.of_eq rfl rfl
  have hpack : ∀ {u publish txn}, Packaged s v mode u publish txn →
      u.Awaits s.sampleRate s.bufferSize := fun hp =>
    h.of_eq (by rw [hp.state]) (by rw [hp.state])
  cases k with
  | failed => exact h
  | staged hp => exact hnote _ _ ((hpack hp).of_eq rfl rfl)
  | @sent u publish txn ps hp hf =>
    have hd : { u with stagedRestore := none, stagedSwap := none }.Awaits s.sampleRate
      s.bufferSize := (hpack hp).of_eq rfl rfl
    refine hnote _ _ { hd.sent none (hf.builtFor (hp.builtFor hs)) with
      pendingRestore := fun r hr u hu => ?_ }
    obtain rfl := Option.some.inj hr
    cases hu
  | @kept u publish txn ps c hp hf =>
    have hd : { u with stagedRestore := none, stagedSwap := none }.Awaits s.sampleRate
      s.bufferSize := (hpack hp).of_eq rfl rfl
    refine hnote _ _ { hd.sent c fun x hx => .quiet (hf.quiet x hx) with
      pendingRestore := fun r hr u hu => ?_ }
    obtain rfl := Option.some.inj hr
    exact Option.some.inj hu ▸ hp.builtFor hs

theorem Shared.Awaits.localCommit (h : s.Awaits rate block) (v : ValidatedRestore)
    (mode : RestoreMode) : (s.localCommit v mode).Awaits rate block := by
  have hm : (s.localModel v mode).Awaits rate block := by
    unfold Shared.localModel
    split
    · exact h.of_eq rfl rfl
    · exact h.of_eq rfl rfl
    · exact h
  have hi : ((s.localModel v mode).localIr v mode).Awaits rate block := by
    unfold Shared.localIr
    split
    · exact hm.of_eq rfl rfl
    · exact hm.of_eq rfl rfl
    · exact hm
  exact hi.of_eq rfl rfl

theorem Shared.Awaits.publishIfAcked (h : s.Awaits rate block) :
    s.publishIfAcked.Awaits rate block := by
  obtain hs | ⟨r, -, -, -, hs⟩ := publishIfAcked_cases s <;> rw [hs]
  · exact h
  · rw [acknowledged_eq]
    exact ⟨h.ring, fun r hr => by cases hr⟩

theorem Shared.Awaits.flushesRestore (h : s.Awaits rate block) (k : FlushesRestore s t) :
    t.Awaits rate block := by
  cases k with
  | idle h' => exact h
  | waiting hr ht => exact h.publishIfAcked
  | @sent r txn ps hr ht hf =>
    refine Shared.Awaits.publishIfAcked
      { h.sent none (hf.builtFor (h.pendingRestore r hr txn ht)) with
        pendingRestore := fun r' hr' u hu => ?_ }
    obtain rfl := Option.some.inj hr'
    cases hu
  | @kept r txn ps c hr ht hf => exact h.sent c fun x hx => .quiet (hf.quiet x hx)

theorem Shared.Awaits.loadModel (E : Engine) (h : s.Awaits s.sampleRate s.bufferSize)
    (file : ModelFile) (faults : EngineCall → Bool) :
    (s.loadModel E file faults).Awaits s.sampleRate s.bufferSize := by
  obtain hl | ⟨prep, hc, hp⟩ := loadModel_spec E s file faults
  · rw [hl]
    exact h
  · have ha : s.allocateModelGeneration.Awaits s.sampleRate s.bufferSize := h.of_eq rfl rfl
    exact Shared.Awaits.commits (s := s.allocateModelGeneration) ha (sizeCarriage.prepared hp) hc

theorem Shared.Awaits.quiet (h : s.Awaits rate block) (k : Quiet s t) : t.Awaits rate block := by
  obtain ⟨ps, hr, -, hq⟩ := k.sent
  refine ⟨fun c hc => ?_, k.pendingRestore ▸ h.pendingRestore⟩
  rw [hr] at hc
  exact (List.mem_append.1 hc).elim (h.ring c) fun hc => .quiet (hq c hc)

/-- While the rate is known the main thread sends only what is built for the configuration. -/
theorem Shared.Awaits.main (E : Engine) (h : s.Awaits s.sampleRate s.bufferSize)
    (hs : s.sampleRate ≠ 0) (hc : sizeCarriage.HoldsAt s.log s) (a : MainAction) :
    (mainStep E s a).Awaits s.sampleRate s.bufferSize := by
  by_cases hq : a.isQuiet = true
  · exact h.quiet (mainStep_quiet E s hq)
  cases a with
  | loadModel file faults => exact h.loadModel E file faults
  | clearModel faults => exact h.clears hs (clearModel_spec E s faults)
  | dispatchModelLoadSync file faults =>
    show (s.dispatchModelLoadSync E file faults).Awaits s.sampleRate s.bufferSize
    obtain ⟨jobs, hd⟩ | ⟨jobs, f, hd⟩ := dispatchModelLoadSync_spec E s file faults <;> rw [hd]
    · exact h.of_eq rfl rfl
    · exact Shared.Awaits.loadModel (s := { s with pendingAsyncLoads := jobs }) E
        (h.of_eq rfl rfl) f faults
  | pollModelLoaderResult faults => exact h.polls hc (pollModelLoaderResult_spec E s faults)
  | flushPendingModel faults => exact h.flushesModel (flushPendingModel_spec s faults)
  | handlePendingIr ir faults =>
    exact Shared.Awaits.loadsIr (s := { s with uiPendingIr := none }) (h.of_eq rfl rfl)
      (loadCabsim_spec _ ir faults)
  | clearIr =>
    show s.clearIr.Awaits s.sampleRate s.bufferSize
    unfold Shared.clearIr
    split <;> exact h.of_eq rfl rfl
  | restore v mode faults =>
    show (s.commitRestore E v mode faults).Awaits s.sampleRate s.bufferSize
    unfold Shared.commitRestore
    split
    · exact h.localCommit v mode
    · exact h.restores hs (atomicCommit_spec E s v mode faults)
  | flushPendingRestore => exact h.flushesRestore (flushPendingRestore_spec s)
  | _ => exact absurd rfl hq

end

/-! ## The audio thread -/

/-- What an active processor runs, holds and waits for fits the configuration. -/
structure FitsRt (s : Shared) (p : Processor) : Prop where
  /-- The rate of an active instance is known. -/
  active : s.sampleRate ≠ 0
  awaits : s.Awaits s.sampleRate s.bufferSize
  chain : FitsConfig s.sampleRate s.bufferSize p.stream p.modelL p.modelR
  recovered : ∀ c ∈ p.recoveredCommands, c.BuiltFor s.sampleRate s.bufferSize
  deferred : ∀ c, p.deferred = some c → c.BuiltFor s.sampleRate s.bufferSize
  candidate : ∀ c, p.candidate = some c → c.BuiltFor s.sampleRate s.bufferSize

/-- A slimmed model fits the stream and the block it meets. -/
def SlimmableRebuild.Fits (s : Shared) (p : Processor) (r : SlimmableRebuild) : Prop :=
  r.model.rate = p.stream.modelRate ∧ s.bufferSize ≤ r.model.maxBuffer

section
variable (E : Engine)

theorem fits_chain {s : Shared} {p : Processor} (hp : FitsRt s p)
    (hc : rateCarriage.HoldsRt s.log p) {a : AudioAction} {r : Shared × Processor}
    (hG : a = .slimmable .install → ∀ q ∈ p.slim.deferred, q.Fits s p)
    (h : audioStep E s p a = some r) :
    FitsConfig s.sampleRate s.bufferSize r.2.stream r.2.modelL r.2.modelR := by
  by_cases ha : a = .slimmable .install
  · subst ha
    have hq := hG rfl
    simp only [audioStep] at h
    split_ifs at h
    cases slimmableMove_spec h with
    | @install q hd hg =>
      obtain ⟨hrate, hsize⟩ := hq q hd
      refine { hp.chain with ratedL := ?_, sizedL := ?_ }
      · rintro _ ⟨⟩
        exact hrate
      · rintro _ ⟨⟩
        exact hsize
  · refine audioStep_chain_invariant E
      (I := fun c => FitsConfig s.sampleRate s.bufferSize c.stream c.modelL c.modelR) h hp.chain
      fun c hfit op hop => ?_
    cases op with
    | command d =>
      have hd : d.BuiltFor s.sampleRate s.bufferSize := by
        obtain hm | hm | hm := audioOps_command hop
        · exact hp.recovered d hm
        · exact hp.deferred d hm
        · exact hp.candidate d hm
      show FitsConfig _ _ (c.install E s.sampleRate d).stream (c.install E s.sampleRate d).modelL
        (c.install E s.sampleRate d).modelR
      obtain ⟨m, hm, hl, hr, -, hst⟩ | ⟨-, hl, hr, -, hst⟩ :=
        Chain.install_model E s.sampleRate c d <;> rw [hl, hr, hst]
      · exact FitsConfig.of_payload (hd m hm) (hc.ops hop m hm)
      · exact hfit
    | slimmable q => exact absurd (audioOps_slimmable hop).1 ha
    | request ch => exact hfit
    | reset => exact hfit

theorem fits_audio {s : Shared} {p : Processor} (hp : FitsRt s p)
    (hc : rateCarriage.HoldsRt s.log p) {a : AudioAction} {r : Shared × Processor}
    (hG : a = .slimmable .install → ∀ q ∈ p.slim.deferred, q.Fits s p)
    (h : audioStep E s p a = some r) : FitsRt r.1 r.2 := by
  have hmoves := audioStep_moves E h
  have hchain := fits_chain E hp hc hG h
  obtain ⟨hrate, hblock⟩ := audioStep_config E h
  have hrestore : r.1.pendingRestore = s.pendingRestore := by
    rw [audioStep_shared E h]
    rfl
  rw [← hrate, ← hblock] at hchain
  have hb : ∀ {c : ClapParamPayload}, c.BuiltFor s.sampleRate s.bufferSize →
      c.BuiltFor r.1.sampleRate r.1.bufferSize := by
    rw [hrate, hblock]
    exact id
  refine ⟨hrate ▸ hp.active, ⟨fun c hc => hb (hp.awaits.ring c (hmoves.ring c hc)), ?_⟩, hchain,
    fun c hc => hb (hp.recovered c (hmoves.recovered c hc)), fun c hc => hb ?_, fun c hc => hb ?_⟩
  · rw [hrestore]
    exact fun q hq txn ht => hb (hp.awaits.pendingRestore q hq txn ht)
  · exact (hmoves.deferred c hc).elim (hp.deferred c) (hp.candidate c)
  · exact (hmoves.candidate c hc).elim (hp.candidate c) (hp.awaits.ring c)

/-! ## Activation -/

end

/-- The native rate an activation builds a stream for: the published one, or 48 kHz. -/
def Shared.nativeRate (s : Shared) : Nat :=
  if s.modelSampleRate = 0 then 48000 else s.modelSampleRate

/-- What an activation takes as it is fits the configuration. -/
structure LeftoversFit (s : Shared) (cfg : AudioConfig) : Prop where
  ring : ∀ c ∈ s.ring, c.BuiltFor cfg.hostRate cfg.maxFrames
  recovered : ∀ c ∈ s.recoveredCommands, c.BuiltFor cfg.hostRate cfg.maxFrames
  pendingRestore : ∀ r ∈ s.pendingRestore, ∀ txn ∈ r.txn,
    (ClapParamPayload.restoreTxn txn).BuiltFor cfg.hostRate cfg.maxFrames
  /-- The models of a staged item that is not adapted. -/
  staged : ∀ m ∈ stagedModel s.stagedRestore s.stagedSwap, m.newStream.hostRate = cfg.hostRate →
    m.newStream.maxBlock = cfg.maxFrames →
      SizedFor cfg.maxFrames m.modelL ∧ SizedFor cfg.maxFrames m.modelR
  /-- The models of a deactivated DSP fit the stream they get. -/
  kept : stagedModel s.stagedRestore s.stagedSwap = none → ∀ d ∈ s.deactivatedDsp,
    ¬(d.sampleRate = cfg.hostRate ∧ d.bufferSize = cfg.maxFrames) →
      FitsConfig cfg.hostRate cfg.maxFrames
        (buildStreamAdapter cfg.hostRate s.nativeRate cfg.maxFrames) d.modelL d.modelR

/-- A deactivated DSP fits the configuration it had. -/
def DeactivatedDspState.Fitted (d : DeactivatedDspState) : Prop :=
  FitsConfig d.sampleRate d.bufferSize d.stream d.modelL d.modelR

section
variable {E : Engine} {s : Shared} {cfg : AudioConfig}

/-- The stream of a pipeline: that of the deactivated DSP, of the same configuration, or a new
one. -/
theorem buildPipeline_stream {deact : Option DeactivatedDspState} {osFactor : OversampleFactor}
    {faults : ActivateCall → Bool} {pipe : Pipeline}
    (h : buildPipeline s deact cfg osFactor faults = some pipe) :
    (pipe.newStream = none ∧
      ∃ d, deact = some d ∧ d.sampleRate = cfg.hostRate ∧ d.bufferSize = cfg.maxFrames) ∨
    (pipe.newStream = some (buildStreamAdapter cfg.hostRate s.nativeRate cfg.maxFrames) ∧
      ∀ d, deact = some d → ¬(d.sampleRate = cfg.hostRate ∧ d.bufferSize = cfg.maxFrames)) := by
  unfold buildPipeline at h
  dsimp only at h
  split at h
  · cases h
  · obtain ⟨cab, -, rfl⟩ := Option.map_eq_some_iff.1 h
    dsimp only
    by_cases hm : (deact.any (·.sampleRate = cfg.hostRate) &&
        deact.any (·.bufferSize = cfg.maxFrames)) = true
    · rw [if_pos hm]
      cases deact with
      | none => cases hm
      | some d => exact .inl ⟨rfl, d, rfl, by simpa using hm⟩
    · rw [if_neg hm]
      refine .inr ⟨rfl, ?_⟩
      rintro d rfl
      simpa using hm

/-- The model an activation installs from a staged item. -/
theorem LeftoversFit.adapted (h : LeftoversFit s cfg) {faults : ActivateCall → Bool}
    {restore : Option StagedRestore} {swap : Option StagedSwap} {m : LoadModelPayload}
    (ha : adaptStaged s cfg faults = (true, restore, swap))
    (hm : stagedModel restore swap = some m) : m.BuiltFor cfg.hostRate cfg.maxFrames := by
  obtain ⟨_, _, _, _, hadapt⟩ := adaptStaged_model ha
  rw [hm] at hadapt
  obtain ⟨-, hn⟩ | ⟨n, hs, ⟨hn, hhost, hblock⟩ | hn⟩ := adaptModel?_cases hadapt
  · cases hn
  · obtain rfl := Option.some.inj hn
    obtain ⟨hl, hr⟩ := h.staged m hs hhost hblock
    exact ⟨hhost, hblock.ge, hl, hr⟩
  · obtain rfl := Option.some.inj hn
    exact ⟨rfl, le_maxBlock .., .resized _ _, .resized _ _⟩

/-- Without a staged model an activation installs those that were kept. -/
theorem LeftoversFit.reused (h : LeftoversFit s cfg)
    (hd : ∀ d, s.deactivatedDsp = some d → d.Fitted) {faults : ActivateCall → Bool}
    {restore : Option StagedRestore} {swap : Option StagedSwap} {pipe : Pipeline} {a : Assembly}
    (hprep : Prepared E s cfg faults restore swap pipe a)
    (hs : stagedModel restore swap = none) (hk : AssemblesKept pipe s.deactivatedDsp a) :
    FitsConfig cfg.hostRate cfg.maxFrames a.stream a.modelL a.modelR := by
  have hnone : stagedModel s.stagedRestore s.stagedSwap = none := by
    obtain ⟨_, _, _, _, hadapt⟩ := adaptStaged_model hprep.adapted
    rw [hs] at hadapt
    obtain ⟨hn, -⟩ | ⟨n, -, ⟨hn, -⟩ | hn⟩ := adaptModel?_cases hadapt
    · exact hn
    · cases hn
    · cases hn
  have hst := hk.stream
  rw [hk.modelL, hk.modelR]
  obtain ⟨hp, d, hdeact, hrate, hblock⟩ | ⟨hp, hdiff⟩ := buildPipeline_stream hprep.pipeline
  · rw [hp, Option.none_or, hdeact] at hst
    have hst : d.stream = a.stream := Option.some.inj hst
    rw [hdeact, ← hrate, ← hblock, ← hst]
    exact hd d hdeact
  · rw [hp, Option.some_or] at hst
    rw [← Option.some.inj hst]
    cases hdeact : s.deactivatedDsp with
    | none =>
      exact ⟨rfl, le_maxBlock .., .none _, .none _, .none _, .none _⟩
    | some d => exact h.kept hnone d hdeact (hdiff d hdeact)

/-- The chain an activation starts with. -/
theorem LeftoversFit.assembled (h : LeftoversFit s cfg)
    (hd : ∀ d, s.deactivatedDsp = some d → d.Fitted) (hc : rateCarriage.HoldsAt s.log s)
    {faults : ActivateCall → Bool} {restore : Option StagedRestore} {swap : Option StagedSwap}
    {pipe : Pipeline} {a : Assembly} (hprep : Prepared E s cfg faults restore swap pipe a) :
    FitsConfig cfg.hostRate cfg.maxFrames a.stream a.modelL a.modelR := by
  obtain ⟨m, hm, hl, hr, -, hst⟩ | ⟨hs, hk⟩ := hprep.models
  · rw [hl, hr, hst]
    exact FitsConfig.of_payload (h.adapted hprep.adapted hm)
      (Carriage.stagedModel_payload (hc.adaptStaged hprep.adapted) hm)
  · exact h.reused hd hprep hs hk

/-- What waits for the audio thread when the configuration is published. -/
theorem LeftoversFit.published (h : LeftoversFit s cfg) (restore : Option StagedRestore)
    (a : Assembly) : (s.published E cfg restore a).Awaits cfg.hostRate cfg.maxFrames ∧
      (s.published E cfg restore a).recoveredCommands = s.recoveredCommands := by
  cases restore with
  | none => exact ⟨⟨h.ring, h.pendingRestore⟩, rfl⟩
  | some r =>
    simp only [Shared.published, Shared.publishStaged]
    rw [publishRestore_eq]
    exact ⟨⟨h.ring, h.pendingRestore⟩, rfl⟩

theorem fits_activates {faults : ActivateCall → Bool} {x : Shared × Option Processor}
    (h : LeftoversFit s cfg) (hd : ∀ d, s.deactivatedDsp = some d → d.Fitted)
    (hc : rateCarriage.HoldsAt s.log s) (k : Activates E s cfg faults x) :
    ∀ p, x.2 = some p → FitsRt x.1 p := by
  intro p hp
  cases k with
  | @ok restore swap pipe a t hprep hf =>
    obtain rfl := Option.some.inj hp
    obtain ⟨-, hrate, hblock⟩ := activates_chain E hf (s.activateOsFactor E)
    obtain ⟨hawaits, hrec⟩ := LeftoversFit.published (E := E) h restore a
    have hspec := flushPendingModel_spec (s.published E cfg restore a) fun c => faults (.flush c)
    have hflush := Shared.Awaits.flushesModel (s := s.published E cfg restore a) hawaits hspec
    have hcommands := hspec.frame.recoveredCommands.trans hrec
    rw [hf] at hflush hcommands
    refine ⟨?_, ?_, ?_, ?_, fun c hc => (by cases hc), fun c hc => (by cases hc)⟩
    · show t.sampleRate ≠ 0
      rw [hrate]
      simp only [AudioConfig.hostRate]
      omega
    · show Shared.Awaits t.sampleRate t.bufferSize _
      rw [hrate, hblock]
      exact hflush.of_eq rfl rfl
    · show FitsConfig t.sampleRate t.bufferSize a.stream a.modelL a.modelR
      rw [hrate, hblock]
      exact h.assembled hd hc hprep
    · show ∀ c ∈ t.recoveredCommands, c.BuiltFor t.sampleRate t.bufferSize
      rw [hrate, hblock, hcommands]
      exact h.recovered
  | _ => cases hp

end

/-! ## Runs -/

/-- Everything that is carried has its rate and its sizes, and what is installed or kept fits its
configuration. -/
structure FitInv (x : Plugin) : Prop where
  rates : rateCarriage.Holds x
  sizes : sizeCarriage.Holds x
  deactivated : ∀ d, x.shared.deactivatedDsp = some d → d.Fitted
  proc : ∀ p, x.proc = some p → FitsRt x.shared p

section
variable (E : Engine)

/-- An activation that succeeds finds leftovers that fit its configuration, and a slimmed model fits
the chain it meets. -/
def KeepsFit (x : Plugin) : Action → Prop
  | .audio (.slimmable .install) => ∀ p ∈ x.proc, ∀ r ∈ p.slim.deferred, r.Fits x.shared p
  | .activate cfg faults => (x.shared.activate E cfg faults).2.isSome = true →
    LeftoversFit x.shared cfg
  | _ => True

variable {E}

theorem FitsRt.main {s : Shared} {p : Processor} (h : FitsRt s p)
    (hc : sizeCarriage.HoldsAt s.log s) (a : MainAction) : FitsRt (mainStep E s a) p := by
  have hframe := mainStep_frame E s a
  have hawaits := h.awaits.main E h.active hc a
  rw [← hframe.sampleRate, ← hframe.bufferSize] at hawaits
  refine ⟨?_, hawaits, ?_, ?_, ?_, ?_⟩ <;> rw [hframe.sampleRate]
  · exact h.active
  all_goals rw [hframe.bufferSize]
  · exact h.chain
  · exact h.recovered
  · exact h.deferred
  · exact h.candidate

/-- A deactivation keeps what fits. -/
theorem FitsRt.deactivate {s : Shared} {p : Processor} (h : FitsRt s p)
    {d : DeactivatedDspState} (hd : (deactivate s p).deactivatedDsp = some d) : d.Fitted := by
  unfold NamPlug.deactivate at hd
  cases hc : p.deferred <;> rw [hc] at hd <;> obtain rfl := Option.some.inj hd
  · exact h.chain
  · exact h.chain

theorem fitInv_step {x y : Plugin} {a : Action} (hx : FitInv x) (hG : KeepsFit E x a)
    (h : step E x a = some y) : FitInv y := by
  have hrates := Carriage.holds_step E hx.rates h
  have hsizes := Carriage.holds_step E hx.sizes h
  cases a with
  | main a =>
    obtain rfl := Option.some.inj h
    refine ⟨hrates, hsizes, ?_, fun p hp => (hx.proc p hp).main hx.sizes.shared a⟩
    show ∀ d, (mainStep E x.shared a).deactivatedDsp = some d → d.Fitted
    rw [(mainStep_frame E x.shared a).deactivatedDsp]
    exact hx.deactivated
  | audio a =>
    obtain ⟨p, hp, h⟩ := Option.bind_eq_some_iff.1 h
    obtain ⟨r, hr, rfl⟩ := Option.map_eq_some_iff.1 h
    refine ⟨hrates, hsizes, ?_, ?_⟩
    · show ∀ d, r.1.deactivatedDsp = some d → d.Fitted
      rw [audioStep_shared E hr]
      exact hx.deactivated
    · rintro q ⟨⟩
      refine fits_audio E (hx.proc p hp) (hx.rates.proc p hp) ?_ hr
      rintro rfl
      exact hG p hp
  | activate cfg faults =>
    simp only [step] at h
    split_ifs at h
    obtain rfl := Option.some.inj h
    have hspec := activate_spec E x.shared cfg faults
    refine ⟨hrates, hsizes, fun d hd => ?_, fun p hp => ?_⟩
    · obtain hk | hk := activates_deactivated E hspec
      · exact hx.deactivated d (hk.symm.trans hd)
      · cases hk.symm.trans hd
    · exact fits_activates (hG (Option.isSome_of_eq_some hp)) hx.deactivated hx.rates.shared hspec
        p hp
  | deactivate =>
    simp only [step] at h
    split at h
    · rename_i p hp
      split_ifs at h
      obtain rfl := Option.some.inj h
      exact ⟨hrates, hsizes, fun d hd => (hx.proc p hp).deactivate hd, fun p hp => by cases hp⟩
    · cases h

theorem fitInv_init : FitInv (.init E.toParamEngine) where
  rates := Carriage.holds_init E
  sizes := Carriage.holds_init E
  deactivated d h := by cases h
  proc p h := by cases h

/-- In a run that keeps to fitting leftovers and slimmed models, the chain of an active plugin fits
the configuration. -/
theorem chain_fits {as : List Action} {x : Plugin} {p : Processor}
    (h : run (step E) (.init E.toParamEngine) as = some x)
    (hG : Guarded (step E) (KeepsFit E) (.init E.toParamEngine) as) (hp : x.proc = some p) :
    FitsConfig x.shared.sampleRate x.shared.bufferSize p.stream p.modelL p.modelR :=
  ((run_invariant (fun _ _ _ hI hG h => fitInv_step hI hG h) fitInv_init hG h).proc p hp).chain

end

/-! ## Reference runs -/

instance (rate : Nat) (m : Option StaticModel) : Decidable (RatedAt rate m) :=
  inferInstanceAs (Decidable (∀ n ∈ m, n.rate = rate))

instance (block : Nat) (m : Option StaticModel) : Decidable (SizedFor block m) :=
  inferInstanceAs (Decidable (∀ n ∈ m, block ≤ n.maxBuffer))

instance (rate block : Nat) (st : StreamingResampleBuffer) (l r : Option StaticModel) :
    Decidable (FitsConfig rate block st l r) :=
  decidable_of_iff (st.hostRate = rate ∧ block ≤ st.maxBlock ∧ RatedAt st.modelRate l ∧
      RatedAt st.modelRate r ∧ SizedFor block l ∧ SizedFor block r)
    ⟨fun ⟨a, b, c, d, e, f⟩ => ⟨a, b, c, d, e, f⟩, fun ⟨a, b, c, d, e, f⟩ => ⟨a, b, c, d, e, f⟩⟩

instance (rate block : Nat) (m : LoadModelPayload) : Decidable (m.BuiltFor rate block) :=
  decidable_of_iff (m.newStream.hostRate = rate ∧ block ≤ m.newStream.maxBlock ∧
      SizedFor block m.modelL ∧ SizedFor block m.modelR)
    ⟨fun ⟨a, b, c, d⟩ => ⟨a, b, c, d⟩, fun ⟨a, b, c, d⟩ => ⟨a, b, c, d⟩⟩

instance (rate block : Nat) (c : ClapParamPayload) : Decidable (c.BuiltFor rate block) :=
  inferInstanceAs (Decidable (∀ m ∈ c.model?, m.BuiltFor rate block))

instance (s : Shared) (cfg : AudioConfig) : Decidable (LeftoversFit s cfg) :=
  decidable_of_iff ((∀ c ∈ s.ring, c.BuiltFor cfg.hostRate cfg.maxFrames) ∧
      (∀ c ∈ s.recoveredCommands, c.BuiltFor cfg.hostRate cfg.maxFrames) ∧
      (∀ r ∈ s.pendingRestore, ∀ txn ∈ r.txn,
        (ClapParamPayload.restoreTxn txn).BuiltFor cfg.hostRate cfg.maxFrames) ∧
      (∀ m ∈ stagedModel s.stagedRestore s.stagedSwap, m.newStream.hostRate = cfg.hostRate →
        m.newStream.maxBlock = cfg.maxFrames →
          SizedFor cfg.maxFrames m.modelL ∧ SizedFor cfg.maxFrames m.modelR) ∧
      (stagedModel s.stagedRestore s.stagedSwap = none → ∀ d ∈ s.deactivatedDsp,
        ¬(d.sampleRate = cfg.hostRate ∧ d.bufferSize = cfg.maxFrames) →
          FitsConfig cfg.hostRate cfg.maxFrames
            (buildStreamAdapter cfg.hostRate s.nativeRate cfg.maxFrames) d.modelL d.modelR))
    ⟨fun ⟨a, b, c, d, e⟩ => ⟨a, b, c, d, e⟩, fun ⟨a, b, c, d, e⟩ => ⟨a, b, c, d, e⟩⟩

instance (s : Shared) (p : Processor) (r : SlimmableRebuild) : Decidable (r.Fits s p) :=
  inferInstanceAs (Decidable (_ ∧ _))

instance (E : Engine) (x : Plugin) : ∀ a, Decidable (KeepsFit E x a)
  | .audio (.slimmable .install) => inferInstanceAs (Decidable (∀ p ∈ x.proc,
      ∀ r ∈ p.slim.deferred, r.Fits x.shared p))
  | .activate cfg faults => inferInstanceAs (Decidable
      ((x.shared.activate E cfg faults).2.isSome = true → LeftoversFit x.shared cfg))
  | .audio (.slimmable .take) | .audio (.slimmable .discard) | .audio (.beginEvents _)
  | .audio (.drain _) | .audio .endEvents | .audio (.hostEvents _) | .audio (.flushInner ..)
  | .audio (.signalSlimmableRebuild _) | .audio .reset | .main _ | .deactivate => isTrue trivial

/-- A model is installed by the first callback of one activation and kept for another. -/
def refRenegotiated (first second : AudioConfig) : List Action :=
  [.main (.loadModel (refFile "one.nam") noFaults), .activate first fun _ => false,
    .audio (.beginEvents 0), .audio (.drain .popCandidate), .audio (.drain .installCandidate),
    .audio .endEvents, .deactivate, .activate second fun _ => false, .audio (.beginEvents 0),
    .audio .endEvents]

/-- A model of blocks of 128 is kept for blocks of 64 at another rate. -/
theorem chain_fits_smaller :
    ∃ p, (refRun (refRenegotiated ⟨48000, 128⟩ ⟨44100, 64⟩)).proc = some p ∧
      p.modelL.map (·.maxBuffer) = some 128 ∧ FitsConfig 44100 64 p.stream p.modelL p.modelR := by
  have hp := @refProc_eq (refRenegotiated ⟨48000, 128⟩ ⟨44100, 64⟩) (by decide +kernel)
  have hrate : (refRun (refRenegotiated ⟨48000, 128⟩ ⟨44100, 64⟩)).shared.sampleRate = 44100 := by
    decide +kernel
  have hblock : (refRun (refRenegotiated ⟨48000, 128⟩ ⟨44100, 64⟩)).shared.bufferSize = 64 := by
    decide +kernel
  have hfits := chain_fits (@run_refRun (refRenegotiated ⟨48000, 128⟩ ⟨44100, 64⟩)
    (by decide +kernel)) (by decide +kernel) hp
  rw [hrate, hblock] at hfits
  exact ⟨_, hp, by decide +kernel, hfits⟩

/-- A model of blocks of 64 is kept for blocks of 128. -/
theorem chain_misfits :
    ¬∀ (E : Engine) (bs cs : List Action) (cfg : AudioConfig) (faults : ActivateCall → Bool)
      (x : Plugin) (p : Processor),
      run (step E) (.init E.toParamEngine) (bs ++ .activate cfg faults :: cs) = some x →
      .audio .endEvents ∈ cs → .deactivate ∉ cs → x.proc = some p →
      FitsConfig x.shared.sampleRate x.shared.bufferSize p.stream p.modelL p.modelR := by
  intro h
  have hp := @refProc_eq (refRenegotiated ⟨48000, 64⟩ ⟨48000, 128⟩) (by decide +kernel)
  have hrun := @run_refRun (refRenegotiated ⟨48000, 64⟩ ⟨48000, 128⟩) (by decide +kernel)
  have hfits := h refEngine ((refRenegotiated ⟨48000, 64⟩ ⟨48000, 128⟩).take 7)
    [.audio (.beginEvents 0), .audio .endEvents] ⟨48000, 128⟩ (fun _ => false) _ _ hrun
    (by simp) (by simp) hp
  exact absurd hfits (by decide +kernel)

end NamPlug
