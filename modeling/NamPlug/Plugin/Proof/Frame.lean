import NamPlug.Lib.Run
import NamPlug.Plugin.Step

/-!
# What a push does

`Shared.sent s ps c`: the producer put the commands `ps` in the ring, and `c` is the snapshot that
still waits to be flushed. `tryPushCommand_spec`: a push sends the snapshot that waited, or not, and
then its command, or not, in this order; nothing else changes.
-/

namespace NamPlug

def Shared.sent (s : Shared) (ps : List ClapParamPayload) (c : Option RtProcessingParams) :
    Shared :=
  { s with ring := s.ring ++ ps, cmdNextSeq := s.cmdNextSeq + ps.length, coalescing := c }

/-- `ps` is at most the snapshot `s` still had to flush, and `c` what is left of it. -/
structure Flushed (s : Shared) (ps : List ClapParamPayload) (c : Option RtProcessingParams) :
    Prop where
  mem : ∀ x ∈ ps, ∃ q, x = .params q ∧ s.coalescing = some q
  left : ∀ q, c = some q → s.coalescing = some q

theorem sent_sent (s : Shared) (ps qs : List ClapParamPayload) (c d : Option RtProcessingParams) :
    (s.sent ps c).sent qs d = s.sent (ps ++ qs) d := by
  simp [Shared.sent, Nat.add_assoc]

theorem ringPush_spec (s : Shared) (cmd : ClapParamPayload) :
    s.ringPush cmd = if s.ring.length < CMD_QUEUE_CAPACITY then some (s.sent [cmd] s.coalescing)
      else none := rfl

/-- `force_flush`, by whether the snapshot that waited went out. -/
theorem forceFlush_cases (s : Shared) :
    (∃ ps, Flushed s ps none ∧ s.forceFlush = (s.sent ps none, true)) ∨
      ∃ c, Flushed s [] c ∧ s.forceFlush = (s.sent [] c, false) := by
  unfold Shared.forceFlush
  split
  · rename_i h
    exact .inl ⟨[], ⟨by simp, by simp⟩, by simp [Shared.sent, ← h]⟩
  · rename_i q h
    rw [ringPush_spec]
    split_ifs with hr
    · exact .inl ⟨[.params q], ⟨by simp [h], by simp⟩, rfl⟩
    · exact .inr ⟨some q, ⟨by simp, by simp [h]⟩, by simp [Shared.sent, ← h]⟩

/-- `try_push_command`, by whether the command went in. -/
theorem tryPushCommand_cases (s : Shared) (cmd : ClapParamPayload) :
    (∃ ps, Flushed s ps none ∧ s.tryPushCommand cmd = (s.sent (ps ++ [cmd]) none, true)) ∨
      ∃ ps c, Flushed s ps c ∧ s.tryPushCommand cmd = (s.sent ps c, false) := by
  obtain ⟨ps, hf, h⟩ | ⟨c, hf, h⟩ := forceFlush_cases s
  · unfold Shared.tryPushCommand
    simp only [h, ringPush_spec]
    split_ifs with hr
    · exact .inl ⟨ps, hf, by simp [sent_sent, show (s.sent ps none).coalescing = none from rfl]⟩
    · exact .inr ⟨ps, none, hf, rfl⟩
  · exact .inr ⟨[], c, hf, by simp [Shared.tryPushCommand, h]⟩

theorem sendParams_cases (s : Shared) (q : RtProcessingParams) :
    s.sendParams q = s.sent [.params q] none ∨
      s.sendParams q = { s.sent [] (some q) with inFlightParams := some q }.bumpGeneration := by
  simp only [Shared.sendParams, Shared.pushParams, Shared.forceFlush, ringPush_spec]
  split_ifs with hr
  · exact .inl rfl
  · exact .inr (by simp [Shared.sent])

/-! ## Models -/

theorem pushModel_cases (s : Shared) (m : LoadModelPayload) :
    (∃ ps, Flushed s ps none ∧ s.pushModel m = s.sent (ps ++ [.loadModel m]) none) ∨
      ∃ ps c, Flushed s ps c ∧
        s.pushModel m = { s.sent ps c with pendingModel := some m.toPending } := by
  obtain ⟨ps, hf, h⟩ | ⟨ps, c, hf, h⟩ := tryPushCommand_cases s (.loadModel m)
  · exact .inl ⟨ps, hf, by simp [Shared.pushModel, h]⟩
  · exact .inr ⟨ps, c, hf, by simp [Shared.pushModel, h]⟩

section
variable (E : Engine)

/-- What a model load or clear leaves of the staged items where it does not stage itself. -/
def Shared.unstaged (s : Shared) : Shared := { s with stagedRestore := none }.clearStagedModel

/-- Where a model that is loaded or cleared goes. -/
inductive Swaps (s : Shared) (m : LoadModelPayload) : Shared → Prop where
  | sent {ps} (hf : Flushed s ps none) :
    Swaps s m (s.unstaged.sent (ps ++ [.loadModel m]) none)
  | retained {ps c} (hf : Flushed s ps c) :
    Swaps s m { s.unstaged.sent ps c with pendingModel := some m.toPending }
  | staged : Swaps s m { s with
      stagedRestore := none
      stagedSwap := some { s.stagedSwap.getD .empty with model := some m } }

theorem swapModel_spec (s : Shared) (m : LoadModelPayload) : Swaps s m (s.swapModel E m) := by
  unfold Shared.swapModel
  dsimp only
  split_ifs with h
  · obtain ⟨ps, hf, hp⟩ | ⟨ps, c, hf, hp⟩ :=
      pushModel_cases { s with stagedRestore := none }.clearStagedModel m <;> rw [hp]
    · exact .sent ⟨hf.mem, hf.left⟩
    · exact .retained ⟨hf.mem, hf.left⟩
  · exact .staged

/-- A prepared model that is adopted has the generation and the file of its load. -/
theorem adapt_spec {prep : PreparedModel} {s : Shared} {faults : EngineCall → Bool} {g : Nat}
    {m : LoadModelPayload} (h : prep.adapt s faults g = some m) :
    m.generation = g ∧ m.modelL.map StaticModel.asset = some prep.file.asset := by
  unfold PreparedModel.adapt at h
  split_ifs at h
  · split at h
    · cases h
    · rename_i l r hr
      obtain rfl := Option.some.inj h
      have := resizeModels_asset (faults .resizeL) (faults .resizeR) s.bufferSize prep.modelL
        prep.modelR
      rw [hr] at this
      exact ⟨rfl, this.trans prep.modelL_asset⟩
  · split at h
    · obtain rfl := Option.some.inj h
      exact ⟨rfl, prep.modelL_asset⟩
    · cases h

/-- The models and the stream of a prepared model that is adopted: rebuilt for the current
configuration, or as they were prepared. -/
theorem adapt_cases {prep : PreparedModel} {s : Shared} {faults : EngineCall → Bool} {g : Nat}
    {m : LoadModelPayload} (h : prep.adapt s faults g = some m) :
    m = ⟨g, prep.modelL.map (·.setMaxBufferSize s.bufferSize),
      prep.modelR.map (·.setMaxBufferSize s.bufferSize), ⟨s.sampleRate, prep.file.rate⟩,
      buildStreamAdapter s.sampleRate prep.file.rate s.bufferSize, prep.file.rate⟩ ∨
    (prep.divergent s = false ∧ ∃ res st, prep.newResampler = some res ∧
      prep.newStream = some st ∧ m = ⟨g, prep.modelL, prep.modelR, res, st, prep.file.rate⟩) := by
  unfold PreparedModel.adapt at h
  split_ifs at h with hd hf
  · obtain hr | ⟨l, -, hr⟩ := resizeModels_cases (faults .resizeL) (faults .resizeR) s.bufferSize
      prep.modelL prep.modelR <;> rw [hr] at h
    · exact .inl (Option.some.inj h).symm
    · cases h
  · split at h
    · rename_i res st hres hst
      exact .inr ⟨by simpa using hd, res, st, hres, hst, (Option.some.inj h).symm⟩
    · cases h

/-- A prepared model that is taken as it is has the stream for the current configuration. -/
theorem divergent_stream {prep : PreparedModel} {s : Shared} {st : StreamingResampleBuffer}
    (h : prep.divergent s = false) (hst : prep.newStream = some st) :
    st.hostRate = s.sampleRate ∧ st.maxBlock = s.bufferSize := by
  simp only [PreparedModel.divergent, hst, Option.all_some, Bool.or_eq_false_iff,
    decide_eq_false_iff_not, not_not] at h
  exact h.1.2

/-- What the loader prepares of a file: its models, sized and with a stream if the block size is
known. -/
inductive Prepares (file : ModelFile) (epoch : AudioEpoch) (prep : PreparedModel) : Prop where
  | unsized (hb : epoch.bufferSize = 0) (hf : prep.file = file)
    (hl : prep.modelL = some file.modelL) (hr : prep.modelR = file.modelR)
    (hst : prep.newStream = none)
  | sized {host} (hb : epoch.bufferSize ≠ 0) (hf : prep.file = file)
    (hl : prep.modelL = some (file.modelL.setMaxBufferSize epoch.bufferSize))
    (hr : prep.modelR = file.modelR.map (·.setMaxBufferSize epoch.bufferSize))
    (hst : prep.newStream = some (buildStreamAdapter host file.rate epoch.bufferSize))

theorem prepareModel_spec {file : ModelFile} {epoch : AudioEpoch} {faults : EngineCall → Bool}
    {prep : PreparedModel} (h : prepareModel file epoch faults = some prep) :
    Prepares file epoch prep := by
  unfold prepareModel at h
  dsimp only at h
  generalize (if epoch.sampleRate = 0 then 48000 else epoch.sampleRate) = host at h
  by_cases hb : epoch.bufferSize = 0
  · rw [if_pos hb] at h
    obtain rfl := Option.some.inj h
    exact .unsized hb rfl rfl rfl rfl
  · rw [if_neg hb] at h
    by_cases hf : faults .resampler = true
    · rw [if_pos hf] at h
      cases h
    · rw [if_neg hf] at h
      split at h
      · cases h
      · rename_i l r hr
        obtain hr' | ⟨k, -, hr'⟩ := resizeModels_cases (faults .resizeL) (faults .resizeR)
          epoch.bufferSize (some file.modelL) file.modelR <;> rw [hr'] at hr
        · cases hr
          split_ifs at h
          obtain rfl := Option.some.inj h
          exact .sized hb rfl rfl rfl rfl
        · cases hr

/-! ## The drain -/

/-- A processor with its drain past the parked command. -/
def Processor.unpark (p : Processor) : Processor :=
  { p with deferred := none, processedSeq := p.processedSeq + 1 }

/-- A processor with one command taken off the ring, and the candidate it now has. -/
def Processor.pop (p : Processor) (c : Option ClapParamPayload) : Processor :=
  { p with candidate := c, processedSeq := p.processedSeq + 1 }

def Shared.popped (s : Shared) (rest : List ClapParamPayload) : Shared := { s with ring := rest }

/-- Every move of a drain, with the commands it takes and where they go. -/
inductive Drains (s : Shared) (p : Processor) : DrainMove → Shared × Processor → Prop where
  | installDeferred {d} (hd : p.deferred = some d) :
    Drains s p .installDeferred (install E s p.unpark d)
  | discardDeferred {d h rest} (hd : p.deferred = some d) (hr : s.ring = h :: rest)
    (hs : h.supersedes d = true) : Drains s p .discardDeferred (s, discard p.unpark)
  | applyParams {q rest} (hd : p.deferred = none) (hr : s.ring = .params q :: rest) :
    Drains s p .applyParams (install E (s.popped rest) (p.pop p.candidate) (.params q))
  | popCandidate {h rest} (hd : p.deferred = none) (hc : p.candidate = none)
    (hr : s.ring = h :: rest) (hs : h.isStructural = true) :
    Drains s p .popCandidate (s.popped rest, p.pop (some h))
  | supersede {c h rest} (hd : p.deferred = none) (hc : p.candidate = some c)
    (hr : s.ring = h :: rest) (hs : h.supersedes c = true) :
    Drains s p .supersede (s.popped rest, discard (p.pop (some h)))
  | installCandidate {c} (hd : p.deferred = none) (hc : p.candidate = some c) :
    Drains s p .installCandidate (install E s { p with candidate := none } c)

/-- A processor whose drain of slimmed models holds `r`. -/
def Processor.hold (p : Processor) (r : Option SlimmableRebuild) : Processor :=
  { p with slim := { p.slim with deferred := r } }

def Shared.slimPopped (s : Shared) (rest : List SlimmableRebuild) : Shared :=
  { s with slim := { s.slim with ring := rest } }

/-- Every move of the drain of slimmed models. -/
inductive SlimmableDrains (s : Shared) (p : Processor) :
    SlimmableMove → Shared × Processor → Prop where
  | take {r rest} (hd : p.slim.deferred = none) (hr : s.slim.ring = r :: rest) :
    SlimmableDrains s p .take (s.slimPopped rest, p.hold (some r))
  | install {r} (hd : p.slim.deferred = some r) (hg : r.generation = p.modelGeneration) :
    SlimmableDrains s p .install (s, installSlimmable p r)
  | discard {r} (hd : p.slim.deferred = some r) (h : r.generation ≠ p.modelGeneration ∨
      ∃ r' rest, s.slim.ring = r' :: rest ∧ r'.generation = r.generation) :
    SlimmableDrains s p .discard (s, p.hold none)

theorem slimmableMove_spec {s : Shared} {p : Processor} {m : SlimmableMove}
    {r : Shared × Processor} (h : slimmableMove s p m = some r) : SlimmableDrains s p m r := by
  cases m <;> simp only [slimmableMove] at h
  case take =>
    split at h
    · obtain rfl := Option.some.inj h
      exact .take ‹_› ‹_›
    · cases h
  case install =>
    split at h
    · split_ifs at h with hg
      obtain rfl := Option.some.inj h
      exact .install ‹_› hg
    · cases h
  case discard =>
    split at h
    · rename_i d hd
      split_ifs at h with hs
      obtain rfl := Option.some.inj h
      refine .discard hd (hs.imp id fun hs => ?_)
      cases hr : s.slim.ring with
      | nil => simp [hr] at hs
      | cons x rest => exact ⟨x, rest, rfl, by simpa [hr] using hs⟩
    · cases h

theorem drainMove_spec {s : Shared} {p : Processor} {m : DrainMove} {r : Shared × Processor}
    (h : drainMove E s p m = some r) : Drains E s p m r := by
  cases m <;> simp only [drainMove] at h
  case installDeferred =>
    split at h
    · split_ifs at h
      obtain rfl := Option.some.inj h
      exact .installDeferred ‹_›
    · cases h
  case discardDeferred =>
    split at h
    · rename_i d hd
      split_ifs at h with hs
      obtain rfl := Option.some.inj h
      cases hr : s.ring with
      | nil => simp [hr] at hs
      | cons x rest => exact .discardDeferred hd hr (by simpa [hr] using hs)
    · cases h
  case applyParams =>
    split at h
    · obtain rfl := Option.some.inj h
      exact .applyParams ‹_› ‹_›
    · cases h
  case popCandidate =>
    split at h
    · split_ifs at h with hs
      obtain rfl := Option.some.inj h
      exact .popCandidate ‹_› ‹_› ‹_› hs
    · cases h
  case supersede =>
    split at h
    · split_ifs at h with hs
      obtain rfl := Option.some.inj h
      exact .supersede ‹_› ‹_› ‹_› hs
    · cases h
  case installCandidate =>
    split at h
    · obtain rfl := Option.some.inj h
      exact .installCandidate ‹_› ‹_›
    · cases h

end

end NamPlug
