import NamPlug.Plugin.Proof.Activates
import NamPlug.Plugin.Proof.Installs
import NamPlug.Plugin.Proof.Outcomes

/-!
# The counters of the command path

The producer numbers what it pushes, the consumer what it resolves. `PluginCounts.step`: every push
is acknowledged, resolved in the drain that runs, parked, or still in the ring, after every step of
an instance.
-/

namespace NamPlug

open Machine

/-! ## Sending -/

/-- An operation of the main thread that touches neither the pending restore nor the
acknowledgements. -/
structure Sends (s s' : Shared) : Prop where
  sent : ∃ ps, s'.ring = s.ring ++ ps ∧ s'.cmdNextSeq = s.cmdNextSeq + ps.length
  cmdLastAck : s'.cmdLastAck = s.cmdLastAck
  recoveredCommands : s'.recoveredCommands = s.recoveredCommands
  pendingRestore : s'.pendingRestore = s.pendingRestore
  log : ∃ es, s'.log = es ++ s.log ∧ ∀ g, .published g ∉ es

theorem Sends.refl (s : Shared) : Sends s s := ⟨⟨[], by simp⟩, rfl, rfl, rfl, [], by simp⟩

theorem Sends.trans {s t u : Shared} (h : Sends s t) (k : Sends t u) : Sends s u := by
  obtain ⟨ps, hr, hn⟩ := h.sent
  obtain ⟨qs, kr, kn⟩ := k.sent
  obtain ⟨es, hl, he⟩ := h.log
  obtain ⟨fs, kl, kf⟩ := k.log
  refine ⟨⟨ps ++ qs, by rw [kr, hr, List.append_assoc], ?_⟩, k.cmdLastAck.trans h.cmdLastAck,
    k.recoveredCommands.trans h.recoveredCommands, k.pendingRestore.trans h.pendingRestore,
    fs ++ es, by rw [kl, hl, List.append_assoc], fun g hg => ?_⟩
  · rw [kn, hn, List.length_append]; omega
  · exact (List.mem_append.1 hg).elim (kf g) (he g)

theorem Quiet.sends {s s' : Shared} (h : Quiet s s') : Sends s s' := by
  obtain ⟨ps, hr, hn, -⟩ := h.sent
  obtain ⟨es, hl, he⟩ := h.log
  refine ⟨⟨ps, hr, hn⟩, h.cmdLastAck, h.recoveredCommands, h.pendingRestore, es, hl,
    fun g hg => ?_⟩
  obtain ⟨p, raw, hp⟩ := he _ hg
  cases hp

theorem sends_sent (s : Shared) (ps : List ClapParamPayload) (c : Option RtProcessingParams) :
    Sends s (s.sent ps c) := ⟨⟨ps, rfl, rfl⟩, rfl, rfl, rfl, [], rfl, by simp⟩

theorem sends_note {s t : Shared} (h : Sends s t) {e : Event} (he : ∀ g, e ≠ .published g) :
    Sends s (t.note e) := by
  refine h.trans ⟨⟨[], by simp [Shared.note]⟩, rfl, rfl, rfl, [e], rfl, fun g hg => ?_⟩
  exact he g (List.mem_singleton.1 hg).symm

theorem Swaps.sends {s t : Shared} {m : LoadModelPayload} (h : Swaps s m t) : Sends s t := by
  cases h with
  | sent hf => exact ⟨⟨_, rfl, rfl⟩, rfl, rfl, rfl, [], rfl, by simp⟩
  | retained hf => exact ⟨⟨_, rfl, rfl⟩, rfl, rfl, rfl, [], rfl, by simp⟩
  | staged => exact ⟨⟨[], by simp⟩, rfl, rfl, rfl, [], rfl, by simp⟩

/-- An operation that only changes what a restore and its acknowledgement do not depend on. -/
theorem sends_of_eq {s t : Shared} (hr : t.ring = s.ring) (hn : t.cmdNextSeq = s.cmdNextSeq)
    (ha : t.cmdLastAck = s.cmdLastAck) (hc : t.recoveredCommands = s.recoveredCommands)
    (hp : t.pendingRestore = s.pendingRestore) (hl : t.log = s.log) : Sends s t :=
  ⟨⟨[], by simp [hr], by simp [hn]⟩, ha, hc, hp, [], by simp [hl], by simp⟩

theorem sends_identity (s : Shared) (f : ModelFile) : Sends s (s.publishModelIdentity f) :=
  sends_of_eq rfl rfl rfl rfl rfl rfl

theorem Commits.sends {s t : Shared} {prep : PreparedModel} {g : Nat} (h : Commits s prep g t) :
    Sends s t := by
  cases h with
  | inactive hb =>
    refine sends_note (Sends.trans ?_ (sends_identity _ _)) (e := .model _ _) (by simp)
    exact sends_of_eq rfl rfl rfl rfl rfl rfl
  | failed => exact .refl s
  | swapped hb hg ha ht =>
    exact sends_note (ht.sends.trans (sends_identity _ _)) (e := .model _ _) (by simp)

theorem sends_allocate (s : Shared) : Sends s s.allocateModelGeneration :=
  sends_of_eq rfl rfl rfl rfl rfl rfl

theorem Clears.sends {s t : Shared} (h : Clears s t) : Sends s t := by
  have hc : Sends s s.cleared := sends_of_eq rfl rfl rfl rfl rfl rfl
  cases h with
  | inactive hb =>
    refine sends_note (hc.trans ?_) (e := .model _ _) (by simp)
    exact sends_of_eq rfl rfl rfl rfl rfl rfl
  | failed hb => exact hc
  | swapped hb hg ha ht => exact sends_note (hc.trans ht.sends) (e := .model _ _) (by simp)

theorem Polls.sends {s t : Shared} (h : Polls s t) : Sends s t := by
  cases h with
  | idle h => exact .refl s
  | dropped => exact sends_of_eq rfl rfl rfl rfl rfl rfl
  | commits hr hg h0 ho ht =>
    refine Sends.trans ?_ ht.sends
    exact sends_of_eq rfl rfl rfl rfl rfl rfl

theorem FlushesModel.sends {s : Shared} {r : Shared × Bool} (h : FlushesModel s r) :
    Sends s r.1 := by
  cases h with
  | idle h => exact .refl s
  | failed hp hb hg ha => exact sends_of_eq rfl rfl rfl rfl rfl rfl
  | sent hp hb hg ha hf => exact ⟨⟨_, rfl, rfl⟩, rfl, rfl, rfl, [], rfl, by simp⟩
  | kept hp hb hg ha hf => exact ⟨⟨_, rfl, rfl⟩, rfl, rfl, rfl, [], rfl, by simp⟩

theorem LoadsIr.sends {s t : Shared} {ir : Asset} (h : LoadsIr s ir t) : Sends s t := by
  have hadopt : ∀ (t : Shared) (n : Nat), Sends t (t.adoptIr ir n) := fun t n =>
    ⟨⟨[], by simp [Shared.adoptIr, Shared.note]⟩, rfl, rfl, rfl, [.ir (some ir)], rfl, by simp⟩
  cases h with
  | recorded h => exact hadopt s _
  | failed h hb => exact sends_of_eq rfl rfl rfl rfl rfl rfl
  | sent h hb hf =>
    refine Sends.trans ?_ (hadopt _ _)
    exact ⟨⟨_, rfl, rfl⟩, rfl, rfl, rfl, [], rfl, by simp⟩
  | kept h hb hf => exact ⟨⟨_, rfl, rfl⟩, rfl, rfl, rfl, [], rfl, by simp⟩
  | staged h hb =>
    refine Sends.trans ?_ (hadopt _ _)
    exact sends_of_eq rfl rfl rfl rfl rfl rfl

theorem clearIr_sends (s : Shared) : Sends s s.clearIr := by
  unfold Shared.clearIr
  split
  · exact sends_note (.refl s) (by simp)
  · refine sends_note (e := .ir none) ?_ (by simp)
    exact sends_of_eq rfl rfl rfl rfl rfl rfl

theorem localCommit_sends (s : Shared) (v : ValidatedRestore) (mode : RestoreMode) :
    Sends s (s.localCommit v mode) := by
  have hpub : ∀ (t : Shared) (pub : RestorePublish), Sends t (t.publishParams pub) :=
    fun t pub => sends_of_eq rfl rfl rfl rfl rfl rfl
  have hmodel : Sends s (s.localModel v mode) := by
    unfold Shared.localModel
    split
    · refine sends_note (e := .model _ _) ?_ (by simp)
      exact sends_of_eq rfl rfl rfl rfl rfl rfl
    · refine sends_note (e := .model _ _) ?_ (by simp)
      exact sends_of_eq rfl rfl rfl rfl rfl rfl
    · exact .refl s
  have hir : ∀ t : Shared, Sends t (t.localIr v mode) := by
    intro t
    unfold Shared.localIr
    split
    · refine sends_note (e := .ir _) ?_ (by simp)
      exact sends_of_eq rfl rfl rfl rfl rfl rfl
    · refine sends_note (e := .ir _) ?_ (by simp)
      exact sends_of_eq rfl rfl rfl rfl rfl rfl
    · exact .refl t
  exact sends_note ((hmodel.trans (hir _)).trans (hpub _ _)) (e := .params _) (by simp)

theorem sends_noteRestore (s : Shared) (txn : RestoreTxn) : Sends s (s.noteRestore txn) := by
  obtain ⟨generation, model, ir, params⟩ := txn
  refine sends_note (e := .params _) ?_ (by simp)
  cases model with
  | none =>
    cases ir with
    | none => exact .refl s
    | some ir => exact sends_note (.refl s) (by simp)
  | some m =>
    have hm : Sends s (s.note (.model m.generation (m.modelL.map StaticModel.asset))) :=
      sends_note (.refl s) (by simp)
    cases ir with
    | none => exact hm
    | some ir => exact sends_note hm (by simp)

theorem Packaged.sends {s t : Shared} {v : ValidatedRestore} {mode : RestoreMode}
    {publish : RestorePublish} {txn : RestoreTxn} (h : Packaged s v mode t publish txn) :
    Sends s t := by
  rw [h.state]
  exact sends_of_eq rfl rfl rfl rfl rfl rfl

section
variable (E : Engine)

/-- The operations that touch a pending restore. -/
def MainAction.isRestore : MainAction → Bool
  | .restore _ _ _ => true
  | .flushPendingRestore => true
  | _ => false

theorem loadModel_sends (s : Shared) (file : ModelFile) (faults : EngineCall → Bool) :
    Sends s (s.loadModel E file faults) := by
  obtain h | ⟨prep, h, -⟩ := loadModel_spec E s file faults
  · rw [h]
    exact .refl s
  · exact (sends_allocate s).trans h.sends

theorem mainStep_sends (s : Shared) {a : MainAction} (h : a.isRestore = false) :
    Sends s (mainStep E s a) := by
  by_cases hq : a.isQuiet = true
  · exact (mainStep_quiet E s hq).sends
  cases a <;> simp only [MainAction.isQuiet, not_true_eq_false, MainAction.isRestore,
    Bool.true_eq_false] at hq h <;> simp only [mainStep]
  case loadModel file faults => exact loadModel_sends E s file faults
  case clearModel faults => exact (clearModel_spec E s faults).sends
  case dispatchModelLoadSync file faults =>
    obtain ⟨jobs, h⟩ | ⟨jobs, f, h⟩ := dispatchModelLoadSync_spec E s file faults <;> rw [h]
    · exact sends_of_eq rfl rfl rfl rfl rfl rfl
    · refine Sends.trans (t := { s with pendingAsyncLoads := jobs }) ?_ (loadModel_sends E _ f faults)
      exact sends_of_eq rfl rfl rfl rfl rfl rfl
  case pollModelLoaderResult faults => exact (pollModelLoaderResult_spec E s faults).sends
  case flushPendingModel faults => exact (flushPendingModel_spec s faults).sends
  case handlePendingIr ir faults =>
    refine Sends.trans ?_ (loadCabsim_spec { s with uiPendingIr := none } ir faults).sends
    exact sends_of_eq rfl rfl rfl rfl rfl rfl
  case clearIr => exact clearIr_sends s

theorem sends_published (s : Shared) (cfg : AudioConfig) (restore : Option StagedRestore)
    (a : Assembly) : Sends s (s.published E cfg restore a) := by
  have hpub : Sends s (s.taken.publishStaged restore) := by
    cases restore with
    | none => exact sends_of_eq rfl rfl rfl rfl rfl rfl
    | some r =>
      simp only [Shared.publishStaged]
      rw [publishRestore_eq]
      exact sends_of_eq rfl rfl rfl rfl rfl rfl
  exact hpub.trans (sends_of_eq rfl rfl rfl rfl rfl rfl)

end

/-! ## Pushing -/

/-- Commands were added at the end of the ring, each with a number of its own. -/
structure Pushes (s t : Shared) : Prop where
  sent : ∃ ps, t.ring = s.ring ++ ps ∧ t.cmdNextSeq = s.cmdNextSeq + ps.length
  cmdLastAck : t.cmdLastAck = s.cmdLastAck

theorem Sends.pushes {s t : Shared} (h : Sends s t) : Pushes s t := ⟨h.sent, h.cmdLastAck⟩

theorem Pushes.trans {s t u : Shared} (h : Pushes s t) (k : Pushes t u) : Pushes s u := by
  obtain ⟨ps, hr, hn⟩ := h.sent
  obtain ⟨qs, kr, kn⟩ := k.sent
  refine ⟨⟨ps ++ qs, by rw [kr, hr, List.append_assoc], ?_⟩, k.cmdLastAck.trans h.cmdLastAck⟩
  rw [kn, hn, List.length_append]
  omega

theorem pushes_of_eq {s t : Shared} (hr : t.ring = s.ring) (hn : t.cmdNextSeq = s.cmdNextSeq)
    (ha : t.cmdLastAck = s.cmdLastAck) : Pushes s t := ⟨⟨[], by simp [hr], by simp [hn]⟩, ha⟩

theorem publishIfAcked_pushes (s : Shared) : Pushes s s.publishIfAcked := by
  obtain h | ⟨r, -, -, -, h⟩ := publishIfAcked_cases s <;> rw [h]
  · exact pushes_of_eq rfl rfl rfl
  · rw [acknowledged_eq]
    exact pushes_of_eq rfl rfl rfl

theorem Restores.pushes {s t : Shared} {v : ValidatedRestore} {mode : RestoreMode}
    (h : Restores s v mode t) : Pushes s t := by
  cases h with
  | failed => exact pushes_of_eq rfl rfl rfl
  | staged hp =>
    refine hp.sends.pushes.trans (Pushes.trans ?_ (sends_noteRestore _ _).pushes)
    exact pushes_of_eq rfl rfl rfl
  | sent hp hf =>
    refine hp.sends.pushes.trans (Pushes.trans ?_ (sends_noteRestore _ _).pushes)
    exact ⟨⟨_, rfl, by simp [Shared.sent, hp.state]⟩, rfl⟩
  | kept hp hf =>
    refine hp.sends.pushes.trans (Pushes.trans ?_ (sends_noteRestore _ _).pushes)
    exact ⟨⟨_, rfl, rfl⟩, rfl⟩

theorem FlushesRestore.pushes {s t : Shared} (h : FlushesRestore s t) : Pushes s t := by
  cases h with
  | idle h => exact pushes_of_eq rfl rfl rfl
  | waiting hr ht => exact publishIfAcked_pushes s
  | sent hr ht hf =>
    refine Pushes.trans ?_ (publishIfAcked_pushes _)
    exact ⟨⟨_, rfl, rfl⟩, rfl⟩
  | kept hr ht hf => exact (sends_sent s _ _).pushes

theorem mainStep_pushes (E : Engine) (s : Shared) (a : MainAction) :
    Pushes s (mainStep E s a) := by
  cases a with
  | restore v mode faults =>
    simp only [mainStep, Shared.commitRestore]
    split_ifs
    · exact (localCommit_sends s v mode).pushes
    · exact (atomicCommit_spec E s v mode faults).pushes
  | flushPendingRestore => exact (flushPendingRestore_spec s).pushes
  | _ => exact (mainStep_sends E s rfl).pushes

/-! ## The counters -/

/-- The counters of an active processor: every push is acknowledged, resolved in this drain, parked,
or still in the ring. -/
structure Counts (s : Shared) (p : Processor) : Prop where
  ack : s.cmdLastAck + p.resolved + p.deferred.toList.length + p.candidate.toList.length +
    s.ring.length = s.cmdNextSeq
  seq : p.processedSeq + p.deferred.toList.length + s.ring.length = s.cmdNextSeq
  idle : p.inCallback = false → p.candidate = none ∧ p.resolved = 0
  single : p.deferred = none ∨ p.candidate = none

def PluginCounts (s : Shared) : Option Processor → Prop
  | some p => Counts s p
  | none => s.cmdLastAck + s.ring.length = s.cmdNextSeq

theorem PluginCounts.le {s : Shared} {o : Option Processor} (h : PluginCounts s o) :
    s.cmdLastAck + s.ring.length ≤ s.cmdNextSeq := by
  cases o with
  | none => exact Nat.le_of_eq h
  | some p => have := h.ack; omega

/-- A restore in the ring is not acknowledged. -/
theorem ring_unacked {s : Shared} {o : Option Processor} (h : PluginCounts s o)
    {c : ClapParamPayload} {a b : List ClapParamPayload} (hr : s.ring = a ++ c :: b)
    {n : Nat} (hn : n + b.length = s.cmdNextSeq) : s.cmdLastAck < n := by
  have := h.le
  rw [hr] at this
  simp only [List.length_append, List.length_cons] at this
  omega

theorem PluginCounts.of_eq {s s' : Shared} {o : Option Processor} (h : PluginCounts s o)
    (hr : s'.ring = s.ring) (hn : s'.cmdNextSeq = s.cmdNextSeq)
    (ha : s'.cmdLastAck = s.cmdLastAck) : PluginCounts s' o := by
  cases o with
  | none =>
    simp only [PluginCounts] at *
    rw [ha, hr, hn, h]
  | some p => exact ⟨by rw [ha, hr, hn]; exact h.ack, by rw [hr, hn]; exact h.seq, h.idle, h.single⟩

/-! ### The main thread -/

theorem PluginCounts.pushes {s s' : Shared} {o : Option Processor} (h : PluginCounts s o)
    (k : Pushes s s') : PluginCounts s' o := by
  obtain ⟨ps, hr, hn⟩ := k.sent
  cases o with
  | none =>
    simp only [PluginCounts] at *
    rw [k.cmdLastAck, hr, hn, List.length_append]
    omega
  | some p =>
    obtain ⟨h1, h2, h3, h4⟩ := h
    refine ⟨?_, ?_, h3, h4⟩
    · rw [k.cmdLastAck, hr, hn, List.length_append]; omega
    · rw [hr, hn, List.length_append]; omega

/-! ### The audio thread -/

theorem Counts.noCandidate {s : Shared} {p : Processor} {d : ClapParamPayload} (h : Counts s p)
    (hd : p.deferred = some d) : p.candidate = none :=
  h.single.resolve_left fun h => by rw [hd] at h; cases h

theorem Counts.noDeferred {s : Shared} {p : Processor} {c : ClapParamPayload} (h : Counts s p)
    (hc : p.candidate = some c) : p.deferred = none :=
  h.single.resolve_right fun h => by rw [hc] at h; cases h

/-- Installing and applying leaves the command path alone. -/
theorem Counts.frame {r r' : Shared × Processor} (h : Counts r.1 r.2) (k : AudioFrame r r') :
    Counts r'.1 r'.2 := by
  rw [k.shared, k.proc]
  exact ⟨h.ack, h.seq, h.idle, h.single⟩

section
variable (E : Engine)

/-- One move of a drain. -/
theorem Counts.drains {s : Shared} {p : Processor} {m : DrainMove} {r : Shared × Processor}
    (h : Counts s p) (hc : p.inCallback = true) (k : Drains E s p m r) : Counts r.1 r.2 := by
  have hack := h.ack
  have hseq := h.seq
  have hidle : ∀ {P : Prop}, p.inCallback = false → P := fun h => by rw [hc] at h; cases h
  have hinstall : ∀ {t : Shared} {q : Processor} (c : ClapParamPayload),
      Counts t { q with resolved := q.resolved + 1 } → Counts (install E t q c).1 (install E t q c).2 :=
    fun c hq => Counts.frame hq (applyStructural_frame E _ _ c)
  cases k with
  | @installDeferred d hd =>
    have hcand := h.noCandidate hd
    rw [hd, hcand] at hack
    rw [hd] at hseq
    refine hinstall d ⟨?_, ?_, hidle, .inl rfl⟩
    · simp [Processor.unpark, hcand] at hack ⊢; omega
    · simp [Processor.unpark] at hseq ⊢; omega
  | @discardDeferred d x rest hd hr hs =>
    have hcand := h.noCandidate hd
    rw [hd] at hack hseq
    refine ⟨?_, ?_, hidle, .inl rfl⟩
    · simp [discard, Processor.unpark, hcand] at hack ⊢; omega
    · simp [discard, Processor.unpark] at hseq ⊢; omega
  | @applyParams q rest hd hr =>
    rw [hd, hr] at hack hseq
    refine hinstall _ ⟨?_, ?_, hidle, .inl hd⟩
    · simp [Processor.pop, Shared.popped, hd] at hack ⊢; omega
    · simp [Processor.pop, Shared.popped, hd] at hseq ⊢; omega
  | @popCandidate x rest hd hcand hr hs =>
    rw [hd, hcand, hr] at hack
    rw [hd, hr] at hseq
    refine ⟨?_, ?_, hidle, .inl hd⟩
    · simp [Processor.pop, Shared.popped, hd] at hack ⊢; omega
    · simp [Processor.pop, Shared.popped, hd] at hseq ⊢; omega
  | @supersede c x rest hd hcand hr hs =>
    rw [hd, hcand, hr] at hack
    rw [hd, hr] at hseq
    refine ⟨?_, ?_, hidle, .inl hd⟩
    · simp [discard, Processor.pop, Shared.popped, hd] at hack ⊢; omega
    · simp [discard, Processor.pop, Shared.popped, hd] at hseq ⊢; omega
  | @installCandidate c hd hcand =>
    rw [hd, hcand] at hack
    rw [hd] at hseq
    refine hinstall c ⟨?_, ?_, hidle, .inl hd⟩
    · simp [hd] at hack ⊢; omega
    · simp [hd] at hseq ⊢; omega

theorem Counts.endDrain {s : Shared} {p : Processor} (h : Counts s p) :
    Counts (endDrain s p).1 (endDrain s p).2 := by
  have hack := h.ack
  have hseq := h.seq
  cases hcand : p.candidate with
  | none =>
    rw [hcand] at hack
    refine ⟨?_, ?_, fun _ => ?_, .inr ?_⟩ <;> simp [NamPlug.endDrain, hcand] at hack ⊢ <;> omega
  | some c =>
    have hd := h.noDeferred hcand
    rw [hcand, hd] at hack
    rw [hd] at hseq
    refine ⟨?_, ?_, fun _ => ?_, .inr ?_⟩ <;>
      simp [NamPlug.endDrain, hcand] at hack hseq ⊢ <;> omega

theorem Counts.beginEvents {s : Shared} {p : Processor} (h : Counts s p) (room : Nat)
    (hc : p.inCallback = false) :
    Counts (beginEvents E s p room).1 (beginEvents E s p room).2 := by
  have hidle := h.idle hc
  have hframe := replayRecovered_frame E { s with ui := (writeGuiEvents s.ui room).ui }
    { p with inCallback := true }
  have hbegin : Counts { s with ui := (writeGuiEvents s.ui room).ui }
      { p with inCallback := true, recoveredCommands := [] } :=
    ⟨h.ack, h.seq, fun _ => hidle, h.single⟩
  exact hbegin.frame hframe

theorem Counts.endEvents {s : Shared} {p : Processor} (h : Counts s p) :
    Counts (endEvents E s p).1 (endEvents E s p).2 := by
  obtain ⟨r, hframe, heq⟩ := endEvents_frame E s p
  have hr := h.endDrain.frame hframe.toAudioFrame
  rw [heq]
  refine ⟨hr.ack, hr.seq, fun _ => ?_, hr.single⟩
  dsimp only
  rw [hframe.proc]
  refine ⟨?_, rfl⟩
  cases hcand : p.candidate <;> simp [NamPlug.endDrain, Processor.over, hcand]

/-- The operations of the audio thread that move commands. -/
def AudioAction.isCommand : AudioAction → Bool
  | .beginEvents _ => true
  | .drain _ => true
  | .endEvents => true
  | _ => false

theorem audioStep_frame {s : Shared} {p : Processor} {a : AudioAction} {r : Shared × Processor}
    (ha : a.isCommand = false) (hr : audioStep E s p a = some r) : AudioFrame (s, p) r := by
  cases a <;> simp only [AudioAction.isCommand, Bool.true_eq_false] at ha <;>
    simp only [audioStep] at hr
  case hostEvents es =>
    split_ifs at hr
    obtain rfl := Option.some.inj hr
    exact (hostEvents_frame E s p es).toAudioFrame
  case flushInner room es =>
    split_ifs at hr
    obtain rfl := Option.some.inj hr
    exact (flushInner_frame E s p room es).toAudioFrame
  case slimmable m =>
    split_ifs at hr
    exact (slimmableMove_spec hr).frame.1
  case signalSlimmableRebuild ch =>
    split_ifs at hr
    obtain rfl := Option.some.inj hr
    exact signalSlimmableRebuild_frame s p ch
  case reset =>
    split_ifs at hr
    obtain rfl := Option.some.inj hr
    exact resetProcessor_frame s p

theorem Counts.audio {s : Shared} {p : Processor} {a : AudioAction} {r : Shared × Processor}
    (h : Counts s p) (hr : audioStep E s p a = some r) : Counts r.1 r.2 := by
  by_cases ha : a.isCommand = false
  · exact Counts.frame (r := (s, p)) h (audioStep_frame E ha hr)
  cases a <;> simp only [AudioAction.isCommand, not_true_eq_false] at ha <;>
    simp only [audioStep] at hr
  case beginEvents room =>
    split_ifs at hr with hc
    obtain rfl := Option.some.inj hr
    exact h.beginEvents E room (by simpa using hc)
  case drain m =>
    split_ifs at hr with hc
    exact h.drains E hc (drainMove_spec E hr)
  case endEvents =>
    split_ifs at hr
    obtain rfl := Option.some.inj hr
    exact h.endEvents E

/-! ### The lifecycle -/

theorem Counts.deactivate {s : Shared} {p : Processor} (h : Counts s p)
    (hc : p.inCallback = false) : PluginCounts (deactivate s p) none := by
  obtain ⟨hcand, hres⟩ := h.idle hc
  have hack := h.ack
  have hseq := h.seq
  rw [hcand, hres] at hack
  cases hd : p.deferred <;> rw [hd] at hack hseq <;>
    simp [PluginCounts, NamPlug.deactivate, hd] at hack hseq ⊢ <;> omega

/-- The ring of a failed activation is acknowledged. -/
theorem PluginCounts.recoverRing {s t : Shared} (h : PluginCounts s none) (hr : t.ring = [])
    (hn : t.cmdNextSeq = s.cmdNextSeq) (ha : t.cmdLastAck = s.cmdLastAck + s.ring.length) :
    PluginCounts t none := by
  have h : s.cmdLastAck + s.ring.length = s.cmdNextSeq := h
  simp [PluginCounts, hr, hn, ha, h]

theorem PluginCounts.activates {s : Shared} {cfg : AudioConfig} {faults : ActivateCall → Bool}
    {r : Shared × Option Processor} (h : PluginCounts s none) (k : Activates E s cfg faults r) :
    PluginCounts r.1 r.2 := by
  have hflush : ∀ (restore : Option StagedRestore) (a : Assembly) (r : Shared × Bool),
      (s.published E cfg restore a).flushPendingModel (fun c => faults (.flush c)) = r →
      PluginCounts r.1 none := by
    rintro restore a _ rfl
    have hspec := flushPendingModel_spec (s.published E cfg restore a) fun c => faults (.flush c)
    exact (h.pushes (sends_published E s cfg restore a).pushes).pushes hspec.sends.pushes
  cases k with
  | noConsumer => exact h
  | early => exact h.recoverRing rfl rfl rfl
  | adapt => exact h.recoverRing rfl rfl rfl
  | flush hprep hf => exact (hflush _ _ _ hf).recoverRing rfl rfl rfl
  | ok hprep hf =>
    have hcounts : _ + _ = _ := hflush _ _ _ hf
    refine ⟨?_, ?_, fun _ => ⟨rfl, rfl⟩, .inl rfl⟩ <;> simpa [Assembly.processor] using hcounts

/-- Every step keeps the counters. -/
theorem PluginCounts.step {x y : Plugin} {a : Action} (h : PluginCounts x.shared x.proc)
    (hy : step E x a = some y) : PluginCounts y.shared y.proc := by
  obtain ⟨s, o⟩ := x
  cases a with
  | main a =>
    obtain rfl := Option.some.inj hy
    exact h.pushes (mainStep_pushes E s a)
  | audio a =>
    obtain ⟨p, hp, hy⟩ := Option.bind_eq_some_iff.1 hy
    obtain rfl : o = some p := hp
    obtain ⟨r, hr, rfl⟩ := Option.map_eq_some_iff.1 hy
    exact Counts.audio E h hr
  | activate cfg faults =>
    simp only [NamPlug.step] at hy
    split_ifs at hy with hp
    obtain rfl := Option.some.inj hy
    obtain rfl : o = none := by simpa using hp
    exact h.activates E (activate_spec E s cfg faults)
  | deactivate =>
    cases o with
    | none => cases hy
    | some p =>
      simp only [NamPlug.step] at hy
      split_ifs at hy with hc
      obtain rfl := Option.some.inj hy
      exact Counts.deactivate h (by simpa using hc)

end

end NamPlug
