import NamPlug.Plugin.Proof.Carried

/-!
# The restart policy

While the plugin is active, whatever would change its latency waits for a restart: a model, an
impulse response or a restore goes through the ring only if its latency is the one that is published
(`swapModel`, `loadCabsim`, `atomicCommit`). `latency_kept`: from an activation to the deactivation
the latency stays, if what was left over for the audio thread from before has the latency of the
activation (`LeftoversKeep`), which nothing compares, and if no oversampling engine of another latency is sent
(`KeepsOs`).
-/

namespace NamPlug

open Machine

/-- The latencies an activation sets, with its configuration. -/
structure Latencies where
  stream : Nat
  os : Nat
  cabsim : Nat
  sampleRate : Nat
  bufferSize : Nat

def Latencies.total (k : Latencies) : Nat := k.stream + k.os + k.cabsim

section
variable (E : Engine)

/-- A command changes no latency: its model and its impulse response have the latencies of those
that are installed, or it is refused. -/
def ClapParamPayload.Keeps (k : Latencies) (c : ClapParamPayload) : Prop :=
  (∀ m ∈ c.model?, E.streamLatency m.newStream = k.stream) ∧
  (∀ pair ∈ c.ir?, CabSimPair.builtElsewhere k.sampleRate pair = true ∨
    cabsimLatency pair = k.cabsim) ∧
  match c with
  | .setOversample osL _ => E.osLatency osL = k.os
  | _ => True

/-- What waits for the audio thread changes no latency. -/
structure Shared.Keeps (k : Latencies) (s : Shared) : Prop where
  ring : ∀ c ∈ s.ring, c.Keeps E k
  pendingRestore : ∀ r ∈ s.pendingRestore, ∀ txn ∈ r.txn, (ClapParamPayload.restoreTxn txn).Keeps E k
  pendingModel : k.bufferSize ≠ 0 → ∀ m ∈ s.pendingModel,
    E.streamLatency (buildStreamAdapter k.sampleRate m.modelRate k.bufferSize) = k.stream

/-- What an active instance publishes is what its activation set. -/
structure Strict (k : Latencies) (s : Shared) : Prop extends Shared.Keeps E k s where
  sampleRate : s.sampleRate = k.sampleRate
  bufferSize : s.bufferSize = k.bufferSize
  currentStreamLatency : s.currentStreamLatency = k.stream
  currentCabsimLatency : s.currentCabsimLatency = k.cabsim
  /-- The rate of an active instance is known. -/
  active : k.sampleRate ≠ 0

variable {E}

theorem ClapParamPayload.Keeps.params (k : Latencies) (q : RtProcessingParams) :
    (ClapParamPayload.params q).Keeps E k :=
  ⟨fun _ h => (by cases h), fun _ h => (by cases h), trivial⟩

theorem ClapParamPayload.Keeps.loadModel {k : Latencies} {m : LoadModelPayload}
    (h : E.streamLatency m.newStream = k.stream) : (ClapParamPayload.loadModel m).Keeps E k := by
  refine ⟨?_, fun _ h => (by cases h), trivial⟩
  rintro _ ⟨⟩
  exact h

theorem Flushed.keeps {s : Shared} {ps : List ClapParamPayload} {c : Option RtProcessingParams}
    (h : Flushed s ps c) (k : Latencies) : ∀ x ∈ ps, x.Keeps E k := by
  intro x hx
  obtain ⟨q, rfl, -⟩ := h.mem x hx
  exact .params k q

theorem Flushed.keeps_append {s : Shared} {ps : List ClapParamPayload}
    {c : Option RtProcessingParams} {k : Latencies} (h : Flushed s ps c) {d : ClapParamPayload}
    (hd : d.Keeps E k) : ∀ x ∈ ps ++ [d], x.Keeps E k := by
  intro x hx
  obtain hx | hx := List.mem_append.1 hx
  · exact h.keeps k x hx
  · exact List.mem_singleton.1 hx ▸ hd

/-! ## The main thread -/

theorem Strict.of_eq {k : Latencies} {s t : Shared} (h : Strict E k s) (hr : t.ring = s.ring)
    (hp : t.pendingRestore = s.pendingRestore) (hm : t.pendingModel = s.pendingModel)
    (hsr : t.sampleRate = s.sampleRate) (hbs : t.bufferSize = s.bufferSize)
    (hst : t.currentStreamLatency = s.currentStreamLatency)
    (hc : t.currentCabsimLatency = s.currentCabsimLatency) : Strict E k t where
  ring := by rw [hr]; exact h.ring
  pendingRestore := by rw [hp]; exact h.pendingRestore
  pendingModel := by rw [hm]; exact h.pendingModel
  sampleRate := hsr.trans h.sampleRate
  bufferSize := hbs.trans h.bufferSize
  currentStreamLatency := hst.trans h.currentStreamLatency
  currentCabsimLatency := hc.trans h.currentCabsimLatency
  active := h.active

theorem Strict.sent {k : Latencies} {s : Shared} (h : Strict E k s) {ps : List ClapParamPayload}
    (c : Option RtProcessingParams) (hp : ∀ x ∈ ps, x.Keeps E k) : Strict E k (s.sent ps c) :=
  { h with ring := fun x hx => (List.mem_append.1 hx).elim (h.ring x) (hp x) }

/-- A model with the stream it would get from its rate is sent if its latency is the published one,
and otherwise staged. -/
theorem Strict.swapModel {k : Latencies} {s : Shared} (h : Strict E k s) {m : LoadModelPayload}
    (hm : k.bufferSize ≠ 0 → E.streamLatency (buildStreamAdapter k.sampleRate m.modelRate
      k.bufferSize) = E.streamLatency m.newStream) : Strict E k (s.swapModel E m) := by
  unfold Shared.swapModel
  dsimp only
  split_ifs with hl
  · have hst : E.streamLatency m.newStream = k.stream := hl.trans h.currentStreamLatency
    have hu : Strict E k { s with stagedRestore := none }.clearStagedModel :=
      h.of_eq rfl rfl rfl rfl rfl rfl rfl
    obtain ⟨ps, hf, hp⟩ | ⟨ps, c, hf, hp⟩ :=
      pushModel_cases { s with stagedRestore := none }.clearStagedModel m <;> rw [hp]
    · exact hu.sent none (hf.keeps_append (.loadModel hst))
    · refine { hu.sent c (hf.keeps k) with pendingModel := fun hb n hn => ?_ }
      obtain rfl := Option.some.inj hn
      exact (hm hb).trans hst
  · exact h.of_eq rfl rfl rfl rfl rfl rfl rfl

/-- While no block size is known nothing is compared, and nothing is sent. -/
theorem Strict.retain {k : Latencies} {s : Shared} (h : Strict E k s) (hb : s.bufferSize = 0)
    (m : PendingModel) : Strict E k { s with pendingModel := some m } :=
  { h with pendingModel := fun hk => absurd (h.bufferSize.symm.trans hb) hk }

theorem Strict.commitPreparedModel {k : Latencies} {s : Shared} (h : Strict E k s)
    {prep : PreparedModel} (hp : rateCarriage.Result prep) (g : Nat)
    (faults : EngineCall → Bool) : Strict E k (s.commitPreparedModel E prep g faults) := by
  unfold Shared.commitPreparedModel
  split
  · exact (h.retain ‹_› _).of_eq rfl rfl rfl rfl rfl rfl rfl
  · rename_i hb
    split
    · exact h
    · rename_i m hm
      refine (h.swapModel (m := m) fun hk => ?_).of_eq rfl rfl rfl rfl rfl rfl rfl
      obtain rfl | ⟨hd, res, st, -, hst, rfl⟩ := adapt_cases hm
      · rw [h.sampleRate, h.bufferSize]
      · obtain ⟨hhost, hblock⟩ := divergent_stream hd hst
        have hrate := hp.2.2 st hst
        obtain ⟨a, b, c⟩ := st
        obtain rfl : b = prep.file.rate := hrate
        obtain rfl : a = k.sampleRate := hhost.trans h.sampleRate
        obtain rfl : c = k.bufferSize := hblock.trans h.bufferSize
        simp only [buildStreamAdapter, show max k.bufferSize 1 = k.bufferSize by omega]

theorem Strict.loadModel {k : Latencies} {s : Shared} (h : Strict E k s) (file : ModelFile)
    (faults : EngineCall → Bool) : Strict E k (s.loadModel E file faults) := by
  unfold Shared.loadModel
  split
  · exact h
  · rename_i prep hp
    have ha : Strict E k s.allocateModelGeneration := h.of_eq rfl rfl rfl rfl rfl rfl rfl
    exact ha.commitPreparedModel (prepareModel_rates hp) _ faults

theorem Strict.clearModel {k : Latencies} {s : Shared} (h : Strict E k s)
    (faults : EngineCall → Bool) : Strict E k (s.clearModel E faults) := by
  have hc : Strict E k s.cleared := h.of_eq rfl rfl rfl rfl rfl rfl rfl
  have hhost : s.hostRate = k.sampleRate := by
    rw [← h.sampleRate]
    exact if_neg (h.sampleRate ▸ h.active)
  unfold Shared.clearModel
  dsimp only
  split
  · exact (hc.retain ‹_› _).of_eq rfl rfl rfl rfl rfl rfl rfl
  · split
    · exact hc
    · refine (hc.swapModel (m := s.clearPayload) fun hk => ?_).of_eq rfl rfl rfl rfl rfl rfl rfl
      simp only [Shared.clearPayload, hhost, h.bufferSize]

theorem Strict.flushesModel {k : Latencies} {s : Shared} {r : Shared × Bool} (h : Strict E k s)
    (hr : FlushesModel s r) : Strict E k r.1 := by
  cases hr with
  | idle h' => exact h
  | @failed p q hp hb hg ha hq =>
    refine { h with pendingModel := fun hk m hm => ?_ }
    obtain rfl := Option.some.inj hm
    obtain ⟨l, -, rfl⟩ := hq
    exact h.pendingModel hk p hp
  | @sent p m ps hp hb hg ha hf hm =>
    have hk : k.bufferSize ≠ 0 := h.bufferSize ▸ hb
    have hn : Strict E k { s with pendingModel := none } :=
      { h with pendingModel := fun _ m hm => by cases hm }
    refine hn.sent none (hf.keeps_append (.loadModel ?_))
    rw [hm]
    show E.streamLatency (buildStreamAdapter s.sampleRate p.modelRate s.bufferSize) = k.stream
    rw [h.sampleRate, h.bufferSize]
    exact h.pendingModel hk p hp
  | @kept p q ps c hp hb hg ha hf hq =>
    refine { h.sent c (hf.keeps k) with pendingModel := fun hk m hm => ?_ }
    obtain rfl := Option.some.inj hm
    rw [hq]
    exact h.pendingModel hk p hp

theorem Strict.polls {k : Latencies} {s : Shared} (h : Strict E k s)
    (hc : rateCarriage.HoldsAt s.log s) (faults : EngineCall → Bool) :
    Strict E k (s.pollModelLoaderResult E faults) := by
  have hd : Strict E k { s with
      modelResultSlot := none, dispatchedModelGeneration := 0, dispatchedModelIsGui := false } :=
    h.of_eq rfl rfl rfl rfl rfl rfl rfl
  unfold Shared.pollModelLoaderResult
  split
  · exact h
  · rename_i r hr
    dsimp only
    split
    · exact hd
    · split
      · rename_i prep ho
        exact hd.commitPreparedModel (hc.result r prep hr ho) r.generation faults
      · exact hd

theorem Strict.loadsIr {k : Latencies} {s t : Shared} {ir : Asset} (h : Strict E k s)
    (hl : LoadsIr s ir t) : Strict E k t := by
  have hu : Strict E k s.unstagedIr := h.of_eq rfl rfl rfl rfl rfl rfl rfl
  cases hl with
  | recorded h' => exact h.of_eq rfl rfl rfl rfl rfl rfl rfl
  | failed h' hb => exact h.of_eq rfl rfl rfl rfl rfl rfl rfl
  | @sent ps h' hb hf hl =>
    refine (hu.sent none (hf.keeps_append (d := .loadCabIr (some ⟨ir, s.hostRate, s.bufferSize⟩))
      ⟨fun _ h => (by cases h), ?_, trivial⟩)).of_eq rfl rfl rfl rfl rfl rfl rfl
    rintro _ ⟨⟩
    exact .inr (hl.trans h.currentCabsimLatency)
  | @kept ps c h' hb hf => exact (hu.sent c (hf.keeps k)).of_eq rfl rfl rfl rfl rfl rfl rfl
  | staged h' hb => exact h.of_eq rfl rfl rfl rfl rfl rfl rfl

theorem Strict.clearIr {k : Latencies} {s : Shared} (h : Strict E k s) : Strict E k s.clearIr := by
  unfold Shared.clearIr
  split <;> exact h.of_eq rfl rfl rfl rfl rfl rfl rfl

theorem Strict.localCommit {k : Latencies} {s : Shared} (h : Strict E k s) (hb : s.bufferSize = 0)
    (v : ValidatedRestore) (mode : RestoreMode) : Strict E k (s.localCommit v mode) := by
  have hm : Strict E k (s.localModel v mode) := by
    unfold Shared.localModel
    split
    · exact (h.retain hb _).of_eq rfl rfl rfl rfl rfl rfl rfl
    · exact (h.retain hb _).of_eq rfl rfl rfl rfl rfl rfl rfl
    · exact h
  have hi : Strict E k ((s.localModel v mode).localIr v mode) := by
    unfold Shared.localIr
    split
    · exact hm.of_eq rfl rfl rfl rfl rfl rfl rfl
    · exact hm.of_eq rfl rfl rfl rfl rfl rfl rfl
    · exact hm
  exact hi.of_eq rfl rfl rfl rfl rfl rfl rfl

/-- A restore that is not staged has the published latencies. -/
theorem Strict.atomicCommit {k : Latencies} {s : Shared} (h : Strict E k s) (v : ValidatedRestore)
    (mode : RestoreMode) (faults : EngineCall → Bool) :
    Strict E k (s.atomicCommit E v mode faults) := by
  unfold Shared.atomicCommit
  split
  · exact h
  · rename_i t publish txn hb
    have hp := buildRestorePackage_spec hb
    have ht : Strict E k t := by
      refine h.of_eq ?_ ?_ ?_ ?_ ?_ ?_ ?_ <;> rw [hp.state]
    have hnote : ∀ u : Shared, Strict E k u → Strict E k (u.noteRestore txn) := by
      intro u hu
      rw [noteRestore_eq]
      exact hu.of_eq rfl rfl rfl rfl rfl rfl rfl
    refine hnote _ ?_
    split
    · exact ht.of_eq rfl rfl rfl rfl rfl rfl rfl
    · rename_i hl
      simp only [not_or, Bool.not_eq_true, Option.any_eq_false, ne_eq, decide_not,
        Bool.not_eq_false', decide_eq_true_eq, not_not] at hl
      have hkeeps : (ClapParamPayload.restoreTxn txn).Keeps E k :=
        ⟨fun m hm => (hl.1 m hm).trans ht.currentStreamLatency,
          fun ir hir => .inr ((hl.2.1 ir hir).trans ht.currentCabsimLatency), trivial⟩
      have hd : Strict E k { t with stagedRestore := none, stagedSwap := none } :=
        ht.of_eq rfl rfl rfl rfl rfl rfl rfl
      unfold Shared.deliverPendingRestore
      obtain ⟨ps, hf, hps⟩ | ⟨ps, c, hf, hps⟩ := tryPushCommand_cases
        { t with stagedRestore := none, stagedSwap := none } (.restoreTxn txn) <;> rw [hps]
      · refine { hd.sent none (hf.keeps_append hkeeps) with pendingRestore := fun r hr u hu => ?_ }
        obtain rfl := Option.some.inj hr
        cases hu
      · refine { hd.sent c (hf.keeps k) with pendingRestore := fun r hr u hu => ?_ }
        obtain rfl := Option.some.inj hr
        exact Option.some.inj hu ▸ hkeeps

theorem Strict.publishIfAcked {k : Latencies} {s : Shared} (h : Strict E k s) :
    Strict E k s.publishIfAcked := by
  obtain hs | ⟨r, -, -, -, hs⟩ := publishIfAcked_cases s <;> rw [hs]
  · exact h
  · rw [acknowledged_eq]
    have hn : Strict E k { s with pendingRestore := none } :=
      { h with pendingRestore := fun r hr => by cases hr }
    exact hn.of_eq rfl rfl rfl rfl rfl rfl rfl

theorem Strict.flushesRestore {k : Latencies} {s t : Shared} (h : Strict E k s)
    (hr : FlushesRestore s t) : Strict E k t := by
  cases hr with
  | idle h' => exact h
  | waiting hr ht => exact h.publishIfAcked
  | @sent r txn ps hr ht hf =>
    refine Strict.publishIfAcked ?_
    refine { h.sent none (hf.keeps_append (h.pendingRestore r hr txn ht)) with
      pendingRestore := fun r' hr' u hu => ?_ }
    obtain rfl := Option.some.inj hr'
    cases hu
  | @kept r txn ps c hr ht hf => exact h.sent c (hf.keeps k)

/-! ## The audio thread -/

variable (E)

/-- A chain has the latencies an activation set. -/
structure Chain.At (k : Latencies) (c : Chain) : Prop where
  stream : E.streamLatency c.stream = k.stream
  os : E.osLatency c.osL = k.os
  cabsim : cabsimLatency c.cabsimPair = k.cabsim
  cached : c.cachedEffectiveLatency = k.total
  currentStreamLatency : c.currentStreamLatency = k.stream
  currentCabsimLatency : c.currentCabsimLatency = k.cabsim

/-- What an active processor runs and holds has the latencies an activation set. -/
structure StrictRt (k : Latencies) (s : Shared) (p : Processor) : Prop where
  chain : (p.chain s).At E k
  recovered : ∀ c ∈ p.recoveredCommands, c.Keeps E k
  deferred : ∀ c, p.deferred = some c → c.Keeps E k
  candidate : ∀ c, p.candidate = some c → c.Keeps E k
  reported : s.currentLatency = k.total

variable {E}

theorem Chain.At.install {k : Latencies} {c : Chain} (h : c.At E k) {d : ClapParamPayload}
    (hd : d.Keeps E k) : (c.install E k.sampleRate d).At E k := by
  have hmodel : ∀ {c : Chain} {m : LoadModelPayload}, c.At E k →
      E.streamLatency m.newStream = k.stream → (c.loadModel E m).At E k := by
    intro c m h hm
    refine ⟨hm, h.os, h.cabsim, ?_, hm, h.currentCabsimLatency⟩
    show E.streamLatency m.newStream + E.osLatency c.osL + cabsimLatency c.cabsimPair = k.total
    rw [hm, h.os, h.cabsim]
    rfl
  have hcab : ∀ {c : Chain} {pair : Option CabSimPair}, c.At E k →
      CabSimPair.builtElsewhere k.sampleRate pair = true ∨ cabsimLatency pair = k.cabsim →
      (c.loadCabsim E k.sampleRate pair).At E k := by
    intro c pair h hp
    unfold Chain.loadCabsim
    split
    · exact h
    · rename_i hb
      obtain hp := hp.resolve_left hb
      refine ⟨h.stream, h.os, hp, ?_, h.currentStreamLatency, hp⟩
      show E.streamLatency c.stream + E.osLatency c.osL + cabsimLatency pair = k.total
      rw [h.stream, h.os, hp]
      rfl
  obtain ⟨hm, hi, ho⟩ := hd
  cases d with
  | params q => exact h
  | loadModel m => exact hmodel h (hm m rfl)
  | loadCabIr pair => exact hcab h (hi pair rfl)
  | setOversample osL osR =>
    refine ⟨h.stream, ho, h.cabsim, ?_, h.currentStreamLatency, h.currentCabsimLatency⟩
    show E.streamLatency c.stream + E.osLatency osL + cabsimLatency c.cabsimPair = k.total
    rw [h.stream, ho, h.cabsim]
    rfl
  | restoreTxn txn =>
    obtain ⟨g, model, ir, params⟩ := txn
    cases model with
    | none =>
      cases ir with
      | none => exact h
      | some ir => exact hcab h (hi ir rfl)
    | some m =>
      cases ir with
      | none => exact hmodel h (hm m rfl)
      | some ir => exact hcab (hmodel h (hm m rfl)) (hi ir rfl)

theorem strict_audio {k : Latencies} {s : Shared} {p : Processor} (hs : Strict E k s)
    (hp : StrictRt E k s p) {a : AudioAction} {r : Shared × Processor}
    (h : audioStep E s p a = some r) : Strict E k r.1 ∧ StrictRt E k r.1 r.2 := by
  have hmoves := audioStep_moves E h
  have hchain : (r.2.chain r.1).At E k := by
    refine audioStep_chain_invariant E (I := Chain.At E k) h hp.chain fun c hc op hop => ?_
    cases op with
    | command d =>
      show (c.install E s.sampleRate d).At E k
      rw [hs.sampleRate]
      refine hc.install ?_
      obtain hm | hm | hm := audioOps_command hop
      · exact hp.recovered d hm
      · exact hp.deferred d hm
      · exact hp.candidate d hm
    | slimmable q =>
      exact ⟨hc.stream, hc.os, hc.cabsim, hc.cached, hc.currentStreamLatency,
        hc.currentCabsimLatency⟩
    | request ch =>
      exact ⟨hc.stream, hc.os, hc.cabsim, hc.cached, hc.currentStreamLatency,
        hc.currentCabsimLatency⟩
    | reset =>
      exact ⟨hc.stream, hc.os, hc.cabsim, hc.cached, hc.currentStreamLatency,
        hc.currentCabsimLatency⟩
  constructor
  · have hring : Strict E k { s with
        ring := r.1.ring
        currentStreamLatency := r.1.currentStreamLatency
        currentCabsimLatency := r.1.currentCabsimLatency } :=
      { hs with
        ring := fun c hc => hs.ring c (hmoves.ring c hc)
        currentStreamLatency := hchain.currentStreamLatency
        currentCabsimLatency := hchain.currentCabsimLatency }
    rw [audioStep_shared E h]
    exact hring.of_eq rfl rfl rfl rfl rfl rfl rfl
  · refine ⟨hchain, fun c hc => hp.recovered c (hmoves.recovered c hc), fun c hc => ?_,
      fun c hc => ?_, ?_⟩
    · exact (hmoves.deferred c hc).elim (hp.deferred c) (hp.candidate c)
    · exact (hmoves.candidate c hc).elim (hp.candidate c) (hs.ring c)
    · obtain hl | hl := hmoves.reported
      · exact hl.trans hp.reported
      · exact hl.trans hchain.cached

end

section
variable (E : Engine)

/-- An oversampling engine that is sent has the latency of the one that runs. -/
def KeepsOs (x : Plugin) : Action → Prop
  | .main .handleOversampleRebuild =>
    ∀ p ∈ x.proc, ∀ f ∈ x.shared.osRequest, E.osLatency ⟨f⟩ = E.osLatency p.osL
  | _ => True

theorem Strict.quiet {k : Latencies} {s : Shared} (h : Strict E k s) {a : MainAction}
    (hq : a.isQuiet = true)
    (ho : a = .handleOversampleRebuild → ∀ f ∈ s.osRequest, E.osLatency ⟨f⟩ = k.os) :
    Strict E k (mainStep E s a) := by
  have q := mainStep_quiet E s hq
  have hring := quiet_ring E s hq
  refine { h.of_eq (t := { mainStep E s a with ring := s.ring }) rfl q.pendingRestore
    q.pendingModel q.sampleRate q.bufferSize q.currentStreamLatency q.currentCabsimLatency with
    ring := fun c hc => ?_ }
  obtain hc | ⟨q, rfl⟩ | ⟨f, ha, hf, rfl⟩ := hring c hc
  · exact h.ring c hc
  · exact .params k q
  · exact ⟨fun _ h => (by cases h), fun _ h => (by cases h), ho ha f hf⟩

theorem strict_main {k : Latencies} {s : Shared} (h : Strict E k s)
    (hc : rateCarriage.HoldsAt s.log s) (a : MainAction)
    (ho : a = .handleOversampleRebuild → ∀ f ∈ s.osRequest, E.osLatency ⟨f⟩ = k.os) :
    Strict E k (mainStep E s a) := by
  by_cases hq : a.isQuiet = true
  · exact h.quiet E hq ho
  cases a with
  | loadModel file faults => exact h.loadModel file faults
  | clearModel faults => exact h.clearModel faults
  | dispatchModelLoadSync file faults =>
    show Strict E k (s.dispatchModelLoadSync E file faults)
    obtain ⟨jobs, hd⟩ | ⟨jobs, f, hd⟩ := dispatchModelLoadSync_spec E s file faults <;> rw [hd]
    · exact h.of_eq rfl rfl rfl rfl rfl rfl rfl
    · have hj : Strict E k { s with pendingAsyncLoads := jobs } :=
        h.of_eq rfl rfl rfl rfl rfl rfl rfl
      exact hj.loadModel f faults
  | pollModelLoaderResult faults => exact h.polls hc faults
  | flushPendingModel faults => exact h.flushesModel (flushPendingModel_spec s faults)
  | handlePendingIr ir faults =>
    have hn : Strict E k { s with uiPendingIr := none } := h.of_eq rfl rfl rfl rfl rfl rfl rfl
    exact hn.loadsIr (loadCabsim_spec _ ir faults)
  | clearIr => exact h.clearIr
  | restore v mode faults =>
    show Strict E k (s.commitRestore E v mode faults)
    unfold Shared.commitRestore
    split
    · exact h.localCommit ‹_› v mode
    · exact h.atomicCommit v mode faults
  | flushPendingRestore => exact h.flushesRestore (flushPendingRestore_spec s)
  | _ => exact absurd rfl hq

/-! ## From an activation to the deactivation -/

structure StrictInv (k : Latencies) (x : Plugin) : Prop where
  carried : rateCarriage.Holds x
  shared : Strict E k x.shared
  proc : ∃ p, x.proc = some p ∧ StrictRt E k x.shared p

def Action.isDeactivate : Action → Bool
  | .deactivate => true
  | _ => false

theorem strictInv_step {k : Latencies} {x y : Plugin} {a : Action} (hx : StrictInv E k x)
    (ha : a.isDeactivate = false) (hG : KeepsOs E x a) (h : step E x a = some y) :
    StrictInv E k y := by
  obtain ⟨hc, hs, p, hp, hrt⟩ := hx
  have hcy := Carriage.holds_step E hc h
  cases a with
  | main a =>
    obtain rfl := Option.some.inj h
    refine ⟨hcy, strict_main E hs hc.shared a ?_, p, hp, ?_⟩
    · rintro rfl f hf
      exact (hG p hp f hf).trans hrt.chain.os
    · have hframe := mainStep_frame E x.shared a
      refine ⟨?_, hrt.recovered, hrt.deferred, hrt.candidate, ?_⟩
      · show (p.chain (mainStep E x.shared a)).At E k
        rw [mainStep_chain]
        exact hrt.chain
      · exact hframe.currentLatency.trans hrt.reported
  | audio a =>
    obtain ⟨q, hq, h⟩ := Option.bind_eq_some_iff.1 h
    obtain rfl := Option.some.inj (hp.symm.trans hq)
    obtain ⟨r, hr, rfl⟩ := Option.map_eq_some_iff.1 h
    obtain ⟨hs', hrt'⟩ := strict_audio hs hrt hr
    exact ⟨hcy, hs', r.2, rfl, hrt'⟩
  | activate cfg faults =>
    simp only [step, hp, Option.isSome_some, if_true] at h
    cases h
  | deactivate => cases ha

/-- The latencies an activation sets. -/
def Plugin.latencies (x : Plugin) (p : Processor) : Latencies :=
  ⟨E.streamLatency p.stream, E.osLatency p.osL, cabsimLatency p.cabsimPair, x.shared.sampleRate,
    x.shared.bufferSize⟩

/-- What is left over for a processor from before its activation changes no latency. -/
structure LeftoversKeep (x : Plugin) (p : Processor) : Prop where
  shared : x.shared.Keeps E (x.latencies E p)
  recovered : ∀ c ∈ p.recoveredCommands, c.Keeps E (x.latencies E p)

theorem strictInv_activates {x y : Plugin} {cfg : AudioConfig} {faults : ActivateCall → Bool}
    {p : Processor} (hc : rateCarriage.Holds x) (h : step E x (.activate cfg faults) = some y)
    (hp : y.proc = some p) (hl : LeftoversKeep E y p) :
    StrictInv E (y.latencies E p) y ∧ p.cachedEffectiveLatency = (y.latencies E p).total := by
  have hcy := Carriage.holds_step E hc h
  simp only [step] at h
  split_ifs at h
  obtain rfl := Option.some.inj h
  have hspec := activate_spec E x.shared cfg faults
  generalize x.shared.activate E cfg faults = r at *
  cases hspec with
  | @ok restore swap pipe a t hprep hf =>
    obtain rfl := Option.some.inj hp
    obtain ⟨hchain, hrate, hblock⟩ := activates_chain E hf (x.shared.activateOsFactor E)
    have hframe := (flushPendingModel_spec (x.shared.published E cfg restore a)
      fun c => faults (.flush c)).frame
    rw [hf] at hframe
    refine ⟨⟨hcy, ⟨hl.shared, rfl, rfl, ?_, ?_, ?_⟩, _, rfl, ⟨⟨rfl, rfl, rfl, rfl, ?_, ?_⟩,
      hl.recovered, fun c hc => (by cases hc), fun c hc => (by cases hc), ?_⟩⟩, rfl⟩
    · exact congrArg Chain.currentStreamLatency hchain
    · exact congrArg Chain.currentCabsimLatency hchain
    · show t.sampleRate ≠ 0
      rw [hrate]
      simp only [AudioConfig.hostRate]
      omega
    · exact congrArg Chain.currentStreamLatency hchain
    · exact congrArg Chain.currentCabsimLatency hchain
    · exact hframe.currentLatency.trans rfl
  | _ => cases hp

/-- From an activation on, as long as there is no deactivation, the latency is the one of the
activation. -/
theorem latency_kept {bs as : List Action} {x y z : Plugin} {cfg : AudioConfig}
    {faults : ActivateCall → Bool} {p : Processor}
    (hx : run (step E) (.init E.toParamEngine) bs = some x)
    (ha : step E x (.activate cfg faults) = some y) (hp : y.proc = some p)
    (h : run (step E) y as = some z) (hd : ∀ a ∈ as, a.isDeactivate = false)
    (hl : LeftoversKeep E y p) (hG : Guarded (step E) (KeepsOs E) y as) :
    ∃ q, z.proc = some q ∧ q.cachedEffectiveLatency = p.cachedEffectiveLatency ∧
      z.shared.currentLatency = p.cachedEffectiveLatency := by
  have hc : rateCarriage.Holds x := run_always (fun _ _ _ hI h => Carriage.holds_step E hI h)
    (Carriage.holds_init E) hx
  obtain ⟨hy, htotal⟩ := strictInv_activates E hc ha hp hl
  have hz : StrictInv E (y.latencies E p) z :=
    run_invariant (fun _ _ _ hI hg h => strictInv_step E hI hg.1 hg.2 h) hy (hG.and_forall hd) h
  obtain ⟨-, -, q, hq, hrt⟩ := hz
  exact ⟨q, hq, hrt.chain.cached.trans htotal.symm, hrt.reported.trans htotal.symm⟩

/-! ## Runs -/

instance (k : Latencies) (c : ClapParamPayload) : Decidable (c.Keeps E k) := by
  unfold ClapParamPayload.Keeps
  cases c <;> infer_instance

instance (k : Latencies) (s : Shared) : Decidable (s.Keeps E k) :=
  decidable_of_iff ((∀ c ∈ s.ring, c.Keeps E k) ∧
      (∀ r ∈ s.pendingRestore, ∀ txn ∈ r.txn, (ClapParamPayload.restoreTxn txn).Keeps E k) ∧
      (k.bufferSize ≠ 0 → ∀ m ∈ s.pendingModel,
        E.streamLatency (buildStreamAdapter k.sampleRate m.modelRate k.bufferSize) = k.stream))
    ⟨fun h => ⟨h.1, h.2.1, h.2.2⟩, fun h => ⟨h.ring, h.pendingRestore, h.pendingModel⟩⟩

instance (x : Plugin) (p : Processor) : Decidable (LeftoversKeep E x p) :=
  decidable_of_iff (x.shared.Keeps E (x.latencies E p) ∧
      ∀ c ∈ p.recoveredCommands, c.Keeps E (x.latencies E p))
    ⟨fun h => ⟨h.1, h.2⟩, fun h => ⟨h.shared, h.recovered⟩⟩

instance (x : Plugin) : ∀ a, Decidable (KeepsOs E x a)
  | .main .handleOversampleRebuild =>
    inferInstanceAs (Decidable (∀ p ∈ x.proc, ∀ f ∈ x.shared.osRequest,
      E.osLatency ⟨f⟩ = E.osLatency p.osL))
  | .main (.loadModel ..) | .main (.clearModel ..) | .main (.acceptModelRequest ..)
  | .main .dispatchModelLoad | .main (.dispatchModelLoadSync ..) | .main (.finishModelLoad ..)
  | .main (.pollModelLoaderResult ..) | .main (.flushPendingModel ..)
  | .main (.handlePendingIr ..) | .main .clearIr | .main (.restore ..)
  | .main .flushPendingRestore | .main (.flush ..) | .main .flushInFlightParams
  | .main .snapshotParams | .main (.guiStore ..) | .main (.guiAnnounce ..)
  | .main (.setRenderMode ..) | .main .pollSlimmable | .main (.publishSlimmable ..)
  | .main .drainSlimmableRebuild | .main (.handleSlimmableRebuildInline ..)
  | .main .lowerSlimmableFlag
  | .audio _ | .activate .. | .deactivate => isTrue trivial

end

/-- A model is sent to an active instance, which is deactivated before the audio thread takes it,
with another model of the rate `rate` loaded in between. -/
def refLeftover (rate : Nat) : List Action :=
  [refActivate, .main (.loadModel (refFile "one.nam") noFaults),
    .main (.loadModel { refFile "two.nam" with rate := rate } noFaults), .deactivate]

/-- A callback that installs the first command of the ring. -/
def refCallback : List Action :=
  [.audio (.beginEvents 0), .audio (.drain .popCandidate), .audio (.drain .installCandidate),
    .audio .endEvents]

theorem refLeftover_activates (rate : Nat)
    (hrun : (run (step refEngine) (.init refParamEngine)
      (refLeftover rate ++ [refActivate] ++ refCallback)).isSome = true) :
    run (step refEngine) (.init refParamEngine) (refLeftover rate) =
        some (refRun (refLeftover rate)) ∧
      step refEngine (refRun (refLeftover rate)) refActivate =
        some (refRun (refLeftover rate ++ [refActivate])) ∧
      run (step refEngine) (refRun (refLeftover rate ++ [refActivate])) refCallback =
        some (refRun (refLeftover rate ++ [refActivate] ++ refCallback)) := by
  have hz := run_refRun_append hrun
  obtain ⟨y, hy, -⟩ := run_append.1 (run_refRun hrun)
  obtain ⟨x, hx, hxy⟩ := run_append.1 hy
  have hx' := run_refRun (Option.isSome_of_eq_some hx)
  have hxy' := run_refRun_append (Option.isSome_of_eq_some hy)
  obtain ⟨u, hu, hn⟩ := run_cons.1 hxy'
  exact ⟨hx', hu.trans (congrArg some (Option.some.inj hn)), hz⟩

/-- A model left over at the latency of the activation is installed, and the latency stays. -/
theorem latency_kept_leftover :
    ∃ q, (refRun (refLeftover 48000 ++ [refActivate] ++ refCallback)).proc = some q ∧
      q.cachedEffectiveLatency = 0 ∧
      (refRun (refLeftover 48000 ++ [refActivate] ++ refCallback)).shared.currentLatency = 0 := by
  have hp := @refProc_eq (refLeftover 48000 ++ [refActivate]) (by decide +kernel)
  obtain ⟨hx, ha, hz⟩ := refLeftover_activates 48000 (by decide +kernel)
  obtain ⟨q, hq, hc, hl⟩ := latency_kept refEngine hx ha hp hz (by decide) (by decide +kernel)
    (by decide +kernel)
  have hzero : (refProc (refLeftover 48000 ++ [refActivate])
      (by decide +kernel)).cachedEffectiveLatency = 0 := by decide +kernel
  exact ⟨q, hq, hc.trans hzero, hl.trans hzero⟩

/-- A model of 32 kHz is staged and installed by the activation, which delays by the block. The
model that was left over comes after it and takes the latency back to none. -/
theorem latency_changed :
    ¬∀ (E : Engine) (bs as : List Action) (x y z : Plugin) (cfg : AudioConfig)
      (faults : ActivateCall → Bool) (p : Processor),
      run (step E) (.init E.toParamEngine) bs = some x →
      step E x (.activate cfg faults) = some y → y.proc = some p →
      run (step E) y as = some z → (∀ a ∈ as, a.isDeactivate = false) →
      ∃ q, z.proc = some q ∧ q.cachedEffectiveLatency = p.cachedEffectiveLatency ∧
        z.shared.currentLatency = p.cachedEffectiveLatency := by
  intro h
  have hp := @refProc_eq (refLeftover 32000 ++ [refActivate]) (by decide +kernel)
  obtain ⟨hx, ha, hz⟩ := refLeftover_activates 32000 (by decide +kernel)
  obtain ⟨q, hq, -, hl⟩ := h refEngine _ _ _ _ _ _ _ _ hx ha hp hz (by decide)
  exact absurd hl (by decide +kernel)

end NamPlug
