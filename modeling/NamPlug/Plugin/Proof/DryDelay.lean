import NamPlug.Plugin.Proof.Chain

/-!
# The dry delay

The dry rings are set to the effective latency wherever it is computed, clamped to the capacity an
activation chose for its block size. With streams of at most 3104 samples and oversamplers of at most
24 (`STREAM_LATENCY_MAX`, `OS_LATENCY_MAX`) the headroom leaves 72 samples beside the block, so that
nothing is ever clamped in a run whose installed pairs have partitions of at most the block and that
slack (`FitsDry`, `dry_delay_kept`). Pairs are built with the block size of their time.
-/

namespace NamPlug

open Machine

/-- The longest stream, as `dry_delay.rs` documents it. -/
def STREAM_LATENCY_MAX : Nat := 3104

/-- The latency of the oversampler at X4. -/
def OS_LATENCY_MAX : Nat := 24

section
variable (E : Engine)

/-- What an installed pair may have beyond the block. -/
def CabSimPair.FitsDry (block : Nat) (c : CabSimPair) : Prop :=
  c.partitionSize ≤ max block E.maxResampBuf +
    (DRY_DELAY_MAX_EXTRA - STREAM_LATENCY_MAX - OS_LATENCY_MAX)

instance (block : Nat) (c : CabSimPair) : Decidable (c.FitsDry E block) :=
  inferInstanceAs (Decidable (_ ≤ _))

/-- The pair an operation installs, unless it is refused. -/
def ChainOp.pair (hostRate : Nat) : ChainOp → Option CabSimPair
  | .command d => d.ir?.join.filter fun c => !CabSimPair.builtElsewhere hostRate (some c)
  | _ => none

/-- The pairs that an activation may install as they are: one that was kept at the host rate, or one
that is staged with nothing to build it from. -/
def Shared.carriedPair (s : Shared) (cfg : AudioConfig) : Option CabSimPair :=
  match stagedIr s.stagedRestore s.stagedSwap with
  | none => (s.deactivatedDsp.filter (·.sampleRate = cfg.hostRate)).bind (·.cabsimPair)
  | some pair => if cfg.maxFrames = 0 ∨ s.stagedRaw = none then pair else none

/-- The pairs a step installs fit the block. -/
def FitsDry (x : Plugin) : Action → Prop
  | .audio a => ∀ p ∈ x.proc, ∀ op ∈ audioOps p a, ∀ c ∈ op.pair x.shared.sampleRate,
    c.FitsDry E x.shared.bufferSize
  | .activate cfg _ => ∀ c ∈ x.shared.carriedPair cfg, c.FitsDry E cfg.maxFrames
  | _ => True

instance (x : Plugin) : ∀ a, Decidable (FitsDry E x a)
  | .audio a => inferInstanceAs (Decidable (∀ p ∈ x.proc, ∀ op ∈ audioOps p a,
      ∀ c ∈ op.pair x.shared.sampleRate, c.FitsDry E x.shared.bufferSize))
  | .activate cfg _ => inferInstanceAs (Decidable (∀ c ∈ x.shared.carriedPair cfg,
      c.FitsDry E cfg.maxFrames))
  | .main _ => isTrue trivial
  | .deactivate => isTrue trivial

/-- The dry delay is the effective latency, which is that of what is installed, within the
capacity. -/
structure Processor.DryAligned (p : Processor) : Prop where
  cached : p.cachedEffectiveLatency =
    E.streamLatency p.stream + E.osLatency p.osL + cabsimLatency p.cabsimPair
  delay : p.dryDelay.delay = p.cachedEffectiveLatency
  fits : p.cachedEffectiveLatency ≤ p.dryDelay.capacity

/-- The same of a chain, with a capacity and a pair for the block. -/
structure Chain.DryInv (block : Nat) (c : Chain) : Prop where
  cached : c.cachedEffectiveLatency = c.latency E
  delay : c.dryDelay.delay = c.cachedEffectiveLatency
  fits : c.cachedEffectiveLatency ≤ c.dryDelay.capacity
  capacity : c.dryDelay.capacity = max block E.maxResampBuf + DRY_DELAY_MAX_EXTRA
  pair : ∀ d, c.cabsimPair = some d → d.FitsDry E block

variable {E}

/-- The longest chain with a pair that fits is within the capacity. -/
theorem latency_le_capacity (hst : ∀ st, E.streamLatency st ≤ STREAM_LATENCY_MAX)
    (hos : ∀ os, E.osLatency os ≤ OS_LATENCY_MAX) {block : Nat} {c : Chain}
    (hpair : ∀ d, c.cabsimPair = some d → d.FitsDry E block) :
    c.latency E ≤ max block E.maxResampBuf + DRY_DELAY_MAX_EXTRA := by
  have hc : cabsimLatency c.cabsimPair ≤ max block E.maxResampBuf +
      (DRY_DELAY_MAX_EXTRA - STREAM_LATENCY_MAX - OS_LATENCY_MAX) := by
    cases hd : c.cabsimPair with
    | none => exact Nat.zero_le _
    | some d => exact hpair d hd
  have hs := hst c.stream
  have ho := hos c.osL
  simp only [Chain.latency, STREAM_LATENCY_MAX, OS_LATENCY_MAX, DRY_DELAY_MAX_EXTRA] at *
  omega

/-- Wherever the latency is computed anew the dry delay follows. -/
theorem dryInv_recompute (hst : ∀ st, E.streamLatency st ≤ STREAM_LATENCY_MAX)
    (hos : ∀ os, E.osLatency os ≤ OS_LATENCY_MAX) {block : Nat} {c : Chain}
    (hcap : c.dryDelay.capacity = max block E.maxResampBuf + DRY_DELAY_MAX_EXTRA)
    (hpair : ∀ d, c.cabsimPair = some d → d.FitsDry E block) :
    (c.recompute E).DryInv E block := by
  have hle : c.latency E ≤ c.dryDelay.capacity := hcap ▸ latency_le_capacity hst hos hpair
  refine ⟨rfl, ?_, hle, hcap, hpair⟩
  show min (c.latency E) c.dryDelay.capacity = c.latency E
  omega

theorem dryInv_install (hst : ∀ st, E.streamLatency st ≤ STREAM_LATENCY_MAX)
    (hos : ∀ os, E.osLatency os ≤ OS_LATENCY_MAX) {block : Nat} {c : Chain}
    (h : c.DryInv E block) {hostRate : Nat} {d : ClapParamPayload}
    (hd : ∀ e ∈ (ChainOp.command d).pair hostRate, e.FitsDry E block) :
    (c.install E hostRate d).DryInv E block := by
  have hmodel : ∀ {c : Chain} (m : LoadModelPayload), c.DryInv E block →
      (c.loadModel E m).DryInv E block := fun m h =>
    dryInv_recompute hst hos h.capacity h.pair
  have hcab : ∀ {c : Chain} (pair : Option CabSimPair), c.DryInv E block →
      (∀ e, pair = some e → CabSimPair.builtElsewhere hostRate (some e) = false →
        e.FitsDry E block) → (c.loadCabsim E hostRate pair).DryInv E block := by
    intro c pair h hp
    unfold Chain.loadCabsim
    split
    · exact h
    · rename_i hb
      refine dryInv_recompute hst hos h.capacity fun e he => hp e he ?_
      rw [← he]
      simpa using hb
  have hpair : ∀ ir, d.ir? = some ir → ∀ e, ir = some e →
      CabSimPair.builtElsewhere hostRate (some e) = false → e.FitsDry E block := by
    rintro _ hir e rfl hb
    refine hd e ?_
    show (d.ir?.join.filter _) = some e
    rw [hir]
    simp [hb]
  cases d with
  | params q => exact h
  | loadModel m => exact hmodel m h
  | loadCabIr pair => exact hcab pair h (hpair pair rfl)
  | setOversample osL osR => exact dryInv_recompute hst hos h.capacity h.pair
  | restoreTxn txn =>
    obtain ⟨g, model, ir, params⟩ := txn
    cases model with
    | none =>
      cases ir with
      | none => exact h
      | some ir => exact hcab ir h (hpair ir rfl)
    | some m =>
      cases ir with
      | none => exact hmodel m h
      | some ir => exact hcab ir (hmodel m h) (hpair ir rfl)

/-- The chain an activation starts with. -/
theorem dryInv_activates (hst : ∀ st, E.streamLatency st ≤ STREAM_LATENCY_MAX)
    (hos : ∀ os, E.osLatency os ≤ OS_LATENCY_MAX) {s : Shared} {cfg : AudioConfig} {a : Assembly}
    (hp : ActivatesPair s cfg a.cabsimPair)
    (hG : ∀ c ∈ s.carriedPair cfg, c.FitsDry E cfg.maxFrames) :
    (a.chain E cfg).DryInv E cfg.maxFrames := by
  have hpair : ∀ d, a.cabsimPair = some d → d.FitsDry E cfg.maxFrames := by
    intro d hd
    rw [hd] at hp
    cases hp with
    | fits hc =>
      show d.partitionSize ≤ _
      omega
    | staged hi hr =>
      refine hG d ?_
      simp only [Shared.carriedPair, hi, if_pos hr]
      exact rfl
    | kept hi hd hr hc =>
      refine hG d ?_
      simp only [Shared.carriedPair, hi, hd, Option.filter_some, hr, decide_true, if_true,
        Option.bind_some, hc, Option.mem_def]
  have hle : a.latency E ≤ max cfg.maxFrames E.maxResampBuf + DRY_DELAY_MAX_EXTRA :=
    latency_le_capacity (c := a.chain E cfg) hst hos hpair
  refine ⟨rfl, ?_, hle, rfl, hpair⟩
  show min (a.latency E) (max cfg.maxFrames E.maxResampBuf + DRY_DELAY_MAX_EXTRA) = a.latency E
  omega

theorem dryInv_step (hst : ∀ st, E.streamLatency st ≤ STREAM_LATENCY_MAX)
    (hos : ∀ os, E.osLatency os ≤ OS_LATENCY_MAX) {x y : Plugin} {a : Action}
    (hx : ∀ p, x.proc = some p → (p.chain x.shared).DryInv E x.shared.bufferSize)
    (hG : FitsDry E x a) (h : step E x a = some y) :
    ∀ p, y.proc = some p → (p.chain y.shared).DryInv E y.shared.bufferSize := by
  cases a with
  | main a =>
    obtain rfl := Option.some.inj h
    intro p hp
    show (p.chain (mainStep E x.shared a)).DryInv E (mainStep E x.shared a).bufferSize
    rw [mainStep_chain, (mainStep_frame E x.shared a).bufferSize]
    exact hx p hp
  | audio a =>
    obtain ⟨p, hp, h⟩ := Option.bind_eq_some_iff.1 h
    obtain ⟨r, hr, rfl⟩ := Option.map_eq_some_iff.1 h
    rintro q ⟨⟩
    show (r.2.chain r.1).DryInv E r.1.bufferSize
    rw [(audioStep_config E hr).2]
    refine audioStep_chain_invariant E (I := Chain.DryInv E x.shared.bufferSize) hr (hx p hp)
      fun c hc op hop => ?_
    cases op with
    | command d => exact dryInv_install hst hos hc (hG p hp _ hop)
    | slimmable q => exact ⟨hc.cached, hc.delay, hc.fits, hc.capacity, hc.pair⟩
    | request ch => exact ⟨hc.cached, hc.delay, hc.fits, hc.capacity, hc.pair⟩
    | reset => exact ⟨hc.cached, hc.delay, hc.fits, hc.capacity, hc.pair⟩
  | activate cfg faults =>
    simp only [step] at h
    split_ifs at h
    obtain rfl := Option.some.inj h
    have hspec := activate_spec E x.shared cfg faults
    generalize x.shared.activate E cfg faults = r at hspec
    cases hspec with
    | @ok restore swap pipe a t hprep hf =>
      rintro q ⟨⟩
      obtain ⟨hchain, -, hblock⟩ := activates_chain E hf (x.shared.activateOsFactor E)
      show ((a.processor E t cfg (x.shared.activateOsFactor E)).chain t).DryInv E t.bufferSize
      rw [hchain, hblock]
      exact dryInv_activates hst hos hprep.pair hG
    | _ => rintro q ⟨⟩
  | deactivate =>
    simp only [step] at h
    split at h
    · split_ifs at h
      obtain rfl := Option.some.inj h
      rintro q ⟨⟩
    · cases h

/-- In a run whose pairs all fit the block, the dry delay of a processor is the latency of what it
runs, and never clamped. -/
theorem dry_delay_kept (hst : ∀ st, E.streamLatency st ≤ STREAM_LATENCY_MAX)
    (hos : ∀ os, E.osLatency os ≤ OS_LATENCY_MAX) {as : List Action} {x : Plugin}
    (h : run (step E) (.init E.toParamEngine) as = some x)
    (hG : Guarded (step E) (FitsDry E) (.init E.toParamEngine) as) :
    ∀ p, x.proc = some p → p.DryAligned E := by
  have hinv := run_invariant
    (I := fun x : Plugin => ∀ p, x.proc = some p → (p.chain x.shared).DryInv E x.shared.bufferSize)
    (fun _ _ _ hI hG h => dryInv_step hst hos hI hG h) (fun p hp => by cases hp) hG h
  intro p hp
  exact ⟨(hinv p hp).cached, (hinv p hp).delay, (hinv p hp).fits⟩

end

/-- The reference engine with its streams cut off at the documented bound. -/
def boundedEngine (maxResampBuf : Nat) : Engine :=
  { refEngine with
    streamLatency := fun st => min (refEngine.streamLatency st) STREAM_LATENCY_MAX
    maxResampBuf }

theorem boundedEngine_stream (maxResampBuf : Nat) (st : StreamingResampleBuffer) :
    (boundedEngine maxResampBuf).streamLatency st ≤ STREAM_LATENCY_MAX := Nat.min_le_right _ _

theorem boundedEngine_os (maxResampBuf : Nat) (os : OversampleEngine) :
    (boundedEngine maxResampBuf).osLatency os ≤ OS_LATENCY_MAX := by
  show os.factor.code ≤ OS_LATENCY_MAX
  cases os.factor <;> decide

/-- The pair of a first activation is reused by a second one with another block size. -/
def refReused (first second : Nat) : List Action :=
  [.main (.handlePendingIr (refIr "one.wav") noFaults), .activate ⟨48000, first⟩ fun _ => false,
    .deactivate, .activate ⟨48000, second⟩ fun _ => false]

/-- A pair of 512 samples is reused with a block of 64. -/
theorem dry_delay_kept_reused :
    ∃ x p, run (step (boundedEngine 2048)) (.init refParamEngine) (refReused 512 64) = some x ∧
      x.proc = some p ∧ p.dryDelay.delay = 512 ∧ p.DryAligned (boundedEngine 2048) := by
  obtain ⟨x, hx⟩ := Option.isSome_iff_exists.1 (show
    (run (step (boundedEngine 2048)) (.init refParamEngine) (refReused 512 64)).isSome = true by
      decide +kernel)
  have hproc : ((run (step (boundedEngine 2048)) (.init refParamEngine) (refReused 512 64)).bind
      (·.proc)).map (·.dryDelay.delay) = some 512 := by decide +kernel
  rw [hx, Option.bind_some, Option.map_eq_some_iff] at hproc
  obtain ⟨p, hp, hd⟩ := hproc
  exact ⟨x, p, hx, hp, hd, dry_delay_kept (boundedEngine_stream 2048) (boundedEngine_os 2048) hx
    (by decide +kernel) p hp⟩

/-- Every run of an engine with the documented bounds keeps the delay. -/
def AlwaysAligned (maxResampBuf : Nat) : Prop :=
  ∀ E : Engine, E.maxResampBuf = maxResampBuf → (∀ st, E.streamLatency st ≤ STREAM_LATENCY_MAX) →
    (∀ os, E.osLatency os ≤ OS_LATENCY_MAX) → ∀ (as : List Action) (x : Plugin),
    run (step E) (.init E.toParamEngine) as = some x → ∀ p, x.proc = some p → p.DryAligned E

theorem not_alwaysAligned {maxResampBuf : Nat}
    (h : ((run (step (boundedEngine maxResampBuf)) (.init refParamEngine) (refReused 16384 64)).bind
      (·.proc)).map (fun p => decide (p.dryDelay.delay < p.cachedEffectiveLatency)) = some true) :
    ¬AlwaysAligned maxResampBuf := by
  intro halways
  obtain ⟨p, hp, hd⟩ := Option.map_eq_some_iff.1 h
  obtain ⟨x, hx, hp⟩ := Option.bind_eq_some_iff.1 hp
  have hdelay := (halways (boundedEngine maxResampBuf) rfl (boundedEngine_stream maxResampBuf)
    (boundedEngine_os maxResampBuf) _ x hx p hp).delay
  exact absurd hdelay (Nat.ne_of_lt (of_decide_eq_true hd))

/-- Whether the resampler's largest block is 2048 samples or 8192: a pair of 16384 samples is reused
with a block of 64, and the dry delay is clamped. -/
theorem dry_delay_clamped : ¬AlwaysAligned 2048 ∧ ¬AlwaysAligned 8192 :=
  ⟨not_alwaysAligned (by decide +kernel), not_alwaysAligned (by decide +kernel)⟩

end NamPlug
