import NamPlug.Params.Proof.Sync
import NamPlug.Plugin.Proof.Acknowledge
import NamPlug.Plugin.Proof.Chain

/-!
# The order of recovered commands

A failed activation takes the commands off the ring and stages them for a replay, with the newest
model in a slot of its own. Later failures put what they take before what is staged, though it is
newer. `recovered_in_order`: over any number of failures the commands keep their order and none is
lost or doubled, if every failure finds nothing staged or nothing to stage (`StagesAlone`).
-/

namespace NamPlug

open Machine

/-- The commands of a ring that a failed activation stages. -/
def replayable (cs : List ClapParamPayload) : List ClapParamPayload := cs.filter (!·.isLoadModel)

@[simp] theorem replayable_nil : replayable [] = [] := rfl

theorem replayable_append (cs ds : List ClapParamPayload) :
    replayable (cs ++ ds) = replayable cs ++ replayable ds := List.filter_append ..

section
variable (E : Engine)

/-- What a run pushes, in order: what its steps add at the end of the ring. -/
def pushed (x : Plugin) : List Action → List ClapParamPayload
  | [] => []
  | a :: as =>
    match step E x a with
    | some y => y.shared.ring.drop x.shared.ring.length ++ pushed y as
    | none => []

/-- Nothing is staged, or the ring has nothing to stage. -/
def StagesAlone (x : Plugin) : Action → Prop
  | .activate cfg faults => (x.shared.activate E cfg faults).2 = none →
    x.shared.recoveredCommands = [] ∨ replayable x.shared.ring = []
  | _ => True

instance (x : Plugin) : ∀ a, Decidable (StagesAlone E x a)
  | .activate cfg faults => inferInstanceAs (Decidable
      ((x.shared.activate E cfg faults).2 = none →
        x.shared.recoveredCommands = [] ∨ replayable x.shared.ring = []))
  | .main _ => .isTrue trivial
  | .audio _ => .isTrue trivial
  | .deactivate => .isTrue trivial

/-! ## One activation -/

theorem published_commands (s : Shared) (cfg : AudioConfig) (restore : Option StagedRestore)
    (a : Assembly) : (s.published E cfg restore a).ring = s.ring ∧
      (s.published E cfg restore a).recoveredCommands = s.recoveredCommands := by
  cases restore with
  | none => exact ⟨rfl, rfl⟩
  | some r =>
    simp only [Shared.published, Shared.publishStaged]
    rw [publishRestore_eq]
    exact ⟨rfl, rfl⟩

/-- A failed activation stages what the ring has before what is staged, and one that works hands it
to the processor. -/
theorem Activates.commands {s : Shared} {cfg : AudioConfig} {faults : ActivateCall → Bool}
    {r : Shared × Option Processor} (h : Activates E s cfg faults r) :
    (r.2 = none ∧ r.1.ring = s.ring ∧ r.1.recoveredCommands = s.recoveredCommands) ∨
    (r.2 = none ∧ r.1.ring = [] ∧
      r.1.recoveredCommands = replayable s.ring ++ s.recoveredCommands) ∨
    ∃ p ps, r.2 = some p ∧ r.1.ring = s.ring ++ ps ∧ r.1.recoveredCommands = [] ∧
      p.recoveredCommands = s.recoveredCommands := by
  have hflush : ∀ (restore : Option StagedRestore) (a : Assembly) (r : Shared × Bool),
      (s.published E cfg restore a).flushPendingModel (fun c => faults (.flush c)) = r →
      (∃ ps, r.1.ring = s.ring ++ ps) ∧ r.1.recoveredCommands = s.recoveredCommands ∧
        (r.2 = false → r.1.ring = s.ring) := by
    rintro restore a _ rfl
    have hspec := flushPendingModel_spec (s.published E cfg restore a) fun c => faults (.flush c)
    obtain ⟨hring, hrec⟩ := published_commands E s cfg restore a
    obtain ⟨ps, hps⟩ := hspec.frame.sent
    refine ⟨⟨ps, hps.trans (congrArg (· ++ ps) hring)⟩, hspec.frame.recoveredCommands.trans hrec, ?_⟩
    generalize (s.published E cfg restore a).flushPendingModel (fun c => faults (.flush c)) = r at *
    cases hspec with
    | failed => exact fun _ => hring
    | _ => exact fun h => by cases h
  cases h with
  | noConsumer h => exact .inl ⟨rfl, rfl, rfl⟩
  | early hp h => exact .inr (.inl ⟨rfl, rfl, rfl⟩)
  | adapt hp hg hl hb hpipe ha => exact .inr (.inl ⟨rfl, rfl, rfl⟩)
  | @flush restore swap pipe a t hprep hf =>
    obtain ⟨-, hrec, hring⟩ := hflush restore a _ hf
    refine .inr (.inl ⟨rfl, rfl, ?_⟩)
    show replayable t.ring ++ t.recoveredCommands = _
    rw [hring rfl, hrec]
  | @ok restore swap pipe a t hprep hf =>
    obtain ⟨⟨ps, hps⟩, hrec, -⟩ := hflush restore a _ hf
    exact .inr (.inr ⟨_, ps, rfl, hps, rfl, hrec⟩)

/-! ## Runs without a processor -/

/-- The commands to be replayed and those of the ring, in the order they come to the audio
thread. -/
def Plugin.backlog (x : Plugin) : List ClapParamPayload :=
  x.shared.recoveredCommands ++ replayable x.shared.ring

theorem backlog_step {x y : Plugin} {a : Action} (hx : x.proc = none) (hy : y.proc = none)
    (hG : StagesAlone E x a) (h : step E x a = some y) :
    y.backlog = x.backlog ++ replayable (y.shared.ring.drop x.shared.ring.length) := by
  cases a with
  | main a =>
    obtain rfl := Option.some.inj h
    have hframe := mainStep_frame E x.shared a
    obtain ⟨ps, hps⟩ := hframe.sent
    unfold Plugin.backlog
    show (mainStep E x.shared a).recoveredCommands ++ replayable (mainStep E x.shared a).ring =
      _ ++ replayable ((mainStep E x.shared a).ring.drop _)
    rw [hframe.recoveredCommands, hps, List.drop_left, replayable_append, List.append_assoc]
  | audio a =>
    obtain ⟨p, hp, -⟩ := Option.bind_eq_some_iff.1 h
    rw [hx] at hp
    cases hp
  | activate cfg faults =>
    simp only [step] at h
    split_ifs at h
    obtain rfl := Option.some.inj h
    have hy : (x.shared.activate E cfg faults).2 = none := hy
    have hspec := (activate_spec E x.shared cfg faults).commands
    have hG : x.shared.recoveredCommands = [] ∨ replayable x.shared.ring = [] := hG hy
    unfold Plugin.backlog
    dsimp only
    obtain ⟨-, hr, hc⟩ | ⟨-, hr, hc⟩ | ⟨p, ps, hp, -⟩ := hspec
    · rw [hr, hc, List.drop_length, replayable_nil, List.append_nil]
    · rw [hr, hc, List.drop_nil, replayable_nil, List.append_nil, List.append_nil]
      obtain hG | hG := hG <;> rw [hG] <;> simp
    · rw [hp] at hy
      cases hy
  | deactivate =>
    simp only [step, hx] at h
    cases h

theorem backlog_run {as : List Action} {x y : Plugin}
    (h : run (step E) x as = some y) (hin : Guarded (step E) (fun x _ => x.proc = none) x as)
    (hG : Guarded (step E) (StagesAlone E) x as) (hy : y.proc = none) :
    y.backlog = x.backlog ++ replayable (pushed E x as) := by
  induction as generalizing x with
  | nil =>
    obtain rfl := Option.some.inj h
    simp [pushed]
  | cons a as ih =>
    obtain ⟨u, hu, h⟩ := run_cons.1 h
    have hup : u.proc = none := by
      cases as with
      | nil => exact Option.some.inj h ▸ hy
      | cons b bs => exact (hin.2 u hu).1
    rw [ih h (hin.2 u hu) (hG.2 u hu), backlog_step E hin.1 hup hG.1 hu]
    simp only [pushed, hu, replayable_append, List.append_assoc]

theorem pushed_append {as bs : List Action} {x y : Plugin} (h : run (step E) x as = some y) :
    pushed E x (as ++ bs) = pushed E x as ++ pushed E y bs := by
  induction as generalizing x with
  | nil =>
    obtain rfl := Option.some.inj h
    rfl
  | cons a as ih =>
    obtain ⟨u, hu, h⟩ := run_cons.1 h
    simp only [List.cons_append, pushed, hu, ih h, List.append_assoc]

/-- A callback begins with the commands its processor has to replay: they are applied one after the
other, to the parameters as to the chain. -/
theorem beginEvents_replays {s : Shared} {p : Processor} {room : Nat} {r : Shared × Processor}
    (h : audioStep E s p (.beginEvents room) = some r) :
    r = p.recoveredCommands.foldl (fun r c => applyStructural E r.1 r.2 c)
        ({ s with ui := (writeGuiEvents s.ui room).ui },
          { p with inCallback := true, recoveredCommands := [] }) ∧
      (∀ cs q, p.recoveredCommands = cs ++ [.params q] →
        r.2.rt.params = sanitizeSnapshot E.toParamEngine q) ∧
      audioOps p (.beginEvents room) = p.recoveredCommands.map .command ∧ r.1.ring = s.ring ∧
      r.2.recoveredCommands = [] := by
  simp only [audioStep] at h
  split_ifs at h
  obtain rfl := Option.some.inj h
  have hframe := replayRecovered_frame E { s with ui := (writeGuiEvents s.ui room).ui }
    { p with inCallback := true }
  have hring := congrArg Shared.ring hframe.shared
  have hrec := congrArg Processor.recoveredCommands hframe.proc
  refine ⟨rfl, fun cs q hcs => ?_, rfl, hring, hrec⟩
  unfold beginEvents replayRecovered
  dsimp only
  rw [hcs, List.foldl_append]
  exact applyParamsFromSpsc_params _ _ q

/-- Over any number of failed activations, with anything pushed between them, the next activation
that works replays the commands in the order they were pushed and before those of the ring, each
once; the first callback applies them in this order, so that of parameter snapshots the last one
pushed is in force. -/
theorem recovered_in_order {as : List Action} {x y z : Plugin} {cfg : AudioConfig}
    {faults : ActivateCall → Bool} {p : Processor}
    (h : run (step E) x as = some y) (hin : Guarded (step E) (fun x _ => x.proc = none) x as)
    (hG : Guarded (step E) (StagesAlone E) x as)
    (ha : step E y (.activate cfg faults) = some z) (hp : z.proc = some p) :
    p.recoveredCommands ++ replayable z.shared.ring =
        x.shared.recoveredCommands ++
          replayable (x.shared.ring ++ pushed E x (as ++ [.activate cfg faults])) ∧
      z.shared.recoveredCommands = [] ∧
      ∀ room r, audioStep E z.shared p (.beginEvents room) = some r →
        r = p.recoveredCommands.foldl (fun r c => applyStructural E r.1 r.2 c)
          ({ z.shared with ui := (writeGuiEvents z.shared.ui room).ui },
            { p with inCallback := true, recoveredCommands := [] }) ∧
          (∀ cs q, p.recoveredCommands = cs ++ [.params q] →
            r.2.rt.params = sanitizeSnapshot E.toParamEngine q) ∧
          audioOps p (.beginEvents room) = p.recoveredCommands.map .command ∧
          r.1.ring = z.shared.ring ∧ r.2.recoveredCommands = [] := by
  have hpushed : pushed E y [.activate cfg faults] = z.shared.ring.drop y.shared.ring.length := by
    simp only [pushed, ha, List.append_nil]
  rw [pushed_append E h, hpushed]
  simp only [step] at ha
  split_ifs at ha with hy
  obtain rfl := Option.some.inj ha
  have hp : (y.shared.activate E cfg faults).2 = some p := hp
  have hback := backlog_run E h hin hG (Option.not_isSome_iff_eq_none.1 hy)
  unfold Plugin.backlog at hback
  dsimp only
  obtain ⟨hn, -⟩ | ⟨hn, -⟩ | ⟨q, ps, hq, hr, hc, hq'⟩ :=
    (activate_spec E y.shared cfg faults).commands
  · rw [hp] at hn
    cases hn
  · rw [hp] at hn
    cases hn
  obtain rfl : q = p := Option.some.inj (hq.symm.trans hp)
  refine ⟨?_, hc, fun room r => beginEvents_replays E⟩
  rw [hq', hr, List.drop_left, replayable_append, ← List.append_assoc, hback]
  simp only [replayable_append, List.append_assoc]

end

/-! ## Runs of the reference engine -/

/-- An activation that cannot allocate its buffers. -/
def refNoBuffers : Action := .activate refConfig (· == .buffers)

/-- Parameters are flushed, an activation fails, and the same again with others. -/
def refTwoFailures : List Action :=
  [refGainFlush, refNoBuffers, .main (.flush 0 [⟨0, natDatum 2⟩]), refNoBuffers]

/-- One failure with parameters in the ring, one with none, and parameters after both. -/
def refOneStaged : List Action :=
  [refGainFlush, refNoBuffers, refNoBuffers, .main (.flush 0 [⟨0, natDatum 2⟩])]

theorem recovered_in_order_staged :
    (refProc (refOneStaged ++ [refActivate]) (by decide +kernel)).recoveredCommands.length = 1 ∧
    (refProc (refOneStaged ++ [refActivate]) (by decide +kernel)).recoveredCommands ++
      replayable (refRun (refOneStaged ++ [refActivate])).shared.ring =
        replayable (pushed refEngine (.init refParamEngine) (refOneStaged ++ [refActivate])) := by
  have hrun : run (step refEngine) (.init refParamEngine) refOneStaged = some (refRun refOneStaged) :=
    run_refRun (by decide +kernel)
  have hlast : run (step refEngine) (refRun refOneStaged) [refActivate] =
      some (refRun (refOneStaged ++ [refActivate])) := run_refRun_append (by decide +kernel)
  obtain ⟨z, hz, hnil⟩ := run_cons.1 hlast
  obtain rfl := Option.some.inj hnil
  have h := recovered_in_order refEngine hrun (by decide +kernel) (by decide +kernel) hz
    (refProc_eq (by decide +kernel))
  exact ⟨by decide +kernel, h.1⟩

/-- Two failures: the parameters of the second flush are replayed before those of the first. -/
theorem recovered_reversed :
    pushed refEngine (.init refParamEngine) (refTwoFailures ++ [refActivate]) ≠
      (refProc (refTwoFailures ++ [refActivate]) (by decide +kernel)).recoveredCommands ∧
    pushed refEngine (.init refParamEngine) (refTwoFailures ++ [refActivate]) =
      (refProc (refTwoFailures ++ [refActivate]) (by decide +kernel)).recoveredCommands.reverse := by
  constructor <;> decide +kernel

end NamPlug
