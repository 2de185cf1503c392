import NamPlug.Plugin.Proof.Custody
import NamPlug.Plugin.Proof.Slimming

/-!
# The boxes are those of the processor

`Unboxes x b s p`: the payloads and the chain of the processor `b`, out of their boxes, are those of
`p`. Every step of the audio thread on `p` is a step on `b` that keeps it so (`audioStep_unboxes`),
so that what is proved of the boxes is proved of every run of the audio thread.
-/

namespace NamPlug.Boxed

/-- The chain `b` runs, out of its boxes. -/
structure Runs (b : Processor) (c : Chain) : Prop where
  modelL : c.modelL = b.modelL.map Box.val
  modelR : c.modelR = b.modelR.map Box.val
  modelGeneration : c.modelGeneration = b.modelGeneration
  resampler : c.resampler = b.resampler.val
  stream : c.stream = b.stream.val
  osL : c.osL = b.osL.val
  osR : c.osR = b.osR.val
  cabsimPair : c.cabsimPair = b.cabsimPair.map Box.val

/-- A processor with the same chain runs the same. -/
theorem Runs.keep {b b' : Processor} {c : Chain} (h : Runs b c) (hb : b'.over b = b') :
    Runs b' c := by
  rw [← hb]
  exact ⟨h.1, h.2, h.3, h.4, h.5, h.6, h.7, h.8⟩

structure Unboxes (x : Shared) (b : Processor) (s : NamPlug.Shared) (p : NamPlug.Processor) :
    Prop where
  runs : Runs b (p.chain s)
  ring : s.ring = x.ring.map ClapParamPayload.unbox
  slimRing : s.slim.ring = x.slimRing.map SlimmableRebuild.unbox
  sampleRate : s.sampleRate = x.sampleRate
  recovered : p.recoveredCommands = b.recoveredCommands.map ClapParamPayload.unbox
  deferred : p.deferred = b.deferred.map ClapParamPayload.unbox
  candidate : p.candidate = b.candidate.map ClapParamPayload.unbox
  slimDeferred : p.slim.deferred = b.slimDeferred.map SlimmableRebuild.unbox
  inCallback : p.inCallback = b.inCallback

section
variable (E : Engine) (G : GcSink)

/-! ## Installing -/

theorem Runs.loadModel {b : Processor} {c : Chain} (h : Runs b c) (x : Shared)
    (m : LoadModelPayload) : Runs (coldLoadModel G x b m).2 (c.loadModel E m.unbox) :=
  { h with modelL := rfl, modelR := rfl, modelGeneration := rfl, resampler := rfl, stream := rfl }

theorem Runs.loadCabsim {b : Processor} {c : Chain} (h : Runs b c) (x : Shared)
    (pair : Option (Box CabSimPair)) :
    Runs (coldLoadCabsim G x b pair).2 (c.loadCabsim E x.sampleRate (pair.map Box.val)) := by
  unfold coldLoadCabsim Chain.loadCabsim
  split
  · exact h
  · exact { h with cabsimPair := rfl }

/-- A command does to the boxes what it does to the chain. -/
theorem Runs.install {b : Processor} {c : Chain} (h : Runs b c) (x : Shared)
    (d : ClapParamPayload) :
    Runs (applyStructural G x b d).2 (c.install E x.sampleRate d.unbox) := by
  cases d with
  | params q => exact h
  | loadModel m => exact h.loadModel E G x m
  | loadCabIr pair => exact h.loadCabsim E G x pair
  | setOversample osL osR => exact { h with osL := rfl, osR := rfl }
  | restoreTxn txn =>
    obtain ⟨generation, model, ir, params⟩ := txn
    cases model with
    | none =>
      cases ir with
      | none => exact h
      | some pair => exact h.loadCabsim E G x pair
    | some m =>
      cases ir with
      | none => exact h.loadModel E G x m
      | some pair => exact (h.loadModel E G x m).loadCabsim E G (coldLoadModel G x b m).1 pair

/-- The processor installs a command in its boxes. -/
theorem Unboxes.install {x : Shared} {b : Processor} {s : NamPlug.Shared} {p : NamPlug.Processor}
    (h : Unboxes x b s p) (d : ClapParamPayload) :
    Unboxes (applyStructural G x b d).1 (applyStructural G x b d).2
      (NamPlug.applyStructural E s p d.unbox).1 (NamPlug.applyStructural E s p d.unbox).2 := by
  have hruns := h.runs.install E G x d
  rw [← h.sampleRate, ← applyStructural_chain] at hruns
  have hf := applyStructural_frame E s p d.unbox
  have hslim := applyStructural_slimOf E s p d.unbox
  have ht := applyStructural_takes (G := G) x b d
  generalize NamPlug.applyStructural E s p d.unbox = r at hruns hf hslim ⊢
  generalize applyStructural G x b d = y at hruns ht ⊢
  obtain ⟨hs, hd⟩ := Prod.mk.inj hslim
  obtain ⟨is, hy, -⟩ := ht.shared
  refine ⟨hruns, ?_, ?_, ?_, ?_, ?_, ?_, ?_, ?_⟩
  · rw [hf.shared, hy]
    exact h.ring
  · rw [hs, hy]
    exact h.slimRing
  · rw [hf.shared, hy]
    exact h.sampleRate
  · rw [hf.proc, ht.proc]
    exact h.recovered
  · rw [hf.proc, ht.proc]
    exact h.deferred
  · rw [hf.proc, ht.proc]
    exact h.candidate
  · rw [hd, ht.proc]
    exact h.slimDeferred
  · rw [hf.proc, ht.proc]
    exact h.inCallback

/-- A change of parameters leaves the boxes alone. -/
theorem Unboxes.retune {x : Shared} {b : Processor} {s : NamPlug.Shared} {p : NamPlug.Processor}
    (h : Unboxes x b s p) {r : NamPlug.Shared × NamPlug.Processor} (hf : ParamFrame (s, p) r) :
    Unboxes x b r.1 r.2 := by
  have hd := congrArg Prod.snd hf.slimOf
  refine ⟨by rw [hf.chain]; exact h.runs, ?_, ?_, ?_, ?_, ?_, ?_, ?_, ?_⟩
  · rw [hf.shared]
    exact h.ring
  · rw [hf.slim]
    exact h.slimRing
  · rw [hf.shared]
    exact h.sampleRate
  · rw [hf.proc]
    exact h.recovered
  · rw [hf.proc]
    exact h.deferred
  · rw [hf.proc]
    exact h.candidate
  · exact hd.trans h.slimDeferred
  · rw [hf.proc]
    exact h.inCallback

/-! ## The drains -/

/-- The head of the ring supersedes what it supersedes out of the boxes. -/
theorem head_supersedes (ring : List ClapParamPayload) (d : ClapParamPayload) :
    (ring.map ClapParamPayload.unbox).head?.any (·.supersedes d.unbox) =
      ring.head?.any (·.unbox.supersedes d.unbox) := by
  rw [List.head?_map, Option.any_map]

theorem drainMove_unboxes {x : Shared} {b : Processor} {s : NamPlug.Shared}
    {p : NamPlug.Processor} (h : Unboxes x b s p) {m : DrainMove}
    {r : NamPlug.Shared × NamPlug.Processor} (hr : NamPlug.drainMove E s p m = some r) :
    ∃ y, drainMove G x b m = some y ∧ Unboxes y.1 y.2 r.1 r.2 := by
  cases m with
  | installDeferred =>
    simp only [NamPlug.drainMove, h.deferred, h.ring] at hr
    cases hb : b.deferred with
    | none => simp [hb] at hr
    | some d =>
      simp only [hb, Option.map_some, head_supersedes] at hr
      simp only [drainMove, hb]
      split_ifs at hr ⊢
      obtain rfl := Option.some.inj hr
      have hk : Unboxes x { b with deferred := none } s
          { p with
            deferred := none, processedSeq := p.processedSeq + 1, resolved := p.resolved + 1 } :=
        { h with runs := h.runs.keep rfl, deferred := rfl }
      exact ⟨_, rfl, hk.install E G d⟩
  | discardDeferred =>
    simp only [NamPlug.drainMove, h.deferred, h.ring] at hr
    cases hb : b.deferred with
    | none => simp [hb] at hr
    | some d =>
      simp only [hb, Option.map_some, head_supersedes] at hr
      simp only [drainMove, hb]
      split_ifs at hr ⊢ with hsup
      obtain rfl := Option.some.inj hr
      obtain ⟨c, -, hc⟩ := (Option.any_eq_true _ _).1 hsup
      refine ⟨_, rfl, ?_⟩
      rw [discardStructuralPayload_retires x (supersedes_coalesces hc)]
      exact { h with runs := h.runs.keep rfl, deferred := rfl }
  | applyParams =>
    cases drainMove_spec E hr with
    | applyParams hd hring =>
      have hb := Option.map_eq_none_iff.1 (h.deferred.symm.trans hd)
      obtain ⟨c, rest, hx, hc, rfl⟩ := List.map_eq_cons_iff.1 (h.ring.symm.trans hring)
      cases c with
      | params q =>
        cases hc
        have hk : Unboxes { x with ring := rest } b
            (s.popped (rest.map ClapParamPayload.unbox))
            { p.pop p.candidate with resolved := (p.pop p.candidate).resolved + 1 } :=
          { h with runs := h.runs.keep rfl, ring := rfl }
        simp only [drainMove, hb, hx]
        exact ⟨_, rfl, hk.install E G (.params _)⟩
      | _ => cases hc
  | popCandidate =>
    cases drainMove_spec E hr with
    | popCandidate hd hcand hring hstruct =>
      have hb := Option.map_eq_none_iff.1 (h.deferred.symm.trans hd)
      have hc := Option.map_eq_none_iff.1 (h.candidate.symm.trans hcand)
      obtain ⟨c, rest, hx, rfl, rfl⟩ := List.map_eq_cons_iff.1 (h.ring.symm.trans hring)
      simp only [drainMove, hb, hc, hx, hstruct, if_true]
      exact ⟨_, rfl, { h with
        runs := h.runs.keep rfl, ring := rfl, deferred := hd, candidate := rfl }⟩
  | supersede =>
    cases drainMove_spec E hr with
    | supersede hd hcand hring hsup =>
      have hb := Option.map_eq_none_iff.1 (h.deferred.symm.trans hd)
      obtain ⟨c, hc, rfl⟩ := Option.map_eq_some_iff.1 (h.candidate.symm.trans hcand)
      obtain ⟨d, rest, hx, rfl, rfl⟩ := List.map_eq_cons_iff.1 (h.ring.symm.trans hring)
      simp only [drainMove, hb, hc, hx, hsup, if_true]
      refine ⟨_, rfl, ?_⟩
      rw [discardStructuralPayload_retires _ (supersedes_coalesces hsup)]
      exact { h with runs := h.runs.keep rfl, ring := rfl, deferred := hd, candidate := rfl }
  | installCandidate =>
    cases drainMove_spec E hr with
    | installCandidate hd hcand =>
      have hb := Option.map_eq_none_iff.1 (h.deferred.symm.trans hd)
      obtain ⟨c, hc, rfl⟩ := Option.map_eq_some_iff.1 (h.candidate.symm.trans hcand)
      have hk : Unboxes x { b with deferred := none, candidate := none } s
          { p with candidate := none, resolved := p.resolved + 1 } :=
        { h with runs := h.runs.keep rfl, deferred := hd, candidate := rfl }
      simp only [drainMove, hb, hc]
      exact ⟨_, rfl, hk.install E G c⟩

theorem slimmableMove_unboxes {x : Shared} {b : Processor} {s : NamPlug.Shared}
    {p : NamPlug.Processor} (h : Unboxes x b s p) {m : SlimmableMove}
    {r : NamPlug.Shared × NamPlug.Processor} (hr : NamPlug.slimmableMove s p m = some r) :
    ∃ y, slimmableMove G x b m = some y ∧ Unboxes y.1 y.2 r.1 r.2 := by
  have hgen : p.modelGeneration = b.modelGeneration := h.runs.modelGeneration
  cases slimmableMove_spec hr with
  | take hd hring =>
    have hb := Option.map_eq_none_iff.1 (h.slimDeferred.symm.trans hd)
    obtain ⟨t, rest, hx, rfl, rfl⟩ := List.map_eq_cons_iff.1 (h.slimRing.symm.trans hring)
    simp only [slimmableMove, hb, hx]
    exact ⟨_, rfl, { h with runs := h.runs.keep rfl, slimRing := rfl, slimDeferred := rfl }⟩
  | install hd hg =>
    obtain ⟨t, hb, rfl⟩ := Option.map_eq_some_iff.1 (h.slimDeferred.symm.trans hd)
    have hg' : t.generation = b.modelGeneration := hg.trans hgen
    simp only [slimmableMove, hb, hg', if_true]
    exact ⟨_, rfl, { h with
      runs := ⟨rfl, h.1.2, h.1.3, h.1.4, h.1.5, h.1.6, h.1.7, h.1.8⟩, slimDeferred := rfl }⟩
  | discard hd hstale =>
    obtain ⟨t, hb, rfl⟩ := Option.map_eq_some_iff.1 (h.slimDeferred.symm.trans hd)
    have hstale' : t.generation ≠ b.modelGeneration ∨
        x.slimRing.head?.any (·.generation = t.generation) = true := by
      refine hstale.imp (fun hne heq => hne (heq.trans hgen.symm)) ?_
      rintro ⟨u, rest, hring, hu⟩
      obtain ⟨v, vs, hx, rfl, -⟩ := List.map_eq_cons_iff.1 (h.slimRing.symm.trans hring)
      rw [hx]
      exact decide_eq_true hu
    simp only [slimmableMove, hb, hstale', if_true]
    exact ⟨_, rfl, { h with runs := h.runs.keep rfl, slimDeferred := rfl }⟩

/-! ## A step -/

theorem beginEvents_unboxes {x : Shared} {b : Processor} {s : NamPlug.Shared}
    {p : NamPlug.Processor} (h : Unboxes x b s p) (room : Nat) :
    Unboxes (beginEvents G x b).1 (beginEvents G x b).2 (NamPlug.beginEvents E s p room).1
      (NamPlug.beginEvents E s p room).2 := by
  have hall : ∀ (cs : List ClapParamPayload) (y : Shared × Processor)
      (r : NamPlug.Shared × NamPlug.Processor), Unboxes y.1 y.2 r.1 r.2 →
      Unboxes (cs.foldl (fun y c => applyStructural G y.1 y.2 c) y).1
        (cs.foldl (fun y c => applyStructural G y.1 y.2 c) y).2
        ((cs.map ClapParamPayload.unbox).foldl
          (fun r c => NamPlug.applyStructural E r.1 r.2 c) r).1
        ((cs.map ClapParamPayload.unbox).foldl
          (fun r c => NamPlug.applyStructural E r.1 r.2 c) r).2 := by
    intro cs
    induction cs with
    | nil => exact fun y r hk => hk
    | cons c cs ih => exact fun y r hk => ih _ _ (hk.install E G c)
  have hk : Unboxes x { b with recoveredCommands := [], inCallback := true }
      { s with ui := (writeGuiEvents s.ui room).ui }
      { p with recoveredCommands := [], inCallback := true } :=
    { h with runs := h.runs.keep rfl, recovered := rfl, inCallback := rfl }
  have hreplay := hall b.recoveredCommands
    (x, { b with recoveredCommands := [], inCallback := true })
    ({ s with ui := (writeGuiEvents s.ui room).ui },
      { p with recoveredCommands := [], inCallback := true }) hk
  rw [← h.recovered] at hreplay
  exact { hreplay with }

theorem endEvents_unboxes {x : Shared} {b : Processor} {s : NamPlug.Shared}
    {p : NamPlug.Processor} (h : Unboxes x b s p) :
    Unboxes (endEvents x b).1 (endEvents x b).2 (NamPlug.endEvents E s p).1
      (NamPlug.endEvents E s p).2 := by
  obtain ⟨r, hf, he⟩ := endEvents_frame E s p
  have hk : Unboxes x { (endEvents x b).2 with inCallback := b.inCallback } (endDrain s p).1
      (endDrain s p).2 := by
    cases hb : b.candidate with
    | none =>
      have hc : p.candidate = none := h.candidate.trans (by rw [hb]; rfl)
      simp only [endEvents, endDrain, hb, hc]
      exact { h with runs := h.runs.keep rfl, candidate := rfl }
    | some c =>
      have hc : p.candidate = some c.unbox := h.candidate.trans (by rw [hb]; rfl)
      simp only [endEvents, endDrain, hb, hc]
      exact { h with runs := h.runs.keep rfl, deferred := rfl, candidate := rfl }
  have hr := hk.retune hf
  have hout : (endEvents x b).2.inCallback = false := by
    unfold endEvents
    split <;> rfl
  rw [he]
  exact { hr with runs := hr.runs.keep rfl, inCallback := hout.symm }

/-- Every step of the audio thread is one on the boxes. -/
theorem audioStep_unboxes {x : Shared} {b : Processor} {s : NamPlug.Shared}
    {p : NamPlug.Processor} (h : Unboxes x b s p) {a : AudioAction}
    {r : NamPlug.Shared × NamPlug.Processor} (hr : NamPlug.audioStep E s p a = some r) :
    ∃ y, audioStep G x b a = some y ∧ Unboxes y.1 y.2 r.1 r.2 := by
  cases a with
  | beginEvents room =>
    simp only [NamPlug.audioStep, h.inCallback] at hr
    simp only [audioStep]
    split_ifs at hr ⊢
    obtain rfl := Option.some.inj hr
    exact ⟨_, rfl, beginEvents_unboxes E G h room⟩
  | drain m =>
    simp only [NamPlug.audioStep, h.inCallback] at hr
    simp only [audioStep]
    split_ifs at hr ⊢
    exact drainMove_unboxes E G h hr
  | endEvents =>
    simp only [NamPlug.audioStep, h.inCallback] at hr
    simp only [audioStep]
    split_ifs at hr ⊢
    obtain rfl := Option.some.inj hr
    exact ⟨_, rfl, endEvents_unboxes E h⟩
  | hostEvents es =>
    simp only [NamPlug.audioStep, h.inCallback] at hr
    simp only [audioStep]
    split_ifs at hr ⊢
    obtain rfl := Option.some.inj hr
    exact ⟨_, rfl, h.retune (hostEvents_frame E s p es)⟩
  | flushInner room es =>
    simp only [NamPlug.audioStep, h.inCallback] at hr
    simp only [audioStep]
    split_ifs at hr ⊢
    obtain rfl := Option.some.inj hr
    exact ⟨_, rfl, h.retune (flushInner_frame E s p room es)⟩
  | slimmable m =>
    simp only [NamPlug.audioStep, h.inCallback] at hr
    simp only [audioStep]
    split_ifs at hr ⊢
    exact slimmableMove_unboxes G h hr
  | signalSlimmableRebuild ch =>
    simp only [NamPlug.audioStep, h.inCallback] at hr
    simp only [audioStep]
    split_ifs at hr ⊢
    obtain rfl := Option.some.inj hr
    exact ⟨_, rfl, { h with
      runs := ⟨h.1.1, h.1.2, h.1.3, h.1.4, h.1.5, h.1.6, h.1.7, h.1.8⟩ }⟩
  | reset =>
    simp only [NamPlug.audioStep, h.inCallback] at hr
    simp only [audioStep]
    split_ifs at hr ⊢
    obtain rfl := Option.some.inj hr
    exact ⟨_, rfl, { h with
      runs := ⟨h.1.1, h.1.2, h.1.3, h.1.4, h.1.5, h.1.6, h.1.7, h.1.8⟩ }⟩

/-- Every run of the audio thread is one on the boxes, whatever the main thread takes off the channel
meanwhile. -/
theorem audioRun_unboxes {x : Shared} {b : Processor} {s : NamPlug.Shared}
    {p : NamPlug.Processor} (h : Unboxes x b s p) {as : List (List Nat × AudioAction)}
    {z : NamPlug.Plugin}
    (hr : Machine.run (NamPlug.step E) ⟨s, some p⟩ (as.map fun a => .audio a.2) = some z) :
    ∃ y q p', z.proc = some p' ∧
      Machine.run (step G) ⟨x, some b⟩ (as.map fun a => .audio a.1 a.2) = some ⟨y, some q⟩ ∧
      Unboxes y q z.shared p' := by
  induction as generalizing x b s p with
  | nil =>
    obtain rfl := Option.some.inj hr
    exact ⟨x, b, p, rfl, rfl, h⟩
  | cons a as ih =>
    rw [List.map_cons] at hr
    obtain ⟨u, hu, hrest⟩ := Machine.run_cons.1 hr
    simp only [NamPlug.step, Option.bind_some, Option.map_eq_some_iff] at hu
    obtain ⟨r, hr, rfl⟩ := hu
    have hturns : Unboxes { x with gc := { x.gc with turns := a.1 } } b s p := { h with }
    obtain ⟨y, hy, hk⟩ := audioStep_unboxes E G hturns hr
    obtain ⟨z', q, p', hz, hrun, hz'⟩ := ih hk hrest
    refine ⟨z', q, p', hz, ?_, hz'⟩
    rw [List.map_cons]
    refine Machine.run_cons.2 ⟨⟨y.1, some y.2⟩, ?_, hrun⟩
    simp only [step, Option.bind_some, hy, Option.map_some]

end

end NamPlug.Boxed
