import NamPlug.Plugin.Proof.Landing
import NamPlug.Plugin.Proof.Line
import NamPlug.Plugin.Proof.Origin
import NamPlug.Plugin.Proof.Rollback

/-!
# The newest model wins

A model can wait in half a dozen places, and each is emptied at another moment by another operation.
`newest_wins`: in a run whose steps deliver no model behind a newer one and give up none that is newer
than all others (`KeepsNewest`), the generation that is installed never decreases, and once nothing
waits and nothing is on its way it is the newest one that was adopted.
-/

namespace NamPlug

open Arrival Machine

/-! ## Activation -/

/-- The generation an activation starts with: the staged one, or the one that was kept. -/
def Shared.startGeneration (s : Shared) : Nat :=
  ((stagedModel s.stagedRestore s.stagedSwap).map (·.generation)).getD s.keptGeneration

/-- What comes to the audio thread after an activation, in order. -/
def Shared.leftover (s : Shared) : List Nat :=
  modelGenerations s.recoveredCommands ++ modelGenerations s.ring

/-- What waits if the staged items are used up. -/
def Shared.withoutStaged (s : Shared) : Shared :=
  { s with stagedRestore := none, stagedSwap := none }

/-- An activation that succeeds puts no model before an older one: the staged model is not older than
the one that was kept and not newer than what is left over, and the retained one not older than
either. -/
structure StartsNewest (s : Shared) (cfg : AudioConfig) : Prop where
  kept : s.keptGeneration ≤ s.startGeneration
  leftover : ∀ k ∈ s.leftover, s.startGeneration ≤ k
  retained : cfg.maxFrames ≠ 0 → ∀ m ∈ s.pendingModel, ∀ k ∈ s.startGeneration :: s.leftover,
    k ≤ m.generation

section
variable (E : Engine)

/-- An activation that fails finds models among the commands recovered before or among those it
recovers, not both. If it fails at its last call it uses up no model that is newer than all
others. -/
structure FailsNewest (s : Shared) (cfg : AudioConfig) (faults : ActivateCall → Bool) : Prop where
  recovered : modelGenerations s.recoveredCommands = [] ∨ modelGenerations (replayable s.ring) = []
  used : ¬FailsEarly E s cfg faults → (adaptStaged s cfg faults).1 = true →
    s.keptGeneration = 0 ∧ Covers s.slots (s.leftover ++ s.withoutStaged.slots)

variable {E} {s : Shared} {cfg : AudioConfig} {faults : ActivateCall → Bool}

theorem Prepared.generation {restore : Option StagedRestore} {swap : Option StagedSwap}
    {pipe : Pipeline} {a : Assembly} (h : Prepared E s cfg faults restore swap pipe a) :
    a.modelGeneration = s.startGeneration := by
  have hgen := stagedModel_generation h.adapted
  unfold Shared.startGeneration
  rw [← hgen]
  obtain ⟨m, hm, -, -, hg, -⟩ | ⟨hs, hk⟩ := h.models
  · rw [hm, hg]
    rfl
  · rw [hs, hk.modelGeneration]
    rfl

/-- The rollback puts the commands of the ring before those recovered earlier and the newest model of
its loads in the slot of the retained one. -/
theorem recoverRing_ordered {g : Nat}
    (hs : s.Ordered (g :: modelGenerations s.recoveredCommands))
    (hG : modelGenerations s.recoveredCommands = [] ∨ modelGenerations (replayable s.ring) = []) :
    s.recoverRing.Ordered (g :: modelGenerations s.recoverRing.recoveredCommands) := by
  have hrec : modelGenerations s.recoverRing.recoveredCommands =
      modelGenerations (replayable s.ring) ++ modelGenerations s.recoveredCommands :=
    modelGenerations_append ..
  have hsub : (modelGenerations (replayable s.ring)).Sublist (modelGenerations s.ring) :=
    List.filter_sublist.filterMap _
  have hline : (g :: modelGenerations s.recoverRing.recoveredCommands ++
      modelGenerations s.recoverRing.ring).Sublist
      (g :: modelGenerations s.recoveredCommands ++ modelGenerations s.ring) := by
    rw [hrec]
    show (g :: _ ++ []).Sublist _
    rw [List.append_nil]
    obtain h | h := hG <;> rw [h]
    · simpa using hsub
    · simp
  refine hs.change (hs.sorted.sublist hline) (Covers.append ?_ ?_)
  · intro k hk
    obtain hk | hk := List.mem_append.1 hk
    · refine ⟨k, ?_, Nat.le_refl k⟩
      rw [hrec]
      simp only [List.cons_append, List.mem_cons, List.mem_append] at hk ⊢
      tauto
    · -- a model of the ring is replayed, or it is a load and the newest of these is retained
      obtain ⟨c, hc, hcm⟩ := List.mem_filterMap.1 hk
      obtain ⟨m, hm, rfl⟩ := Option.map_eq_some_iff.1 hcm
      obtain hr | ⟨n, q, rfl, hq, hle⟩ := recoverRing_kept s hc
      · refine ⟨m.generation, List.mem_append_left _ (List.mem_append_left _ ?_), Nat.le_refl _⟩
        exact List.mem_cons_of_mem g (mem_modelGenerations hr hm)
      · obtain rfl := Option.some.inj hm
        exact ⟨q.generation, List.mem_append_right _ (mem_slots_pendingModel hq), hle⟩
  · intro k hk
    have hpend : ∀ p, s.pendingModel = some p → ∃ q, s.recoverRing.pendingModel = some q ∧
        p.generation ≤ q.generation := by
      intro p hp
      obtain h | ⟨m, -, hq, hlt, -⟩ := recoverRing_pendingModel s
      · exact ⟨p, h.trans hp, Nat.le_refl _⟩
      · exact ⟨_, hq, Nat.le_of_lt (hlt p hp)⟩
    simp only [Shared.slots, List.mem_append, Option.mem_toList, Option.map_eq_some_iff] at hk
    obtain (⟨p, hp, rfl⟩ | hk) | hk := hk
    · obtain ⟨q, hq, hle⟩ := hpend p hp
      exact ⟨q.generation, List.mem_append_right _ (mem_slots_pendingModel hq), hle⟩
    · refine ⟨k, List.mem_append_right _ ?_, Nat.le_refl k⟩
      simp only [Shared.slots, List.mem_append, Option.mem_toList, Option.map_eq_some_iff]
      exact .inl (.inr hk)
    · refine ⟨k, List.mem_append_right _ ?_, Nat.le_refl k⟩
      simp only [Shared.slots, List.mem_append, Option.mem_toList, Option.map_eq_some_iff]
      exact .inr hk

variable (E)

/-- What is left of the models once the staged ones are used up. -/
theorem published_line (s : Shared) (cfg : AudioConfig) (restore : Option StagedRestore)
    (a : Assembly) :
    (s.published E cfg restore a).ring = s.ring ∧
      (s.published E cfg restore a).recoveredCommands = s.recoveredCommands ∧
      (s.published E cfg restore a).slots = s.withoutStaged.slots ∧
      (s.published E cfg restore a).logged = s.logged ∧
      (s.published E cfg restore a).deactivatedDsp = none := by
  cases restore with
  | none => exact ⟨rfl, rfl, rfl, rfl, rfl⟩
  | some r =>
    simp only [Shared.published, Shared.publishStaged]
    rw [publishRestore_eq]
    exact ⟨rfl, rfl, rfl, rfl, rfl⟩

variable {E}

/-- The line and the slots once the staged items are used up, with `g` in place. -/
theorem published_ordered {restore : Option StagedRestore} {a : Assembly} {g : Nat}
    (hs : InOrder (g :: s.leftover) s.withoutStaged.slots s.logged) :
    (s.published E cfg restore a).Ordered (g :: modelGenerations s.recoveredCommands) := by
  obtain ⟨hr, -, hslots, hl, -⟩ := published_line E s cfg restore a
  unfold Shared.Ordered
  rw [hr, hslots, hl]
  exact hs

theorem StartsNewest.ordered (h : StartsNewest s cfg)
    (hs : s.Ordered (s.keptGeneration :: modelGenerations s.recoveredCommands)) :
    InOrder (s.startGeneration :: s.leftover) s.withoutStaged.slots s.logged := by
  refine InOrder.replace (a := s.keptGeneration) hs h.kept h.leftover fun k hk => ⟨k, ?_, le_refl k⟩
  simp only [Shared.slots, List.mem_append] at hk
  simp only [Shared.slots, Shared.withoutStaged, stagedModel, Option.bind_none, Option.map_none,
    Option.toList_none, List.append_nil, List.mem_append, List.mem_cons]
  obtain hk | hk := hk
  · exact .inr hk
  · refine .inl (.inl ?_)
    obtain ⟨m, hm, rfl⟩ := Option.map_eq_some_iff.1 (Option.mem_toList.1 hk)
    simp [Shared.startGeneration, hm]

/-- An activation keeps the line in order, and what is in place is no older. -/
theorem activates_ordered {r : Shared × Option Processor} (h : Activates E s cfg faults r)
    (hs : s.Ordered (s.keptGeneration :: modelGenerations s.recoveredCommands))
    (hok : r.2.isSome = true → StartsNewest s cfg)
    (hfail : r.2 = none → FailsNewest E s cfg faults) :
    r.1.Ordered ((⟨r.1, r.2⟩ : Plugin).installedGeneration :: (⟨r.1, r.2⟩ : Plugin).ahead) ∧
      s.keptGeneration ≤ (⟨r.1, r.2⟩ : Plugin).installedGeneration := by
  cases h with
  | noConsumer hp => exact ⟨hs, Nat.le_refl _⟩
  | early hp he => exact ⟨recoverRing_ordered hs (hfail rfl).recovered, Nat.le_refl _⟩
  | @adapt restore swap hp hg hl hb hpipe ha =>
    refine ⟨recoverRing_ordered (s := { s with stagedRestore := restore, stagedSwap := swap })
      (hs.of_eq rfl ?_ rfl) (hfail rfl).recovered, Nat.le_refl _⟩
    simp only [Shared.slots, stagedModel_generation ha]
  | @flush restore swap pipe a t hprep hf =>
    obtain ⟨h0, hcov⟩ := (hfail rfl).used hprep.notEarly (by rw [hprep.adapted])
    obtain ⟨hr, hrec, -, -, hd⟩ := published_line E s cfg restore a
    have hu : InOrder (0 :: s.leftover) s.withoutStaged.slots s.logged := by
      have hkeep : InOrder (0 :: s.leftover) s.slots s.logged := h0 ▸ hs
      refine hkeep.reslot (hcov.trans (.of_subset fun k hk => ?_))
      exact List.mem_cons_of_mem 0 hk
    obtain ⟨p, q, hp, rfl, hg, -⟩ := flushPendingModel_fails hf
    have ht : Shared.Ordered (0 :: modelGenerations s.recoveredCommands)
        { s.published E cfg restore a with pendingModel := some q } := by
      have hpub : (s.published E cfg restore a).Ordered (0 :: modelGenerations s.recoveredCommands) :=
        published_ordered hu
      refine hpub.of_eq rfl ?_ rfl
      simp [Shared.slots, hp, hg]
    rw [← hrec] at ht
    have hrep := (hfail rfl).recovered
    rw [← hr, ← hrec] at hrep
    have hkept : (⟨{ s.published E cfg restore a with pendingModel := some q }.rollback
        ⟨true, true, s.pendingRestartOs, none⟩, none⟩ : Plugin).installedGeneration = 0 := by
      simp [Plugin.installedGeneration, Shared.keptGeneration, Shared.rollback, Shared.recoverRing,
        hd]
    rw [hkept, h0]
    exact ⟨recoverRing_ordered ht hrep, Nat.le_refl 0⟩
  | @ok restore swap pipe a t hprep hf =>
    have hst := hok rfl
    obtain ⟨hr, hrec, hslots, -, -⟩ := published_line E s cfg restore a
    have hspec := flushPendingModel_spec (s.published E cfg restore a) fun c => faults (.flush c)
    rw [hf] at hspec
    have ht : t.Ordered (s.startGeneration :: modelGenerations s.recoveredCommands) := by
      refine hspec.ordered (published_ordered (hst.ordered hs)) fun hb m hm => ?_
      rw [hr]
      rw [published_pendingModel] at hm
      exact hst.retained hb m hm
    have hcommands : t.recoveredCommands = s.recoveredCommands :=
      hspec.frame.recoveredCommands.trans hrec
    have hahead : (a.processor E t cfg (s.activateOsFactor E)).carried =
        modelGenerations s.recoveredCommands := by
      simp [Processor.carried, Assembly.processor, hcommands]
    have hin : (a.processor E t cfg (s.activateOsFactor E)).modelGeneration = s.startGeneration :=
      hprep.generation
    refine ⟨?_, ?_⟩
    · simp only [Plugin.installedGeneration, Plugin.ahead, Option.map_some, Option.getD_some, hin,
        hahead]
      exact ht
    · simp only [Plugin.installedGeneration, Option.map_some, Option.getD_some, hin]
      exact hst.kept

end

/-! ## Runs -/

section
variable (E : Engine)

/-- The condition on a step. -/
def KeepsNewest (x : Plugin) : Action → Prop
  | .main a => SendsNewest x.line x.shared a
  | .audio (.slimmable .install) => ∀ p ∈ x.proc, ∀ r ∈ p.slim.deferred,
    r.generation = p.modelGeneration → p.modelL.map StaticModel.asset = some r.model.asset
  | .activate cfg faults =>
    if (x.shared.activate E cfg faults).2.isSome = true then StartsNewest x.shared cfg
    else FailsNewest E x.shared cfg faults
  | .deactivate => ∀ p ∈ x.proc, Covers p.carried
    (p.modelGeneration :: (modelGenerations x.shared.ring ++ x.shared.slots))
  | _ => True

/-- The line is in order, recovered commands are replayed first, and a model that runs or is kept is
the one of its generation. -/
structure NewestInv (x : Plugin) : Prop where
  numbered : Numbered x
  carried : assetCarriage.Holds x
  counts : PluginCounts x.shared x.proc
  order : x.shared.Ordered (x.installedGeneration :: x.ahead)
  replayed : ∀ p, x.proc = some p → x.shared.recoveredCommands = [] ∧
    (p.inCallback = true → p.recoveredCommands = [])
  installed : ∀ p, x.proc = some p → Named x.shared.log p.modelL p.modelGeneration
  kept : ∀ d, x.shared.deactivatedDsp = some d → Named x.shared.log d.modelL d.modelGeneration

variable {E} {x y : Plugin}

theorem Named.logged {s : Shared} {m : Option StaticModel} {g : Nat} (h : Named s.log m g) :
    g = 0 ∨ g ∈ s.logged := by
  obtain ⟨-, h0⟩ | hm := h
  · exact .inl h0
  · exact .inr (List.mem_filterMap.2 ⟨_, hm, rfl⟩)

theorem commands_logged {s : Shared} {cs : List ClapParamPayload}
    (h : ∀ c ∈ cs, assetCarriage.Command s.log c) : ∀ k ∈ modelGenerations cs, k ∈ s.logged := by
  intro k hk
  obtain ⟨c, hc, hcm⟩ := List.mem_filterMap.1 hk
  obtain ⟨m, hm, rfl⟩ := Option.map_eq_some_iff.1 hcm
  exact List.mem_filterMap.2 ⟨_, h c hc m hm, rfl⟩

/-- Whatever is on its way was adopted. -/
theorem NewestInv.grounded (hx : NewestInv x) :
    x.shared.Grounded (x.installedGeneration :: x.ahead) := by
  refine ⟨fun k hk => ?_, fun k hk => (hx.numbered.logged.bounds (List.mem_append_right _ hk)).2⟩
  obtain hk | hk := List.mem_append.1 hk
  · obtain rfl | hk := List.mem_cons.1 hk
    · unfold Plugin.installedGeneration
      cases hp : x.proc with
      | some p => exact (hx.installed p hp).logged
      | none =>
        unfold Shared.keptGeneration
        cases hd : x.shared.deactivatedDsp with
        | none => exact .inl rfl
        | some d => exact (hx.kept d hd).logged
    · refine .inr ?_
      unfold Plugin.ahead at hk
      cases hp : x.proc with
      | none =>
        rw [hp] at hk
        exact commands_logged hx.carried.shared.recovered k hk
      | some p =>
        rw [hp] at hk
        have hc := hx.carried.proc p hp
        obtain hk | hk := List.mem_append.1 hk
        · obtain hk | hk := List.mem_append.1 hk
          · exact commands_logged hc.recovered k hk
          · exact commands_logged (fun c h => hc.deferred c (Option.mem_toList.1 h)) k hk
        · exact commands_logged (fun c h => hc.candidate c (Option.mem_toList.1 h)) k hk
  · exact .inr (commands_logged hx.carried.shared.ring k hk)

theorem newest_main {a : MainAction} (hx : NewestInv x) (hG : KeepsNewest E x (.main a))
    (h : step E x (.main a) = some y) :
    NewestInv y ∧ x.installedGeneration ≤ y.installedGeneration := by
  have hn := numbered_step E hx.numbered h
  have hc := Carriage.holds_step E hx.carried h
  have hcounts := hx.counts.step E h
  obtain rfl := Option.some.inj h
  have hframe := mainStep_frame E x.shared a
  obtain ⟨l, hl⟩ := hframe.log
  have hin : ({ x with shared := mainStep E x.shared a } : Plugin).installedGeneration =
      x.installedGeneration := by
    simp only [Plugin.installedGeneration, Shared.keptGeneration, hframe.deactivatedDsp]
  have hahead : ({ x with shared := mainStep E x.shared a } : Plugin).ahead = x.ahead := by
    simp only [Plugin.ahead, hframe.recoveredCommands]
  refine ⟨⟨hn, hc, hcounts, ?_, fun p hp => ?_, fun p hp => ?_, fun d hd => ?_⟩, hin.ge⟩
  · rw [hin, hahead]
    exact mainStep_ordered E hx.order hx.grounded hG
  · show (mainStep E x.shared a).recoveredCommands = [] ∧ _
    rw [hframe.recoveredCommands]
    exact hx.replayed p hp
  · show Named (mainStep E x.shared a).log _ _
    rw [hl]
    exact (hx.installed p hp).mono
  · show Named (mainStep E x.shared a).log _ _
    rw [hl]
    exact (hx.kept d (hframe.deactivatedDsp ▸ hd)).mono

/-- Recovered commands are replayed before a callback does anything else. -/
theorem audioStep_replayed {s : Shared} {p : Processor} {a : AudioAction} {r : Shared × Processor}
    (hrec : p.inCallback = true → p.recoveredCommands = []) (h : audioStep E s p a = some r)
    (hin : r.2.inCallback = true) : r.2.recoveredCommands = [] := by
  have hmoves := audioStep_moves E h
  cases hp : p.inCallback with
  | true =>
    refine List.eq_nil_iff_forall_not_mem.2 fun c hc => ?_
    have := hmoves.recovered c hc
    rw [hrec hp] at this
    cases this
  | false =>
    by_cases ha : a.isCommand = false
    · have hf := (audioStep_frame E ha h).proc
      rw [hf] at hin
      exact absurd (hp.symm.trans hin) Bool.false_ne_true
    · cases a <;> simp only [AudioAction.isCommand, not_true_eq_false] at ha <;>
        simp only [audioStep, hp] at h
      case beginEvents room =>
        obtain rfl := Option.some.inj h
        have hf := (replayRecovered_frame E { s with ui := (writeGuiEvents s.ui room).ui }
          { p with inCallback := true }).proc
        show (replayRecovered E { s with ui := (writeGuiEvents s.ui room).ui }
          { p with inCallback := true }).2.recoveredCommands = []
        rw [hf]
        rfl
      case drain m => cases h
      case endEvents => cases h

theorem newest_audio {a : AudioAction} (hx : NewestInv x) (hG : KeepsNewest E x (.audio a))
    (h : step E x (.audio a) = some y) :
    NewestInv y ∧ x.installedGeneration ≤ y.installedGeneration := by
  have hn := numbered_step E hx.numbered h
  have hc := Carriage.holds_step E hx.carried h
  have hcounts := hx.counts.step E h
  obtain ⟨p, hp, h⟩ := Option.bind_eq_some_iff.1 h
  obtain ⟨r, hr, rfl⟩ := Option.map_eq_some_iff.1 h
  obtain ⟨l, hl, -⟩ := (audioStep_moves E hr).log
  have hcp : Counts x.shared p := by
    have := hx.counts
    rwa [hp] at this
  have hshared := audioStep_shared E hr
  have hdeact : r.1.deactivatedDsp = x.shared.deactivatedDsp := by
    rw [hshared]
    rfl
  have hrecovered : r.1.recoveredCommands = x.shared.recoveredCommands := by
    rw [hshared]
    rfl
  have hslots : r.1.slots = x.shared.slots := by
    rw [hshared]
    rfl
  have hline := audioStep_line E hcp (hx.replayed p hp).2 hr
  have horder : InOrder (p.modelGeneration :: upcoming x.shared p) x.shared.slots
      x.shared.logged := by
    have := hx.order
    simp only [Shared.Ordered, Plugin.installedGeneration, Plugin.ahead, hp, Option.map_some,
      Option.getD_some] at this
    exact this
  have hnew := horder.advance hline
  refine ⟨⟨hn, hc, hcounts, ?_, fun q hq => ?_, fun q hq => ?_, fun d hd => ?_⟩, ?_⟩
  · show InOrder (r.2.modelGeneration :: upcoming r.1 r.2) r.1.slots r.1.logged
    rw [hslots, audioStep_logged E hr]
    exact hnew
  · obtain rfl := Option.some.inj hq
    exact ⟨hrecovered.trans (hx.replayed p hp).1,
      audioStep_replayed (hx.replayed p hp).2 hr⟩
  · obtain rfl := Option.some.inj hq
    show Named r.1.log _ _
    rw [hl]
    refine Named.mono ?_
    by_cases ha : a = .slimmable .install
    · subst ha
      simp only [audioStep] at hr
      split_ifs at hr
      cases slimmableMove_spec hr with
      | @install q hd hg =>
        have hsame := hG p hp q hd hg
        obtain ⟨h0, -⟩ | hm := hx.installed p hp
        · rw [h0] at hsame
          cases hsame
        · rw [hsame] at hm
          exact .inr hm
    · exact named_audio E (hx.installed p hp) (hx.carried.proc p hp) hr ha
  · show Named r.1.log _ _
    rw [hl]
    exact (hx.kept d (hdeact ▸ hd)).mono
  · show x.installedGeneration ≤ r.2.modelGeneration
    simp only [Plugin.installedGeneration, hp, Option.map_some, Option.getD_some]
    exact horder.head_le (hline.sublist.subset List.mem_cons_self)

theorem newest_activate {cfg : AudioConfig} {faults : ActivateCall → Bool} (hx : NewestInv x)
    (hG : KeepsNewest E x (.activate cfg faults)) (h : step E x (.activate cfg faults) = some y) :
    NewestInv y ∧ x.installedGeneration ≤ y.installedGeneration := by
  have hn := numbered_step E hx.numbered h
  have hc := Carriage.holds_step E hx.carried h
  have hcounts := hx.counts.step E h
  simp only [step] at h
  split_ifs at h with hp
  obtain rfl := Option.some.inj h
  have hp := Option.not_isSome_iff_eq_none.1 hp
  have hspec := activate_spec E x.shared cfg faults
  have hin : x.installedGeneration = x.shared.keptGeneration := by
    simp only [Plugin.installedGeneration, hp, Option.map_none, Option.getD_none]
  have horder := hx.order
  rw [hin] at horder
  simp only [Plugin.ahead, hp, Option.map_none, Option.getD_none] at horder
  simp only [KeepsNewest] at hG
  generalize x.shared.activate E cfg faults = r at hspec hn hc hcounts hG
  have hlog := hspec.log
  obtain ⟨hord, hle⟩ := activates_ordered hspec horder
    (fun hs => by rwa [if_pos hs] at hG)
    (fun hs => by rwa [hs, Option.isSome_none, if_neg Bool.false_ne_true] at hG)
  have hproc : ∀ p, r.2 = some p →
      (r.1.recoveredCommands = [] ∧ (p.inCallback = true → p.recoveredCommands = [])) ∧
        Named x.shared.log p.modelL p.modelGeneration := by
    cases hspec with
    | ok hprep hf =>
      rintro p ⟨⟩
      exact ⟨⟨rfl, fun hin => (by cases hin)⟩, hprep.named E hx.carried.shared hx.kept⟩
    | _ => rintro p ⟨⟩
  refine ⟨⟨hn, hc, hcounts, hord, fun p hp => (hproc p hp).1, fun p hp => ?_, fun d hd => ?_⟩,
    hin ▸ hle⟩
  · show Named r.1.log _ _
    rw [hlog]
    exact (hproc p hp).2
  · show Named r.1.log _ _
    rw [hlog]
    obtain he | he := activates_deactivated E hspec
    · exact hx.kept d (he ▸ hd)
    · rw [he] at hd
      cases hd

theorem deactivate_slots (s : Shared) (p : Processor) : (deactivate s p).slots = s.slots := by
  unfold deactivate
  cases p.deferred <;> rfl

theorem newest_deactivate (hx : NewestInv x) (hG : KeepsNewest E x .deactivate)
    (h : step E x .deactivate = some y) :
    NewestInv y ∧ x.installedGeneration ≤ y.installedGeneration := by
  have hn := numbered_step E hx.numbered h
  have hc := Carriage.holds_step E hx.carried h
  have hcounts := hx.counts.step E h
  simp only [step] at h
  split at h
  · rename_i p hp
    split_ifs at h
    obtain rfl := Option.some.inj h
    obtain ⟨⟨d, hd, hl, hg⟩, hrec, hring, hlog⟩ := deactivate_kept x.shared p
    have hin : x.installedGeneration = p.modelGeneration := by
      simp only [Plugin.installedGeneration, hp, Option.map_some, Option.getD_some]
    have hkept : (⟨deactivate x.shared p, none⟩ : Plugin).installedGeneration =
        p.modelGeneration := by
      simp only [Plugin.installedGeneration, Shared.keptGeneration, hd, Option.map_none,
        Option.map_some, Option.getD_none, Option.getD_some, hg]
    have hahead : (⟨deactivate x.shared p, none⟩ : Plugin).ahead = [] := by
      simp only [Plugin.ahead, Option.map_none, Option.getD_none, hrec, (hx.replayed p hp).1,
        modelGenerations_nil]
    have horder := hx.order
    rw [hin] at horder
    simp only [Plugin.ahead, hp, Option.map_some, Option.getD_some] at horder
    refine ⟨⟨hn, hc, hcounts, ?_, fun q hq => (by cases hq), fun q hq => (by cases hq),
      fun e he => ?_⟩, by rw [hin, hkept]⟩
    · rw [hkept, hahead]
      unfold Shared.Ordered Shared.logged at horder ⊢
      rw [hring, deactivate_slots, hlog]
      refine horder.change (horder.sorted.sublist ?_) (Covers.append ?_ ?_)
      · exact (List.sublist_append_right ..).cons_cons _
      · intro k hk
        -- what the processor carries is dropped
        simp only [List.cons_append, List.mem_cons, List.mem_append] at hk
        obtain rfl | hk | hk := hk
        · exact ⟨_, by simp, le_refl _⟩
        · exact hG p hp k hk
        · exact ⟨k, by simp [hk], le_refl k⟩
      · exact .of_subset (List.subset_append_right ..)
    · obtain rfl := Option.some.inj (hd.symm.trans he)
      show Named (deactivate x.shared p).log _ _
      rw [hlog, hl, hg]
      exact hx.installed p hp
  · cases h

theorem newest_init : NewestInv (.init E.toParamEngine) where
  numbered := numbered_init E
  carried := Carriage.holds_init E
  counts := rfl
  order := ⟨List.pairwise_singleton .., fun _ h => (by cases h)⟩
  replayed _ h := by cases h
  installed _ h := by cases h
  kept _ h := by cases h

/-- A step that keeps the line in order puts no older model in place. -/
theorem newest_step {a : Action} (hx : NewestInv x) (hG : KeepsNewest E x a)
    (h : step E x a = some y) : NewestInv y ∧ x.installedGeneration ≤ y.installedGeneration := by
  cases a with
  | main a => exact newest_main hx hG h
  | audio a => exact newest_audio hx hG h
  | activate cfg faults => exact newest_activate hx hG h
  | deactivate => exact newest_deactivate hx hG h

/-- No command and no model waits anywhere. -/
structure ModelsDrained (s : Shared) (p : Processor) : Prop where
  ring : s.ring = []
  deferred : p.deferred = none
  candidate : p.candidate = none
  replayed : s.recoveredCommands = [] ∧ p.recoveredCommands = []
  pendingModel : s.pendingModel = none
  pendingRestore : s.pendingRestore = none
  staged : s.stagedRestore = none ∧ s.stagedSwap = none
  loader : s.pendingAsyncLoads = [] ∧ s.workerJob = none ∧ s.modelResultSlot = none

/-- The model that runs is the one of its generation, and the newest that was adopted. -/
def RunsNewest (s : Shared) (p : Processor) : Prop :=
  Named s.log p.modelL p.modelGeneration ∧ ∀ g ∈ s.logged, g ≤ p.modelGeneration

theorem NewestInv.runsNewest {p : Processor} (hx : NewestInv x) (hp : x.proc = some p)
    (hd : ModelsDrained x.shared p) : RunsNewest x.shared p := by
  refine ⟨hx.installed p hp, ?_⟩
  have hslots : x.shared.slots = [] := by
    simp only [Shared.slots, hd.pendingModel, hd.pendingRestore, hd.staged.1, hd.staged.2,
      stagedModel, Option.bind_none, Option.map_none, Option.toList_none, List.append_nil]
  have horder := hx.order
  simp only [Shared.Ordered, Plugin.installedGeneration, Plugin.ahead, hp, Option.map_some,
    Option.getD_some, Processor.carried, hd.ring, hd.deferred, hd.candidate, hd.replayed.2, hslots,
    Option.toList_none, modelGenerations_nil, List.append_nil] at horder
  exact horder.arrived

variable (E)

/-- In a run whose steps meet the condition the generation that is installed never decreases, and
once nothing waits the newest model runs. -/
theorem newest_wins {as bs : List Action} {p q : Processor}
    (hx : run (step E) (.init E.toParamEngine) as = some x)
    (hG : Guarded (step E) (KeepsNewest E) (.init E.toParamEngine) as)
    (hy : run (step E) x bs = some y) (hG' : Guarded (step E) (KeepsNewest E) x bs)
    (hp : x.proc = some p) (hq : y.proc = some q) :
    p.modelGeneration ≤ q.modelGeneration ∧
      (ModelsDrained y.shared q → RunsNewest y.shared q) := by
  have hstep : ∀ x a y, NewestInv x → KeepsNewest E x a → step E x a = some y →
      NewestInv y ∧ x.installedGeneration ≤ y.installedGeneration :=
    fun _ _ _ hI hG h => newest_step hI hG h
  have hinv : ∀ x a y, NewestInv x → KeepsNewest E x a → step E x a = some y → NewestInv y :=
    fun x a y hI hG h => (hstep x a y hI hG h).1
  have hIx : NewestInv x := run_invariant hinv newest_init hG hx
  have hle := run_relation (R := fun x y => x.installedGeneration ≤ y.installedGeneration)
    (fun _ => Nat.le_refl _) (fun _ _ _ => Nat.le_trans) hstep hIx hG' hy
  simp only [Plugin.installedGeneration, hp, hq, Option.map_some, Option.getD_some] at hle
  exact ⟨hle, (run_invariant hinv hIx hG' hy).runsNewest hq⟩

end

/-! ## Runs on fixed inputs -/

instance (s : Shared) (cfg : AudioConfig) : Decidable (StartsNewest s cfg) :=
  decidable_of_iff (s.keptGeneration ≤ s.startGeneration ∧
      (∀ k ∈ s.leftover, s.startGeneration ≤ k) ∧ (cfg.maxFrames ≠ 0 → ∀ m ∈ s.pendingModel,
        ∀ k ∈ s.startGeneration :: s.leftover, k ≤ m.generation))
    ⟨fun ⟨h, k, l⟩ => ⟨h, k, l⟩, fun h => ⟨h.kept, h.leftover, h.retained⟩⟩

instance (E : Engine) (s : Shared) (cfg : AudioConfig) (faults : ActivateCall → Bool) :
    Decidable (FailsEarly E s cfg faults) :=
  have : Decidable (buildPipeline s s.deactivatedDsp cfg (s.activateOsFactor E) faults = none) :=
    decidable_of_iff _ Option.isNone_iff_eq_none
  inferInstanceAs (Decidable (_ ∨ _ ∨ _ ∨ _ ∨ _))

instance (E : Engine) (s : Shared) (cfg : AudioConfig) (faults : ActivateCall → Bool) :
    Decidable (FailsNewest E s cfg faults) :=
  decidable_of_iff ((modelGenerations s.recoveredCommands = [] ∨
      modelGenerations (replayable s.ring) = []) ∧
      (¬FailsEarly E s cfg faults → (adaptStaged s cfg faults).1 = true →
        s.keptGeneration = 0 ∧ Covers s.slots (s.leftover ++ s.withoutStaged.slots)))
    ⟨fun ⟨h, k⟩ => ⟨h, k⟩, fun h => ⟨h.recovered, h.used⟩⟩

instance (line : List Nat) (s : Shared) : ∀ a, Decidable (SendsNewest line s a)
  | .pollModelLoaderResult faults => inferInstanceAs (Decidable (∀ r ∈ s.modelResultSlot,
      r.generation ≠ 0 → r.generation = s.dispatchedModelGeneration → ∀ prep ∈ r.outcome,
        s.bufferSize = 0 ∨ (prep.adapt s faults r.generation).isSome = true →
          ∀ k ∈ s.logged, k ≤ r.generation))
  | .flushPendingModel _ => inferInstanceAs (Decidable (s.bufferSize ≠ 0 →
      ∀ m ∈ s.pendingModel, ∀ k ∈ line, k ≤ m.generation))
  | .flushPendingRestore => inferInstanceAs (Decidable (∀ r ∈ s.pendingRestore, ∀ txn ∈ r.txn,
      ∀ m ∈ txn.model, ∀ k ∈ line, k ≤ m.generation))
  | .handlePendingIr _ _ => inferInstanceAs (Decidable (s.paramRx = false → s.bufferSize ≠ 0 →
      Covers s.slots (line ++ ({ s with stagedRestore := none } : Shared).slots)))
  | .restore v mode _ => inferInstanceAs (Decidable (s.bufferSize ≠ 0 → v.model = none →
      mode = .forPreset → Covers s.slots (line ++ s.withoutRestores.slots)))
  | .loadModel .. | .clearModel .. | .acceptModelRequest .. | .dispatchModelLoad
  | .dispatchModelLoadSync .. | .finishModelLoad .. | .clearIr | .flush .. | .flushInFlightParams
  | .handleOversampleRebuild | .snapshotParams | .guiStore .. | .guiAnnounce .. | .setRenderMode ..
  | .pollSlimmable | .publishSlimmable .. | .drainSlimmableRebuild
  | .handleSlimmableRebuildInline .. | .lowerSlimmableFlag => isTrue trivial

instance (E : Engine) (x : Plugin) : ∀ a, Decidable (KeepsNewest E x a)
  | .main a => inferInstanceAs (Decidable (SendsNewest x.line x.shared a))
  | .audio (.slimmable .install) => inferInstanceAs (Decidable (∀ p ∈ x.proc,
      ∀ r ∈ p.slim.deferred, r.generation = p.modelGeneration →
        p.modelL.map StaticModel.asset = some r.model.asset))
  | .activate cfg faults => inferInstanceAs (Decidable (if
      (x.shared.activate E cfg faults).2.isSome = true then StartsNewest x.shared cfg
        else FailsNewest E x.shared cfg faults))
  | .deactivate => inferInstanceAs (Decidable (∀ p ∈ x.proc, Covers p.carried
      (p.modelGeneration :: (modelGenerations x.shared.ring ++ x.shared.slots))))
  | .audio (.slimmable .take) | .audio (.slimmable .discard) | .audio (.beginEvents _)
  | .audio (.drain _) | .audio .endEvents | .audio (.hostEvents _) | .audio (.flushInner ..)
  | .audio (.signalSlimmableRebuild _) | .audio .reset => isTrue trivial

/-- A callback that installs one command. -/
def refInstalled : List Action :=
  [.audio (.beginEvents 0), .audio (.drain .popCandidate), .audio (.drain .installCandidate),
    .audio .endEvents]

/-- The worker is given a file. -/
def refAsked (name : String) : List Action :=
  [.main (.acceptModelRequest ⟨true, [name]⟩ false), .main .dispatchModelLoad]

/-- Its result comes, and is polled. -/
def refArrived (name : String) : List Action :=
  [.main (.finishModelLoad (some (refFile name)) noFaults), .main (.pollModelLoaderResult noFaults)]

def refReplaced (name : String) : List Action :=
  [.main (.loadModel (refFile name) noFaults)] ++ refInstalled

/-- The worker's result comes before the first activation. -/
def refFirst : List Action :=
  refAsked "one.nam" ++ refArrived "one.nam" ++ [refActivate] ++ refInstalled

theorem newest_wins_two : ∃ p q, (refRun refFirst).proc = some p ∧
    (refRun (refFirst ++ refReplaced "two.nam")).proc = some q ∧
    p.modelGeneration ≤ q.modelGeneration ∧
    RunsNewest (refRun (refFirst ++ refReplaced "two.nam")).shared q := by
  have hp := @refProc_eq refFirst (by decide +kernel)
  have hq := @refProc_eq (refFirst ++ refReplaced "two.nam") (by decide +kernel)
  obtain ⟨hle, hnew⟩ := newest_wins refEngine (run_refRun (by decide +kernel)) (by decide +kernel)
    (run_refRun_append (by decide +kernel)) (by decide +kernel) hp hq
  refine ⟨_, _, hp, hq, hle, hnew ?_⟩
  constructor <;> decide +kernel

/-- A model is loaded and installed while the worker is busy with an older request. Its result puts
the older model back. -/
theorem newest_loses :
    ¬∀ (E : Engine) (as bs : List Action) (x y : Plugin) (p q : Processor),
      run (step E) (.init E.toParamEngine) as = some x → run (step E) x bs = some y →
      x.proc = some p → y.proc = some q →
      p.modelGeneration ≤ q.modelGeneration ∧
        (ModelsDrained y.shared q → RunsNewest y.shared q) := by
  intro h
  have hp := @refProc_eq ([refActivate] ++ refAsked "one.nam" ++ refReplaced "two.nam")
    (by decide +kernel)
  have hq := @refProc_eq ([refActivate] ++ refAsked "one.nam" ++ refReplaced "two.nam" ++
    (refArrived "one.nam" ++ refInstalled)) (by decide +kernel)
  have hle := (h refEngine _ _ _ _ _ _ (run_refRun (by decide +kernel))
    (run_refRun_append (by decide +kernel)) hp hq).1
  exact absurd hle (by decide +kernel)

end NamPlug
