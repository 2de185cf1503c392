import NamPlug.Lib.Arrival
import NamPlug.Plugin.Proof.Counts
import NamPlug.Plugin.Proof.Numbering
import NamPlug.Plugin.Proof.Recovered

/-!
# The line of models

`Plugin.line`: the generation of the model that is installed, or kept between two activations, with
those of the models on their way to the audio thread, in the order they come: the commands to be
replayed, the parked command, the candidate of a drain, the ring. `Shared.slots` has those of the
models that are not on their way yet. A step of the audio thread only moves the line on
(`audioStep_line`). An operation of the main thread adds to the end of it and changes the slots, and
keeps both in order on a condition (`SendsNewest`, `mainStep_ordered`).
-/

namespace NamPlug

open Arrival Machine

/-- The generation of the model that a deactivation kept. -/
def Shared.keptGeneration (s : Shared) : Nat := (s.deactivatedDsp.map (·.modelGeneration)).getD 0

/-- The generations of the models that wait for a retry or a restart. -/
def Shared.slots (s : Shared) : List Nat :=
  (s.pendingModel.map (·.generation)).toList ++
    (((s.pendingRestore.bind (·.txn)).bind (·.model)).map (·.generation)).toList ++
    ((stagedModel s.stagedRestore s.stagedSwap).map (·.generation)).toList

/-- The generation that is installed or kept. -/
def Plugin.installedGeneration (x : Plugin) : Nat :=
  (x.proc.map (·.modelGeneration)).getD x.shared.keptGeneration

/-- The generations that come before the ring. -/
def Plugin.ahead (x : Plugin) : List Nat :=
  (x.proc.map Processor.carried).getD (modelGenerations x.shared.recoveredCommands)

def Plugin.line (x : Plugin) : List Nat :=
  x.installedGeneration :: (x.ahead ++ modelGenerations x.shared.ring)

/-! ## The main thread -/

/-- The line is in order, where `l` is the part of it that the main thread leaves alone. -/
def Shared.Ordered (l : List Nat) (s : Shared) : Prop :=
  InOrder (l ++ modelGenerations s.ring) s.slots s.logged

/-- What is on its way was adopted, with a generation from the counter. -/
structure Shared.Grounded (l : List Nat) (s : Shared) : Prop where
  adopted : ∀ k ∈ l ++ modelGenerations s.ring, k = 0 ∨ k ∈ s.logged
  issued : ∀ k ∈ s.logged, k ≤ s.modelGeneration

section
variable {l : List Nat} {s t : Shared}

theorem Shared.Grounded.line_le (h : s.Grounded l) {g : Nat} (hg : ∀ k ∈ s.logged, k ≤ g) :
    ∀ k ∈ l ++ modelGenerations s.ring, k ≤ g := by
  intro k hk
  obtain rfl | hk := h.adopted k hk
  · exact Nat.zero_le g
  · exact hg k hk

theorem Shared.Grounded.le_next (h : s.Grounded l) : ∀ k ∈ s.logged, k ≤ s.modelGeneration + 1 :=
  fun k hk => Nat.le_succ_of_le (h.issued k hk)

/-- An operation that moves no model. -/
theorem Shared.Ordered.of_eq (h : s.Ordered l)
    (hr : modelGenerations t.ring = modelGenerations s.ring) (hs : t.slots = s.slots)
    (hl : t.logged = s.logged) : t.Ordered l := by
  unfold Shared.Ordered
  rw [hr, hs, hl]
  exact h

theorem mem_slots_pendingModel {m : PendingModel} (h : s.pendingModel = some m) :
    m.generation ∈ s.slots := by
  simp [Shared.slots, h]

theorem mem_slots_staged {m : LoadModelPayload}
    (h : stagedModel s.stagedRestore s.stagedSwap = some m) : m.generation ∈ s.slots := by
  simp [Shared.slots, h]

theorem mem_slots_pendingRestore {r : PendingRestore} {txn : RestoreTxn} {m : LoadModelPayload}
    (h : s.pendingRestore = some r) (ht : r.txn = some txn) (hm : txn.model = some m) :
    m.generation ∈ s.slots := by
  simp [Shared.slots, h, ht, hm]

theorem sent_generations (s : Shared) {ps : List ClapParamPayload} (hq : ∀ x ∈ ps, x.Quiet)
    (cs : List ClapParamPayload) : modelGenerations (s.ring ++ (ps ++ cs)) =
      modelGenerations s.ring ++ modelGenerations cs := by
  rw [modelGenerations_append, modelGenerations_append, quiet_generations hq, List.nil_append]

/-- A model that is loaded or cleared is the newest, wherever it goes. -/
theorem Swaps.ordered {m : LoadModelPayload} (h : Swaps s m t) (hs : s.Ordered l)
    (hl : ∀ k ∈ l ++ modelGenerations s.ring, k ≤ m.generation)
    (ha : ∀ k ∈ s.logged, k ≤ m.generation) :
    InOrder (l ++ modelGenerations t.ring) t.slots (m.generation :: t.logged) := by
  cases h with
  | @sent ps hf =>
    have hr : l ++ modelGenerations (s.ring ++ (ps ++ [.loadModel m])) =
        l ++ modelGenerations s.ring ++ [m.generation] := by
      rw [sent_generations s hf.quiet, modelGenerations_loadModel, List.append_assoc]
    show InOrder (l ++ modelGenerations (s.ring ++ (ps ++ [.loadModel m]))) _ _
    rw [hr]
    exact .sendNewest hs.sorted hl ha
  | @retained ps c hf =>
    have hr : modelGenerations (s.ring ++ ps) = modelGenerations s.ring := by
      rw [modelGenerations_append, quiet_generations hf.quiet, List.append_nil]
    show InOrder (l ++ modelGenerations (s.ring ++ ps)) _ _
    rw [hr]
    exact .keepNewest hs.sorted (mem_slots_pendingModel (m := m.toPending) rfl) ha
  | staged => exact .keepNewest hs.sorted (mem_slots_staged (m := m) rfl) ha

theorem Commits.ordered {prep : PreparedModel} {g : Nat} (h : Commits s prep g t)
    (hs : s.Ordered l) (hl : ∀ k ∈ l ++ modelGenerations s.ring, k ≤ g)
    (ha : ∀ k ∈ s.logged, k ≤ g) : t.Ordered l := by
  cases h with
  | inactive hb =>
    exact .keepNewest hs.sorted (mem_slots_pendingModel (m := ⟨g, _, _, _⟩) rfl) ha
  | failed => exact hs
  | swapped hb hg _ ht hm =>
    subst hg
    exact ht.ordered hs hl ha

theorem Clears.ordered (h : Clears s t) (hs : s.Ordered l) (hg : s.Grounded l) : t.Ordered l := by
  have hl := hg.line_le hg.le_next
  cases h with
  | inactive hb =>
    exact .keepNewest hs.sorted (mem_slots_pendingModel (m := ⟨s.modelGeneration + 1, _, _, _⟩) rfl)
      hg.le_next
  | failed hb => exact hs
  | @swapped m u hb hgen _ ht hm =>
    have hc : s.cleared.Ordered l := hs
    have hu := ht.ordered hc (hgen ▸ hl) (hgen ▸ hg.le_next)
    rw [hgen] at hu
    exact hu

theorem FlushesModel.ordered {r : Shared × Bool} (h : FlushesModel s r) (hs : s.Ordered l)
    (hG : s.bufferSize ≠ 0 → ∀ m ∈ s.pendingModel, ∀ k ∈ l ++ modelGenerations s.ring,
      k ≤ m.generation) : r.1.Ordered l := by
  cases h with
  | idle h' => exact hs
  | @failed p q hp hb hg _ hq =>
    refine hs.of_eq rfl ?_ rfl
    simp [Shared.slots, hp, hg]
  | @sent p m ps hp hb hg _ hf hm =>
    have hr : l ++ modelGenerations (s.ring ++ (ps ++ [.loadModel m])) =
        l ++ modelGenerations s.ring ++ [p.generation] := by
      rw [sent_generations s hf.quiet, modelGenerations_loadModel, hg, List.append_assoc]
    show InOrder (l ++ modelGenerations (s.ring ++ (ps ++ [.loadModel m]))) _ _
    rw [hr]
    refine hs.send (hG hb p hp) (.of_subset fun k hk => ?_)
    simp only [Shared.slots, hp, Option.map_some, Option.toList_some, List.mem_append,
      List.mem_singleton] at hk
    simp only [Shared.slots, Shared.sent, Option.map_none, Option.toList_none, List.nil_append,
      List.mem_append, List.mem_singleton]
    tauto
  | @kept p q ps c hp hb hg _ hf hq =>
    refine hs.of_eq ?_ ?_ rfl
    · show modelGenerations (s.ring ++ ps) = _
      rw [modelGenerations_append, quiet_generations hf.quiet, List.append_nil]
    · simp [Shared.slots, Shared.sent, hp, hg]

/-! ### Impulse responses -/

theorem stagedModel_ir (r : Option StagedRestore) (w : Option StagedSwap)
    (ir : Option (Option CabSimPair)) :
    stagedModel r (some { w.getD .empty with ir := ir }) = stagedModel r w := by
  cases r with
  | some r => rfl
  | none => cases w <;> rfl

theorem clearStagedIr_slots (s : Shared) : s.clearStagedIr.slots = s.slots := by
  have hw : stagedModel s.stagedRestore ((s.stagedSwap.map (·.clearIr)).filter (!·.isEmpty)) =
      stagedModel s.stagedRestore s.stagedSwap := by
    cases s.stagedRestore with
    | some r => rfl
    | none =>
      cases s.stagedSwap with
      | none => rfl
      | some w =>
        obtain ⟨model, ir⟩ := w
        cases model <;> rfl
  simp only [Shared.slots, Shared.clearStagedIr, hw]

/-- An impulse response that is loaded gives up the staged restore. -/
theorem LoadsIr.ordered {ir : Asset} (h : LoadsIr s ir t) (hs : s.Ordered l)
    (hG : s.paramRx = false → s.bufferSize ≠ 0 → Covers s.slots
      (l ++ modelGenerations s.ring ++ ({ s with stagedRestore := none } : Shared).slots)) :
    t.Ordered l := by
  have hu : s.paramRx = false → s.bufferSize ≠ 0 → s.unstagedIr.Ordered l := fun hp hb =>
    hs.reslot ((clearStagedIr_slots { s with stagedRestore := none }).symm ▸ hG hp hb)
  cases h with
  | recorded h' => exact hs
  | failed h' hb => exact hs.reslot (hG h' hb)
  | sent h' hb hf hl =>
    exact (hu h' hb).of_eq ((sent_generations s hf.quiet _).trans (List.append_nil _)) rfl rfl
  | kept h' hb hf =>
    refine (hu h' hb).of_eq ?_ rfl rfl
    exact (modelGenerations_append ..).trans
      ((congrArg _ (quiet_generations hf.quiet)).trans (List.append_nil _))
  | staged h' hb =>
    refine Shared.Ordered.of_eq (s := { s with stagedRestore := none }) (hs.reslot (hG h' hb)) rfl
      ?_ rfl
    simp only [Shared.slots, Shared.adoptIr, Shared.note, stagedModel_ir]

theorem clearIr_ordered (hs : s.Ordered l) : s.clearIr.Ordered l := by
  unfold Shared.clearIr
  split
  · exact hs
  · refine hs.of_eq rfl ?_ rfl
    simp only [Shared.slots, Shared.note, stagedModel_ir]

/-! ### Restores -/

theorem noteRestore_ordered {txn : RestoreTxn}
    (h : InOrder (l ++ modelGenerations s.ring) s.slots (txn.generations ++ s.logged)) :
    (s.noteRestore txn).Ordered l := by
  have hr : (s.noteRestore txn).ring = s.ring := by rw [noteRestore_eq]
  have hs : (s.noteRestore txn).slots = s.slots := by rw [noteRestore_eq]; rfl
  unfold Shared.Ordered
  rw [hr, hs, noteRestore_logged]
  exact h

/-- What waits if the staged items and the retained restore are given up. -/
def Shared.withoutRestores (s : Shared) : Shared :=
  { s with stagedRestore := none, stagedSwap := none, pendingRestore := none }

theorem Packaged.noModel {u : Shared} {v : ValidatedRestore} {mode : RestoreMode}
    {publish : RestorePublish} {txn : RestoreTxn} (h : Packaged s v mode u publish txn)
    (hm : txn.model = none) : v.model = none ∧ mode = .forPreset := by
  have := h.model
  rw [hm] at this
  cases hv : v.model <;> cases mode <;> simp [hv] at this
  exact ⟨rfl, rfl⟩

/-- A restore with a model is the newest, wherever it goes. One without gives up what waits. -/
theorem Restores.ordered {v : ValidatedRestore} {mode : RestoreMode} (h : Restores s v mode t)
    (hs : s.Ordered l) (hg : s.Grounded l)
    (hG : v.model = none → mode = .forPreset →
      Covers s.slots (l ++ modelGenerations s.ring ++ s.withoutRestores.slots)) :
    t.Ordered l := by
  have hnext := hg.le_next
  have hline := hg.line_le hnext
  cases h with
  | failed => exact hs
  | @staged u publish txn o hp =>
    refine noteRestore_ordered ?_
    obtain rfl := hp.state
    cases hm : txn.model with
    | none =>
      simp only [RestoreTxn.generations, hm, Option.map_none, Option.toList_none, List.nil_append]
      obtain ⟨hv, hmode⟩ := hp.noModel hm
      refine hs.reslot ((hG hv hmode).trans (.of_subset fun k hk => ?_))
      simp only [Shared.slots, Shared.withoutRestores, stagedModel, Option.bind_none,
        Option.map_none, Option.toList_none, List.append_nil, List.mem_append] at hk ⊢
      tauto
    | some m =>
      simp only [RestoreTxn.generations, hm, Option.map_some, Option.toList_some,
        List.singleton_append, hp.modelGeneration m hm]
      exact .keepNewest hs.sorted (hp.modelGeneration m hm ▸ mem_slots_staged hm) hnext
  | @sent u publish txn ps hp hf =>
    refine noteRestore_ordered ?_
    obtain rfl := hp.state
    have hr := sent_generations s hf.quiet [.restoreTxn txn]
    show InOrder (l ++ modelGenerations (s.ring ++ (ps ++ [.restoreTxn txn]))) _ _
    rw [hr, modelGenerations_restoreTxn]
    cases hm : txn.model with
    | none =>
      simp only [RestoreTxn.generations, hm, Option.map_none, Option.toList_none, List.nil_append,
        List.append_nil]
      obtain ⟨hv, hmode⟩ := hp.noModel hm
      exact hs.reslot (hG hv hmode)
    | some m =>
      simp only [RestoreTxn.generations, hm, Option.map_some, Option.toList_some,
        List.singleton_append, hp.modelGeneration m hm, ← List.append_assoc]
      exact .sendNewest hs.sorted hline hnext
  | @kept u publish txn ps c hp hf =>
    refine noteRestore_ordered ?_
    obtain rfl := hp.state
    have hr := sent_generations s hf.quiet []
    rw [List.append_nil, modelGenerations_nil, List.append_nil] at hr
    show InOrder (l ++ modelGenerations (s.ring ++ ps)) _ _
    rw [hr]
    cases hm : txn.model with
    | none =>
      simp only [RestoreTxn.generations, hm, Option.map_none, Option.toList_none, List.nil_append]
      obtain ⟨hv, hmode⟩ := hp.noModel hm
      refine hs.reslot ((hG hv hmode).trans (.of_subset fun k hk => ?_))
      simp only [Shared.slots, Shared.withoutRestores, List.mem_append] at hk ⊢
      tauto
    | some m =>
      simp only [RestoreTxn.generations, hm, Option.map_some, Option.toList_some,
        List.singleton_append, hp.modelGeneration m hm]
      refine .keepNewest hs.sorted ?_ hnext
      exact hp.modelGeneration m hm ▸ mem_slots_pendingRestore rfl rfl hm

/-- What is published was sent before. -/
theorem publishIfAcked_ordered (hs : s.Ordered l)
    (hp : ∀ r, s.pendingRestore = some r → r.txn = none) : s.publishIfAcked.Ordered l := by
  obtain h | ⟨r, hr, -, -, h⟩ := publishIfAcked_cases s <;> rw [h]
  · exact hs
  · rw [acknowledged_eq]
    refine hs.of_eq rfl ?_ rfl
    simp only [Shared.slots, hr, Option.bind_some, hp r hr, Option.bind_none]

theorem FlushesRestore.ordered (h : FlushesRestore s t) (hs : s.Ordered l)
    (hG : ∀ r ∈ s.pendingRestore, ∀ txn ∈ r.txn, ∀ m ∈ txn.model,
      ∀ k ∈ l ++ modelGenerations s.ring, k ≤ m.generation) : t.Ordered l := by
  cases h with
  | idle h' => exact hs
  | @waiting r hr ht =>
    refine publishIfAcked_ordered hs fun q hq => ?_
    obtain rfl := Option.some.inj (hr.symm.trans hq)
    exact ht
  | @sent r txn ps hr ht hf =>
    refine publishIfAcked_ordered ?_ fun q hq => by
      obtain rfl := Option.some.inj hq
      rfl
    show InOrder (l ++ modelGenerations (s.ring ++ (ps ++ [.restoreTxn txn]))) _ _
    rw [sent_generations s hf.quiet, modelGenerations_restoreTxn]
    have hslots : s.slots ⊆ (txn.model.map (·.generation)).toList ++ { s.sent
        (ps ++ [ClapParamPayload.restoreTxn txn]) none with pendingRestore := some { r with
          txn := none, seq := s.cmdNextSeq + (ps.length + 1) } }.slots := by
      intro k hk
      simp only [Shared.slots, hr, ht, Option.bind_some, List.mem_append] at hk
      simp only [Shared.slots, Shared.sent, Option.bind_some, Option.bind_none, Option.map_none,
        Option.toList_none, List.append_nil, List.mem_append]
      tauto
    cases hm : txn.model with
    | none =>
      rw [hm] at hslots
      rw [Option.map_none, Option.toList_none, List.append_nil]
      exact hs.reslot (.of_subset fun k hk => List.mem_append_right _ (hslots hk))
    | some m =>
      rw [hm] at hslots
      rw [Option.map_some, Option.toList_some, ← List.append_assoc]
      refine hs.send (hG r hr txn ht m hm) (.of_subset fun k hk => ?_)
      rw [List.append_assoc]
      exact List.mem_append_right _ (hslots hk)
  | @kept r txn ps c hr ht hf =>
    refine hs.of_eq ?_ rfl rfl
    exact (modelGenerations_append ..).trans
      ((congrArg _ (quiet_generations hf.quiet)).trans (List.append_nil _))

theorem localCommit_ordered (hs : s.Ordered l) (hg : s.Grounded l) (v : ValidatedRestore)
    (mode : RestoreMode) : (s.localCommit v mode).Ordered l := by
  have hm : (s.localModel v mode).Ordered l := by
    unfold Shared.localModel
    split
    · exact .keepNewest hs.sorted
        (mem_slots_pendingModel (m := ⟨s.modelGeneration + 1, _, _, _⟩) rfl) hg.le_next
    · exact .keepNewest hs.sorted
        (mem_slots_pendingModel (m := ⟨s.modelGeneration + 1, _, _, _⟩) rfl) hg.le_next
    · exact hs
  have hi : ((s.localModel v mode).localIr v mode).Ordered l := by
    unfold Shared.localIr
    split
    · refine hm.of_eq rfl ?_ rfl
      simp only [Shared.slots, Shared.note, stagedModel_ir]
    · refine hm.of_eq rfl ?_ rfl
      simp only [Shared.slots, Shared.note, stagedModel_ir]
    · exact hm
  exact hi

/-! ### Steps -/

theorem Quiet.ordered (h : Quiet s t) (hs : s.Ordered l) : t.Ordered l := by
  obtain ⟨ps, hr, -, hq⟩ := h.sent
  obtain ⟨es, hl, he⟩ := h.log
  refine hs.of_eq ?_ ?_ ?_
  · rw [hr, modelGenerations_append, quiet_generations hq, List.append_nil]
  · simp only [Shared.slots, h.pendingModel, h.pendingRestore, h.stagedRestore, h.stagedSwap]
  · have hnone : es.filterMap Event.modelGeneration? = [] := by
      refine List.filterMap_eq_nil_iff.2 fun e hm => ?_
      obtain ⟨p, raw, rfl⟩ := he e hm
      rfl
    unfold Shared.logged
    rw [hl, List.filterMap_append, hnone, List.nil_append]

/-- The condition on an operation of the main thread. A result of the loader is adopted only if no
newer model was; a retained model or restore is flushed behind older ones only; an IR load and a
restore without a model give up no model that is newer than all others. -/
def SendsNewest (line : List Nat) (s : Shared) : MainAction → Prop
  | .pollModelLoaderResult faults => ∀ r ∈ s.modelResultSlot, r.generation ≠ 0 →
    r.generation = s.dispatchedModelGeneration → ∀ prep ∈ r.outcome,
      s.bufferSize = 0 ∨ (prep.adapt s faults r.generation).isSome = true →
        ∀ k ∈ s.logged, k ≤ r.generation
  | .flushPendingModel _ => s.bufferSize ≠ 0 → ∀ m ∈ s.pendingModel, ∀ k ∈ line, k ≤ m.generation
  | .flushPendingRestore => ∀ r ∈ s.pendingRestore, ∀ txn ∈ r.txn, ∀ m ∈ txn.model,
    ∀ k ∈ line, k ≤ m.generation
  | .handlePendingIr _ _ => s.paramRx = false → s.bufferSize ≠ 0 →
    Covers s.slots (line ++ ({ s with stagedRestore := none } : Shared).slots)
  | .restore v mode _ => s.bufferSize ≠ 0 → v.model = none → mode = .forPreset →
    Covers s.slots (line ++ s.withoutRestores.slots)
  | _ => True

section
variable (E : Engine)

theorem loadModel_ordered (hs : s.Ordered l) (hg : s.Grounded l) (file : ModelFile)
    (faults : EngineCall → Bool) : (s.loadModel E file faults).Ordered l := by
  obtain hl | ⟨prep, hc, -⟩ := loadModel_spec E s file faults
  · rw [hl]
    exact hs
  · have ha : s.allocateModelGeneration.Ordered l := hs
    exact hc.ordered ha (hg.line_le hg.le_next) hg.le_next

theorem commitPreparedModel_failed {prep : PreparedModel} {faults : EngineCall → Bool} {g : Nat}
    (hb : s.bufferSize ≠ 0) (ha : prep.adapt s faults g = none) :
    s.commitPreparedModel E prep g faults = s := by
  unfold Shared.commitPreparedModel
  rw [if_neg hb, ha]

theorem pollModelLoaderResult_ordered (hs : s.Ordered l) (hg : s.Grounded l)
    {faults : EngineCall → Bool}
    (hG : SendsNewest (l ++ modelGenerations s.ring) s (.pollModelLoaderResult faults)) :
    (s.pollModelLoaderResult E faults).Ordered l := by
  unfold Shared.pollModelLoaderResult
  split
  · exact hs
  · rename_i r hr
    dsimp only
    split_ifs with hstale
    · exact hs
    · obtain ⟨h0, hgen⟩ := not_or.1 hstale
      split
      · rename_i prep ho
        by_cases ha : s.bufferSize = 0 ∨ (prep.adapt s faults r.generation).isSome = true
        · have hle := hG r hr h0 (not_not.1 hgen) prep ho ha
          refine Commits.ordered (commitPreparedModel_spec E _ prep r.generation faults) ?_
            (hg.line_le hle) hle
          exact hs
        · -- a model that cannot be rebuilt is not adopted
          obtain ⟨hb, ha⟩ := not_or.1 ha
          rw [commitPreparedModel_failed E (s := { s with
            modelResultSlot := none
            dispatchedModelGeneration := 0
            dispatchedModelIsGui := false }) hb (Option.not_isSome_iff_eq_none.1 ha)]
          exact hs
      · exact hs

/-- An operation of the main thread keeps the order. -/
theorem mainStep_ordered (hs : s.Ordered l) (hg : s.Grounded l) {a : MainAction}
    (hG : SendsNewest (l ++ modelGenerations s.ring) s a) : (mainStep E s a).Ordered l := by
  by_cases hq : a.isQuiet = true
  · exact (mainStep_quiet E s hq).ordered hs
  cases a with
  | loadModel file faults => exact loadModel_ordered E hs hg file faults
  | clearModel faults => exact (clearModel_spec E s faults).ordered hs hg
  | dispatchModelLoadSync file faults =>
    show (s.dispatchModelLoadSync E file faults).Ordered l
    obtain ⟨jobs, hd⟩ | ⟨jobs, f, hd⟩ := dispatchModelLoadSync_spec E s file faults <;> rw [hd]
    · exact hs
    · exact loadModel_ordered (s := { s with pendingAsyncLoads := jobs }) E hs ⟨hg.1, hg.2⟩ f faults
  | pollModelLoaderResult faults => exact pollModelLoaderResult_ordered E hs hg hG
  | flushPendingModel faults => exact (flushPendingModel_spec s faults).ordered hs hG
  | handlePendingIr ir faults =>
    exact LoadsIr.ordered (s := { s with uiPendingIr := none }) (loadCabsim_spec _ ir faults) hs hG
  | clearIr => exact clearIr_ordered hs
  | restore v mode faults =>
    show (s.commitRestore E v mode faults).Ordered l
    unfold Shared.commitRestore
    split
    · exact localCommit_ordered hs hg v mode
    · exact (atomicCommit_spec E s v mode faults).ordered hs hg (hG ‹_›)
  | flushPendingRestore => exact (flushPendingRestore_spec s).ordered hs hG
  | _ => exact absurd rfl hq

end

end

/-! ## The audio thread -/

section
variable (E : Engine)

/-- What comes to the audio thread, in order. -/
def upcoming (s : Shared) (p : Processor) : List Nat := p.carried ++ modelGenerations s.ring

theorem AudioFrame.upcoming {r r' : Shared × Processor} (h : AudioFrame r r') :
    upcoming r'.1 r'.2 = NamPlug.upcoming r.1 r.2 := by
  rw [h.shared, h.proc]
  rfl

/-- Commands leave the model of the last one that has one. -/
theorem foldl_generation (h : Nat) (cs : List ClapParamPayload) (c : Chain) :
    ((cs.map ChainOp.command).foldl (Chain.apply E h) c).modelGeneration =
      (modelGenerations cs).getLastD c.modelGeneration := by
  induction cs generalizing c with
  | nil => rfl
  | cons d cs ih =>
    rw [List.map_cons, List.foldl_cons, ih, modelGenerations_cons]
    show (modelGenerations cs).getLastD (c.install E h d).modelGeneration = _
    obtain ⟨m, hm, -, -, hg, -⟩ | ⟨hm, -, -, hg, -⟩ := c.install_model E h d
    · have hd : modelGenerations [d] = [m.generation] := by simp [modelGenerations, hm]
      rw [hg, hd, List.singleton_append, List.getLastD_cons]
    · have hd : modelGenerations [d] = [] := by simp [modelGenerations, hm]
      rw [hg, hd, List.nil_append]

/-- The generation that is installed after a step is the last one the step installs. -/
theorem audioStep_generation {s : Shared} {p : Processor} {a : AudioAction}
    {r : Shared × Processor} (h : audioStep E s p a = some r) :
    r.2.modelGeneration = (installing p a).getLastD p.modelGeneration := by
  have hc : r.2.modelGeneration = ((audioOps p a).foldl (Chain.apply E s.sampleRate)
      (p.chain s)).modelGeneration := congrArg Chain.modelGeneration (audioStep_chain E h)
  rw [hc]
  have hone : ∀ o : Option ClapParamPayload,
      (((o.map ChainOp.command).toList).foldl (Chain.apply E s.sampleRate)
        (p.chain s)).modelGeneration = (modelGenerations o.toList).getLastD p.modelGeneration := by
    intro o
    have := foldl_generation E s.sampleRate o.toList (p.chain s)
    cases o <;> exact this
  cases a with
  | beginEvents room => exact foldl_generation E s.sampleRate p.recoveredCommands (p.chain s)
  | drain m =>
    cases m with
    | installDeferred => exact hone p.deferred
    | installCandidate => exact hone p.candidate
    | _ => rfl
  | slimmable m =>
    cases m with
    | install =>
      simp only [audioOps]
      cases p.slim.deferred <;> rfl
    | _ => rfl
  | _ => rfl

/-- A command that is superseded is overtaken by the one behind it. -/
theorem supersedes_advances {c d : ClapParamPayload} (h : c.supersedes d = true)
    (rest : List ClapParamPayload) : Advances
      (modelGenerations [d] ++ modelGenerations (c :: rest)) (modelGenerations (c :: rest)) := by
  have hsome := (supersedes_spec h).1
  rw [modelGenerations_cons c rest]
  cases hd : d.model? with
  | none =>
    have : modelGenerations [d] = [] := by simp [modelGenerations, hd]
    rw [this, List.nil_append]
    exact .refl _
  | some m =>
    rw [hd, Option.isSome_some] at hsome
    obtain ⟨n, hn⟩ := Option.isSome_iff_exists.1 hsome
    have h1 : modelGenerations [d] = [m.generation] := by simp [modelGenerations, hd]
    have h2 : modelGenerations [c] = [n.generation] := by simp [modelGenerations, hn]
    rw [h1, h2]
    exact .arrive ..

theorem endDrain_upcoming {s : Shared} {p : Processor} (hc : Counts s p) :
    upcoming (endDrain s p).1 (endDrain s p).2 = upcoming s p := by
  unfold endDrain
  cases hcand : p.candidate with
  | none => rfl
  | some c =>
    have hd := hc.noDeferred hcand
    simp only [upcoming, Processor.carried, hcand, hd, Option.toList_none, modelGenerations_nil,
      List.append_nil]

/-- What a step of the audio thread installs comes first, and what it discards is
overtaken. -/
theorem audioStep_upcoming {s : Shared} {p : Processor} {a : AudioAction} {r : Shared × Processor}
    (hc : Counts s p) (hrec : p.inCallback = true → p.recoveredCommands = [])
    (h : audioStep E s p a = some r) :
    Advances (upcoming s p) (installing p a ++ upcoming r.1 r.2) := by
  have hframe : installing p a = [] → AudioFrame (s, p) r →
      Advances (upcoming s p) (installing p a ++ upcoming r.1 r.2) := by
    intro hi hf
    rw [hi, List.nil_append, hf.upcoming]
    exact .refl _
  by_cases ha : a.isCommand = false
  · refine hframe ?_ (audioStep_frame E ha h)
    cases a <;> first | rfl | cases ha
  cases a <;> simp only [AudioAction.isCommand, not_true_eq_false] at ha <;>
    simp only [audioStep] at h
  case beginEvents room =>
    split_ifs at h
    obtain rfl := Option.some.inj h
    have hf := (replayRecovered_frame E { s with ui := (writeGuiEvents s.ui room).ui }
      { p with inCallback := true }).upcoming
    show Advances _ (_ ++ upcoming (beginEvents E s p room).1 (beginEvents E s p room).2)
    unfold beginEvents
    rw [hf]
    simp only [upcoming, Processor.carried, installing, modelGenerations_nil, List.nil_append,
      List.append_assoc]
    exact .refl _
  case drain m =>
    split_ifs at h with hin
    have hrec := hrec hin
    have hinstall : ∀ (t : Shared) (q : Processor) (c : ClapParamPayload),
        upcoming (install E t q c).1 (install E t q c).2 = upcoming t q := fun t q c =>
      (applyStructural_frame E t { q with resolved := q.resolved + 1 } c).upcoming
    cases drainMove_spec E h with
    | @installDeferred d hd =>
      rw [hinstall]
      simp only [upcoming, Processor.carried, Processor.unpark, installing, hd, hrec,
        hc.noCandidate hd, Option.toList_none, modelGenerations_nil, List.nil_append,
        List.append_nil]
      exact .refl _
    | @discardDeferred d c rest hd hr hs =>
      simp only [upcoming, Processor.carried, discard, Processor.unpark, installing, hd, hrec, hr,
        hc.noCandidate hd, Option.toList_none, Option.toList_some, modelGenerations_nil,
        List.nil_append, List.append_nil]
      exact supersedes_advances hs rest
    | @applyParams q rest hd hr =>
      rw [hinstall]
      simp only [upcoming, Processor.carried, Processor.pop, Shared.popped, installing, hr,
        modelGenerations_cons (.params q) rest, modelGenerations_params, List.nil_append]
      exact .refl _
    | @popCandidate c rest hd hcand hr hs =>
      simp only [upcoming, Processor.carried, Processor.pop, Shared.popped, installing, hr, hcand,
        modelGenerations_cons c rest, Option.toList_some, Option.toList_none, modelGenerations_nil,
        List.nil_append, List.append_nil, List.append_assoc]
      exact .refl _
    | @supersede c d rest hd hcand hr hs =>
      simp only [upcoming, Processor.carried, discard, Processor.pop, Shared.popped, installing, hr,
        hcand, hd, hrec, Option.toList_some, Option.toList_none, modelGenerations_nil,
        List.nil_append]
      rw [← modelGenerations_cons d rest]
      exact supersedes_advances hs rest
    | @installCandidate c hd hcand =>
      rw [hinstall]
      simp only [upcoming, Processor.carried, installing, hcand, hd, hrec, Option.toList_none,
        modelGenerations_nil, List.nil_append]
      exact .refl _
  case endEvents =>
    split_ifs at h
    obtain rfl := Option.some.inj h
    obtain ⟨r, hf, he⟩ := endEvents_frame E s p
    have hr : upcoming r.1 { r.2 with inCallback := false } =
        upcoming (endDrain s p).1 (endDrain s p).2 := hf.upcoming
    rw [he]
    simp only [installing, List.nil_append]
    rw [hr, endDrain_upcoming hc]
    exact .refl _

/-- A step of the audio thread moves the line on. -/
theorem audioStep_line {s : Shared} {p : Processor} {a : AudioAction} {r : Shared × Processor}
    (hc : Counts s p) (hrec : p.inCallback = true → p.recoveredCommands = [])
    (h : audioStep E s p a = some r) :
    Advances (p.modelGeneration :: upcoming s p) (r.2.modelGeneration :: upcoming r.1 r.2) := by
  have hq := (audioStep_upcoming E hc hrec h).append_left [p.modelGeneration]
  have hi := (Advances.arrivals p.modelGeneration (installing p a)).append_right (upcoming r.1 r.2)
  rw [← audioStep_generation E h] at hi
  exact hq.trans hi

end

end NamPlug
