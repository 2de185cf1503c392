import NamPlug.Plugin.Proof.Carried

/-!
# Generations over a run

`Numbered`: in every state of a run a generation waits at most once, is carried at most once, and
was adopted at most once, and none of these for a generation that was not handed out yet. So a
generation names one model (`Numbered.unique`), and a model that was installed does not come again
(`Ticket.Spent`).
-/

namespace NamPlug

open Ticket Machine

/-- An operation of the main thread that hands out no generation adds `c` to what is carried and `l`
to what was adopted. -/
structure Adds (s t : Shared) (c l : List Nat) : Prop where
  waiting : t.waiting = s.waiting
  modelGeneration : t.modelGeneration = s.modelGeneration
  carried : ∀ g, t.carried.count g ≤ s.carried.count g + c.count g
  logged : ∀ g, t.logged.count g ≤ s.logged.count g + l.count g

theorem Adds.refl (s : Shared) : Adds s s [] [] := ⟨rfl, rfl, fun _ => by simp, fun _ => by simp⟩

/-- Carried models go from one place to another or are dropped. -/
theorem Adds.of_carried {s t : Shared} {c : List Nat} (hw : t.waiting = s.waiting)
    (hm : t.modelGeneration = s.modelGeneration) (hl : t.logged = s.logged)
    (hc : ∀ g, t.carried.count g ≤ s.carried.count g + c.count g) : Adds s t c [] :=
  ⟨hw, hm, hc, fun g => by simp [hl]⟩

theorem Adds.trans {s t u : Shared} {c l c' l' : List Nat} (h : Adds s t c l)
    (k : Adds t u c' l') : Adds s u (c ++ c') (l ++ l') where
  waiting := k.waiting.trans h.waiting
  modelGeneration := k.modelGeneration.trans h.modelGeneration
  carried g := by
    have h1 := h.carried g
    have h2 := k.carried g
    rw [List.count_append]
    omega
  logged g := by
    have h1 := h.logged g
    have h2 := k.logged g
    rw [List.count_append]
    omega

/-- Two operations that add nothing. -/
theorem Adds.keeps {s t u : Shared} (h : Adds s t [] []) (k : Adds t u [] []) : Adds s u [] [] :=
  h.trans k

/-- What an operation of the main thread does to the generations. -/
def Shared.Renumbered (s t : Shared) : Prop :=
  Renumbers s.modelGeneration s.waiting s.carried s.logged t.modelGeneration t.waiting t.carried
    t.logged

theorem Adds.renumbers {s t : Shared} (h : Adds s t [] []) : s.Renumbered t := by
  unfold Shared.Renumbered
  rw [h.waiting, h.modelGeneration]
  constructor <;> refine .of_le fun g => ?_
  · have := h.carried g
    simp only [List.count_append, List.count_nil] at *
    omega
  · have := h.logged g
    simp only [List.count_append, List.count_nil] at *
    omega

/-- A model is adopted with the next generation. -/
theorem Adds.renumbers_next {s t : Shared} {c l : List Nat}
    (h : Adds s.allocateModelGeneration t c l)
    (hc : ∀ g, c.count g ≤ [s.modelGeneration + 1].count g)
    (hl : ∀ g, l.count g ≤ [s.modelGeneration + 1].count g) : s.Renumbered t := by
  have hw : t.waiting = s.waiting := h.waiting
  have hm : t.modelGeneration = s.modelGeneration + 1 := h.modelGeneration
  unfold Shared.Renumbered
  rw [hw, hm]
  constructor <;> refine .succ fun g => ?_
  · have h1 : t.carried.count g ≤ s.carried.count g + c.count g := h.carried g
    have h2 := hc g
    simp only [List.count_append]
    omega
  · have h1 : t.logged.count g ≤ s.logged.count g + l.count g := h.logged g
    have h2 := hl g
    simp only [List.count_append]
    omega

/-! ## Loads and clears -/

theorem unstaged_carried (s : Shared) (g : Nat) : s.unstaged.carried.count g ≤
    (modelGenerations s.ring ++ modelGenerations s.recoveredCommands ++
      (s.pendingModel.map (·.generation)).toList ++
      (((s.pendingRestore.bind (·.txn)).bind (·.model)).map (·.generation)).toList).count g := by
  have hswap : ((s.stagedSwap.map (·.clearModel)).filter (!·.isEmpty)).bind (·.model) = none := by
    cases s.stagedSwap with
    | none => rfl
    | some w =>
      rw [Option.map_some, Option.filter_some]
      split <;> rfl
  simp [Shared.carried, Shared.unstaged, Shared.clearStagedModel, hswap]

theorem Flushed.generations {s : Shared} {ps : List ClapParamPayload}
    {c : Option RtProcessingParams} (h : Flushed s ps c) : modelGenerations ps = [] :=
  quiet_generations h.quiet

theorem Swaps.adds {s t : Shared} {m : LoadModelPayload} (h : Swaps s m t) :
    Adds s t [m.generation] [] := by
  cases h with
  | @sent ps hf =>
    refine .of_carried rfl rfl rfl fun g => ?_
    have := unstaged_carried s g
    simp only [Shared.carried, Shared.sent, modelGenerations_append, hf.generations,
      modelGenerations_loadModel, List.nil_append, List.count_append] at this ⊢
    omega
  | @retained ps c hf =>
    refine .of_carried rfl rfl rfl fun g => ?_
    have := unstaged_carried s g
    simp only [Shared.carried, Shared.sent, modelGenerations_append, hf.generations,
      List.append_nil, List.count_append, Option.map_some, Option.toList_some,
      LoadModelPayload.toPending] at this ⊢
    omega
  | staged =>
    refine .of_carried rfl rfl rfl fun g => ?_
    simp only [Shared.carried, List.count_append, Option.bind_some, Option.map_some,
      Option.toList_some, Option.bind_none, Option.map_none, Option.toList_none, List.count_nil]
    omega

theorem Commits.adds {s t : Shared} {prep : PreparedModel} {g : Nat} (h : Commits s prep g t) :
    ∃ c l, Adds s t c l ∧ (∀ k, c.count k ≤ [g].count k) ∧ ∀ k, l.count k ≤ [g].count k := by
  cases h with
  | inactive hb =>
    refine ⟨[g], [g], ⟨rfl, rfl, fun k => ?_, fun k => ?_⟩, fun k => Nat.le_refl _,
      fun k => Nat.le_refl _⟩
    · simp only [Shared.carried, Shared.note, Shared.publishModelIdentity, List.count_append,
        Option.map_some, Option.toList_some]
      omega
    · show (g :: s.logged).count k ≤ _
      rw [List.count_cons, List.count_singleton]
  | failed => exact ⟨[], [], .refl s, fun k => by simp, fun k => by simp⟩
  | @swapped m u faults hb hg ha ht hm =>
    have hu := ht.adds
    refine ⟨[g], [g], ⟨hu.waiting, hu.modelGeneration, ?_, fun k => ?_⟩, fun k => Nat.le_refl _,
      fun k => Nat.le_refl _⟩
    · rw [← hg]
      exact hu.carried
    · have := hu.logged k
      show (g :: u.logged).count k ≤ _
      rw [List.count_cons, List.count_singleton]
      rw [List.count_nil] at this
      omega

theorem Clears.renumbered {s t : Shared} (h : Clears s t) : s.Renumbered t := by
  have hlog : ∀ (u : Shared) (g k : Nat),
      (u.note (.model g none)).logged.count k = u.logged.count k + [g].count k := by
    intro u g k
    show (g :: u.logged).count k = _
    rw [List.count_cons, List.count_singleton]
  cases h with
  | inactive hb =>
    refine Adds.renumbers_next (c := [s.modelGeneration + 1]) (l := [s.modelGeneration + 1])
      ⟨rfl, rfl, fun k => ?_, fun k => ?_⟩ (fun k => Nat.le_refl _) fun k => Nat.le_refl _
    · simp only [Shared.carried, Shared.note, Shared.cleared, Shared.allocateModelGeneration,
        List.count_append, Option.map_some, Option.toList_some]
      omega
    · rw [hlog]
      exact Nat.le_refl _
  | failed hb =>
    exact Adds.renumbers_next (c := []) (l := [])
      ⟨rfl, rfl, fun k => Nat.le_refl _, fun k => Nat.le_refl _⟩ (fun k => by simp)
      fun k => by simp
  | @swapped m t hb hg ha ht hm =>
    have hu := ht.adds
    refine Adds.renumbers_next (c := [s.modelGeneration + 1]) (l := [s.modelGeneration + 1])
      ⟨hu.waiting, hu.modelGeneration, ?_, fun k => ?_⟩ (fun k => Nat.le_refl _)
      fun k => Nat.le_refl _
    · rw [← hg]
      exact hu.carried
    · have : t.logged.count k ≤ s.logged.count k + [].count k := hu.logged k
      rw [hlog]
      show _ ≤ s.logged.count k + _
      rw [List.count_nil] at this
      omega

theorem Polls.renumbered {s t : Shared} (h : Polls s t) : s.Renumbered t := by
  cases h with
  | idle h => exact .refl ..
  | dropped =>
    refine .waiting_le fun g => ?_
    simp only [Shared.waiting, Option.map_none, Option.toList_none, List.append_nil,
      List.count_append]
    omega
  | @commits r prep t hr hg h0 ho ht =>
    -- the generation of the result was waiting, and is carried and adopted now
    obtain ⟨c, l, ha, hc, hl⟩ := ht.adds
    have hw : ∀ k, s.waiting.count k = t.waiting.count k + [r.generation].count k := by
      intro k
      rw [ha.waiting]
      simp only [Shared.waiting, hr, Option.map_some, Option.map_none, Option.toList_some,
        Option.toList_none, List.append_nil, List.count_append]
    have hm : t.modelGeneration = s.modelGeneration := ha.modelGeneration
    unfold Shared.Renumbered
    rw [hm]
    constructor <;> refine .of_le fun k => ?_
    · have h1 : t.carried.count k ≤ s.carried.count k + c.count k := ha.carried k
      have h2 := hc k
      have h3 := hw k
      simp only [List.count_append]
      omega
    · have h1 : t.logged.count k ≤ s.logged.count k + l.count k := ha.logged k
      have h2 := hl k
      have h3 := hw k
      simp only [List.count_append]
      omega

theorem FlushesModel.adds {s : Shared} {r : Shared × Bool} (h : FlushesModel s r) :
    Adds s r.1 [] [] := by
  cases h with
  | idle h => exact .refl s
  | @failed p q hp hb hg ha hq =>
    refine .of_carried rfl rfl rfl fun g => ?_
    simp [Shared.carried, hp, hg]
  | @sent p m ps hp hb hg ha hf hm =>
    refine .of_carried rfl rfl rfl fun g => ?_
    have hgen : modelGenerations ps = [] := quiet_generations hf.quiet
    simp only [Shared.carried, Shared.sent, modelGenerations_append, hgen,
      modelGenerations_loadModel, hg, hp, Option.map_some, Option.map_none, Option.toList_some,
      Option.toList_none, List.nil_append, List.append_nil, List.count_append, List.count_nil]
    omega
  | @kept p q ps c hp hb hg ha hf hq =>
    refine .of_carried rfl rfl rfl fun g => ?_
    have hgen : modelGenerations ps = [] := quiet_generations hf.quiet
    simp [Shared.carried, Shared.sent, hgen, hp, hg]

/-! ## Impulse responses -/

theorem clearStagedIr_carried (s : Shared) (g : Nat) :
    s.clearStagedIr.carried.count g ≤ s.carried.count g := by
  have hswap : ((((s.stagedSwap.map (·.clearIr)).filter (!·.isEmpty)).bind (·.model)).map
      (·.generation)).toList.count g ≤
      ((s.stagedSwap.bind (·.model)).map (·.generation)).toList.count g := by
    cases s.stagedSwap with
    | none => exact Nat.le_refl _
    | some w =>
      rw [Option.map_some, Option.filter_some]
      split
      · exact Nat.le_refl _
      · simp
  simp only [Shared.carried, Shared.clearStagedIr, List.count_append]
  omega

theorem LoadsIr.adds {s t : Shared} {ir : Asset} (h : LoadsIr s ir t) : Adds s t [] [] := by
  have hrestore : ∀ g, ({ s with stagedRestore := none } : Shared).carried.count g ≤
      s.carried.count g := by
    intro g
    simp only [Shared.carried, List.count_append, Option.bind_none, Option.map_none,
      Option.toList_none, List.count_nil]
    omega
  have hunstaged : ∀ g, s.unstagedIr.carried.count g ≤ s.carried.count g := fun g =>
    Nat.le_trans (clearStagedIr_carried _ g) (hrestore g)
  cases h with
  | recorded h => exact .of_carried rfl rfl rfl fun g => Nat.le_add_right ..
  | failed h hb => exact .of_carried rfl rfl rfl hrestore
  | @sent ps h hb hf hl =>
    refine .of_carried rfl rfl rfl fun g => Nat.le_trans ?_ (hunstaged g)
    have hgen : modelGenerations ps = [] := quiet_generations hf.quiet
    have hir : modelGenerations [.loadCabIr (some ⟨ir, s.hostRate, s.bufferSize⟩)] = [] := rfl
    simp only [Shared.carried, Shared.adoptIr, Shared.note, Shared.sent, modelGenerations_append,
      hgen, hir, List.append_nil]
    exact Nat.le_refl _
  | @kept ps c h hb hf =>
    refine .of_carried rfl rfl rfl fun g => Nat.le_trans ?_ (hunstaged g)
    have hgen : modelGenerations ps = [] := quiet_generations hf.quiet
    simp only [Shared.carried, Shared.sent, modelGenerations_append, hgen, List.append_nil]
    exact Nat.le_refl _
  | staged h hb =>
    refine .of_carried rfl rfl rfl fun g => Nat.le_trans ?_ (hrestore g)
    cases hw : s.stagedSwap <;>
      simp [Shared.carried, Shared.adoptIr, Shared.note, StagedSwap.empty]

theorem clearIr_adds (s : Shared) : Adds s s.clearIr [] [] := by
  unfold Shared.clearIr
  split
  · exact .of_carried rfl rfl rfl fun g => Nat.le_add_right ..
  · refine .of_carried rfl rfl rfl fun g => ?_
    cases hw : s.stagedSwap <;> simp [Shared.carried, Shared.note, StagedSwap.empty, hw]

/-! ## Restores -/

/-- The generation a restore is adopted with, if it has a model. -/
def RestoreTxn.generations (txn : RestoreTxn) : List Nat :=
  (txn.model.map (·.generation)).toList

theorem noteRestore_logged (s : Shared) (txn : RestoreTxn) :
    (s.noteRestore txn).logged = txn.generations ++ s.logged := by
  unfold Shared.noteRestore RestoreTxn.generations
  cases txn.model <;> cases txn.ir <;> rfl

theorem noteRestore_adds (s : Shared) (txn : RestoreTxn) :
    Adds s (s.noteRestore txn) [] txn.generations := by
  refine ⟨by rw [noteRestore_eq]; rfl, by rw [noteRestore_eq], fun g => ?_, fun g => ?_⟩
  · rw [noteRestore_eq]
    exact Nat.le_add_right ..
  · rw [noteRestore_logged, List.count_append]
    omega

/-- A restore that is on its way is noted. -/
theorem Adds.noted {s t : Shared} {txn : RestoreTxn} (h : Adds s t txn.generations []) :
    Adds s (t.noteRestore txn) txn.generations txn.generations := by
  simpa using h.trans (noteRestore_adds t txn)

theorem Packaged.generations {s t : Shared} {v : ValidatedRestore} {mode : RestoreMode}
    {publish : RestorePublish} {txn : RestoreTxn} (h : Packaged s v mode t publish txn) (g : Nat) :
    txn.generations.count g ≤ [s.modelGeneration + 1].count g := by
  unfold RestoreTxn.generations
  cases hm : txn.model with
  | none => simp
  | some m => rw [Option.map_some, Option.toList_some, h.modelGeneration m hm]

/-- The package of a restore is made with the next generation, if it has a model. -/
theorem Packaged.renumbered {s t u : Shared} {v : ValidatedRestore} {mode : RestoreMode}
    {publish : RestorePublish} {txn : RestoreTxn} (h : Packaged s v mode t publish txn)
    (hu : Adds t u txn.generations txn.generations) : s.Renumbered u := by
  have hgen := h.generations
  have ht : t.waiting = s.waiting ∧ t.carried = s.carried ∧ t.logged = s.logged := by
    rw [h.state]
    exact ⟨rfl, rfl, rfl⟩
  obtain ⟨hw, hc, hl⟩ := ht
  cases hm : txn.model with
  | none =>
    refine Adds.renumbers ⟨hu.waiting.trans hw, ?_, fun g => ?_, fun g => ?_⟩
    · rw [hu.modelGeneration, h.state, hm]
      rfl
    · have := hu.carried g
      rw [hc] at this
      simpa [RestoreTxn.generations, hm] using this
    · have := hu.logged g
      rw [hl] at this
      simpa [RestoreTxn.generations, hm] using this
  | some m =>
    refine Adds.renumbers_next (c := txn.generations) (l := txn.generations)
      ⟨hu.waiting.trans hw, ?_, fun g => ?_, fun g => ?_⟩ hgen hgen
    · rw [hu.modelGeneration, h.state, hm]
      rfl
    · exact hc ▸ hu.carried g
    · exact hl ▸ hu.logged g

theorem Restores.renumbered {s t : Shared} {v : ValidatedRestore} {mode : RestoreMode}
    (h : Restores s v mode t) : s.Renumbered t := by
  cases h with
  | failed => exact .refl ..
  | @staged t publish txn o hp =>
    refine hp.renumbered (Adds.noted ?_)
    refine .of_carried rfl rfl rfl fun g => ?_
    simp only [Shared.carried, RestoreTxn.generations, List.count_append, Option.bind_some,
      Option.bind_none, Option.map_none, Option.toList_none, List.count_nil]
    omega
  | @sent t publish txn ps hp hf =>
    refine hp.renumbered (Adds.noted ?_)
    refine .of_carried rfl rfl rfl fun g => ?_
    have hgen : modelGenerations ps = [] := quiet_generations hf.quiet
    simp only [Shared.carried, Shared.sent, RestoreTxn.generations, modelGenerations_append, hgen,
      modelGenerations_restoreTxn, List.nil_append, List.count_append, Option.bind_some,
      Option.bind_none, Option.map_none, Option.toList_none, List.count_nil]
    omega
  | @kept t publish txn ps c hp hf =>
    refine hp.renumbered (Adds.noted ?_)
    refine .of_carried rfl rfl rfl fun g => ?_
    have hgen : modelGenerations ps = [] := quiet_generations hf.quiet
    simp only [Shared.carried, Shared.sent, RestoreTxn.generations, modelGenerations_append, hgen,
      List.append_nil, List.count_append, Option.bind_some, Option.bind_none, Option.map_none,
      Option.toList_none]
    omega

theorem publishIfAcked_adds (s : Shared) : Adds s s.publishIfAcked [] [] := by
  obtain h | ⟨r, -, -, -, h⟩ := publishIfAcked_cases s <;> rw [h]
  · exact .refl s
  · rw [acknowledged_eq]
    refine .of_carried rfl rfl rfl fun g => ?_
    simp only [Shared.carried, List.count_append, Option.bind_none, Option.map_none,
      Option.toList_none, List.count_nil]
    omega

theorem FlushesRestore.adds {s t : Shared} (h : FlushesRestore s t) : Adds s t [] [] := by
  cases h with
  | idle h => exact .refl s
  | waiting hr ht => exact publishIfAcked_adds s
  | @sent r txn ps hr ht hf =>
    refine Adds.keeps ?_ (publishIfAcked_adds _)
    refine .of_carried rfl rfl rfl fun g => ?_
    have hgen : modelGenerations ps = [] := quiet_generations hf.quiet
    simp only [Shared.carried, Shared.sent, modelGenerations_append, hgen, hr, ht,
      modelGenerations_restoreTxn, List.nil_append, List.count_append, Option.bind_some,
      Option.bind_none, Option.map_none, Option.toList_none, List.count_nil]
    omega
  | @kept r txn ps c hr ht hf =>
    refine .of_carried rfl rfl rfl fun g => ?_
    have hgen : modelGenerations ps = [] := quiet_generations hf.quiet
    simp [Shared.carried, Shared.sent, hgen]

/-- A commit before the first activation takes a generation for its model. -/
theorem localModel_renumbered (s : Shared) (v : ValidatedRestore) (mode : RestoreMode) :
    s.Renumbered (s.localModel v mode) := by
  have hnext : ∀ t : Shared, t.waiting = s.waiting → t.modelGeneration = s.modelGeneration + 1 →
      (∀ g, t.carried.count g ≤ s.carried.count g + [s.modelGeneration + 1].count g) →
      t.logged = (s.modelGeneration + 1) :: s.logged → s.Renumbered t := by
    intro t hw hm hc hl
    refine Adds.renumbers_next (c := [s.modelGeneration + 1]) (l := [s.modelGeneration + 1])
      ⟨hw, hm, hc, fun g => ?_⟩ (fun g => Nat.le_refl _) fun g => Nat.le_refl _
    rw [hl, List.count_cons, List.count_singleton]
    exact Nat.le_refl _
  unfold Shared.localModel
  split
  · refine hnext _ rfl rfl (fun g => ?_) rfl
    simp only [Shared.carried, Shared.note, Shared.allocateModelGeneration, List.count_append,
      Option.map_some, Option.toList_some]
    omega
  · refine hnext _ rfl rfl (fun g => ?_) rfl
    simp only [Shared.carried, Shared.note, Shared.allocateModelGeneration, List.count_append,
      Option.map_some, Option.toList_some]
    omega
  · exact .refl ..

theorem localIr_adds (s : Shared) (v : ValidatedRestore) (mode : RestoreMode) :
    Adds s (s.localIr v mode) [] [] := by
  unfold Shared.localIr
  split
  · refine .of_carried rfl rfl rfl fun g => ?_
    cases hw : s.stagedSwap <;> simp [Shared.carried, Shared.note, StagedSwap.empty, hw]
  · refine .of_carried rfl rfl rfl fun g => ?_
    cases hw : s.stagedSwap <;> simp [Shared.carried, Shared.note, StagedSwap.empty, hw]
  · exact .refl s

theorem localCommit_renumbered (s : Shared) (v : ValidatedRestore) (mode : RestoreMode) :
    s.Renumbered (s.localCommit v mode) := by
  refine (localModel_renumbered s v mode).trans (Adds.renumbers ?_)
  refine Adds.keeps (localIr_adds _ v mode) ?_
  exact .of_carried rfl rfl rfl fun g => Nat.le_add_right ..

section
variable (E : Engine)

theorem loadModel_renumbered (s : Shared) (file : ModelFile) (faults : EngineCall → Bool) :
    s.Renumbered (s.loadModel E file faults) := by
  obtain hl | ⟨prep, hc, -⟩ := loadModel_spec E s file faults
  · rw [hl]
    exact .refl ..
  · obtain ⟨c, l, ha, hc, hl⟩ := hc.adds
    exact ha.renumbers_next hc hl

/-- With no worker the job's own generation is dropped. -/
theorem dispatchModelLoadSync_renumbered (s : Shared) (file : Option ModelFile)
    (faults : EngineCall → Bool) : s.Renumbered (s.dispatchModelLoadSync E file faults) := by
  have hjobs : ∀ {job jobs}, s.pendingAsyncLoads = job :: jobs →
      s.Renumbered { s with pendingAsyncLoads := jobs } := by
    intro job jobs h
    refine .waiting_le fun g => ?_
    simp only [Shared.waiting, h, List.map_cons, List.count_append, List.count_cons]
    omega
  unfold Shared.dispatchModelLoadSync
  split
  · exact .refl ..
  · split
    · exact .refl ..
    · exact hjobs ‹_›
    · dsimp only
      split
      · exact (hjobs ‹_›).trans (loadModel_renumbered E _ _ faults)
      · exact hjobs ‹_›

theorem mainStep_renumbered (s : Shared) (a : MainAction) : s.Renumbered (mainStep E s a) := by
  by_cases hq : a.isQuiet = true
  · exact (mainStep_quiet E s hq).renumbers
  cases a with
  | loadModel file faults => exact loadModel_renumbered E s file faults
  | clearModel faults => exact (clearModel_spec E s faults).renumbered
  | dispatchModelLoadSync file faults =>
    exact dispatchModelLoadSync_renumbered E s file faults
  | pollModelLoaderResult faults => exact (pollModelLoaderResult_spec E s faults).renumbered
  | flushPendingModel faults => exact (flushPendingModel_spec s faults).adds.renumbers
  | handlePendingIr ir faults =>
    have h : Adds { s with uiPendingIr := none } (mainStep E s (.handlePendingIr ir faults)) [] [] :=
      (loadCabsim_spec _ ir faults).adds
    exact h.renumbers
  | clearIr => exact (clearIr_adds s).renumbers
  | restore v mode faults =>
    show s.Renumbered (s.commitRestore E v mode faults)
    unfold Shared.commitRestore
    split
    · exact localCommit_renumbered s v mode
    · exact (atomicCommit_spec E s v mode faults).renumbered
  | flushPendingRestore => exact (flushPendingRestore_spec s).adds.renumbers
  | _ => exact absurd rfl hq

/-! ## The audio thread -/

/-- The generations between the ring and the audio thread. -/
def lane (s : Shared) (p : Processor) : List Nat := modelGenerations s.ring ++ p.carried

/-- The generations a step of the audio thread installs. -/
def installing (p : Processor) : AudioAction → List Nat
  | .beginEvents _ => modelGenerations p.recoveredCommands
  | .drain .installDeferred => modelGenerations p.deferred.toList
  | .drain .installCandidate => modelGenerations p.candidate.toList
  | _ => []

theorem mem_installing {p : Processor} {a : AudioAction} {d : ClapParamPayload}
    {m : LoadModelPayload} (hd : .command d ∈ audioOps p a) (hm : d.model? = some m) :
    m.generation ∈ installing p a := by
  unfold audioOps at hd
  split at hd <;> simp only [List.mem_map, Option.mem_toList, Option.map_eq_some_iff,
    ChainOp.command.injEq, exists_eq_right, List.not_mem_nil, List.mem_singleton, reduceCtorEq,
    and_false, exists_false] at hd
  · exact mem_modelGenerations hd hm
  · exact mem_modelGenerations (Option.mem_toList.2 hd) hm
  · exact mem_modelGenerations (Option.mem_toList.2 hd) hm

theorem AudioFrame.lane {r r' : Shared × Processor} (h : AudioFrame r r') :
    lane r'.1 r'.2 = NamPlug.lane r.1 r.2 := by
  rw [h.shared, h.proc]
  rfl

theorem endDrain_lane (s : Shared) (p : Processor) (g : Nat) :
    (lane (endDrain s p).1 (endDrain s p).2).count g ≤ (lane s p).count g := by
  unfold endDrain
  cases hc : p.candidate with
  | none => exact Nat.le_of_eq rfl
  | some c =>
    simp only [lane, Processor.carried, hc, Option.toList_some, Option.toList_none,
      modelGenerations_nil, List.append_nil, List.count_append]
    omega

/-- What a step of the audio thread installs is let go. -/
theorem audioStep_lane {s : Shared} {p : Processor} {a : AudioAction} {r : Shared × Processor}
    (h : audioStep E s p a = some r) (g : Nat) :
    (lane r.1 r.2).count g + (installing p a).count g ≤ (lane s p).count g := by
  cases a with
  | beginEvents room =>
    simp only [audioStep] at h
    split_ifs at h
    obtain rfl := Option.some.inj h
    have hf := (replayRecovered_frame E { s with ui := (writeGuiEvents s.ui room).ui }
      { p with inCallback := true }).lane
    show (lane (beginEvents E s p room).1 (beginEvents E s p room).2).count g + _ ≤ _
    unfold beginEvents
    rw [hf]
    simp only [lane, Processor.carried, installing, modelGenerations_nil, List.nil_append,
      List.count_append]
    omega
  | drain m =>
    simp only [audioStep] at h
    split_ifs at h
    cases drainMove_spec E h with
    | @installDeferred d hd =>
      have hf := (applyStructural_frame E s { p.unpark with resolved := p.unpark.resolved + 1 }
        d).lane
      show (lane (install E s p.unpark d).1 (install E s p.unpark d).2).count g + _ ≤ _
      unfold install
      rw [hf]
      simp only [lane, Processor.carried, Processor.unpark, installing, hd, Option.toList_none,
        modelGenerations_nil, List.append_nil, List.count_append]
      omega
    | @discardDeferred d c rest hd hr hs =>
      simp only [lane, Processor.carried, discard, Processor.unpark, installing, Option.toList_none,
        modelGenerations_nil, List.append_nil, List.count_append, List.count_nil]
      omega
    | @applyParams q rest hd hr =>
      have hf := (applyStructural_frame E (s.popped rest)
        { p.pop p.candidate with resolved := (p.pop p.candidate).resolved + 1 } (.params q)).lane
      show (lane (install E (s.popped rest) (p.pop p.candidate) (.params q)).1
        (install E (s.popped rest) (p.pop p.candidate) (.params q)).2).count g + _ ≤ _
      unfold install
      rw [hf]
      simp only [lane, Processor.carried, Processor.pop, Shared.popped, installing, hr,
        modelGenerations_cons (.params q) rest, modelGenerations_params, List.nil_append,
        List.count_append, List.count_nil]
      omega
    | @popCandidate c rest hd hc hr hs =>
      simp only [lane, Processor.carried, Processor.pop, Shared.popped, installing, hr, hc,
        modelGenerations_cons c rest, Option.toList_some, Option.toList_none, modelGenerations_nil,
        List.append_nil, List.count_append, List.count_nil]
      omega
    | @supersede c d rest hd hc hr hs =>
      simp only [lane, Processor.carried, discard, Processor.pop, Shared.popped, installing, hr,
        modelGenerations_cons d rest, Option.toList_some, List.count_append, List.count_nil]
      omega
    | @installCandidate c hd hc =>
      have hf := (applyStructural_frame E s
        { p with candidate := none, resolved := p.resolved + 1 } c).lane
      show (lane (install E s { p with candidate := none } c).1
        (install E s { p with candidate := none } c).2).count g + _ ≤ _
      unfold install
      rw [hf]
      simp only [lane, Processor.carried, installing, hc, Option.toList_none,
        modelGenerations_nil, List.append_nil, List.count_append]
      omega
  | endEvents =>
    simp only [audioStep] at h
    split_ifs at h
    obtain rfl := Option.some.inj h
    obtain ⟨r, hf, he⟩ := endEvents_frame E s p
    rw [he]
    have hr : lane r.1 { r.2 with inCallback := false } = lane (endDrain s p).1 (endDrain s p).2 :=
      hf.lane
    rw [hr]
    exact endDrain_lane s p g
  | hostEvents es =>
    simp only [audioStep] at h
    split_ifs at h
    obtain rfl := Option.some.inj h
    rw [(hostEvents_frame E s p es).lane]
    exact Nat.le_refl _
  | flushInner room es =>
    simp only [audioStep] at h
    split_ifs at h
    obtain rfl := Option.some.inj h
    rw [(flushInner_frame E s p room es).lane]
    exact Nat.le_refl _
  | slimmable m =>
    simp only [audioStep] at h
    split_ifs at h
    rw [(slimmableMove_spec h).frame.1.lane]
    exact Nat.le_refl _
  | signalSlimmableRebuild ch =>
    simp only [audioStep] at h
    split_ifs at h
    obtain rfl := Option.some.inj h
    exact Nat.le_refl _
  | reset =>
    simp only [audioStep] at h
    split_ifs at h
    obtain rfl := Option.some.inj h
    exact Nat.le_refl _

theorem audioStep_carried {s : Shared} {p : Processor} {a : AudioAction} {r : Shared × Processor}
    (h : audioStep E s p a = some r) (g : Nat) :
    (r.1.carried ++ r.2.carried).count g + (installing p a).count g ≤
      (s.carried ++ p.carried).count g := by
  have hlane := audioStep_lane E h g
  have hrest : r.1.carried.count g + (modelGenerations s.ring).count g =
      s.carried.count g + (modelGenerations r.1.ring).count g := by
    rw [audioStep_shared E h]
    simp only [Shared.carried, Shared.audio, Shared.over, List.count_append]
    omega
  simp only [lane, List.count_append] at hlane ⊢
  omega

/-- The audio thread adopts no model. -/
theorem audioStep_logged {s : Shared} {p : Processor} {a : AudioAction} {r : Shared × Processor}
    (h : audioStep E s p a = some r) : r.1.logged = s.logged := by
  obtain ⟨es, hl, he⟩ := (audioStep_moves E h).log
  have hnone : es.filterMap Event.modelGeneration? = [] := by
    refine List.filterMap_eq_nil_iff.2 fun e hm => ?_
    cases e with
    | model g a => exact absurd hm (he g a)
    | _ => rfl
  unfold Shared.logged
  rw [hl, List.filterMap_append, hnone, List.nil_append]

/-! ## Activation -/

/-- The newest model of the ring is retained, or the one that was. -/
theorem recoverRing_carried (s : Shared) (g : Nat) :
    s.recoverRing.carried.count g ≤ s.carried.count g := by
  have hsplit : (modelGenerations s.ring).count g =
      (modelGenerations (s.ring.filter (!·.isLoadModel))).count g +
        (modelGenerations (s.ring.filter (·.isLoadModel))).count g := by
    have hperm := (List.filter_append_perm (·.isLoadModel) s.ring).symm
    have hgens : (modelGenerations s.ring).Perm (modelGenerations
        (s.ring.filter (·.isLoadModel) ++ s.ring.filter (!·.isLoadModel))) := hperm.filterMap _
    rw [hgens.count_eq g, modelGenerations_append, List.count_append, Nat.add_comm]
  have hpending : (s.recoverRing.pendingModel.map (·.generation)).toList.count g ≤
      (s.pendingModel.map (·.generation)).toList.count g +
        (modelGenerations (s.ring.filter (·.isLoadModel))).count g := by
    simp only [Shared.recoverRing]
    cases hm : newestModel s.ring with
    | none => exact Nat.le_add_right ..
    | some m =>
      obtain ⟨l, hl, rfl⟩ := (newestModel_spec s.ring).1 m hm
      have hmem : l.generation ∈ modelGenerations (s.ring.filter (·.isLoadModel)) :=
        mem_modelGenerations (c := .loadModel l) (List.mem_filter.2 ⟨hl, rfl⟩) rfl
      dsimp only
      split
      · rw [Option.map_some, Option.toList_some, List.count_singleton]
        split
        · rename_i hg
          have := List.count_pos_iff.2 hmem
          rw [show l.generation = g from beq_iff_eq.1 hg] at this
          omega
        · omega
      · exact Nat.le_add_right ..
  have hring : s.recoverRing.ring = [] := rfl
  have hrec : s.recoverRing.recoveredCommands =
    s.ring.filter (!·.isLoadModel) ++ s.recoveredCommands := rfl
  simp only [Shared.carried, hring, hrec, modelGenerations_append, modelGenerations_nil,
    List.nil_append, List.count_append]
  show _ + _ + ((((s.pendingRestore.bind (·.txn)).bind (·.model)).map (·.generation)).toList).count g
    + (((s.stagedRestore.bind (·.txn.model)).map (·.generation)).toList).count g
    + (((s.stagedSwap.bind (·.model)).map (·.generation)).toList).count g ≤ _
  omega

theorem adaptModel?_generation (m : Option LoadModelPayload) (cfg : AudioConfig)
    (fRes fStream fL fR : Bool) :
    (adaptModel? m cfg fRes fStream fL fR).2.map (·.generation) = m.map (·.generation) := by
  cases m with
  | none => rfl
  | some m =>
    refine congrArg some ?_
    show (adaptModel m cfg fRes fStream fL fR).2.generation = m.generation
    obtain ⟨h, -, -⟩ | h | ⟨l, -, h⟩ := adaptModel_cases m cfg fRes fStream fL fR <;> rw [h]
    rfl

/-- The staged models keep their generations. -/
theorem adaptStaged_generations {s : Shared} {cfg : AudioConfig} {faults : ActivateCall → Bool}
    {ok : Bool} {restore : Option StagedRestore} {swap : Option StagedSwap}
    (h : adaptStaged s cfg faults = (ok, restore, swap)) :
    (restore.bind (·.txn.model)).map (·.generation) =
        (s.stagedRestore.bind (·.txn.model)).map (·.generation) ∧
      (swap.bind (·.model)).map (·.generation) =
        (s.stagedSwap.bind (·.model)).map (·.generation) := by
  have hr : ∀ r : StagedRestore, (adaptRestore s r cfg faults).2.txn.model.map (·.generation) =
      r.txn.model.map (·.generation) := by
    intro r
    have := adaptModel?_generation r.txn.model cfg (faults .restoreResampler)
      (faults .restoreStream) (faults .restoreResizeL) (faults .restoreResizeR)
    unfold adaptRestore
    split <;> rename_i hm <;> rw [hm] at this <;> exact this
  have hw : ∀ w : StagedSwap, (adaptSwap s w cfg faults).2.model.map (·.generation) =
      w.model.map (·.generation) := by
    intro w
    have := adaptModel?_generation w.model cfg (faults .swapResampler)
      (faults .swapStream) (faults .swapResizeL) (faults .swapResizeR)
    unfold adaptSwap
    split <;> rename_i hm <;> rw [hm] at this <;> exact this
  constructor
  · rw [adaptStaged_restore h]
    cases s.stagedRestore with
    | none => rfl
    | some r => exact hr r
  · obtain h | ⟨-, h⟩ := adaptStaged_swap h <;> rw [h]
    cases s.stagedSwap with
    | none => rfl
    | some w => exact hw w

theorem stagedModel_generation {s : Shared} {cfg : AudioConfig} {faults : ActivateCall → Bool}
    {ok : Bool} {restore : Option StagedRestore} {swap : Option StagedSwap}
    (h : adaptStaged s cfg faults = (ok, restore, swap)) :
    (stagedModel restore swap).map (·.generation) =
      (stagedModel s.stagedRestore s.stagedSwap).map (·.generation) := by
  obtain ⟨hr, hw⟩ := adaptStaged_generations h
  have hrestore := adaptStaged_restore h
  cases hs : s.stagedRestore with
  | none =>
    rw [hs] at hrestore
    subst hrestore
    exact hw
  | some r =>
    rw [hs] at hrestore hr
    subst hrestore
    exact hr

/-- The generations of the staged models. -/
def Shared.stagedGenerations (s : Shared) : List Nat :=
  ((s.stagedRestore.bind (·.txn.model)).map (·.generation)).toList ++
    ((s.stagedSwap.bind (·.model)).map (·.generation)).toList

/-- What is carried after an activation was carried before it, and staged models are used up. -/
theorem Activates.carried {s : Shared} {cfg : AudioConfig} {faults : ActivateCall → Bool}
    {r : Shared × Option Processor} (h : Activates E s cfg faults r) (g : Nat) :
    (r.1.carried ++ (r.2.map Processor.carried).getD []).count g +
      (if r.2.isSome then s.stagedGenerations.count g else 0) ≤ s.carried.count g := by
  have hflush : ∀ (restore : Option StagedRestore) (a : Assembly) (r : Shared × Bool),
      (s.published E cfg restore a).flushPendingModel (fun c => faults (.flush c)) = r →
      r.1.carried.count g + s.stagedGenerations.count g ≤ s.carried.count g := by
    rintro restore a _ rfl
    have hf := (flushPendingModel_spec (s.published E cfg restore a) fun c =>
      faults (.flush c)).adds.carried g
    have hp : (s.published E cfg restore a).carried.count g + s.stagedGenerations.count g ≤
        s.carried.count g := by
      have ht : s.taken.carried.count g + s.stagedGenerations.count g ≤ s.carried.count g := by
        simp only [Shared.carried, Shared.taken, Shared.stagedGenerations, List.count_append,
          Option.bind_none, Option.map_none, Option.toList_none, List.count_nil]
        omega
      cases restore with
      | none => exact ht
      | some r =>
        simp only [Shared.published, Shared.publishStaged]
        rw [publishRestore_eq]
        exact ht
    simp only [List.count_nil] at hf
    omega
  cases h with
  | noConsumer h => simp
  | early hp h => simpa using recoverRing_carried s g
  | @adapt restore swap hp hg hl hb hpipe ha =>
    obtain ⟨hr, hw⟩ := adaptStaged_generations ha
    have hc : ({ s with stagedRestore := restore, stagedSwap := swap } : Shared).carried =
        s.carried := by
      simp only [Shared.carried, hr, hw]
    have := recoverRing_carried { s with stagedRestore := restore, stagedSwap := swap } g
    rw [hc] at this
    simpa using this
  | @flush restore swap pipe a t hprep hf =>
    have h1 := hflush restore a _ hf
    have h2 : (t.rollback ⟨true, true, s.pendingRestartOs, none⟩).carried.count g ≤
        t.carried.count g := recoverRing_carried t g
    simp only [Option.map_none, Option.getD_none, List.append_nil, Option.isSome_none,
      Bool.false_eq_true, if_false]
    dsimp only at h1
    omega
  | @ok restore swap pipe a t hprep hf =>
    have h1 := hflush restore a _ hf
    refine Nat.le_trans (Nat.le_of_eq ?_) h1
    simp only [Option.isSome_some, if_true, Shared.carried, Processor.carried, Assembly.processor,
      Option.map_some, Option.getD_some, Option.toList_none, modelGenerations_nil, List.append_nil,
      List.count_append]
    omega

theorem Activates.log {s : Shared} {cfg : AudioConfig} {faults : ActivateCall → Bool}
    {r : Shared × Option Processor} (h : Activates E s cfg faults r) : r.1.log = s.log := by
  have hflush : ∀ (restore : Option StagedRestore) (a : Assembly) (r : Shared × Bool),
      (s.published E cfg restore a).flushPendingModel (fun c => faults (.flush c)) = r →
      r.1.log = s.log := by
    rintro restore a _ rfl
    exact (flushPendingModel_spec _ _).log.trans (Carriage.published_log E s cfg restore a)
  cases h with
  | noConsumer h => rfl
  | early hp h => rfl
  | adapt hp hg hl hb hpipe ha => rfl
  | flush hprep hf => exact hflush _ _ _ hf
  | ok hprep hf => exact hflush _ _ _ hf

theorem Activates.numbers {s : Shared} {cfg : AudioConfig} {faults : ActivateCall → Bool}
    {r : Shared × Option Processor} (h : Activates E s cfg faults r) :
    r.1.modelGeneration = s.modelGeneration ∧ r.1.waiting = s.waiting := by
  have hflush : ∀ (restore : Option StagedRestore) (a : Assembly) (r : Shared × Bool),
      (s.published E cfg restore a).flushPendingModel (fun c => faults (.flush c)) = r →
      r.1.modelGeneration = s.modelGeneration ∧ r.1.waiting = s.waiting := by
    rintro restore a _ rfl
    have hf := flushPendingModel_spec (s.published E cfg restore a) fun c => faults (.flush c)
    have hp : (s.published E cfg restore a).modelGeneration = s.modelGeneration ∧
        (s.published E cfg restore a).waiting = s.waiting := by
      cases restore with
      | none => exact ⟨rfl, rfl⟩
      | some r =>
        simp only [Shared.published, Shared.publishStaged]
        rw [publishRestore_eq]
        exact ⟨rfl, rfl⟩
    exact ⟨hf.adds.modelGeneration.trans hp.1, hf.adds.waiting.trans hp.2⟩
  cases h with
  | noConsumer h => exact ⟨rfl, rfl⟩
  | early hp h => exact ⟨rfl, rfl⟩
  | adapt hp hg hl hb hpipe ha => exact ⟨rfl, rfl⟩
  | flush hprep hf => exact hflush _ _ _ hf
  | ok hprep hf => exact hflush _ _ _ hf

/-! ## Runs -/

def Plugin.carried (x : Plugin) : List Nat :=
  x.shared.carried ++ (x.proc.map Processor.carried).getD []

/-- The generations of the models that wait or are on their way. -/
def Plugin.tickets (x : Plugin) : List Nat := x.shared.waiting ++ x.carried

/-- Every step moves generations on, drops them or takes new ones. -/
theorem step_renumbered {x y : Plugin} {a : Action} (h : step E x a = some y) :
    Ticket.Moves x.shared.modelGeneration x.tickets y.shared.modelGeneration y.tickets ∧
      Ticket.Moves x.shared.modelGeneration (x.shared.waiting ++ x.shared.logged)
        y.shared.modelGeneration (y.shared.waiting ++ y.shared.logged) := by
  cases a with
  | main a =>
    obtain rfl := Option.some.inj h
    have hm := mainStep_renumbered E x.shared a
    refine ⟨⟨hm.carried.le, fun g => ?_⟩, hm.logged⟩
    have := hm.carried.count g
    simp only [Plugin.tickets, Plugin.carried, List.count_append] at this ⊢
    omega
  | audio a =>
    obtain ⟨p, hp, h⟩ := Option.bind_eq_some_iff.1 h
    obtain ⟨r, hr, rfl⟩ := Option.map_eq_some_iff.1 h
    have hshared := audioStep_shared E hr
    have hw : r.1.waiting = x.shared.waiting := by rw [hshared]; rfl
    have hm : r.1.modelGeneration = x.shared.modelGeneration := by rw [hshared]; rfl
    refine ⟨?_, ?_⟩
    · show Ticket.Moves x.shared.modelGeneration _ r.1.modelGeneration _
      rw [hm]
      refine .of_le fun g => ?_
      have := audioStep_carried E hr g
      simp only [Plugin.tickets, Plugin.carried, hp, hw, Option.map_some, Option.getD_some,
        List.count_append] at this ⊢
      omega
    · show Ticket.Moves x.shared.modelGeneration _ r.1.modelGeneration (r.1.waiting ++ r.1.logged)
      rw [hm, hw, audioStep_logged E hr]
      exact .refl ..
  | activate cfg faults =>
    simp only [step] at h
    split_ifs at h with hproc
    obtain rfl := Option.some.inj h
    have hspec := activate_spec E x.shared cfg faults
    obtain ⟨hm, hw⟩ := hspec.numbers
    have hl : (x.shared.activate E cfg faults).1.logged = x.shared.logged :=
      congrArg (List.filterMap Event.modelGeneration?) hspec.log
    refine ⟨?_, ?_⟩
    · show Ticket.Moves x.shared.modelGeneration _
        (x.shared.activate E cfg faults).1.modelGeneration _
      rw [hm]
      refine .of_le fun g => ?_
      have := hspec.carried E g
      simp only [Plugin.tickets, Plugin.carried, hw, List.count_append] at this ⊢
      omega
    · show Ticket.Moves x.shared.modelGeneration _
        (x.shared.activate E cfg faults).1.modelGeneration
        ((x.shared.activate E cfg faults).1.waiting ++ (x.shared.activate E cfg faults).1.logged)
      rw [hm, hw, hl]
      exact .refl ..
  | deactivate =>
    simp only [step] at h
    split at h
    · rename_i p hp
      split_ifs at h
      obtain rfl := Option.some.inj h
      have hd : ∀ g, (deactivate x.shared p).carried.count g = x.shared.carried.count g ∧
          (deactivate x.shared p).modelGeneration = x.shared.modelGeneration ∧
          (deactivate x.shared p).waiting = x.shared.waiting ∧
          (deactivate x.shared p).logged = x.shared.logged := by
        intro g
        unfold deactivate
        cases p.deferred <;> exact ⟨rfl, rfl, rfl, rfl⟩
      obtain ⟨-, hm, hw, hl⟩ := hd 0
      refine ⟨?_, ?_⟩
      · show Ticket.Moves x.shared.modelGeneration _ (deactivate x.shared p).modelGeneration _
        rw [hm]
        refine .of_le fun g => ?_
        have := (hd g).1
        simp only [Plugin.tickets, Plugin.carried, hw, hp, Option.map_none, Option.getD_none,
          List.append_nil, List.count_append, this]
        omega
      · show Ticket.Moves x.shared.modelGeneration _ (deactivate x.shared p).modelGeneration
          ((deactivate x.shared p).waiting ++ (deactivate x.shared p).logged)
        rw [hm, hw, hl]
        exact .refl ..
    · cases h

/-- Generations are held once, and adopted once. -/
structure Numbered (x : Plugin) : Prop where
  tickets : Sound x.shared.modelGeneration x.tickets
  logged : Sound x.shared.modelGeneration (x.shared.waiting ++ x.shared.logged)

theorem numbered_init : Numbered (.init E.toParamEngine) := ⟨.nil _, .nil _⟩

theorem numbered_step {x y : Plugin} {a : Action} (hx : Numbered x) (h : step E x a = some y) :
    Numbered y :=
  ⟨hx.tickets.moves (step_renumbered E h).1, hx.logged.moves (step_renumbered E h).2⟩

/-- A generation names one model. -/
theorem Numbered.unique {x : Plugin} (h : Numbered x) {g : Nat} {a b : Option Asset}
    (ha : .model g a ∈ x.shared.log) (hb : .model g b ∈ x.shared.log) : a = b := by
  have hle : x.shared.logged.count g ≤ 1 := by
    have := h.logged.le_one g
    rw [List.count_append] at this
    omega
  have := eq_of_filterMap hle ha hb rfl rfl
  exact (Event.model.inj this).2

theorem Numbered.positive {x : Plugin} (h : Numbered x) {g : Nat} {a : Option Asset}
    (ha : .model g a ∈ x.shared.log) : 0 < g :=
  (h.logged.bounds (List.mem_append_right _ (List.mem_filterMap.2 ⟨_, ha, rfl⟩))).1

/-- A model that is installed is spent. -/
theorem Numbered.installed {x y : Plugin} {p : Processor} {a : AudioAction} {g : Nat}
    (hx : Numbered x) (hp : x.proc = some p) (h : step E x (.audio a) = some y)
    (hg : g ∈ installing p a) : Spent y.shared.modelGeneration y.tickets g := by
  have hle := (step_renumbered E h).1.le
  obtain ⟨q, hq, h⟩ := Option.bind_eq_some_iff.1 h
  obtain rfl := Option.some.inj (hp.symm.trans hq)
  obtain ⟨r, hr, rfl⟩ := Option.map_eq_some_iff.1 h
  refine hx.tickets.spent hle ?_
  have hcarried := audioStep_carried E hr g
  have hpos := List.count_pos_iff.2 hg
  have hw : r.1.waiting = x.shared.waiting := by rw [audioStep_shared E hr]; rfl
  simp only [Plugin.tickets, Plugin.carried, hp, hw, Option.map_some, Option.getD_some,
    List.count_append] at hcarried ⊢
  omega

end

end NamPlug
