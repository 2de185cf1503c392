import NamPlug.Plugin.Proof.Chain

/-!
# Models on their way

A model is carried from its load to the processor as a loader result, a retained model, a command
of the ring, or a part of a pending or staged item. A `Carriage` is a property of these that every
operation keeps, relative to the log: what a load, clear or restore builds has it, and so has what
is rebuilt from one that has it. `Carriage.holds_step`: it holds of everything that is carried, in
every state of a run.
-/

namespace NamPlug

/-- A property of the models that are carried. -/
structure Carriage where
  Payload : List Event → LoadModelPayload → Prop
  Pending : List Event → PendingModel → Prop
  Result : PreparedModel → Prop
  payload_mono : ∀ {log es m}, Payload log m → Payload (es ++ log) m
  pending_mono : ∀ {log es p}, Pending log p → Pending (es ++ log) p
  /-- What the loader prepares has it. -/
  prepared : ∀ {file epoch faults prep}, prepareModel file epoch faults = some prep → Result prep
  adapt : ∀ {log prep s faults g m}, Result prep → prep.adapt s faults g = some m →
    .model g (some prep.file.asset) ∈ log → Payload log m
  retained : ∀ {log prep g}, Result prep → .model g (some prep.file.asset) ∈ log →
    Pending log ⟨g, prep.modelL, prep.modelR, prep.file.rate⟩
  /-- What a clear builds has it. -/
  clearPayload : ∀ {log g h r b}, .model g none ∈ log →
    Payload log ⟨g, none, none, ⟨h, r⟩, buildStreamAdapter h r b, r⟩
  clearPending : ∀ {log g r}, .model g none ∈ log → Pending log ⟨g, none, none, r⟩
  /-- What a restore builds has it. -/
  restorePayload : ∀ {log s} {f : ModelFile} {g}, .model g (some f.asset) ∈ log →
    Payload log (restoreModel s f g)
  restorePending : ∀ {log} {f : ModelFile} {g}, .model g (some f.asset) ∈ log →
    Pending log ⟨g, some f.modelL, f.modelR, f.rate⟩
  /-- What is rebuilt has it. -/
  toPending : ∀ {log m}, Payload log m → Pending log m.toPending
  rebuilt : ∀ {log p s}, Pending log p → Payload log (p.rebuilt s)
  rebuiltStaged : ∀ {log m cfg}, Payload log m → Payload log (m.rebuilt cfg)
  resizedPending : ∀ {log p n}, Pending log p →
    Pending log { p with model := p.model.map (·.setMaxBufferSize n) }
  resizedPayload : ∀ {log m n}, Payload log m →
    Payload log { m with modelL := m.modelL.map (·.setMaxBufferSize n) }

namespace Carriage

variable (C : Carriage)

/-- The model of a command, if it has one, has the property. -/
def Command (log : List Event) (c : ClapParamPayload) : Prop :=
  ∀ m, c.model? = some m → C.Payload log m

/-- Everything that is carried outside the processor has the property. -/
structure HoldsAt (log : List Event) (s : Shared) : Prop where
  ring : ∀ c ∈ s.ring, C.Command log c
  recovered : ∀ c ∈ s.recoveredCommands, C.Command log c
  pendingModel : ∀ p, s.pendingModel = some p → C.Pending log p
  pendingRestore : ∀ r txn, s.pendingRestore = some r → r.txn = some txn →
    C.Command log (.restoreTxn txn)
  stagedRestore : ∀ r, s.stagedRestore = some r → C.Command log (.restoreTxn r.txn)
  stagedSwap : ∀ w m, s.stagedSwap = some w → w.model = some m → C.Payload log m
  result : ∀ r prep, s.modelResultSlot = some r → r.outcome = some prep → C.Result prep

/-- Everything that is carried by the processor has the property. -/
structure HoldsRt (log : List Event) (p : Processor) : Prop where
  recovered : ∀ c ∈ p.recoveredCommands, C.Command log c
  deferred : ∀ c, p.deferred = some c → C.Command log c
  candidate : ∀ c, p.candidate = some c → C.Command log c

/-- Everything that is carried has the property. -/
structure Holds (x : Plugin) : Prop where
  shared : C.HoldsAt x.shared.log x.shared
  proc : ∀ p, x.proc = some p → C.HoldsRt x.shared.log p

variable {C}

theorem Command.quiet {log : List Event} {c : ClapParamPayload} (h : c.Quiet) :
    C.Command log c := by
  obtain ⟨q, rfl⟩ | ⟨osL, osR, rfl⟩ := h <;> rintro _ ⟨⟩

theorem Command.mono {log l : List Event} {c : ClapParamPayload} (h : C.Command log c) :
    C.Command (l ++ log) c := fun m hm => C.payload_mono (h m hm)

theorem HoldsAt.mono {log l : List Event} {s : Shared} (h : C.HoldsAt log s) :
    C.HoldsAt (l ++ log) s where
  ring c hc := (h.ring c hc).mono
  recovered c hc := (h.recovered c hc).mono
  pendingModel p hp := C.pending_mono (h.pendingModel p hp)
  pendingRestore r txn hr ht := (h.pendingRestore r txn hr ht).mono
  stagedRestore r hr := (h.stagedRestore r hr).mono
  stagedSwap w m hw hm := C.payload_mono (h.stagedSwap w m hw hm)
  result := h.result

theorem HoldsRt.mono {log l : List Event} {p : Processor} (h : C.HoldsRt log p) :
    C.HoldsRt (l ++ log) p where
  recovered c hc := (h.recovered c hc).mono
  deferred c hc := (h.deferred c hc).mono
  candidate c hc := (h.candidate c hc).mono

/-- An operation that moves nothing. -/
theorem HoldsAt.of_eq {log : List Event} {s t : Shared} (h : C.HoldsAt log s)
    (hr : t.ring = s.ring) (hc : t.recoveredCommands = s.recoveredCommands)
    (hm : t.pendingModel = s.pendingModel) (hp : t.pendingRestore = s.pendingRestore)
    (hs : t.stagedRestore = s.stagedRestore) (hw : t.stagedSwap = s.stagedSwap)
    (ho : t.modelResultSlot = s.modelResultSlot) : C.HoldsAt log t where
  ring := by rw [hr]; exact h.ring
  recovered := by rw [hc]; exact h.recovered
  pendingModel := by rw [hm]; exact h.pendingModel
  pendingRestore := by rw [hp]; exact h.pendingRestore
  stagedRestore := by rw [hs]; exact h.stagedRestore
  stagedSwap := by rw [hw]; exact h.stagedSwap
  result := by rw [ho]; exact h.result

theorem HoldsAt.note {log : List Event} {s : Shared} (h : C.HoldsAt log s) (e : Event) :
    C.HoldsAt log (s.note e) := h.of_eq rfl rfl rfl rfl rfl rfl rfl

theorem HoldsAt.sent {log : List Event} {s : Shared} (h : C.HoldsAt log s)
    {ps : List ClapParamPayload} (c : Option RtProcessingParams)
    (hp : ∀ x ∈ ps, C.Command log x) : C.HoldsAt log (s.sent ps c) :=
  { h with ring := fun x hx => (List.mem_append.1 hx).elim (h.ring x) (hp x) }

theorem Flushed.commands {log : List Event} {s : Shared} {ps : List ClapParamPayload}
    {c : Option RtProcessingParams} (h : Flushed s ps c) {d : ClapParamPayload}
    (hd : C.Command log d) : ∀ x ∈ ps ++ [d], C.Command log x := by
  intro x hx
  obtain hx | hx := List.mem_append.1 hx
  · exact .quiet (h.quiet x hx)
  · exact List.mem_singleton.1 hx ▸ hd

/-- What the audio thread installs has the property. -/
theorem HoldsRt.ops {log : List Event} {p : Processor} (h : C.HoldsRt log p) {a : AudioAction}
    {d : ClapParamPayload} (hd : .command d ∈ audioOps p a) : C.Command log d := by
  obtain hm | hm | hm := audioOps_command hd
  · exact h.recovered d hm
  · exact h.deferred d hm
  · exact h.candidate d hm

/-! ## Loads and clears -/

theorem HoldsAt.unstaged {log : List Event} {s : Shared} (h : C.HoldsAt log s) :
    C.HoldsAt log s.unstaged :=
  { h with
    stagedRestore := fun r hr => by cases hr
    stagedSwap := fun w m hw hm => by
      -- what is left of the swap has no model
      replace hw : ((s.stagedSwap.map (·.clearModel)).filter (!·.isEmpty)) = some w := hw
      rw [Option.filter_eq_some_iff, Option.map_eq_some_iff] at hw
      obtain ⟨⟨v, -, rfl⟩, -⟩ := hw
      cases hm }

theorem HoldsAt.swaps {log : List Event} {s t : Shared} {m : LoadModelPayload}
    (h : C.HoldsAt log s) (hm : C.Payload log m) (k : Swaps s m t) : C.HoldsAt log t := by
  have hcmd : C.Command log (.loadModel m) := by rintro _ ⟨⟩; exact hm
  cases k with
  | sent hf => exact h.unstaged.sent none (Flushed.commands hf hcmd)
  | @retained ps c hf =>
    have := h.unstaged.sent c fun x hx => .quiet (hf.quiet x hx)
    exact { this with
      pendingModel := fun p hp => Option.some.inj hp ▸ C.toPending hm }
  | staged =>
    refine { h with
      stagedRestore := fun r hr => by cases hr
      stagedSwap := fun w n hw hn => ?_ }
    obtain rfl := Option.some.inj hw
    exact Option.some.inj hn ▸ hm

theorem HoldsAt.commits {s t : Shared} {prep : PreparedModel} {g : Nat}
    (h : C.HoldsAt s.log s) (hp : C.Result prep) (k : Commits s prep g t) :
    C.HoldsAt t.log t := by
  have hmono : C.HoldsAt (.model g (some prep.file.asset) :: s.log) s :=
    h.mono (l := [_])
  cases k with
  | inactive hb =>
    exact { hmono with
      pendingModel := fun p hp' =>
        Option.some.inj hp' ▸ C.retained hp List.mem_cons_self }
  | failed => exact h
  | @swapped m u faults hb hg ha ht hm =>
    have hlog : u.log = s.log := by cases ht <;> rfl
    have hmem : .model g (some prep.file.asset) ∈
        ((u.publishModelIdentity prep.file).note (.model g (some prep.file.asset))).log :=
      List.mem_cons_self
    refine HoldsAt.note ?_ _
    refine HoldsAt.of_eq (s := u) ?_ rfl rfl rfl rfl rfl rfl rfl
    refine HoldsAt.swaps ?_ (C.adapt hp hm hmem) ht
    show C.HoldsAt (.model g (some prep.file.asset) :: u.log) s
    rw [hlog]
    exact hmono

theorem HoldsAt.clears {s t : Shared} (h : C.HoldsAt s.log s) (k : Clears s t) :
    C.HoldsAt t.log t := by
  have hcleared : ∀ log, C.HoldsAt log s → C.HoldsAt log s.cleared := fun log h =>
    h.of_eq rfl rfl rfl rfl rfl rfl rfl
  have hmono : C.HoldsAt (.model (s.modelGeneration + 1) none :: s.log) s.cleared :=
    hcleared _ (h.mono (l := [_]))
  cases k with
  | inactive hb =>
    exact { hmono with
      pendingModel := fun p hp => Option.some.inj hp ▸ C.clearPending List.mem_cons_self }
  | failed hb => exact hcleared _ h
  | @swapped m u hb hg ha ht hm =>
    have hlog : u.log = s.log := by cases ht <;> rfl
    refine HoldsAt.note (s := u) ?_ _
    show C.HoldsAt (.model (s.modelGeneration + 1) none :: u.log) u
    rw [hlog]
    exact hmono.swaps (hm ▸ C.clearPayload List.mem_cons_self) ht

theorem HoldsAt.polls {s t : Shared} (h : C.HoldsAt s.log s) (k : Polls s t) :
    C.HoldsAt t.log t := by
  have hdropped : C.HoldsAt s.log { s with
      modelResultSlot := none, dispatchedModelGeneration := 0, dispatchedModelIsGui := false } :=
    { h with result := fun r prep hr => by cases hr }
  cases k with
  | idle h' => exact h
  | dropped => exact hdropped
  | commits hr hg h0 ho ht => exact HoldsAt.commits hdropped (h.result _ _ hr ho) ht

/-! ## The retained model -/

theorem HoldsAt.flushesModel {log : List Event} {s : Shared} {r : Shared × Bool}
    (h : C.HoldsAt log s) (k : FlushesModel s r) : C.HoldsAt log r.1 := by
  cases k with
  | idle h' => exact h
  | @failed p q hp hb hg ha hq =>
    refine { h with pendingModel := fun p' hp' => ?_ }
    obtain rfl := Option.some.inj hp'
    obtain ⟨l, rfl | rfl, rfl⟩ := hq
    · exact h.pendingModel p hp
    · exact C.resizedPending (h.pendingModel p hp)
  | @sent p m ps hp hb hg ha hf hm =>
    have hcmd : C.Command log (.loadModel m) := by
      rintro _ ⟨⟩
      exact hm ▸ C.rebuilt (h.pendingModel p hp)
    refine HoldsAt.sent ?_ none (Flushed.commands hf hcmd)
    exact { h with pendingModel := fun p' hp' => by cases hp' }
  | @kept p q ps c hp hb hg ha hf hq =>
    refine { h.sent c fun x hx => .quiet (hf.quiet x hx) with pendingModel := fun p' hp' => ?_ }
    obtain rfl := Option.some.inj hp'
    exact hq ▸ C.toPending (C.rebuilt (h.pendingModel p hp))

/-! ## Impulse responses -/

theorem HoldsAt.clearStagedIr {log : List Event} {s : Shared} (h : C.HoldsAt log s) :
    C.HoldsAt log s.clearStagedIr := by
  refine { h with stagedSwap := fun w m hw hm => ?_ }
  replace hw : ((s.stagedSwap.map (·.clearIr)).filter (!·.isEmpty)) = some w := hw
  rw [Option.filter_eq_some_iff, Option.map_eq_some_iff] at hw
  obtain ⟨⟨v, hv, rfl⟩, -⟩ := hw
  exact h.stagedSwap v m hv hm

theorem HoldsAt.unstagedIr {log : List Event} {s : Shared} (h : C.HoldsAt log s) :
    C.HoldsAt log s.unstagedIr :=
  HoldsAt.clearStagedIr { h with stagedRestore := fun r hr => by cases hr }

/-- An impulse response is staged beside the model that is. -/
theorem HoldsAt.stageIr {log : List Event} {s : Shared} (h : C.HoldsAt log s)
    (ir : Option (Option CabSimPair)) : C.HoldsAt log
      { s with stagedSwap := some { s.stagedSwap.getD .empty with ir := ir } } := by
  refine { h with stagedSwap := fun w m hw hm => ?_ }
  obtain rfl := Option.some.inj hw
  cases hs : s.stagedSwap with
  | none =>
    rw [hs] at hm
    cases hm
  | some v =>
    rw [hs] at hm
    exact h.stagedSwap v m hs hm

theorem HoldsAt.adoptIr {log : List Event} {s : Shared} (h : C.HoldsAt log s) (ir : Asset)
    (n : Nat) : C.HoldsAt log (s.adoptIr ir n) := h.of_eq rfl rfl rfl rfl rfl rfl rfl

theorem HoldsAt.loadsIr {log : List Event} {s t : Shared} {ir : Asset} (h : C.HoldsAt log s)
    (k : LoadsIr s ir t) : C.HoldsAt log t := by
  have hdropped : C.HoldsAt log { s with stagedRestore := none } :=
    { h with stagedRestore := fun r hr => by cases hr }
  cases k with
  | recorded h' => exact h.adoptIr ir _
  | failed h' hb => exact hdropped
  | sent h' hb hf =>
    refine (h.unstagedIr.sent none (Flushed.commands hf ?_)).adoptIr ir _
    rintro _ ⟨⟩
  | @kept ps c h' hb hf =>
    exact (h.unstagedIr.sent c fun x hx => .quiet (hf.quiet x hx)).of_eq rfl rfl rfl rfl rfl rfl rfl
  | staged h' hb => exact (hdropped.stageIr _).adoptIr ir _

theorem HoldsAt.clearIr {log : List Event} {s : Shared} (h : C.HoldsAt log s) :
    C.HoldsAt log s.clearIr := by
  unfold Shared.clearIr
  split
  · exact h.note _
  · exact (h.stageIr (some none)).of_eq rfl rfl rfl rfl rfl rfl rfl

/-! ## Restores -/

theorem HoldsAt.localCommit {s : Shared} (h : C.HoldsAt s.log s) (v : ValidatedRestore)
    (mode : RestoreMode) : C.HoldsAt (s.localCommit v mode).log (s.localCommit v mode) := by
  have hmodel : C.HoldsAt (s.localModel v mode).log (s.localModel v mode) := by
    unfold Shared.localModel
    split
    · exact { h.mono (l := [_]) with
        pendingModel := fun p hp => Option.some.inj hp ▸ C.restorePending List.mem_cons_self }
    · exact { h.mono (l := [_]) with
        pendingModel := fun p hp => Option.some.inj hp ▸ C.clearPending List.mem_cons_self }
    · exact h
  have hir : ∀ t : Shared, C.HoldsAt t.log t →
      C.HoldsAt (t.localIr v mode).log (t.localIr v mode) := by
    intro t ht
    unfold Shared.localIr
    split
    · exact ((ht.mono (l := [_])).stageIr _).of_eq rfl rfl rfl rfl rfl rfl rfl
    · exact ((ht.mono (l := [_])).stageIr _).of_eq rfl rfl rfl rfl rfl rfl rfl
    · exact ht
  exact ((hir _ hmodel).mono (l := [_])).of_eq rfl rfl rfl rfl rfl rfl rfl

/-- What a restore packs has the property. -/
theorem packaged_command {s t : Shared} {v : ValidatedRestore} {mode : RestoreMode}
    {publish : RestorePublish} {txn : RestoreTxn} {log : List Event}
    (h : Packaged s v mode t publish txn)
    (hlog : ∀ m, txn.model = some m → .model m.generation (m.modelL.map StaticModel.asset) ∈ log) :
    C.Command log (.restoreTxn txn) := by
  intro m hm
  have hmem := hlog m hm
  obtain ⟨f, -, rfl⟩ | rfl := h.built m hm
  · rw [restoreModel_asset] at hmem
    exact C.restorePayload hmem
  · exact C.clearPayload hmem

theorem HoldsAt.restores {s t : Shared} {v : ValidatedRestore} {mode : RestoreMode}
    (h : C.HoldsAt s.log s) (k : Restores s v mode t) : C.HoldsAt t.log t := by
  -- a package moves nothing but the counters, and all of its outcomes note it last
  have hnoted : ∀ {t u : Shared} {publish : RestorePublish} {txn : RestoreTxn},
      Packaged s v mode t publish txn → u.log = t.log →
      (∀ log, C.HoldsAt log t → C.Command log (.restoreTxn txn) → C.HoldsAt log u) →
      C.HoldsAt (u.noteRestore txn).log (u.noteRestore txn) := by
    intro t u publish txn hp hlog hu
    have hmono : ∀ es, C.HoldsAt (es ++ s.log) t := fun es =>
      h.mono.of_eq (by rw [hp.state]) (by rw [hp.state]) (by rw [hp.state]) (by rw [hp.state])
        (by rw [hp.state]) (by rw [hp.state]) (by rw [hp.state])
    obtain ⟨es, hes, hmem⟩ := noteRestore_log u txn
    have htlog : t.log = s.log := by rw [hp.state]
    rw [noteRestore_eq]
    refine HoldsAt.of_eq (s := u) ?_ rfl rfl rfl rfl rfl rfl rfl
    show C.HoldsAt (u.noteRestore txn).log u
    rw [hes, hlog, htlog]
    exact hu _ (hmono es) (packaged_command hp fun m hm => List.mem_append_left _ (hmem m hm))
  cases k with
  | failed => exact h
  | staged hp =>
    refine hnoted hp rfl fun log ht hc => ?_
    exact { ht with
      stagedRestore := fun r hr => Option.some.inj hr ▸ hc
      stagedSwap := fun w m hw => by cases hw }
  | sent hp hf =>
    refine hnoted hp rfl fun log ht hc => ?_
    have hs := ht.sent none (Flushed.commands hf hc)
    exact { hs with
      pendingRestore := fun r u hr hu => by
        obtain rfl := Option.some.inj hr
        cases hu
      stagedRestore := fun r hr => by cases hr
      stagedSwap := fun w m hw => by cases hw }
  | @kept t publish txn ps c hp hf =>
    refine hnoted hp rfl fun log ht hc => ?_
    have hs := ht.sent c fun x hx => .quiet (hf.quiet x hx)
    exact { hs with
      pendingRestore := fun r u hr hu => by
        obtain rfl := Option.some.inj hr
        exact Option.some.inj hu ▸ hc
      stagedRestore := fun r hr => by cases hr
      stagedSwap := fun w m hw => by cases hw }

theorem HoldsAt.publishIfAcked {s : Shared} (h : C.HoldsAt s.log s) :
    C.HoldsAt s.publishIfAcked.log s.publishIfAcked := by
  obtain hs | ⟨r, -, -, -, hs⟩ := publishIfAcked_cases s <;> rw [hs]
  · exact h
  · rw [acknowledged_eq]
    refine HoldsAt.of_eq (s := { s with pendingRestore := none }) ?_ rfl rfl rfl rfl rfl rfl rfl
    exact { h.mono (l := [_]) with pendingRestore := fun r txn hr => by cases hr }

theorem HoldsAt.flushesRestore {s t : Shared} (h : C.HoldsAt s.log s) (k : FlushesRestore s t) :
    C.HoldsAt t.log t := by
  cases k with
  | idle h' => exact h
  | waiting hr ht => exact h.publishIfAcked
  | @sent r txn ps hr ht hf =>
    refine HoldsAt.publishIfAcked ?_
    have hs := h.sent none (Flushed.commands hf (h.pendingRestore r txn hr ht))
    exact { hs with
      pendingRestore := fun r' txn' hr' ht' => by
        obtain rfl := Option.some.inj hr'
        cases ht' }
  | @kept r txn ps c hr ht hf => exact h.sent c fun x hx => .quiet (hf.quiet x hx)

/-! ## The main thread -/

theorem HoldsAt.quiet {s t : Shared} (h : C.HoldsAt s.log s) (k : Quiet s t) :
    C.HoldsAt t.log t := by
  obtain ⟨es, hl, -⟩ := k.log
  obtain ⟨ps, hr, -, hq⟩ := k.sent
  rw [hl]
  have hm := h.mono (l := es)
  exact
    { ring := fun c hc => by
        rw [hr] at hc
        exact (List.mem_append.1 hc).elim (hm.ring c) fun hc => .quiet (hq c hc)
      recovered := by rw [k.recoveredCommands]; exact hm.recovered
      pendingModel := by rw [k.pendingModel]; exact hm.pendingModel
      pendingRestore := by rw [k.pendingRestore]; exact hm.pendingRestore
      stagedRestore := by rw [k.stagedRestore]; exact hm.stagedRestore
      stagedSwap := by rw [k.stagedSwap]; exact hm.stagedSwap
      result := fun r prep hr hp => by
        obtain hr | ⟨file, epoch, faults, hf⟩ := k.result r prep hr hp
        · exact h.result r prep hr hp
        · exact C.prepared hf }

section
variable (E : Engine)

theorem HoldsAt.loadModel {s : Shared} (h : C.HoldsAt s.log s) (file : ModelFile)
    (faults : EngineCall → Bool) :
    C.HoldsAt (s.loadModel E file faults).log (s.loadModel E file faults) := by
  obtain hl | ⟨prep, hc, hp⟩ := loadModel_spec E s file faults
  · rw [hl]
    exact h
  · refine HoldsAt.commits (s := s.allocateModelGeneration) ?_ (C.prepared hp) hc
    exact h.of_eq rfl rfl rfl rfl rfl rfl rfl

theorem HoldsAt.main {s : Shared} (h : C.HoldsAt s.log s) (a : MainAction) :
    C.HoldsAt (mainStep E s a).log (mainStep E s a) := by
  by_cases hq : a.isQuiet = true
  · exact h.quiet (mainStep_quiet E s hq)
  cases a with
  | loadModel file faults => exact h.loadModel E file faults
  | clearModel faults => exact h.clears (clearModel_spec E s faults)
  | dispatchModelLoadSync file faults =>
    show C.HoldsAt (s.dispatchModelLoadSync E file faults).log
      (s.dispatchModelLoadSync E file faults)
    obtain ⟨jobs, hd⟩ | ⟨jobs, f, hd⟩ := dispatchModelLoadSync_spec E s file faults <;> rw [hd]
    · exact h.of_eq rfl rfl rfl rfl rfl rfl rfl
    · exact HoldsAt.loadModel E (s := { s with pendingAsyncLoads := jobs })
        (h.of_eq rfl rfl rfl rfl rfl rfl rfl) f faults
  | pollModelLoaderResult faults => exact h.polls (pollModelLoaderResult_spec E s faults)
  | flushPendingModel faults =>
    have hf := flushPendingModel_spec s faults
    have hlog : (mainStep E s (.flushPendingModel faults)).log = s.log := hf.log
    rw [hlog]
    exact h.flushesModel hf
  | handlePendingIr ir faults =>
    have hl := loadCabsim_spec { s with uiPendingIr := none } ir faults
    obtain ⟨es, hlog⟩ : ∃ es, (mainStep E s (.handlePendingIr ir faults)).log = es ++ s.log := hl.log
    rw [hlog]
    exact HoldsAt.loadsIr (s := { s with uiPendingIr := none })
      (h.mono.of_eq rfl rfl rfl rfl rfl rfl rfl) hl
  | clearIr =>
    have hlog : (mainStep E s .clearIr).log = .ir none :: s.log := by
      show s.clearIr.log = _
      unfold Shared.clearIr
      split <;> rfl
    rw [hlog]
    exact (h.mono (l := [_])).clearIr
  | restore v mode faults =>
    show C.HoldsAt (s.commitRestore E v mode faults).log (s.commitRestore E v mode faults)
    unfold Shared.commitRestore
    split
    · exact h.localCommit v mode
    · exact h.restores (atomicCommit_spec E s v mode faults)
  | flushPendingRestore => exact h.flushesRestore (flushPendingRestore_spec s)
  | _ => exact absurd rfl hq

/-! ## The audio thread -/

theorem Holds.audio {s : Shared} {p : Processor} (hs : C.HoldsAt s.log s)
    (hp : C.HoldsRt s.log p) {a : AudioAction} {r : Shared × Processor}
    (h : audioStep E s p a = some r) : C.HoldsAt r.1.log r.1 ∧ C.HoldsRt r.1.log r.2 := by
  have hm := audioStep_moves E h
  have hshared := audioStep_shared E h
  obtain ⟨es, hlog, -⟩ := hm.log
  rw [hlog]
  have ht : C.HoldsAt (es ++ s.log) { s with ring := r.1.ring } :=
    { hs.mono with ring := fun c hc => (hs.ring c (hm.ring c hc)).mono }
  refine ⟨?_, fun c hc => (hp.recovered c (hm.recovered c hc)).mono, fun c hc => ?_,
    fun c hc => ?_⟩
  · rw [hshared]
    exact ht.of_eq rfl rfl rfl rfl rfl rfl rfl
  · obtain h | h := hm.deferred c hc
    · exact (hp.deferred c h).mono
    · exact (hp.candidate c h).mono
  · obtain h | h := hm.candidate c hc
    · exact (hp.candidate c h).mono
    · exact (hs.ring c h).mono

/-! ## Activation -/

theorem HoldsAt.recoverRing {log : List Event} {s : Shared} (h : C.HoldsAt log s) :
    C.HoldsAt log s.recoverRing :=
  { h with
    ring := fun c hc => by cases hc
    recovered := fun c hc => by
      obtain hc | hc := List.mem_append.1 hc
      · exact h.ring c (List.mem_filter.1 hc).1
      · exact h.recovered c hc
    pendingModel := fun p hp => by
      simp only [Shared.recoverRing] at hp
      split at hp
      · rename_i m hm
        split_ifs at hp
        · obtain rfl := Option.some.inj hp
          obtain ⟨l, hl, rfl⟩ := (newestModel_spec s.ring).1 m hm
          exact C.toPending (h.ring _ hl l rfl)
        · exact h.pendingModel p hp
      · exact h.pendingModel p hp }

theorem HoldsAt.rollback {log : List Event} {s : Shared} (h : C.HoldsAt log s)
    (g : ActivateRollbackGuard) : C.HoldsAt log (s.rollback g) :=
  h.recoverRing.of_eq rfl rfl rfl rfl rfl rfl rfl

/-- The adaptation of a staged model keeps the property, whether it works or not. -/
theorem adaptModel?_payload {log : List Event} {m : Option LoadModelPayload}
    (h : ∀ n, m = some n → C.Payload log n) (cfg : AudioConfig) (fRes fStream fL fR : Bool) :
    ∀ n, (adaptModel? m cfg fRes fStream fL fR).2 = some n → C.Payload log n := by
  intro n hn
  cases m with
  | none => cases hn
  | some m =>
    have hm := h m rfl
    obtain rfl := Option.some.inj hn
    obtain ⟨ha, -, -⟩ | ha | ⟨l, rfl | rfl, ha⟩ := adaptModel_cases m cfg fRes fStream fL fR <;>
      rw [ha]
    · exact hm
    · exact C.rebuiltStaged hm
    · exact hm
    · exact C.resizedPayload hm

theorem adaptRestore_command {log : List Event} {r : StagedRestore}
    (h : C.Command log (.restoreTxn r.txn)) (s : Shared) (cfg : AudioConfig)
    (faults : ActivateCall → Bool) :
    C.Command log (.restoreTxn (adaptRestore s r cfg faults).2.txn) := by
  have hm := adaptModel?_payload h cfg (faults .restoreResampler) (faults .restoreStream)
    (faults .restoreResizeL) (faults .restoreResizeR)
  intro n hn
  refine hm n ?_
  rw [← hn]
  unfold adaptRestore
  split <;> exact congrArg Prod.snd ‹_›

theorem adaptSwap_payload {log : List Event} {w : StagedSwap}
    (h : ∀ m, w.model = some m → C.Payload log m) (s : Shared) (cfg : AudioConfig)
    (faults : ActivateCall → Bool) :
    ∀ m, (adaptSwap s w cfg faults).2.model = some m → C.Payload log m := by
  have hm := adaptModel?_payload h cfg (faults .swapResampler) (faults .swapStream)
    (faults .swapResizeL) (faults .swapResizeR)
  intro n hn
  refine hm n ?_
  rw [← hn]
  unfold adaptSwap
  split <;> exact congrArg Prod.snd ‹_›

theorem HoldsAt.adaptStaged {log : List Event} {s : Shared} {cfg : AudioConfig}
    {faults : ActivateCall → Bool} {ok : Bool} {restore : Option StagedRestore}
    {swap : Option StagedSwap} (h : C.HoldsAt log s)
    (ha : adaptStaged s cfg faults = (ok, restore, swap)) :
    C.HoldsAt log { s with stagedRestore := restore, stagedSwap := swap } :=
  { h with
    stagedRestore := fun r hr => by
      replace hr : restore = some r := hr
      rw [adaptStaged_restore ha, Option.map_eq_some_iff] at hr
      obtain ⟨q, hq, rfl⟩ := hr
      exact adaptRestore_command (h.stagedRestore q hq) s cfg faults
    stagedSwap := fun w m hw hm => by
      replace hw : swap = some w := hw
      obtain hs | ⟨-, hs⟩ := adaptStaged_swap ha
      · rw [hs, Option.map_eq_some_iff] at hw
        obtain ⟨v, hv, rfl⟩ := hw
        exact adaptSwap_payload (fun m hm => h.stagedSwap v m hv hm) s cfg faults m hm
      · exact h.stagedSwap w m (hs.symm.trans hw) hm }

/-- The model an activation installs has the property. -/
theorem stagedModel_payload {log : List Event} {s : Shared} {restore : Option StagedRestore}
    {swap : Option StagedSwap}
    (h : C.HoldsAt log { s with stagedRestore := restore, stagedSwap := swap })
    {m : LoadModelPayload} (hm : stagedModel restore swap = some m) : C.Payload log m := by
  cases restore with
  | some r => exact h.stagedRestore r rfl m hm
  | none =>
    obtain ⟨w, hw, hm⟩ := Option.bind_eq_some_iff.1 hm
    exact h.stagedSwap w m hw hm

theorem HoldsAt.published {log : List Event} {s : Shared} (h : C.HoldsAt log s)
    (cfg : AudioConfig) (restore : Option StagedRestore) (a : Assembly) :
    C.HoldsAt log (s.published E cfg restore a) := by
  have ht : C.HoldsAt log s.taken :=
    { h with
      stagedRestore := fun r hr => by cases hr
      stagedSwap := fun w m hw => by cases hw }
  cases restore with
  | none => exact ht.of_eq rfl rfl rfl rfl rfl rfl rfl
  | some r =>
    simp only [Shared.published, Shared.publishStaged]
    rw [publishRestore_eq]
    exact ht.of_eq rfl rfl rfl rfl rfl rfl rfl

theorem published_log (s : Shared) (cfg : AudioConfig) (restore : Option StagedRestore)
    (a : Assembly) : (s.published E cfg restore a).log = s.log := by
  cases restore with
  | none => rfl
  | some r =>
    simp only [Shared.published, Shared.publishStaged]
    rw [publishRestore_eq]
    rfl

theorem HoldsAt.activates {s : Shared} {cfg : AudioConfig} {faults : ActivateCall → Bool}
    {x : Shared × Option Processor} (h : C.HoldsAt s.log s) (k : Activates E s cfg faults x) :
    C.HoldsAt x.1.log x.1 ∧ ∀ p, x.2 = some p → C.HoldsRt x.1.log p := by
  have hflush : ∀ (restore : Option StagedRestore) (a : Assembly) (r : Shared × Bool),
      (s.published E cfg restore a).flushPendingModel (fun c => faults (.flush c)) = r →
      r.1.log = s.log ∧ C.HoldsAt s.log r.1 := by
    rintro restore a _ rfl
    have hf := flushPendingModel_spec (s.published E cfg restore a) fun c => faults (.flush c)
    exact ⟨hf.log.trans (published_log E s cfg restore a),
      (h.published E cfg restore a).flushesModel hf⟩
  cases k with
  | noConsumer hc => exact ⟨h, fun p hp => by cases hp⟩
  | early hp hc => exact ⟨h.recoverRing, fun p hp => by cases hp⟩
  | adapt hp hg hl hb hpipe ha => exact ⟨(h.adaptStaged ha).recoverRing, fun p hp => by cases hp⟩
  | @flush restore swap pipe a t hprep hf =>
    obtain ⟨hlog, ht⟩ := hflush restore a _ hf
    refine ⟨?_, fun p hp => by cases hp⟩
    show C.HoldsAt t.log _
    rw [hlog]
    exact ht.rollback _
  | @ok restore swap pipe a t hprep hf =>
    obtain ⟨hlog, ht⟩ := hflush restore a _ hf
    show C.HoldsAt t.log _ ∧ ∀ p, _ → C.HoldsRt t.log p
    rw [hlog]
    refine ⟨{ ht with recovered := fun c hc => by cases hc }, fun p hp => ?_⟩
    obtain rfl := Option.some.inj hp
    exact ⟨ht.recovered, fun c hc => (by cases hc), fun c hc => (by cases hc)⟩

theorem HoldsAt.deactivate {s : Shared} (h : C.HoldsAt s.log s) (p : Processor) :
    C.HoldsAt (deactivate s p).log (deactivate s p) := by
  unfold NamPlug.deactivate
  cases p.deferred <;> exact h.of_eq rfl rfl rfl rfl rfl rfl rfl

/-! ## Runs -/

/-- Every step keeps the property of everything that is carried. -/
theorem holds_step {x y : Plugin} {a : Action} (hx : C.Holds x) (h : step E x a = some y) :
    C.Holds y := by
  cases a with
  | main a =>
    obtain rfl := Option.some.inj h
    refine ⟨hx.shared.main E a, fun p hp => ?_⟩
    obtain ⟨es, hl⟩ := (mainStep_frame E x.shared a).log
    show C.HoldsRt (mainStep E x.shared a).log p
    rw [hl]
    exact (hx.proc p hp).mono
  | audio a =>
    obtain ⟨p, hp, h⟩ := Option.bind_eq_some_iff.1 h
    obtain ⟨r, hr, rfl⟩ := Option.map_eq_some_iff.1 h
    obtain ⟨hs, hrt⟩ := Holds.audio E hx.shared (hx.proc p hp) hr
    exact ⟨hs, fun q hq => Option.some.inj hq ▸ hrt⟩
  | activate cfg faults =>
    simp only [step] at h
    split_ifs at h
    obtain rfl := Option.some.inj h
    obtain ⟨hs, hp⟩ := hx.shared.activates E (activate_spec E x.shared cfg faults)
    exact ⟨hs, hp⟩
  | deactivate =>
    simp only [step] at h
    split at h
    · split_ifs at h
      obtain rfl := Option.some.inj h
      exact ⟨hx.shared.deactivate _, fun p hp => by cases hp⟩
    · cases h

theorem holds_init : C.Holds (.init E.toParamEngine) where
  shared := ⟨fun _ h => (by cases h), fun _ h => (by cases h), fun _ h => (by cases h),
    fun _ _ h => (by cases h), fun _ h => (by cases h), fun _ _ h => (by cases h),
    fun _ _ h => (by cases h)⟩
  proc p h := by cases h

end

end Carriage

/-! ## The installed models -/

/-- A relation between the two models, of every processor and of what was kept at the last
deactivation. -/
structure PairInv (C : Carriage) (R : Option StaticModel → Option StaticModel → Prop)
    (x : Plugin) : Prop where
  carried : C.Holds x
  proc : ∀ p, x.proc = some p → R p.modelL p.modelR
  deactivated : ∀ d, x.shared.deactivatedDsp = some d → R d.modelL d.modelR

section
variable (E : Engine) {C : Carriage} {R : Option StaticModel → Option StaticModel → Prop}

/-- A step of the audio thread. -/
theorem pair_audio {s : Shared} {p : Processor} {a : AudioAction} {r : Shared × Processor}
    (hR : ∀ {log m}, C.Payload log m → R m.modelL m.modelR) (hp : C.HoldsRt s.log p)
    (hpair : R p.modelL p.modelR)
    (hslim : ∀ q, p.slim.deferred = some q → a = .slimmable .install → R (some q.model) p.modelR)
    (h : audioStep E s p a = some r) : R r.2.modelL r.2.modelR := by
  by_cases ha : a = .slimmable .install
  · subst ha
    simp only [audioStep] at h
    split_ifs at h
    cases slimmableMove_spec h with
    | @install q hd hg => exact hslim q hd rfl
  · refine audioStep_chain_invariant E (I := fun c => R c.modelL c.modelR) h hpair
      fun c hc op hop => ?_
    cases op with
    | command d =>
      show R (c.install E s.sampleRate d).modelL (c.install E s.sampleRate d).modelR
      obtain ⟨m, hm, hl, hr, -⟩ | ⟨-, hl, hr, -⟩ := Chain.install_model E s.sampleRate c d <;>
        rw [hl, hr]
      · exact hR (hp.ops hop m hm)
      · exact hc
    | slimmable q => exact absurd (audioOps_slimmable hop).1 ha
    | request ch => exact hc
    | reset => exact hc

/-- An activation, from its staged model or the one that was kept. -/
theorem pair_activates {s : Shared} {cfg : AudioConfig} {faults : ActivateCall → Bool}
    {x : Shared × Option Processor} (hR : ∀ {log m}, C.Payload log m → R m.modelL m.modelR)
    (h0 : R none none) (hs : C.HoldsAt s.log s)
    (hd : ∀ d, s.deactivatedDsp = some d → R d.modelL d.modelR)
    (h : Activates E s cfg faults x) : ∀ p, x.2 = some p → R p.modelL p.modelR := by
  intro p hp
  cases h with
  | @ok restore swap pipe a t hprep hf =>
    obtain rfl := Option.some.inj hp
    show R a.modelL a.modelR
    obtain ⟨m, hm, hl, hr, -⟩ | ⟨-, hk⟩ := hprep.models
    · rw [hl, hr]
      exact hR (Carriage.stagedModel_payload (hs.adaptStaged hprep.adapted) hm)
    · rw [hk.modelL, hk.modelR]
      cases hdeact : s.deactivatedDsp with
      | none => exact h0
      | some d => exact hd d hdeact
  | _ => cases hp

/-- Where the models that are carried are related, every step leaves the installed ones related, if a
slimmed model is related to the right model it is installed beside. -/
theorem PairInv.step {x y : Plugin} {a : Action} (hx : PairInv C R x)
    (hR : ∀ {log m}, C.Payload log m → R m.modelL m.modelR) (h0 : R none none)
    (hslim : ∀ p q, x.proc = some p → p.slim.deferred = some q →
      a = .audio (.slimmable .install) → R (some q.model) p.modelR)
    (h : step E x a = some y) : PairInv C R y := by
  refine ⟨Carriage.holds_step E hx.carried h, ?_, ?_⟩
  · cases a with
    | main a =>
      obtain rfl := Option.some.inj h
      exact hx.proc
    | audio a =>
      obtain ⟨p, hp, h⟩ := Option.bind_eq_some_iff.1 h
      obtain ⟨r, hr, rfl⟩ := Option.map_eq_some_iff.1 h
      rintro q ⟨⟩
      exact pair_audio E hR (hx.carried.proc p hp) (hx.proc p hp)
        (fun q hq ha => hslim p q hp hq (congrArg _ ha)) hr
    | activate cfg faults =>
      simp only [NamPlug.step] at h
      split_ifs at h
      obtain rfl := Option.some.inj h
      exact pair_activates E hR h0 hx.carried.shared hx.deactivated
        (activate_spec E x.shared cfg faults)
    | deactivate =>
      simp only [NamPlug.step] at h
      split at h
      · split_ifs at h
        obtain rfl := Option.some.inj h
        rintro p ⟨⟩
      · cases h
  · cases a with
    | main a =>
      obtain rfl := Option.some.inj h
      show ∀ d, (mainStep E x.shared a).deactivatedDsp = some d → _
      rw [(mainStep_frame E x.shared a).deactivatedDsp]
      exact hx.deactivated
    | audio a =>
      obtain ⟨p, hp, h⟩ := Option.bind_eq_some_iff.1 h
      obtain ⟨r, hr, rfl⟩ := Option.map_eq_some_iff.1 h
      show ∀ d, r.1.deactivatedDsp = some d → _
      rw [audioStep_shared E hr]
      exact hx.deactivated
    | activate cfg faults =>
      simp only [NamPlug.step] at h
      split_ifs at h
      obtain rfl := Option.some.inj h
      intro d hd
      obtain hk | hk := activates_deactivated E (activate_spec E x.shared cfg faults)
      · exact hx.deactivated d (hk.symm.trans hd)
      · cases hk.symm.trans hd
    | deactivate =>
      simp only [NamPlug.step] at h
      split at h
      · rename_i p hp
        split_ifs at h
        obtain rfl := Option.some.inj h
        intro d hd
        obtain rfl := Option.some.inj hd
        exact hx.proc p hp
      · cases h

theorem PairInv.init : PairInv C R (.init E.toParamEngine) :=
  ⟨Carriage.holds_init E, fun _ h => (by cases h), fun _ h => (by cases h)⟩

end

/-! ## The rates of a model -/

/-- A model, if there is one, has the native rate `rate`. -/
def RatedAt (rate : Nat) (m : Option StaticModel) : Prop := ∀ n, m = some n → n.rate = rate

theorem RatedAt.none (rate : Nat) : RatedAt rate none := fun _ h => by cases h

theorem RatedAt.resized {rate : Nat} {m : Option StaticModel} (h : RatedAt rate m) (n : Nat) :
    RatedAt rate (m.map (·.setMaxBufferSize n)) := by
  intro k hk
  obtain ⟨l, rfl, rfl⟩ := Option.map_eq_some_iff.1 hk
  exact h l rfl

theorem ratedAt_file (f : ModelFile) :
    RatedAt f.rate (some f.modelL) ∧ RatedAt f.rate f.modelR := by
  have hl : RatedAt f.rate (some f.modelL) := by rintro _ ⟨⟩; rfl
  refine ⟨hl, ?_⟩
  unfold ModelFile.modelR
  split
  · exact hl
  · exact .none _

theorem prepareModel_rates {file : ModelFile} {epoch : AudioEpoch} {faults : EngineCall → Bool}
    {prep : PreparedModel} (h : prepareModel file epoch faults = some prep) :
    RatedAt prep.file.rate prep.modelL ∧ RatedAt prep.file.rate prep.modelR ∧
      ∀ st, prep.newStream = some st → st.modelRate = prep.file.rate := by
  obtain ⟨hfl, hfr⟩ := ratedAt_file file
  cases prepareModel_spec h with
  | unsized hb hf hl hr hst =>
    rw [hf, hl, hr, hst]
    exact ⟨hfl, hfr, fun _ h => (by cases h)⟩
  | sized hb hf hl hr hst =>
    rw [hf, hl, hr, hst]
    refine ⟨hfl.resized epoch.bufferSize, hfr.resized epoch.bufferSize, ?_⟩
    rintro _ ⟨⟩
    rfl

/-- Models have the native rate that their stream and their package name. -/
def rateCarriage : Carriage where
  Payload _ m := m.newStream.modelRate = m.modelRate ∧ RatedAt m.modelRate m.modelL ∧
    RatedAt m.modelRate m.modelR
  Pending _ p := RatedAt p.modelRate p.model ∧ RatedAt p.modelRate p.modelR
  Result prep := RatedAt prep.file.rate prep.modelL ∧ RatedAt prep.file.rate prep.modelR ∧
    ∀ st, prep.newStream = some st → st.modelRate = prep.file.rate
  payload_mono h := h
  pending_mono h := h
  prepared := prepareModel_rates
  adapt := by
    rintro log prep s faults g m ⟨hl, hr, hst⟩ ha -
    obtain rfl | ⟨-, res, st, -, h, rfl⟩ := adapt_cases ha
    · exact ⟨rfl, hl.resized s.bufferSize, hr.resized s.bufferSize⟩
    · exact ⟨hst st h, hl, hr⟩
  retained h _ := ⟨h.1, h.2.1⟩
  clearPayload _ := ⟨rfl, .none _, .none _⟩
  clearPending _ := ⟨.none _, .none _⟩
  restorePayload := by
    intro log s f g _
    obtain ⟨hl, hr⟩ := ratedAt_file f
    simp only [restoreModel]
    split
    · exact ⟨rfl, hl.resized s.bufferSize, hr.resized s.bufferSize⟩
    · exact ⟨rfl, hl, hr⟩
  restorePending _ := ratedAt_file _
  toPending h := h.2
  rebuilt h := ⟨rfl, h.1.resized _, h.2.resized _⟩
  rebuiltStaged h := ⟨h.1, h.2.1.resized _, h.2.2.resized _⟩
  resizedPending h := ⟨h.1.resized _, h.2⟩
  resizedPayload h := ⟨h.1, h.2.1.resized _, h.2.2⟩

/-! ## Whole models -/

/-- A model has the channels of its weights. -/
def Uncut (m : Option StaticModel) : Prop := ∀ n, m = some n → n.channels = n.fullChannels

theorem uncut_none : Uncut none := fun _ h => by cases h

theorem Uncut.resized {m : Option StaticModel} (h : Uncut m) (n : Nat) :
    Uncut (m.map (·.setMaxBufferSize n)) := by
  intro k hk
  obtain ⟨l, rfl, rfl⟩ := Option.map_eq_some_iff.1 hk
  exact h l rfl

theorem uncut_file (f : ModelFile) : Uncut (some f.modelL) ∧ Uncut f.modelR := by
  have hl : Uncut (some f.modelL) := by rintro _ ⟨⟩; rfl
  refine ⟨hl, ?_⟩
  unfold ModelFile.modelR
  split
  · exact hl
  · exact uncut_none

/-- No model that is carried is cut: a cut one goes through the rebuild ring. -/
def uncutCarriage : Carriage where
  Payload _ m := Uncut m.modelL ∧ Uncut m.modelR
  Pending _ p := Uncut p.model ∧ Uncut p.modelR
  Result prep := Uncut prep.modelL ∧ Uncut prep.modelR
  payload_mono h := h
  pending_mono h := h
  prepared := by
    intro file epoch faults prep h
    obtain ⟨hfl, hfr⟩ := uncut_file file
    cases prepareModel_spec h with
    | unsized hb hf hl hr hst =>
      rw [hl, hr]
      exact ⟨hfl, hfr⟩
    | sized hb hf hl hr hst =>
      rw [hl, hr]
      exact ⟨hfl.resized epoch.bufferSize, hfr.resized epoch.bufferSize⟩
  adapt := by
    rintro log prep s faults g m ⟨hl, hr⟩ ha -
    obtain rfl | ⟨-, res, st, -, -, rfl⟩ := adapt_cases ha
    · exact ⟨hl.resized s.bufferSize, hr.resized s.bufferSize⟩
    · exact ⟨hl, hr⟩
  retained h _ := h
  clearPayload _ := ⟨uncut_none, uncut_none⟩
  clearPending _ := ⟨uncut_none, uncut_none⟩
  restorePayload := by
    intro log s f g _
    obtain ⟨hl, hr⟩ := uncut_file f
    simp only [restoreModel]
    split
    · exact ⟨hl.resized s.bufferSize, hr.resized s.bufferSize⟩
    · exact ⟨hl, hr⟩
  restorePending _ := uncut_file _
  toPending h := h
  rebuilt h := ⟨h.1.resized _, h.2.resized _⟩
  rebuiltStaged h := ⟨h.1.resized _, h.2.resized _⟩
  resizedPending h := ⟨h.1.resized _, h.2⟩
  resizedPayload h := ⟨h.1.resized _, h.2⟩

end NamPlug
