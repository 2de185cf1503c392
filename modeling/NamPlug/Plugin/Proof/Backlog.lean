import NamPlug.Plugin.Backlog
import NamPlug.Plugin.Proof.Chain
import NamPlug.Plugin.Proof.Level
import NamPlug.Plugin.Proof.Newest

/-!
# The drain is transparent

`drain_transparent`: whichever moves the callbacks make, and whatever the main thread does between
them, a processor stands for the chain that took every command at once and in order. A command that
is superseded leaves no trace, one that is parked is only late, and light parameters that overtake a
structural command meet nothing of the chain.
-/

namespace NamPlug

open Machine Ticket

/-! ## Arrivals commute -/

section
variable (E : Engine) (h : Nat)

theorem Chain.loadCabsim_heard (c : Chain) (pair : Option CabSimPair) :
    (c.heard.loadCabsim E h pair).heard = (c.loadCabsim E h pair).heard := by
  unfold Chain.loadCabsim
  split <;> rfl

theorem Chain.loadModel_heard (c : Chain) (m : LoadModelPayload) :
    (c.heard.loadModel E m).heard = (c.loadModel E m).heard := rfl

/-- What a command does does not depend on the adaptive controller. -/
theorem Chain.install_heard (c : Chain) (d : ClapParamPayload) :
    (c.heard.install E h d).heard = (c.install E h d).heard := by
  cases d with
  | params q => rfl
  | loadModel m => rfl
  | loadCabIr pair => exact c.loadCabsim_heard E h pair
  | setOversample osL osR => rfl
  | restoreTxn txn =>
    obtain ⟨g, model, ir, params⟩ := txn
    cases model with
    | none =>
      cases ir with
      | none => rfl
      | some pair => exact c.loadCabsim_heard E h pair
    | some m =>
      cases ir with
      | none => rfl
      | some pair =>
        show ((c.heard.loadModel E m).loadCabsim E h pair).heard =
          ((c.loadModel E m).loadCabsim E h pair).heard
        rw [← Chain.loadCabsim_heard, c.loadModel_heard, Chain.loadCabsim_heard]

theorem Chain.arrive_command (c : Chain) (d : ClapParamPayload) :
    c.heard.arrive E h (.command d) = (c.install E h d).heard := c.install_heard E h d

/-- A command that is superseded leaves no trace. -/
theorem arrive_superseded (c : Chain) {new old : ClapParamPayload} (hs : new.supersedes old = true)
    (hnew : new.AtRate h) :
    (c.arrive E h (.command old)).arrive E h (.command new) = c.arrive E h (.command new) := by
  cases new with
  | params q => cases old <;> cases hs
  | restoreTxn txn => cases old <;> cases hs
  | loadModel m =>
    cases old with
    | loadModel n => rfl
    | _ => cases hs
  | setOversample osL osR =>
    cases old with
    | setOversample l r => rfl
    | _ => cases hs
  | loadCabIr pair =>
    cases old with
    | loadCabIr pair' =>
      have hfresh := hnew pair rfl
      simp only [Chain.arrive, Chain.install, Chain.loadCabsim, hfresh, Bool.false_eq_true,
        if_false]
      split <;> rfl
    | _ => cases hs

/-- A chain with its left model slimmed. -/
def Chain.slimmed (c : Chain) (m : StaticModel) : Chain := { c with modelL := some m }

theorem Chain.loadCabsim_slimmed (c : Chain) (m : StaticModel) (pair : Option CabSimPair) :
    (c.slimmed m).loadCabsim E h pair = (c.loadCabsim E h pair).slimmed m := by
  unfold Chain.loadCabsim
  split <;> rfl

/-- A command with a model leaves nothing of a slimmed one. -/
theorem arrive_model (c : Chain) (m : StaticModel) {d : ClapParamPayload}
    (hd : d.model?.isSome = true) :
    (c.slimmed m).arrive E h (.command d) = c.arrive E h (.command d) := by
  cases d with
  | loadModel n => rfl
  | restoreTxn txn =>
    obtain ⟨g, model, ir, params⟩ := txn
    cases model with
    | none => cases hd
    | some n => rfl
  | _ => cases hd

/-- Any other command keeps the model. -/
theorem arrive_other (c : Chain) (m : StaticModel) {d : ClapParamPayload} (hd : d.model? = none) :
    (c.slimmed m).arrive E h (.command d) = (c.arrive E h (.command d)).slimmed m := by
  have hcab : ∀ pair, ((c.slimmed m).loadCabsim E h pair).heard =
      (c.loadCabsim E h pair).heard.slimmed m := fun pair => by
    rw [c.loadCabsim_slimmed E h m pair]
    rfl
  cases d with
  | params q => rfl
  | loadModel n => cases hd
  | loadCabIr pair => exact hcab pair
  | setOversample osL osR => rfl
  | restoreTxn txn =>
    obtain ⟨g, model, ir, params⟩ := txn
    cases model with
    | some n => cases hd
    | none =>
      cases ir with
      | none => rfl
      | some pair => exact hcab pair

@[simp] theorem Chain.arriveAll_nil (c : Chain) : c.arriveAll E h [] = c := rfl

theorem Chain.arriveAll_cons (c : Chain) (d : ClapParamPayload) (ds : List ClapParamPayload) :
    c.arriveAll E h (d :: ds) = (c.arrive E h (.command d)).arriveAll E h ds := rfl

theorem Chain.arriveAll_append (c : Chain) (ds es : List ClapParamPayload) :
    c.arriveAll E h (ds ++ es) = (c.arriveAll E h ds).arriveAll E h es := by
  rw [Chain.arriveAll, List.map_append, List.foldl_append]
  rfl

/-- The generation is that of the last command with a model. -/
theorem Chain.arriveAll_generation (c : Chain) (ds : List ClapParamPayload) :
    (c.arriveAll E h ds).modelGeneration = (modelGenerations ds).getLastD c.modelGeneration := by
  induction ds generalizing c with
  | nil => rfl
  | cons d ds ih =>
    rw [c.arriveAll_cons, ih, modelGenerations_cons]
    show (modelGenerations ds).getLastD (c.install E h d).modelGeneration = _
    obtain ⟨m, hm, -, -, hg, -⟩ | ⟨hm, -, -, hg, -⟩ := c.install_model E h d
    · have hd : modelGenerations [d] = [m.generation] := by simp [modelGenerations, hm]
      rw [hg, hd, List.singleton_append, List.getLastD_cons]
    · have hd : modelGenerations [d] = [] := by simp [modelGenerations, hm]
      rw [hg, hd, List.nil_append]

/-- Where no command has a model, a slimmed model stays. -/
theorem Chain.arriveAll_kept (c : Chain) (m : StaticModel) {ds : List ClapParamPayload}
    (hds : modelGenerations ds = []) :
    (c.slimmed m).arriveAll E h ds = (c.arriveAll E h ds).slimmed m := by
  induction ds generalizing c with
  | nil => rfl
  | cons d ds ih =>
    rw [modelGenerations_cons] at hds
    obtain ⟨hd, hds⟩ := List.append_eq_nil_iff.1 hds
    have hd : d.model? = none := by
      cases hm : d.model? with
      | none => rfl
      | some n => simp [modelGenerations, hm] at hd
    rw [Chain.arriveAll_cons, Chain.arriveAll_cons, arrive_other E h c m hd, ih _ hds]

/-- Else it is replaced. -/
theorem Chain.arriveAll_replaced (c : Chain) (m : StaticModel) {ds : List ClapParamPayload}
    (hds : modelGenerations ds ≠ []) : (c.slimmed m).arriveAll E h ds = c.arriveAll E h ds := by
  induction ds generalizing c with
  | nil => exact absurd rfl hds
  | cons d ds ih =>
    rw [Chain.arriveAll_cons, Chain.arriveAll_cons]
    cases hd : d.model? with
    | some n => rw [arrive_model E h c m (by rw [hd]; rfl)]
    | none =>
      have hg : modelGenerations [d] = [] := by simp [modelGenerations, hd]
      rw [modelGenerations_cons, hg, List.nil_append] at hds
      rw [arrive_other E h c m hd, ih _ hds]

theorem Chain.arriveAll_heard (c : Chain) (ds : List ClapParamPayload) :
    (c.heard.arriveAll E h ds).heard = c.heard.arriveAll E h ds := by
  induction ds generalizing c with
  | nil => rfl
  | cons d ds ih => exact ih (c.heard.install E h d)

/-- Light parameters meet nothing of the chain, wherever they come. -/
theorem Chain.arriveAll_params (c : Chain) (q : RtProcessingParams) (ds es : List ClapParamPayload) :
    c.heard.arriveAll E h (ds ++ .params q :: es) = c.heard.arriveAll E h (ds ++ es) := by
  rw [Chain.arriveAll_append, Chain.arriveAll_append, Chain.arriveAll_cons]
  exact congrArg (·.arriveAll E h es) (c.arriveAll_heard E h ds)

/-- The operations of a chain on commands. -/
theorem foldl_commands (c : Chain) (ds : List ClapParamPayload) :
    ((ds.map ChainOp.command).foldl (Chain.apply E h) c).heard = c.heard.arriveAll E h ds := by
  induction ds generalizing c with
  | nil => rfl
  | cons d ds ih =>
    rw [List.map_cons, List.foldl_cons, ih, Chain.arriveAll_cons, Chain.arrive_command]
    rfl

end

/-! ## Steps of the audio thread -/

theorem AudioFrame.backlog {r r' : Shared × Processor} (h : AudioFrame r r') :
    backlog r'.1 r'.2 = NamPlug.backlog r.1 r.2 := by
  rw [h.shared, h.proc]
  rfl

section
variable (E : Engine) {s : Shared} {p : Processor}

/-- A move of the drain. -/
theorem drainMove_settled {m : DrainMove} {r : Shared × Processor} (hc : Counts s p)
    (hrec : p.recoveredCommands = []) (hrate : ∀ c ∈ backlog s p, c.AtRate s.sampleRate)
    (hm : drainMove E s p m = some r) : settled E r.1 r.2 = settled E s p := by
  have hinstall : ∀ (t : Shared) (q : Processor) (c : ClapParamPayload),
      settled E (install E t q c).1 (install E t q c).2 =
        (q.chain t).heard.arriveAll E t.sampleRate (c :: backlog t q) := by
    intro t q c
    have hb := (applyStructural_frame E t { q with resolved := q.resolved + 1 } c).backlog
    have hh := applyStructural_chain E t { q with resolved := q.resolved + 1 } c
    have hr := applyStructural_sampleRate E t { q with resolved := q.resolved + 1 } c
    unfold settled install
    rw [hb, hh, hr, Chain.arriveAll_cons, Chain.arrive_command]
    rfl
  have hlist : backlog s p = p.deferred.toList ++ p.candidate.toList ++ s.ring := by
    rw [backlog, hrec, List.nil_append]
  rw [hlist] at hrate
  have hs : settled E s p = (p.chain s).heard.arriveAll E s.sampleRate
      (p.deferred.toList ++ p.candidate.toList ++ s.ring) := by rw [settled, hlist]
  rw [hs]
  cases drainMove_spec E hm with
  | @installDeferred d hd =>
    rw [hinstall, hd, hc.noCandidate hd]
    simp only [backlog, Processor.unpark, hrec, hc.noCandidate hd]
    rfl
  | @discardDeferred d c rest hd hr hsup =>
    rw [hd, hc.noCandidate hd, hr] at hrate ⊢
    have hfresh := hrate c (by simp)
    have hb : backlog s (discard p.unpark) = c :: rest := by
      simp [backlog, discard, Processor.unpark, hrec, hc.noCandidate hd, hr]
    show (p.chain s).heard.arriveAll E s.sampleRate (backlog s (discard p.unpark)) =
      (p.chain s).heard.arriveAll E s.sampleRate (d :: c :: rest)
    rw [hb]
    simp only [Chain.arriveAll_cons, arrive_superseded E _ _ hsup hfresh]
  | @applyParams q rest hd hr =>
    rw [hinstall, hd, hr]
    simp only [backlog, Processor.pop, Shared.popped, hrec, hd, Option.toList_none,
      List.nil_append]
    rw [Chain.arriveAll_params]
    exact (p.chain s).arriveAll_params E s.sampleRate q [] (p.candidate.toList ++ rest)
  | @popCandidate c rest hd hcand hr hst =>
    simp only [settled, backlog, Processor.pop, Shared.popped, hrec, hd, hcand, hr]
    rfl
  | @supersede c d rest hd hcand hr hsup =>
    rw [hd, hcand, hr] at hrate ⊢
    have hfresh := hrate d (by simp)
    simp only [settled, backlog, discard, Processor.pop, Shared.popped, hrec, hd]
    show (p.chain s).heard.arriveAll E s.sampleRate (d :: rest) =
      (p.chain s).heard.arriveAll E s.sampleRate (c :: d :: rest)
    simp only [Chain.arriveAll_cons, arrive_superseded E _ _ hsup hfresh]
  | @installCandidate c hd hcand =>
    rw [hinstall, hd, hcand]
    simp only [backlog, hrec]
    rfl

theorem endDrain_backlog (hc : Counts s p) :
    backlog (endDrain s p).1 (endDrain s p).2 = backlog s p := by
  unfold endDrain
  cases hcand : p.candidate with
  | none => rw [backlog, backlog]
  | some c => simp only [backlog, hcand, hc.noDeferred hcand, Option.toList_none, List.append_nil]

/-- A step that does no more to the chain than the adaptive controller does leaves what it stands
for. -/
theorem settled_of_heard {r : Shared × Processor} (hb : backlog r.1 r.2 = backlog s p)
    (hr : r.1.sampleRate = s.sampleRate) (hh : (r.2.chain r.1).heard = (p.chain s).heard) :
    settled E r.1 r.2 = settled E s p := by
  rw [settled, settled, hb, hr, hh]

/-- A slimmed model that is installed. A command with a model that waits replaces it. -/
theorem installSlimmable_settled {q : SlimmableRebuild} (hg : q.generation = p.modelGeneration)
    (hnew : p.modelGeneration ∉ modelGenerations (backlog s p)) :
    settled E s (installSlimmable p q) =
      (settled E s p).arrive E s.sampleRate (.slimmable q) := by
  have hs : settled E s (installSlimmable p q) =
      ((p.chain s).heard.slimmed q.model).arriveAll E s.sampleRate (backlog s p) := rfl
  have hgen : (settled E s p).modelGeneration =
      (modelGenerations (backlog s p)).getLastD p.modelGeneration :=
    Chain.arriveAll_generation E s.sampleRate (p.chain s).heard (backlog s p)
  rw [hs, Chain.arrive, hg]
  by_cases hm : modelGenerations (backlog s p) = []
  · rw [Chain.arriveAll_kept E _ _ _ hm, if_pos (by rw [hgen, hm]; rfl)]
    rfl
  · rw [Chain.arriveAll_replaced E _ _ _ hm, if_neg]
    · rfl
    · rw [hgen]
      rw [List.getLastD_eq_getLast?, List.getLast?_eq_some_getLast hm, Option.getD_some]
      exact fun h => hnew (h ▸ List.getLast_mem hm)

/-- A step of the audio thread does no more to what the processor stands for than what reaches its
chain. -/
theorem audioStep_settled {a : AudioAction} {r : Shared × Processor} (hc : Counts s p)
    (hrec : p.inCallback = true → p.recoveredCommands = [])
    (hrate : ∀ c ∈ backlog s p, c.AtRate s.sampleRate)
    (hnew : p.modelGeneration ∉ modelGenerations (backlog s p))
    (h : audioStep E s p a = some r) : settled E r.1 r.2 =
      (audioArrivals p a).foldl (Chain.arrive E s.sampleRate) (settled E s p) := by
  have hchain := audioStep_chain E h
  have hr := (audioStep_config E h).1
  by_cases ha : a.isCommand = false
  · have hb := (audioStep_frame E ha h).backlog
    cases a <;> simp only [AudioAction.isCommand, Bool.true_eq_false] at ha
    case slimmable m =>
      simp only [audioStep] at h
      split_ifs at h
      cases slimmableMove_spec h with
      | take hd hring => exact settled_of_heard E hb hr (congrArg Chain.heard hchain)
      | discard hd hstale => exact settled_of_heard E hb hr (congrArg Chain.heard hchain)
      | @install q hd hg =>
        simp only [audioArrivals, hd]
        exact installSlimmable_settled E hg hnew
    all_goals
      refine settled_of_heard E hb hr ?_
      rw [hchain]
      rfl
  cases a <;> simp only [AudioAction.isCommand, not_true_eq_false] at ha
  case beginEvents room =>
    simp only [audioStep] at h
    split_ifs at h
    obtain rfl := Option.some.inj h
    have hb := (replayRecovered_frame E { s with ui := (writeGuiEvents s.ui room).ui }
      { p with inCallback := true }).backlog
    have hb : backlog (beginEvents E s p room).1 (beginEvents E s p room).2 =
        [] ++ p.deferred.toList ++ p.candidate.toList ++ s.ring := hb
    show settled E _ _ = settled E s p
    unfold settled
    rw [hb, hr, hchain, audioOps, foldl_commands, ← Chain.arriveAll_append, backlog,
      List.nil_append, List.append_assoc p.recoveredCommands, List.append_assoc p.recoveredCommands]
  case drain m =>
    simp only [audioStep] at h
    split_ifs at h with hin
    exact drainMove_settled E hc (hrec hin) hrate h
  case endEvents =>
    simp only [audioStep] at h
    split_ifs at h
    obtain rfl := Option.some.inj h
    obtain ⟨q, hf, he⟩ := endEvents_frame E s p
    have hb : backlog q.1 { q.2 with inCallback := false } =
      backlog (endDrain s p).1 (endDrain s p).2 := hf.backlog
    refine settled_of_heard E ?_ hr (congrArg Chain.heard hchain)
    rw [he, hb, endDrain_backlog hc]

end

/-! ## The main thread -/

/-- What an operation of the main thread puts on the ring has the rate of the host. -/
def Shared.SendsAtRate (s t : Shared) : Prop :=
  ∀ c ∈ t.ring, c ∈ s.ring ∨ c.AtRate s.sampleRate

section
variable {s t : Shared}

theorem Shared.SendsAtRate.of_ring (h : t.ring = s.ring) : s.SendsAtRate t := fun _ hc =>
  .inl (h ▸ hc)

theorem Shared.SendsAtRate.sent {u : Shared} {ps : List ClapParamPayload} {c : ClapParamPayload}
    {o : Option RtProcessingParams} (hf : Flushed u ps o) (hc : c.AtRate s.sampleRate)
    (ht : t.ring = s.ring ++ (ps ++ [c])) : s.SendsAtRate t := by
  intro d hd
  rw [ht] at hd
  obtain hd | hd := List.mem_append.1 hd
  · exact .inl hd
  · obtain hd | hd := List.mem_append.1 hd
    · obtain ⟨q, rfl, -⟩ := hf.mem d hd
      exact .inr fun _ h => by cases h
    · exact .inr (List.mem_singleton.1 hd ▸ hc)

theorem Shared.SendsAtRate.flushed {u : Shared} {ps : List ClapParamPayload}
    {o : Option RtProcessingParams} (hf : Flushed u ps o) (ht : t.ring = s.ring ++ ps) :
    s.SendsAtRate t := by
  intro d hd
  rw [ht] at hd
  obtain hd | hd := List.mem_append.1 hd
  · exact .inl hd
  · obtain ⟨q, rfl, -⟩ := hf.mem d hd
    exact .inr fun _ h => by cases h

theorem Swaps.atRate {m : LoadModelPayload} (h : Swaps s m t) : s.SendsAtRate t := by
  cases h with
  | sent hf => exact .sent hf (fun _ h => by cases h) rfl
  | retained hf => exact .flushed hf rfl
  | staged => exact .of_ring rfl

theorem Commits.atRate {prep : PreparedModel} {g : Nat} (h : Commits s prep g t) :
    s.SendsAtRate t := by
  cases h with
  | inactive h => exact .of_ring rfl
  | failed => exact .of_ring rfl
  | swapped hb hg ha ht hm => exact ht.atRate

theorem Clears.atRate (h : Clears s t) : s.SendsAtRate t := by
  cases h with
  | inactive h => exact .of_ring rfl
  | failed h => exact .of_ring rfl
  | swapped hb hg ha ht hm => exact ht.atRate

theorem Polls.atRate (h : Polls s t) : s.SendsAtRate t := by
  cases h with
  | idle h => exact .of_ring rfl
  | dropped => exact .of_ring rfl
  | commits hr hg h0 ho ht => exact ht.atRate

theorem FlushesModel.atRate {r : Shared × Bool} (h : FlushesModel s r) : s.SendsAtRate r.1 := by
  cases h with
  | idle h => exact .of_ring rfl
  | failed hp hb hg ha hq => exact .of_ring rfl
  | sent hp hb hg ha hf hm => exact .sent hf (fun _ h => by cases h) rfl
  | kept hp hb hg ha hf hq => exact .flushed hf rfl

theorem LoadsIr.atRate {ir : Asset} (h : LoadsIr s ir t) : s.SendsAtRate t := by
  cases h with
  | recorded h => exact .of_ring rfl
  | failed h hb => exact .of_ring rfl
  | sent h hb hf hl =>
    refine .sent hf ?_ rfl
    rintro pair ⟨⟩
    simp only [CabSimPair.builtElsewhere, Shared.hostRate]
    split_ifs with h0 <;> simp [h0]
  | kept h hb hf => exact .flushed hf rfl
  | staged h hb => exact .of_ring rfl

theorem noteRestore_ring (s : Shared) (txn : RestoreTxn) : (s.noteRestore txn).ring = s.ring := by
  rw [noteRestore_eq]

theorem Restores.atRate {v : ValidatedRestore} {mode : RestoreMode} (h : Restores s v mode t) :
    s.SendsAtRate t := by
  cases h with
  | failed => exact .of_ring rfl
  | staged hp => exact .of_ring ((noteRestore_ring _ _).trans (by rw [hp.state]))
  | @sent _ _ txn _ hp hf =>
    have hc : ClapParamPayload.AtRate s.sampleRate (.restoreTxn txn) := fun _ h => by cases h
    refine .sent hf hc ((noteRestore_ring _ _).trans ?_)
    rw [hp.state]
    rfl
  | kept hp hf =>
    refine .flushed hf ((noteRestore_ring _ _).trans ?_)
    rw [hp.state]
    rfl

theorem publishIfAcked_ring (s : Shared) : s.publishIfAcked.ring = s.ring := by
  obtain h | ⟨r, -, -, -, h⟩ := publishIfAcked_cases s <;> rw [h]
  rw [acknowledged_eq]

theorem FlushesRestore.atRate (h : FlushesRestore s t) : s.SendsAtRate t := by
  cases h with
  | idle h => exact .of_ring rfl
  | waiting hr ht => exact .of_ring (publishIfAcked_ring s)
  | sent hr ht hf => exact .sent hf (fun _ h => by cases h) (publishIfAcked_ring _)
  | kept hr ht hf => exact .flushed hf rfl

theorem localCommit_ring (s : Shared) (v : ValidatedRestore) (mode : RestoreMode) :
    (s.localCommit v mode).ring = s.ring := by
  have hir : ∀ t : Shared, (t.localIr v mode).ring = t.ring := by
    intro t
    unfold Shared.localIr
    split <;> rfl
  have hmodel : (s.localModel v mode).ring = s.ring := by
    unfold Shared.localModel
    split <;> rfl
  exact (hir _).trans hmodel

variable (E : Engine)

theorem loadModel_atRate (s : Shared) (file : ModelFile) (faults : EngineCall → Bool) :
    s.SendsAtRate (s.loadModel E file faults) := by
  obtain h | ⟨prep, h, -⟩ := loadModel_spec E s file faults
  · exact .of_ring (by rw [h])
  · exact h.atRate

theorem mainStep_atRate (s : Shared) (a : MainAction) : s.SendsAtRate (mainStep E s a) := by
  by_cases hq : a.isQuiet = true
  · intro c hc
    obtain hc | ⟨q, rfl⟩ | ⟨f, -, -, rfl⟩ := quiet_ring E s hq c hc
    · exact .inl hc
    · exact .inr fun _ h => by cases h
    · exact .inr fun _ h => by cases h
  cases a <;> simp only [MainAction.isQuiet, not_true_eq_false] at hq <;> simp only [mainStep]
  case loadModel file faults => exact loadModel_atRate E s file faults
  case clearModel faults => exact (clearModel_spec E s faults).atRate
  case dispatchModelLoadSync file faults =>
    obtain ⟨jobs, h⟩ | ⟨jobs, f, h⟩ := dispatchModelLoadSync_spec E s file faults
    · exact .of_ring (by rw [h])
    · rw [h]
      exact loadModel_atRate E { s with pendingAsyncLoads := jobs } f faults
  case pollModelLoaderResult faults => exact (pollModelLoaderResult_spec E s faults).atRate
  case flushPendingModel faults => exact (flushPendingModel_spec s faults).atRate
  case handlePendingIr ir faults =>
    exact (loadCabsim_spec { s with uiPendingIr := none } ir faults).atRate
  case clearIr =>
    refine .of_ring ?_
    unfold Shared.clearIr
    split <;> rfl
  case restore v mode faults =>
    unfold Shared.commitRestore
    split
    · exact .of_ring (localCommit_ring s v mode)
    · exact (atomicCommit_spec E s v mode faults).atRate
  case flushPendingRestore => exact (flushPendingRestore_spec s).atRate

/-- What the main thread sends is installed behind the backlog. -/
theorem mainStep_settled (s : Shared) (p : Processor) (a : MainAction) :
    settled E (mainStep E s a) p =
      (((mainStep E s a).ring.drop s.ring.length).map .command).foldl
        (Chain.arrive E s.sampleRate) (settled E s p) := by
  obtain ⟨ps, hr⟩ := (mainStep_frame E s a).sent
  have hb : backlog (mainStep E s a) p = backlog s p ++ ps := by
    rw [backlog, hr, ← List.append_assoc]
    rfl
  rw [hr, List.drop_left, settled, hb, mainStep_chain, (mainStep_frame E s a).sampleRate,
    Chain.arriveAll_append]
  rfl

end

/-! ## Runs -/

/-- The model that is installed or kept is not on its way any more, and recovered commands are
replayed before a callback does anything else. -/
structure BacklogInv (x : Plugin) : Prop where
  numbered : Numbered x
  counts : PluginCounts x.shared x.proc
  installed : Spent x.shared.modelGeneration x.tickets x.installedGeneration
  replayed : ∀ p, x.proc = some p → p.inCallback = true → p.recoveredCommands = []

section
variable {E : Engine} {x y : Plugin}

/-- The generation an activation starts with. -/
theorem activates_installed {cfg : AudioConfig} {faults : ActivateCall → Bool} (hx : BacklogInv x)
    (hproc : x.proc = none) {r : Shared × Option Processor}
    (h : Activates E x.shared cfg faults r)
    (hk : Spent r.1.modelGeneration (Plugin.tickets ⟨r.1, r.2⟩) x.shared.keptGeneration)
    (h0 : Spent r.1.modelGeneration (Plugin.tickets ⟨r.1, r.2⟩) 0) :
    Spent r.1.modelGeneration (Plugin.tickets ⟨r.1, r.2⟩)
      (Plugin.installedGeneration ⟨r.1, r.2⟩) := by
  have hfailed : r.2 = none → Spent r.1.modelGeneration (Plugin.tickets ⟨r.1, r.2⟩)
      (Plugin.installedGeneration ⟨r.1, r.2⟩) := by
    intro hr
    simp only [Plugin.installedGeneration, Shared.keptGeneration, hr, Option.map_none,
      Option.getD_none] at hk h0 ⊢
    obtain he | he := activates_deactivated E h <;> rw [he]
    · exact hk
    · exact h0
  have hstaged : r.2.isSome = true → ∀ g ∈ x.shared.stagedGenerations,
      Spent r.1.modelGeneration (Plugin.tickets ⟨r.1, r.2⟩) g := fun hok g hg =>
    (staged_spent E hx.numbered hproc h hok hg).2
  cases h with
  | @ok restore swap pipe a t hprep hf =>
    show Spent _ _ a.modelGeneration
    rw [hprep.generation, Shared.startGeneration]
    cases hm : stagedModel x.shared.stagedRestore x.shared.stagedSwap with
    | none => exact hk
    | some m => exact hstaged rfl m.generation (stagedModel_mem hm)
  | _ => exact hfailed rfl

theorem inactive_installedGeneration (s : Shared) :
    Plugin.installedGeneration ⟨s, none⟩ = s.keptGeneration := rfl

theorem deactivate_keptGeneration (s : Shared) (p : Processor) :
    (deactivate s p).keptGeneration = p.modelGeneration := by
  unfold deactivate
  cases p.deferred <;> rfl

theorem backlogInv_step {a : Action} (hx : BacklogInv x) (h : step E x a = some y) : BacklogInv y := by
  have hn := numbered_step E hx.numbered h
  have hc := hx.counts.step E h
  have hmoves := (step_renumbered E h).1
  have hspent := hx.installed.moves hmoves
  cases a with
  | main a =>
    obtain rfl := Option.some.inj h
    have hkept : (mainStep E x.shared a).keptGeneration = x.shared.keptGeneration := by
      rw [Shared.keptGeneration, (mainStep_frame E x.shared a).deactivatedDsp]
      rfl
    refine ⟨hn, hc, ?_, hx.replayed⟩
    have hin : Plugin.installedGeneration { x with shared := mainStep E x.shared a } =
        x.installedGeneration := by
      rw [Plugin.installedGeneration, hkept]
      rfl
    rw [hin]
    exact hspent
  | audio a =>
    have hstep := h
    obtain ⟨p, hp, h⟩ := Option.bind_eq_some_iff.1 h
    obtain ⟨r, hr, rfl⟩ := Option.map_eq_some_iff.1 h
    refine ⟨hn, hc, ?_, ?_⟩
    · show Spent _ _ r.2.modelGeneration
      rw [audioStep_generation E hr]
      cases hi : installing p a with
      | nil =>
        have hin : x.installedGeneration = p.modelGeneration := by
          rw [Plugin.installedGeneration, hp]
          rfl
        exact hin ▸ hspent
      | cons g gs =>
        rw [List.getLastD_eq_getLast?, List.getLast?_eq_some_getLast (List.cons_ne_nil g gs)]
        refine hx.numbered.installed E hp hstep ?_
        rw [hi]
        exact List.getLast_mem (List.cons_ne_nil g gs)
    · rintro q ⟨⟩
      exact audioStep_replayed (hx.replayed p hp) hr
  | activate cfg faults =>
    simp only [step] at h
    split_ifs at h with hproc
    obtain rfl := Option.some.inj h
    have hproc := Option.not_isSome_iff_eq_none.1 hproc
    have hspec := activate_spec E x.shared cfg faults
    have hin : x.installedGeneration = x.shared.keptGeneration := by
      simp only [Plugin.installedGeneration, hproc, Option.map_none, Option.getD_none]
    refine ⟨hn, hc, activates_installed hx hproc hspec (hin ▸ hspent) hn.tickets.spent_zero, ?_⟩
    generalize x.shared.activate E cfg faults = r at hspec
    cases hspec with
    | ok hprep hf =>
      rintro p ⟨⟩ hcb
      cases hcb
    | _ => rintro p ⟨⟩
  | deactivate =>
    simp only [step] at h
    split at h
    · rename_i p hp
      split_ifs at h
      obtain rfl := Option.some.inj h
      refine ⟨hn, hc, ?_, fun q hq => by cases hq⟩
      have hin : x.installedGeneration = p.modelGeneration := by
        rw [Plugin.installedGeneration, hp]
        rfl
      have hout : Plugin.installedGeneration ⟨deactivate x.shared p, none⟩ = p.modelGeneration :=
        (inactive_installedGeneration _).trans (deactivate_keptGeneration x.shared p)
      rw [hout, ← hin]
      exact hspent
    · cases h

theorem backlogInv_init : BacklogInv (.init E.toParamEngine) where
  numbered := numbered_init E
  counts := rfl
  installed := (numbered_init E).tickets.spent_zero
  replayed p h := by cases h

/-- The impulse responses that wait were built for the rate of the host. -/
def BacklogAtRate (s : Shared) (p : Processor) : Prop := ∀ c ∈ backlog s p, c.AtRate s.sampleRate

theorem Moves.backlog {s : Shared} {p : Processor} {r : Shared × Processor} (h : Moves s p r) :
    ∀ c ∈ backlog r.1 r.2, c ∈ NamPlug.backlog s p := by
  intro c hc
  simp only [NamPlug.backlog, List.mem_append, Option.mem_toList] at hc ⊢
  obtain ((hc | hc) | hc) | hc := hc
  · exact .inl (.inl (.inl (h.recovered c hc)))
  · exact .inl ((h.deferred c hc).imp .inr id)
  · exact (h.candidate c hc).imp .inr id
  · exact .inr (h.ring c hc)

/-- The installed model is not on its way. -/
theorem BacklogInv.new {p : Processor} (hx : BacklogInv x) (hp : x.proc = some p) :
    p.modelGeneration ∉ modelGenerations (backlog x.shared p) := by
  have hcount := hx.installed.count
  have hin : x.installedGeneration = p.modelGeneration := by
    rw [Plugin.installedGeneration, hp]
    rfl
  rw [hin] at hcount
  intro hmem
  have hpos := List.count_pos_iff.2 hmem
  simp only [Plugin.tickets, Plugin.carried, hp, Option.map_some, Option.getD_some, Shared.carried,
    Processor.carried, List.count_append] at hcount
  simp only [backlog, modelGenerations_append, List.count_append] at hpos
  omega

/-- The chain `c` that took its commands at once is what `x` stands for. -/
structure StandsFor (E : Engine) (rate : Nat) (x : Plugin) (c : Chain) : Prop where
  inv : BacklogInv x
  rate : x.shared.sampleRate = rate
  active : ∃ p, x.proc = some p ∧ BacklogAtRate x.shared p ∧ settled E x.shared p = c

theorem StandsFor.step {rate : Nat} {c : Chain} {a : Action} (h : StandsFor E rate x c)
    (ha : a.isActive = true) (hs : step E x a = some y) :
    StandsFor E rate y ((x.arrivals E a).foldl (Chain.arrive E rate) c) := by
  have hinv := backlogInv_step h.inv hs
  obtain ⟨p, hp, hfresh, hc⟩ := h.active
  have hrate := h.rate
  subst hrate
  cases a with
  | main a =>
    obtain rfl := Option.some.inj hs
    have hframe := mainStep_frame E x.shared a
    refine ⟨hinv, hframe.sampleRate, p, hp, fun d hd => ?_, ?_⟩
    · show d.AtRate (mainStep E x.shared a).sampleRate
      rw [hframe.sampleRate]
      obtain hd | hd := List.mem_append.1 hd
      · exact hfresh d (List.mem_append_left _ hd)
      · exact (mainStep_atRate E x.shared a d hd).elim
          (fun hd => hfresh d (List.mem_append_right _ hd)) id
    · rw [← hc]
      exact mainStep_settled E x.shared p a
  | audio a =>
    obtain ⟨q, hq, hs⟩ := Option.bind_eq_some_iff.1 hs
    obtain rfl := Option.some.inj (hp.symm.trans hq)
    obtain ⟨r, hr, rfl⟩ := Option.map_eq_some_iff.1 hs
    have hsame : r.1.sampleRate = x.shared.sampleRate := (audioStep_config E hr).1
    have hcounts : Counts x.shared p := by
      have := h.inv.counts
      rwa [hp] at this
    refine ⟨hinv, hsame, r.2, rfl, fun d hd => ?_, ?_⟩
    · show d.AtRate r.1.sampleRate
      rw [hsame]
      exact hfresh d ((audioStep_moves E hr).backlog d hd)
    · rw [← hc, Plugin.arrivals, hp, Option.map_some, Option.getD_some]
      exact audioStep_settled E hcounts (h.inv.replayed p hp) hfresh (h.inv.new hp) hr
  | activate cfg faults => cases ha
  | deactivate => cases ha

/-- Between an activation and a deactivation, whatever the callbacks install, supersede and park, the
processor stands for the chain that took what was sent at once and in order. -/
theorem drain_transparent (E : Engine) {as bs : List Action} {x y : Plugin} {p q : Processor}
    (hx : run (step E) (.init E.toParamEngine) as = some x) (hp : x.proc = some p)
    (hrate : BacklogAtRate x.shared p) (hb : ∀ b ∈ bs, b.isActive = true)
    (hy : run (step E) x bs = some y) (hq : y.proc = some q) :
    settled E y.shared q = (emitted (step E) (Plugin.arrivals E) x bs).foldl
      (Chain.arrive E x.shared.sampleRate) (settled E x.shared p) := by
  have hinv : BacklogInv x := run_always (fun _ _ _ => backlogInv_step) backlogInv_init hx
  have hstart : StandsFor E x.shared.sampleRate x (settled E x.shared p) :=
    ⟨hinv, rfl, p, hp, hrate, rfl⟩
  have hguard : Guarded (step E) (fun _ b => b.isActive = true ∧ True) x bs :=
    (Guarded.of_forall (fun _ _ => trivial) x bs).and_forall hb
  have hend := run_simulates (R := StandsFor E x.shared.sampleRate)
    (fun _ _ _ _ hR hG hs => hR.step hG.1 hs) hstart hguard hy
  obtain ⟨q', hq', -, hc⟩ := hend.active
  obtain rfl := Option.some.inj (hq.symm.trans hq')
  exact hc

end

/-! ## A run on fixed inputs -/

instance (h : Nat) : ∀ c : ClapParamPayload, Decidable (c.AtRate h)
  | .loadCabIr pair => decidable_of_iff (CabSimPair.builtElsewhere h pair = false)
      ⟨fun hp _ hc => by cases hc; exact hp, fun hc => hc pair rfl⟩
  | .params _ => isTrue fun _ hc => by cases hc
  | .loadModel _ => isTrue fun _ hc => by cases hc
  | .setOversample .. => isTrue fun _ hc => by cases hc
  | .restoreTxn _ => isTrue fun _ hc => by cases hc

instance (s : Shared) (p : Processor) : Decidable (BacklogAtRate s p) :=
  inferInstanceAs (Decidable (∀ c ∈ backlog s p, c.AtRate s.sampleRate))

/-- Three models are sent. The first is parked and superseded, the second superseded in the window,
the third installed. -/
def refOvertaken : List Action :=
  [.main (.loadModel (refFile "one.nam") noFaults), .audio (.beginEvents 0),
    .audio (.drain .popCandidate), .audio .endEvents,
    .main (.loadModel (refFile "two.nam") noFaults), .main (.loadModel (refFile "three.nam") noFaults),
    .audio (.beginEvents 0), .audio (.drain .discardDeferred), .audio (.drain .popCandidate),
    .audio (.drain .supersede), .audio (.drain .installCandidate), .audio .endEvents]

theorem drain_transparent_overtaken : ∃ p q, (refRun [refActivate]).proc = some p ∧
    (refRun ([refActivate] ++ refOvertaken)).proc = some q ∧
    q.modelL.map StaticModel.asset = some (refFile "three.nam").asset ∧
    settled refEngine (refRun ([refActivate] ++ refOvertaken)).shared q =
      (emitted (step refEngine) (Plugin.arrivals refEngine) (refRun [refActivate])
        refOvertaken).foldl (Chain.arrive refEngine (refRun [refActivate]).shared.sampleRate)
          (settled refEngine (refRun [refActivate]).shared p) := by
  have hp := @refProc_eq [refActivate] (by decide +kernel)
  have hq := @refProc_eq ([refActivate] ++ refOvertaken) (by decide +kernel)
  refine ⟨_, _, hp, hq, by decide +kernel, ?_⟩
  exact drain_transparent refEngine (run_refRun (by decide +kernel)) hp (by decide +kernel)
    (by decide) (run_refRun_append (by decide +kernel)) hq

end NamPlug
