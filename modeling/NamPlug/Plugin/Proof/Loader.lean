import NamPlug.Plugin.Loader
import NamPlug.Plugin.Step

/-!
# What the model loader keeps of its promises

`Ordered` holds in every state, whatever the worker does: generations name requests, a GUI request
that can still be committed is the newest, and the queue keeps its bounds (`step_ordered`).

The other promises hold as long as no step of the run loses a request (`Spares`): no commit of a
preset's model fails, the worker does not die with a job and no rebuild poll panics on a request.
Under it a busy worker has one request, which is the one the main thread waits for, and an idle one
none (`Tracks`, `step_tracks`).
-/

namespace NamPlug.Loader

open Machine

/-! ## The log -/

/-- What the host is told about a request: nothing of a GUI request. -/
def answer (r : Request) (e : Event) : List Event := if r.isGui then [] else [e]

theorem notifyLoaded_eq (x : State) (r : Request) :
    x.notifyLoaded r = { x with log := answer r (.loaded r) ++ x.log } := by
  obtain ⟨n, origin⟩ := r
  cases origin <;> rfl

theorem notifyError_eq (x : State) (r : Request) (code : Int) (message : String) :
    x.notifyError r code message = { x with log := answer r (.error r code message) ++ x.log } := by
  obtain ⟨n, origin⟩ := r
  cases origin <;> rfl

/-- How a load ends: with its model committed, with a commit that failed, or with an error. Where
commits do not fail there is no second way. -/
inductive Concludes (sure : Prop) (r : Request) : List Event → Prop where
  | committed : Concludes sure r (answer r (.loaded r) ++ [.committed r])
  | unadopted (h : ¬ sure) : Concludes sure r (answer r (.loaded r))
  | failed (code : Int) (message : String) :
    Concludes sure r (answer r (.error r code message))

/-- What a commit leaves in the log, before the host is told that the model is loaded. -/
theorem commitPreparedModel_spec (x : State) (r : Request) (prep : PreparedModel) (s : Shared)
    (faults : EngineCall → Bool) (generation : Nat) :
    ∃ notes e, Concludes (PreparedModel.commits prep s faults generation = true) r
        (answer r (.loaded r) ++ notes) ∧
      x.commitPreparedModel r prep s faults generation =
        { x with uiLoadError := e, log := notes ++ x.log } := by
  unfold State.commitPreparedModel
  split
  case isTrue h => exact ⟨_, false, .committed, rfl⟩
  case isFalse h =>
    refine ⟨[], true, ?_, rfl⟩
    rw [List.append_nil]
    exact .unadopted h

section
variable {sure : Prop} {r : Request} {notes : List Event}

theorem Concludes.mono {sure' : Prop} (h : Concludes sure r notes) (hs : sure' → sure) :
    Concludes sure' r notes := by
  cases h with
  | committed => exact .committed
  | unadopted h => exact .unadopted (h ∘ hs)
  | failed code message => exact .failed code message

theorem mem_answer {e e' : Event} : e' ∈ answer r e ↔ r.isGui = false ∧ e' = e := by
  unfold answer
  cases r.isGui <;> simp

/-- No request is accepted by what a load ends with. -/
theorem Concludes.newestGui (h : Concludes sure r notes) (es : List Event) :
    newestGui (notes ++ es) = newestGui es := by
  cases h <;> unfold answer <;> split <;> rfl

theorem Concludes.accepted (h : Concludes sure r notes) (q : Request) :
    notes.count (.accepted q) = 0 := by
  refine List.count_eq_zero.2 fun hm => ?_
  cases h <;> simp [mem_answer] at hm

/-- A load ends with one answer to its preset. -/
theorem Concludes.answers (h : Concludes sure r notes) {q : Request} (hq : q.isGui = false) :
    notes.countP (Event.answers q) = if q = r then 1 else 0 := by
  by_cases hr : r.isGui = true
  · have hne : q ≠ r := by
      rintro rfl
      rw [hq] at hr
      cases hr
    cases h <;> simp [answer, hr, hne, Event.answers]
  · rw [Bool.not_eq_true] at hr
    by_cases he : q = r
    · subst he
      cases h <;> simp [answer, hr, Event.answers]
    · have he' : r ≠ q := fun h => he h.symm
      cases h <;> simp [answer, hr, he, he', Event.answers]

/-- Where commits do not fail, the host is told of a model that is loaded just if it is
committed. -/
theorem Concludes.truthful (h : Concludes sure r notes) {q : Request} (hq : q.isGui = false)
    (hs : q = r → sure) : .loaded q ∈ notes ↔ .committed q ∈ notes := by
  cases h with
  | committed =>
    simp only [List.mem_append, mem_answer, List.mem_singleton, Event.loaded.injEq,
      Event.committed.injEq, reduceCtorEq, and_false, false_or, or_false]
    constructor
    · exact And.right
    · rintro rfl
      exact ⟨hq, rfl⟩
  | unadopted hn =>
    simp only [mem_answer, Event.loaded.injEq, reduceCtorEq, and_false, iff_false, not_and]
    exact fun _ he => hn (hs he)
  | failed code message => simp [mem_answer]

theorem Concludes.current (h : Concludes sure r notes) {es : List Event} (hes : Current es)
    (hr : r.isGui = true → NamPlug.Loader.newestGui es = some r) : Current (notes ++ es) := by
  cases h with
  | committed => unfold answer; split <;> exact ⟨hr, hes⟩
  | unadopted h => unfold answer; split <;> exact hes
  | failed code message => unfold answer; split <;> exact hes

end

/-! ## The operations -/

/-- The queue a request finds: a GUI request drops the GUI requests before it. -/
def State.queueFor (x : State) (r : Request) : List ModelLoaderJob :=
  if r.isGui then x.pendingAsyncLoads.filter (!·.isGui) else x.pendingAsyncLoads

/-- A job comes to the end of the queue, from which the oldest one is evicted if it is full. -/
def State.enqueue (x : State) (job : ModelLoaderJob) : State :=
  if MAX_PENDING_MODEL_REQUESTS ≤ x.pendingAsyncLoads.length then
    match x.pendingAsyncLoads with
    | evicted :: kept =>
      { x with pendingAsyncLoads := kept ++ [job] }.notifyError evicted.toRequest 0 SUPERSEDED
    | [] => { x with pendingAsyncLoads := [job] }
  else { x with pendingAsyncLoads := x.pendingAsyncLoads ++ [job] }

/-- A request is accepted at the end of the queue that it finds. -/
theorem acceptModelRequest_spec (x : State) (path : Path) (origin : ModelRequestOrigin)
    (hx : x.pendingAsyncLoads.length ≤ MAX_PENDING_MODEL_REQUESTS) :
    ∃ (out : Option ModelLoaderJob) (kept : List ModelLoaderJob),
      x.queueFor ⟨x.modelGeneration + 1, origin⟩ = out.toList ++ kept ∧
      kept.length < MAX_PENDING_MODEL_REQUESTS ∧
      x.acceptModelRequest path origin = { x with
        modelGeneration := x.modelGeneration + 1
        uiLoading := true
        pendingAsyncLoads := kept ++ [⟨⟨x.modelGeneration + 1, origin⟩, path, ⟨0, 0⟩⟩]
        dispatchedModelGeneration :=
          if Request.isGui ⟨x.modelGeneration + 1, origin⟩ && x.modelWorkerBusy &&
            x.dispatchedModelIsGui then 0 else x.dispatchedModelGeneration
        log := out.toList.flatMap (fun j => answer j.toRequest (.error j.toRequest 0 SUPERSEDED)) ++
          .accepted ⟨x.modelGeneration + 1, origin⟩ :: x.log } := by
  set r : Request := ⟨x.modelGeneration + 1, origin⟩ with hr
  have hlen : (x.queueFor r).length ≤ MAX_PENDING_MODEL_REQUESTS := by
    unfold State.queueFor
    split
    · exact (List.length_filter_le _ _).trans hx
    · exact hx
  let job : ModelLoaderJob := ⟨r, path, ⟨0, 0⟩⟩
  let y : State := { x with
    modelGeneration := x.modelGeneration + 1
    uiLoading := true
    pendingAsyncLoads := x.queueFor r
    dispatchedModelGeneration :=
      if r.isGui && x.modelWorkerBusy && x.dispatchedModelIsGui then 0
      else x.dispatchedModelGeneration
    log := .accepted r :: x.log }
  have hq : x.acceptModelRequest path origin = y.enqueue job := by cases origin <;> rfl
  have hy : y.pendingAsyncLoads = x.queueFor r := rfl
  rw [hq, State.enqueue, hy]
  by_cases hfull : MAX_PENDING_MODEL_REQUESTS ≤ (x.queueFor r).length
  · rw [if_pos hfull]
    cases hQ : x.queueFor r with
    | nil =>
      rw [hQ] at hfull
      cases hfull
    | cons out kept =>
      rw [hQ, List.length_cons] at hlen
      refine ⟨some out, kept, rfl, by omega, ?_⟩
      refine (notifyError_eq _ _ _ _).trans ?_
      simp only [Option.toList, List.flatMap_cons, List.flatMap_nil, List.append_nil]
      rfl
  · rw [if_neg hfull]
    exact ⟨none, x.queueFor r, rfl, Nat.lt_of_not_le hfull, rfl⟩

/-- What a poll makes of the slot. -/
inductive Polls (s : Shared) (faults : EngineCall → Bool) (x : State) : State → Prop where
  | none (h : x.modelResultSlot = none) : Polls s faults x x
  | stale {result} (h : x.modelResultSlot = some result)
    (hs : result.generation = 0 ∨ result.generation ≠ x.dispatchedModelGeneration) :
    Polls s faults x { x with
      modelResultSlot := .none
      modelWorkerBusy := false
      dispatchedModelGeneration := 0
      dispatchedModelIsGui := false }
  | concludes {result notes e} (h : x.modelResultSlot = some result)
    (h0 : result.generation ≠ 0) (hd : result.generation = x.dispatchedModelGeneration)
    (hc : Concludes (∀ prep, result.outcome = .inr prep →
      PreparedModel.commits prep s faults result.generation = true) result.toRequest notes) :
    Polls s faults x { x with
      modelResultSlot := .none
      modelWorkerBusy := false
      dispatchedModelGeneration := 0
      dispatchedModelIsGui := false
      uiLoading := !x.pendingAsyncLoads.isEmpty
      uiLoadError := e
      log := notes ++ x.log }

theorem pollModelLoaderResult_spec (x : State) (s : Shared) (faults : EngineCall → Bool) :
    Polls s faults x (x.pollModelLoaderResult s faults) := by
  unfold State.pollModelLoaderResult
  split
  case h_1 h => exact .none h
  case h_2 result h =>
    dsimp only
    split_ifs with hs
    · exact .stale h hs
    · rw [not_or, not_not] at hs
      cases ho : result.outcome with
      | inr prep =>
        dsimp only
        obtain ⟨notes, e, hc, hx⟩ := commitPreparedModel_spec _ result.toRequest prep s faults
          result.generation
        rw [hx, notifyLoaded_eq]
        have hpolls := Polls.concludes (e := e) h hs.1 hs.2 (hc.mono fun hall => hall prep ho)
        simpa only [List.append_assoc] using hpolls
      | inl e =>
        dsimp only
        rw [State.reportModelLoadError, notifyError_eq]
        exact .concludes h hs.1 hs.2 (.failed e.errorCode e.text)

/-- The job of a synchronous load, for the audio configuration it runs in. -/
def ModelLoaderJob.now (job : ModelLoaderJob) (s : Shared) : ModelLoaderJob :=
  { job with audioEpoch := ⟨s.sampleRate, s.bufferSize⟩ }

theorem runSyncModelLoad_spec (x : State) (job : ModelLoaderJob) (s : Shared)
    (file : Option ModelFile) (faults : EngineCall → Bool) (e : NamDiagnostic) :
    ∃ notes generation err,
      Concludes (∀ prep, (job.now s).prepare file faults = some prep →
        PreparedModel.commits prep s faults (x.modelGeneration + 1) = true)
        job.toRequest notes ∧
      x.modelGeneration ≤ generation ∧
      x.runSyncModelLoad job s file faults e = { x with
        modelGeneration := generation, uiLoading := false, uiLoadError := err
        log := notes ++ x.log } := by
  unfold State.runSyncModelLoad
  dsimp only
  rw [← ModelLoaderJob.now]
  cases hp : (job.now s).prepare file faults with
  | none =>
    dsimp only
    rw [State.reportModelLoadError, notifyError_eq]
    exact ⟨_, x.modelGeneration, true, .failed e.errorCode e.text, le_refl _, rfl⟩
  | some prep =>
    dsimp only
    obtain ⟨notes, err, hc, hx⟩ := commitPreparedModel_spec
      { x with uiLoading := true, modelGeneration := x.modelGeneration + 1 } job.toRequest prep s
      faults (x.modelGeneration + 1)
    refine ⟨_, x.modelGeneration + 1, err, hc.mono fun hall => hall prep rfl, Nat.le_succ _, ?_⟩
    rw [hx, notifyLoaded_eq, List.append_assoc]

/-- Whether a job that is dispatched is loaded on the main thread: there is no worker, or it cannot
be reached. -/
def State.synchronous (x : State) (reach : Reach) : Bool :=
  !reach.sent || ((x.modelLoader.filter (·.isAvailable reach.finished)).isNone && !reach.spawned)

/-- What a dispatch makes of the queue. A worker that is replaced had died. -/
inductive Dispatches (reach : Reach) (s : Shared) (file : Option ModelFile)
    (faults : EngineCall → Bool) (x : State) : State → Prop where
  | none (h : x.modelWorkerBusy = true ∨ x.pendingAsyncLoads = []) :
    Dispatches reach s file faults x x
  | sent {job rest w} (hb : x.modelWorkerBusy = false) (hp : x.pendingAsyncLoads = job :: rest)
    (hw : x.modelLoader = some w ∨ w = .spawn ∧ ∀ d, x.modelLoader = some d → d.running = false)
    (hr : w.running = true) :
    Dispatches reach s file faults x { x with
      pendingAsyncLoads := rest
      modelLoader := some { w with jobs := w.jobs ++ [job.now s] }
      modelWorkerBusy := true
      dispatchedModelGeneration := job.generation
      dispatchedModelIsGui := job.isGui }
  | sync {job rest loader notes generation err} (hb : x.modelWorkerBusy = false)
    (hp : x.pendingAsyncLoads = job :: rest) (hs : x.synchronous reach = true)
    (hl : loader = x.modelLoader ∨ loader = .none) (hg : x.modelGeneration ≤ generation)
    (hc : Concludes (∀ prep, (job.now s).prepare file faults = some prep →
      PreparedModel.commits prep s faults (x.modelGeneration + 1) = true) job.toRequest notes) :
    Dispatches reach s file faults x { x with
      pendingAsyncLoads := rest
      modelLoader := loader
      modelGeneration := generation
      uiLoading := false
      uiLoadError := err
      log := notes ++ x.log }

theorem dispatchPendingModelLoad_spec {x y : State} {reach : Reach} {s : Shared}
    {file : Option ModelFile} {faults : EngineCall → Bool} {e : NamDiagnostic}
    (h : x.dispatchPendingModelLoad reach s file faults e = some y) :
    Dispatches reach s file faults x y := by
  unfold State.dispatchPendingModelLoad at h
  by_cases hbusy : x.modelWorkerBusy = true
  · rw [if_pos hbusy] at h
    obtain rfl := Option.some.inj h
    exact .none (.inl hbusy)
  rw [if_neg hbusy] at h
  rw [Bool.not_eq_true] at hbusy
  split at h
  case h_1 hp =>
    obtain rfl := Option.some.inj h
    exact .none (.inr hp)
  case h_2 job rest hp =>
    have hsync : ∀ loader, loader = x.modelLoader ∨ loader = none →
        x.synchronous reach = true → Dispatches reach s file faults x
          (State.runSyncModelLoad { x with pendingAsyncLoads := rest, modelLoader := loader }
            (job.now s) s file faults e) := by
      intro loader hl hs
      obtain ⟨notes, generation, err, hc, hg, hx⟩ := runSyncModelLoad_spec
        { x with pendingAsyncLoads := rest, modelLoader := loader } (job.now s) s file faults e
      rw [hx]
      exact .sync hbusy hp hs hl hg hc
    dsimp only at h
    split at h
    case h_1 hw =>
      obtain rfl := Option.some.inj h
      refine hsync x.modelLoader (.inl rfl) ?_
      obtain ⟨hnone, hspawn⟩ := Option.or_eq_none_iff.1 hw
      split at hspawn
      · cases hspawn
      · rename_i hs
        rw [State.synchronous, hnone, eq_false_of_ne_true hs]
        exact Bool.or_true _
    case h_2 w hw =>
      split at h
      case isTrue =>
        split at h
        case isTrue hrun =>
          obtain rfl := Option.some.inj h
          refine .sent hbusy hp ?_ hrun
          rcases Option.or_eq_some_iff.1 hw with hw | ⟨hnone, hw⟩
          · exact .inl (Option.filter_eq_some_iff.1 hw).1
          · refine .inr ⟨?_, fun d hd => ?_⟩
            · split at hw
              · exact (Option.some.inj hw).symm
              · cases hw
            · have hav := Option.filter_eq_none_iff.1 hnone d hd
              rw [ModelLoader.isAvailable, Bool.or_eq_true, not_or, Bool.not_eq_true] at hav
              exact hav.1
        case isFalse => cases h
      case isFalse hs =>
        obtain rfl := Option.some.inj h
        refine hsync none (.inr rfl) ?_
        rw [State.synchronous, eq_false_of_ne_true hs]
        rfl

/-- What the worker does to the loader. -/
inductive Works (x : State) : WorkerAction → State → Prop where
  | finished {w job rest outcome file faults e} (hl : x.modelLoader = some w)
    (hj : w.jobs = job :: rest) :
    Works x (.finishJob file faults e) { x with
      modelLoader := some { w with jobs := rest }
      modelResultSlot := some ⟨job.toRequest, outcome⟩ }
  | panicked {w e} (hl : x.modelLoader = some w) :
    Works x (.rebuildPanic e) { x with
      modelLoader := some { w with panicked := true }
      modelResultSlot := some (panicResult e) }
  | recovered {w} (hl : x.modelLoader = some w) :
    Works x .recover { x with
      modelLoader := some { w with panicked := false }, uiLoadError := true, uiLoading := false }
  | died : Works x .die { x with modelLoader := some ⟨[], false, false⟩ }

theorem workerStep_spec {x y : State} {w : ModelLoader} {a : WorkerAction}
    (hl : x.modelLoader = some w) (h : x.workerStep w a = some y) : Works x a y := by
  cases a with
  | finishJob file faults e =>
    simp only [State.workerStep, State.finishJob] at h
    split at h
    · cases h
    · split at h
      · cases h
      · obtain rfl := Option.some.inj h
        exact .finished hl ‹_›
  | rebuildPanic e =>
    simp only [State.workerStep] at h
    split at h
    · cases h
    · obtain rfl := Option.some.inj h
      exact .panicked hl
  | recover =>
    simp only [State.workerStep] at h
    split at h
    · obtain rfl := Option.some.inj h
      exact .recovered hl
    · cases h
  | die =>
    obtain rfl := Option.some.inj h
    exact .died

/-- What `ensure_rebuild_worker` does to the loader. -/
inductive Ensures (finished : Bool) (x : State) : State → Prop where
  | kept : Ensures finished x x
  | spawned (hl : x.modelLoader = none) :
    Ensures finished x { x with modelLoader := some .spawn }
  | replaced {w loader} (hl : x.modelLoader = some w) (hd : w.isAvailable finished = false)
    (hs : loader = none ∨ loader = some .spawn) :
    Ensures finished x { x with
      modelWorkerBusy := false
      dispatchedModelGeneration := 0
      dispatchedModelIsGui := false
      uiLoading := false
      modelLoader := loader }

theorem ensureRebuildWorker_spec (x : State) (finished spawned : Bool) :
    Ensures finished x (x.ensureRebuildWorker finished spawned) := by
  unfold State.ensureRebuildWorker
  by_cases hdead : x.modelLoader.any (!·.isAvailable finished) = true
  · rw [if_pos hdead]
    obtain ⟨w, hl, hd⟩ := (Option.any_eq_true _ _).1 hdead
    rw [Bool.not_eq_true'] at hd
    cases spawned
    · exact .replaced hl hd (.inl rfl)
    · exact .replaced hl hd (.inr rfl)
  · rw [if_neg hdead]
    dsimp only
    split
    · exact .kept
    · rename_i hl
      rw [Bool.not_eq_true, Option.isSome_eq_false_iff, Option.isNone_iff_eq_none] at hl
      cases spawned
      · exact .kept
      · exact .spawned hl

/-- What an operation of the loader does, whatever the phase. -/
inductive Steps (x : State) : Action → State → Prop where
  | worker {a y} (hr : ∃ w, x.modelLoader = some w ∧ w.running = true) (h : Works x a y) :
    Steps x (.worker a) y
  | ensured {finished spawned y} (hp : x.phase = .rebuilds) (h : Ensures finished x y) :
    Steps x (.ensureRebuildWorker finished spawned) y
  | acceptedNone : Steps x .acceptNone { x with phase := .poll }
  | cancelled : Steps x .acceptCancelled { x.maybeFinishLoadingUi with phase := .poll }
  | accepted (path : Path) (origin : ModelRequestOrigin) :
    Steps x (.accept path origin) { x.acceptModelRequest path origin with phase := .poll }
  | polled {s faults y} (h : Polls s faults x y) :
    Steps x (.poll s faults) { y with phase := .dispatch }
  | dispatched {reach s file faults e y} (hp : x.phase = .dispatch)
    (h : Dispatches reach s file faults x y) :
    Steps x (.dispatch reach s file faults e) { y with phase := .rebuilds }

theorem step_steps {x y : State} {a : Action} (h : step x a = some y) : Steps x a y := by
  cases a with
  | worker a =>
    obtain ⟨w, hl, h⟩ := Option.bind_eq_some_iff.1 h
    split at h
    · exact .worker ⟨w, hl, ‹_›⟩ (workerStep_spec hl h)
    · cases h
  | dispatch reach s file faults e =>
    simp only [step] at h
    split at h
    · obtain ⟨z, hz, rfl⟩ := Option.map_eq_some_iff.1 h
      exact .dispatched ‹_› (dispatchPendingModelLoad_spec hz)
    · cases h
  | poll s faults =>
    simp only [step] at h
    split at h
    · obtain rfl := Option.some.inj h
      exact .polled (pollModelLoaderResult_spec x s faults)
    · cases h
  | ensureRebuildWorker finished spawned =>
    simp only [step] at h
    split at h
    · obtain rfl := Option.some.inj h
      exact .ensured ‹_› (ensureRebuildWorker_spec x finished spawned)
    · cases h
  | acceptNone =>
    simp only [step] at h
    split at h
    · obtain rfl := Option.some.inj h
      exact .acceptedNone
    · cases h
  | acceptCancelled =>
    simp only [step] at h
    split at h
    · obtain rfl := Option.some.inj h
      exact .cancelled
    · cases h
  | accept path origin =>
    simp only [step] at h
    split at h
    · obtain rfl := Option.some.inj h
      exact .accepted path origin
    · cases h

/-! ## What holds however the worker fares -/

/-- What the log says of the generations up to `n`: each belongs to one request, which was accepted
once, and a GUI request is committed while it is the newest. -/
structure Ledger (n : Nat) (log : List Event) : Prop where
  range : ∀ r, .accepted r ∈ log → 0 < r.generation ∧ r.generation ≤ n
  unique : ∀ r q, .accepted r ∈ log → .accepted q ∈ log → r.generation = q.generation → r = q
  once : ∀ r, log.count (.accepted r) ≤ 1
  current : Current log

theorem Ledger.init : Ledger 0 [] where
  range _ h := by cases h
  unique _ _ h := by cases h
  once _ := Nat.zero_le _
  current := trivial

section
variable {n m : Nat} {log : List Event}

/-- A new generation is of no request yet. -/
theorem Ledger.fresh (h : Ledger n log) (origin : ModelRequestOrigin) :
    log.count (.accepted ⟨n + 1, origin⟩) = 0 := by
  refine List.count_eq_zero.2 fun hm => ?_
  have hle := (h.range _ hm).2
  dsimp only at hle
  omega

theorem Ledger.accept (h : Ledger n log) (origin : ModelRequestOrigin) :
    Ledger (n + 1) (.accepted ⟨n + 1, origin⟩ :: log) where
  range r hr := by
    rcases List.mem_cons.1 hr with he | hr
    · obtain rfl := Event.accepted.inj he
      exact ⟨Nat.succ_pos n, le_refl _⟩
    · have := h.range r hr
      omega
  unique r q hr hq hg := by
    rcases List.mem_cons.1 hr with he | hr
    · obtain rfl := Event.accepted.inj he
      rcases List.mem_cons.1 hq with he | hq
      · exact (Event.accepted.inj he).symm
      · have := (h.range q hq).2
        dsimp only at hg
        omega
    · rcases List.mem_cons.1 hq with he | hq
      · obtain rfl := Event.accepted.inj he
        have := (h.range r hr).2
        dsimp only at hg
        omega
      · exact h.unique r q hr hq hg
  once r := by
    rw [List.count_cons]
    split
    case isTrue he =>
      obtain rfl := Event.accepted.inj (beq_iff_eq.1 he)
      rw [h.fresh origin]
    case isFalse => exact h.once r
  current := h.current

variable {sure : Prop} {r : Request} {notes : List Event}

theorem Concludes.mem_accepted (hc : Concludes sure r notes) {q : Request} :
    .accepted q ∈ notes ++ log ↔ .accepted q ∈ log := by
  rw [List.mem_append, or_iff_right]
  exact List.count_eq_zero.1 (hc.accepted q)

/-- A load that ends leaves the log in order, if a GUI request among them is the newest. -/
theorem Ledger.conclude (h : Ledger n log) (hn : n ≤ m) (hc : Concludes sure r notes)
    (hr : r.isGui = true → newestGui log = some r) : Ledger m (notes ++ log) where
  range q hq := by
    have := h.range q (hc.mem_accepted.1 hq)
    omega
  unique q q' hq hq' := h.unique q q' (hc.mem_accepted.1 hq) (hc.mem_accepted.1 hq')
  once q := by
    rw [List.count_append, hc.accepted, Nat.zero_add]
    exact h.once q
  current := hc.current h.current hr

end

/-- What holds however the worker fares. -/
structure Ordered (x : State) : Prop where
  ledger : Ledger x.modelGeneration x.log
  accepted : ∀ r ∈ x.waiting, .accepted r ∈ x.log
  queued : ∀ job ∈ x.pendingAsyncLoads, job.isGui = true → newestGui x.log = some job.toRequest
  /-- The generation a result is waited for is that of a request which may be committed. -/
  dispatched : x.dispatchedModelGeneration ≠ 0 → x.modelWorkerBusy = true ∧
    ∃ r, .accepted r ∈ x.log ∧ r.generation = x.dispatchedModelGeneration ∧
      r.isGui = x.dispatchedModelIsGui ∧ (r.isGui = true → newestGui x.log = some r)
  oneGui : x.pendingAsyncLoads.countP (·.isGui) ≤ 1
  bounded : x.pendingAsyncLoads.length ≤ MAX_PENDING_MODEL_REQUESTS

theorem Ordered.init : Ordered .init where
  ledger := Ledger.init
  accepted _ h := by cases h
  queued _ h := by cases h
  dispatched h := absurd rfl h
  oneGui := Nat.zero_le _
  bounded := Nat.zero_le _

theorem mem_waiting_of_pending {x : State} {job : ModelLoaderJob}
    (h : job ∈ x.pendingAsyncLoads) : job.toRequest ∈ x.waiting :=
  List.mem_append_left _ (List.mem_map_of_mem h)

/-- What leaves the queue and the log alone, dispatches nothing and makes no requests. -/
theorem Ordered.frame {x y : State} (h : Ordered x) (hg : y.modelGeneration = x.modelGeneration)
    (hl : y.log = x.log) (hp : y.pendingAsyncLoads = x.pendingAsyncLoads)
    (hd : y.dispatchedModelGeneration = 0 ∨
      y.dispatchedModelGeneration = x.dispatchedModelGeneration ∧
      y.dispatchedModelIsGui = x.dispatchedModelIsGui ∧ y.modelWorkerBusy = x.modelWorkerBusy)
    (hf : y.inFlight ⊆ x.inFlight) : Ordered y where
  ledger := by rw [hg, hl]; exact h.ledger
  accepted r hr := by
    rw [hl]
    apply h.accepted
    rw [State.waiting, hp] at hr
    exact (List.mem_append.1 hr).elim (List.mem_append_left _)
      fun hr => List.mem_append_right _ (hf hr)
  queued := by rw [hp, hl]; exact h.queued
  dispatched hne := by
    rcases hd with h0 | ⟨hd, hi, hb⟩
    · exact absurd h0 hne
    · rw [hd, hi, hb, hl]
      exact h.dispatched (hd ▸ hne)
  oneGui := by rw [hp]; exact h.oneGui
  bounded := by rw [hp]; exact h.bounded

theorem mem_inFlight {x : State} {r : Request} :
    r ∈ x.inFlight ↔ (∃ job ∈ x.jobs, job.toRequest = r) ∨
      ∃ result, x.modelResultSlot = some result ∧ result.generation ≠ 0 ∧ result.toRequest = r := by
  unfold State.inFlight
  rw [List.mem_append, List.mem_map, List.mem_map]
  refine or_congr_right ?_
  simp only [Option.mem_toList, Option.filter_eq_some_iff, decide_not,
    Bool.not_eq_true', decide_eq_false_iff_not, and_assoc, ne_eq]

theorem Works.frame {x y : State} {a : WorkerAction} (h : Works x a y) :
    y.modelGeneration = x.modelGeneration ∧ y.log = x.log ∧
      y.pendingAsyncLoads = x.pendingAsyncLoads ∧
      y.dispatchedModelGeneration = x.dispatchedModelGeneration ∧
      y.dispatchedModelIsGui = x.dispatchedModelIsGui ∧
      y.modelWorkerBusy = x.modelWorkerBusy ∧ y.phase = x.phase := by
  cases h <;> exact ⟨rfl, rfl, rfl, rfl, rfl, rfl, rfl⟩

/-- The worker makes no requests. -/
theorem Works.inFlight {x y : State} {a : WorkerAction} (h : Works x a y) :
    y.inFlight ⊆ x.inFlight := by
  intro r hr
  rw [mem_inFlight] at hr ⊢
  cases h with
  | @finished w job rest outcome file faults e hl hj =>
    refine .inl ?_
    rw [State.jobs, hl]
    dsimp only
    rw [hj]
    rcases hr with ⟨q, hq, rfl⟩ | ⟨result, hs, -, rfl⟩
    · exact ⟨q, List.mem_cons_of_mem _ hq, rfl⟩
    · obtain rfl := Option.some.inj hs
      exact ⟨job, List.mem_cons_self, rfl⟩
  | @panicked w e hl =>
    rcases hr with hr | ⟨result, hs, h0, -⟩
    · rw [State.jobs, hl]
      exact .inl hr
    · obtain rfl := Option.some.inj hs
      exact absurd rfl h0
  | @recovered w hl =>
    rw [State.jobs, hl]
    exact hr
  | died =>
    rcases hr with ⟨q, hq, -⟩ | hr
    · cases hq
    · exact .inr hr

theorem Ensures.inFlight {x y : State} {finished : Bool} (h : Ensures finished x y) :
    y.inFlight ⊆ x.inFlight := by
  intro r hr
  rw [mem_inFlight] at hr ⊢
  cases h with
  | kept => exact hr
  | spawned hl =>
    rcases hr with ⟨q, hq, -⟩ | hr
    · cases hq
    · exact .inr hr
  | replaced hl hd hs =>
    rcases hr with ⟨q, hq, -⟩ | hr
    · rcases hs with rfl | rfl <;> cases hq
    · exact .inr hr

theorem Ensures.ordered {x y : State} {finished : Bool} (h : Ensures finished x y)
    (hx : Ordered x) : Ordered y := by
  have hf := h.inFlight
  cases h with
  | kept => exact hx
  | spawned hl => exact hx.frame rfl rfl rfl (.inr ⟨rfl, rfl, rfl⟩) hf
  | replaced hl hd hs => exact hx.frame rfl rfl rfl (.inl rfl) hf

/-- The job a request is queued behind was queued before, as a preset's if the request is the
GUI's. -/
theorem mem_queueFor {x : State} {r : Request} {job : ModelLoaderJob} :
    job ∈ x.queueFor r ↔
      job ∈ x.pendingAsyncLoads ∧ (r.isGui = true → job.isGui = false) := by
  unfold State.queueFor
  cases r.isGui <;> simp

theorem acceptModelRequest_ordered {x : State} (path : Path) (origin : ModelRequestOrigin)
    (hx : Ordered x) : Ordered (x.acceptModelRequest path origin) := by
  obtain ⟨out, kept, hQ, hlen, hy⟩ := acceptModelRequest_spec x path origin hx.bounded
  rw [hy]
  clear hy
  set r : Request := ⟨x.modelGeneration + 1, origin⟩ with hr
  have hled := hx.ledger.accept origin
  rw [← hr] at hled
  -- The GUI requests that stay in the queue are the newest, as `r` is a preset's then.
  have hnew : ∀ q, (q.isGui = true → newestGui x.log = some q) →
      (r.isGui = true → q.isGui = false) → q.isGui = true →
      newestGui (.accepted r :: x.log) = some q := by
    intro q hq hp hg
    have hrg : r.isGui = false := by
      rw [← Bool.not_eq_true]
      exact fun h => absurd hg (by rw [hp h]; exact Bool.false_ne_true)
    rw [newestGui, if_neg (by rw [hrg]; exact Bool.false_ne_true)]
    exact hq hg
  have hmem : ∀ job, job ∈ out.toList ∨ job ∈ kept → job ∈ x.pendingAsyncLoads ∧
      (r.isGui = true → job.isGui = false) := by
    intro job hj
    rw [← mem_queueFor, hQ, List.mem_append]
    exact hj
  have hlog : ∃ notes, (∀ q, notes.count (.accepted q) = 0) ∧
      (∀ es, newestGui (notes ++ es) = newestGui es) ∧
      Ledger (x.modelGeneration + 1) (notes ++ .accepted r :: x.log) ∧
      out.toList.flatMap (fun j => answer j.toRequest (.error j.toRequest 0 SUPERSEDED)) =
        notes := by
    cases out with
    | none => exact ⟨[], fun _ => rfl, fun _ => rfl, hled, rfl⟩
    | some out =>
      have hc : Concludes True out.toRequest
        (answer out.toRequest (.error out.toRequest 0 SUPERSEDED)) := .failed 0 SUPERSEDED
      have hout := hmem out (.inl List.mem_cons_self)
      refine ⟨_, hc.accepted, hc.newestGui, hled.conclude (le_refl _) hc ?_, ?_⟩
      · exact hnew _ (hx.queued out hout.1) hout.2
      · exact List.append_nil _
  obtain ⟨notes, hacc, hng, hled, hn⟩ := hlog
  rw [hn]
  have hold : ∀ q, .accepted q ∈ x.log → .accepted q ∈ notes ++ .accepted r :: x.log :=
    fun q hq => List.mem_append_right _ (List.mem_cons_of_mem _ hq)
  refine ⟨hled, ?_, ?_, ?_, ?_, ?_⟩
  · intro q hq
    rcases List.mem_append.1 hq with hq | hq
    · obtain ⟨job, hj, rfl⟩ := List.mem_map.1 hq
      rcases List.mem_append.1 hj with hj | hj
      · exact hold _ (hx.accepted _ (mem_waiting_of_pending (hmem job (.inr hj)).1))
      · rw [List.mem_singleton.1 hj]
        exact List.mem_append_right _ List.mem_cons_self
    · exact hold q (hx.accepted q (List.mem_append_right _ hq))
  · intro job hj hg
    rw [hng]
    rcases List.mem_append.1 hj with hj | hj
    · obtain ⟨hp, hrg⟩ := hmem job (.inr hj)
      exact hnew _ (hx.queued job hp) hrg hg
    · rw [List.mem_singleton.1 hj] at hg ⊢
      exact if_pos hg
  · intro hne
    dsimp only at hne ⊢
    split at hne
    case isTrue => exact absurd rfl hne
    case isFalse hc =>
      obtain ⟨hb, q, hq, hqd, hqi, hqn⟩ := hx.dispatched hne
      rw [if_neg hc]
      refine ⟨hb, q, hold q hq, hqd, hqi, fun hg => ?_⟩
      rw [hng]
      refine hnew q hqn (fun hrg => ?_) hg
      rw [hrg, hb, Bool.true_and, Bool.true_and, ← hqi, Bool.not_eq_true] at hc
      exact hc
  · dsimp only
    rw [List.countP_append, List.countP_singleton]
    split
    case isTrue hg =>
      have h0 : kept.countP (·.isGui) = 0 := by
        refine List.countP_eq_zero.2 fun job hj => ?_
        rw [(hmem job (.inr hj)).2 hg]
        exact Bool.false_ne_true
      omega
    case isFalse hg =>
      have hs : kept.Sublist x.pendingAsyncLoads := by
        have hk : kept.Sublist (x.queueFor r) := hQ ▸ List.sublist_append_right _ _
        rw [State.queueFor, if_neg hg] at hk
        exact hk
      have hle : kept.countP (·.isGui) ≤ x.pendingAsyncLoads.countP (·.isGui) := hs.countP_le
      exact (Nat.add_zero _).trans_le (hle.trans hx.oneGui)
  · dsimp only
    rw [List.length_append, List.length_singleton]
    omega

theorem Polls.ordered {x y : State} {s : Shared} {faults : EngineCall → Bool}
    (h : Polls s faults x y) (hx : Ordered x) : Ordered y := by
  cases h with
  | none h => exact hx
  | stale h hs =>
    refine hx.frame rfl rfl rfl (.inl rfl) fun r hr => ?_
    rw [mem_inFlight] at hr ⊢
    exact .inl (hr.resolve_right fun ⟨_, hs, _⟩ => by cases hs)
  | @concludes result notes e h h0 hd hc =>
    -- The result is of the request that was dispatched last.
    obtain ⟨-, r, hr, hrd, -, hrn⟩ := hx.dispatched (hd ▸ h0)
    have hrw : result.toRequest ∈ x.waiting :=
      List.mem_append_right _ (mem_inFlight.2 (.inr ⟨result, h, h0, rfl⟩))
    obtain rfl := hx.ledger.unique _ r (hx.accepted _ hrw) hr (hd.trans hrd.symm)
    refine ⟨hx.ledger.conclude (le_refl _) hc hrn, fun q hq => ?_, fun job hj hg => ?_,
      fun hne => absurd rfl hne, hx.oneGui, hx.bounded⟩
    · refine List.mem_append_right _ (hx.accepted q ?_)
      refine (List.mem_append.1 hq).elim (List.mem_append_left _)
        fun hq => List.mem_append_right _ ?_
      rw [mem_inFlight] at hq ⊢
      exact .inl (hq.resolve_right fun ⟨_, hs, _⟩ => by cases hs)
    · exact (hc.newestGui _).trans (hx.queued job hj hg)

/-- The queue without the request that is dispatched. -/
theorem Ordered.rest {x : State} (h : Ordered x) {job : ModelLoaderJob}
    {rest : List ModelLoaderJob} (hp : x.pendingAsyncLoads = job :: rest) :
    (∀ q ∈ rest, q ∈ x.pendingAsyncLoads) ∧ rest.countP (·.isGui) ≤ 1 ∧
      rest.length ≤ MAX_PENDING_MODEL_REQUESTS := by
  have hone := h.oneGui
  have hlen := h.bounded
  rw [hp, List.countP_cons] at hone
  rw [hp, List.length_cons] at hlen
  rw [hp]
  exact ⟨fun q hq => List.mem_cons_of_mem _ hq, by omega, by omega⟩

theorem Dispatches.ordered {x y : State} {reach : Reach} {s : Shared} {file : Option ModelFile}
    {faults : EngineCall → Bool} (h : Dispatches reach s file faults x y) (hx : Ordered x) :
    Ordered y := by
  cases h with
  | none h => exact hx
  | @sent job rest w hb hp hw hr =>
    have hjobs : ∀ q ∈ w.jobs, q ∈ x.jobs := by
      rcases hw with hl | ⟨rfl, -⟩
      · rw [State.jobs, hl]
        exact fun _ => id
      · intro q hq
        cases hq
    have hjob : job ∈ x.pendingAsyncLoads := hp ▸ List.mem_cons_self
    have hwaits := mem_waiting_of_pending hjob
    obtain ⟨hmem, hone, hlen⟩ := hx.rest hp
    refine ⟨hx.ledger, fun q hq => hx.accepted q ?_, fun q hq => hx.queued q (hmem q hq),
      fun _ => ?_, hone, hlen⟩
    · rcases List.mem_append.1 hq with hq | hq
      · obtain ⟨j, hj, rfl⟩ := List.mem_map.1 hq
        exact mem_waiting_of_pending (hmem j hj)
      · rcases mem_inFlight.1 hq with ⟨j, hj, rfl⟩ | hres
        · rcases List.mem_append.1 hj with hj | hj
          · exact List.mem_append_right _ (mem_inFlight.2 (.inl ⟨j, hjobs j hj, rfl⟩))
          · rw [List.mem_singleton.1 hj]
            exact hwaits
        · exact List.mem_append_right _ (mem_inFlight.2 (.inr hres))
    · exact ⟨rfl, _, hx.accepted _ hwaits, rfl, rfl, hx.queued job hjob⟩
  | @sync job rest loader notes generation err hb hp hs hl hg hc =>
    have hjobs : ∀ y : State, y.modelLoader = loader → ∀ q ∈ y.jobs, q ∈ x.jobs := by
      intro y hy q hq
      rw [State.jobs, hy] at hq
      rcases hl with rfl | rfl
      · exact hq
      · cases hq
    have hjob : job ∈ x.pendingAsyncLoads := hp ▸ List.mem_cons_self
    obtain ⟨hmem, hone, hlen⟩ := hx.rest hp
    refine ⟨hx.ledger.conclude hg hc (hx.queued job hjob), fun q hq => ?_, fun q hq hqg => ?_,
      fun hne => ?_, hone, hlen⟩
    · refine List.mem_append_right _ (hx.accepted q ?_)
      rcases List.mem_append.1 hq with hq | hq
      · obtain ⟨j, hj, rfl⟩ := List.mem_map.1 hq
        exact mem_waiting_of_pending (hmem j hj)
      · refine List.mem_append_right _ (mem_inFlight.2 ?_)
        exact (mem_inFlight.1 hq).imp_left fun ⟨j, hj, he⟩ => ⟨j, hjobs _ rfl j hj, he⟩
    · exact (hc.newestGui _).trans (hx.queued q (hmem q hq) hqg)
    · -- A result is only waited for while the worker is busy.
      exact absurd (hx.dispatched hne).1 (by rw [hb]; exact Bool.false_ne_true)

theorem step_ordered {x y : State} {a : Action} (hx : Ordered x) (h : step x a = some y) :
    Ordered y := by
  have hphase : ∀ {z : State} (p : Phase), Ordered z → Ordered { z with phase := p } :=
    fun _ hz => hz.frame rfl rfl rfl (.inr ⟨rfl, rfl, rfl⟩) fun _ => id
  cases step_steps h with
  | worker hr hw =>
    obtain ⟨hg, hl, hp, hd, hi, hb, -⟩ := hw.frame
    exact hx.frame hg hl hp (.inr ⟨hd, hi, hb⟩) hw.inFlight
  | ensured hp hw => exact hw.ordered hx
  | acceptedNone => exact hphase _ hx
  | cancelled =>
    refine hphase _ ?_
    unfold State.maybeFinishLoadingUi
    split
    · exact hx.frame rfl rfl rfl (.inr ⟨rfl, rfl, rfl⟩) fun _ => id
    · exact hx
  | accepted path origin => exact hphase _ (acceptModelRequest_ordered path origin hx)
  | polled hw => exact hphase _ (hw.ordered hx)
  | dispatched hp hw => exact hphase _ (hw.ordered hx)

/-! ## What holds while no request is lost -/

/-- No step loses a request: a rebuild poll does not panic over the result of a request, and its
own result is not polled while the worker has a job; the worker does not die with a job; where it is
replaced no result of a preset waits to be polled; and the model of a preset is committed once it is
prepared. -/
def Spares (x : State) : Action → Prop
  | .worker (.rebuildPanic _) => ∀ result ∈ x.modelResultSlot, result.generation = 0
  | .worker .die => x.jobs = []
  | .ensureRebuildWorker finished _ => x.modelLoader.any (!·.isAvailable finished) = true →
    ∀ result ∈ x.modelResultSlot, result.isGui = true
  | .poll s faults => ∀ result ∈ x.modelResultSlot,
    (result.generation = 0 → x.jobs = []) ∧
    (result.isGui = false → result.generation = x.dispatchedModelGeneration →
      ∀ prep ∈ result.outcome.getRight?,
        PreparedModel.commits prep s faults result.generation = true)
  | .dispatch reach s file faults _ => x.modelWorkerBusy = false → x.synchronous reach = true →
    ∀ job ∈ x.pendingAsyncLoads.head?, job.isGui = false →
      ∀ prep ∈ (job.now s).prepare file faults,
        PreparedModel.commits prep s faults (x.modelGeneration + 1) = true
  | _ => True

instance (x : State) (a : Action) : Decidable (Spares x a) := by
  cases a with
  | worker a => cases a <;> unfold Spares <;> infer_instance
  | _ => unfold Spares; infer_instance

/-- The worker has the one request the main thread waits for. -/
structure Tracks (x : State) : Prop where
  busy : x.modelWorkerBusy = true → ∃ r, x.inFlight = [r] ∧
    x.dispatchedModelIsGui = r.isGui ∧ (x.dispatchedModelGeneration = r.generation ∨
      x.dispatchedModelGeneration = 0 ∧ r.isGui = true ∧ x.pendingAsyncLoads ≠ [])
  idle : x.modelWorkerBusy = false → x.jobs = [] ∧
    ∀ result, x.modelResultSlot = some result → result.isGui = true
  /-- Nothing is dispatched before the result of an idle worker is polled. -/
  polled : x.phase = .dispatch → x.modelWorkerBusy = false →
    ∀ result, x.modelResultSlot = some result → result.generation = 0
  dead : ∀ w, x.modelLoader = some w → w.running = false → w.jobs = []
  loading : x.uiLoading = true → x.modelWorkerBusy = true ∨ x.pendingAsyncLoads ≠ []

theorem Tracks.init : Tracks .init where
  busy h := by cases h
  idle _ := ⟨rfl, fun _ h => by cases h⟩
  polled h := by cases h
  dead _ h := by cases h
  loading h := by cases h

theorem inFlight_congr {x y : State} (hj : y.jobs = x.jobs)
    (hs : y.modelResultSlot = x.modelResultSlot) : y.inFlight = x.inFlight := by
  rw [State.inFlight, State.inFlight, hj, hs]

/-- The requests whose result is in the slot. -/
theorem inFlight_of_slot {x : State} {result : PreparedModelResult}
    (h : x.modelResultSlot = some result) (h0 : result.generation ≠ 0) :
    x.inFlight = x.jobs.map (·.toRequest) ++ [result.toRequest] := by
  rw [State.inFlight, h, Option.filter_some, if_pos (decide_eq_true h0)]
  rfl

theorem inFlight_of_empty {x : State}
    (h : ∀ result, x.modelResultSlot = some result → result.generation = 0) :
    x.inFlight = x.jobs.map (·.toRequest) := by
  have hf : x.modelResultSlot.filter (·.generation ≠ 0) = none := by
    refine Option.filter_eq_none_iff.2 fun result hr => ?_
    rw [h result hr]
    exact of_decide_eq_false rfl
  rw [State.inFlight, hf]
  exact List.append_nil _

theorem Tracks.of_idle {x : State} (hb : x.modelWorkerBusy = false) (hj : x.jobs = [])
    (hg : ∀ result, x.modelResultSlot = some result → result.isGui = true)
    (hp : x.phase = .dispatch →
      ∀ result, x.modelResultSlot = some result → result.generation = 0)
    (hl : x.uiLoading = true → x.pendingAsyncLoads ≠ []) : Tracks x where
  busy h := by
    rw [hb] at h
    cases h
  idle _ := ⟨hj, hg⟩
  polled h _ := hp h
  dead w hw _ := by
    rw [State.jobs, hw] at hj
    exact hj
  loading h := .inr (hl h)

/-- A worker that has a job has no other, and the slot has no result of a request. -/
theorem Tracks.of_job {x : State} (hx : Tracks x) {job : ModelLoaderJob}
    {rest : List ModelLoaderJob} (hj : x.jobs = job :: rest) :
    x.modelWorkerBusy = true ∧ rest = [] ∧ x.inFlight = [job.toRequest] ∧
      ∀ result, x.modelResultSlot = some result → result.generation = 0 := by
  have hb : x.modelWorkerBusy = true := by
    rw [← Bool.not_eq_false]
    intro hb
    rw [(hx.idle hb).1] at hj
    cases hj
  obtain ⟨r, hr, -⟩ := hx.busy hb
  rw [State.inFlight, hj, List.map_cons, List.cons_append, List.cons.injEq,
    List.append_eq_nil_iff, List.map_eq_nil_iff] at hr
  obtain ⟨rfl, hrest, hslot⟩ := hr
  rw [List.map_eq_nil_iff, Option.toList_eq_nil_iff] at hslot
  have h0 : ∀ result, x.modelResultSlot = some result → result.generation = 0 := by
    intro result hs
    have hn := Option.filter_eq_none_iff.1 hslot result hs
    rw [decide_eq_true_eq, not_not] at hn
    exact hn
  refine ⟨hb, hrest, ?_, h0⟩
  rw [inFlight_of_empty h0, hj, hrest]
  rfl

/-- The requests in flight, and the preset requests that wait, are those of the state before. -/
theorem Works.inFlight_eq {x y : State} {a : WorkerAction} (h : Works x a y) (ho : Ordered x)
    (hx : Tracks x) (hs : Spares x (.worker a)) : y.inFlight = x.inFlight := by
  cases h with
  | @finished w job rest outcome file faults e hl hj =>
    have hjobs : x.jobs = job :: rest := by rw [State.jobs, hl]; exact hj
    obtain ⟨-, rfl, hf, -⟩ := hx.of_job hjobs
    have hw : job.toRequest ∈ x.waiting := by
      rw [State.waiting, hf]
      exact List.mem_append_right _ List.mem_cons_self
    have h0 := (ho.ledger.range _ (ho.accepted _ hw)).1
    let result : PreparedModelResult := ⟨job.toRequest, outcome⟩
    have hres : result.generation ≠ 0 := h0.ne'
    rw [hf]
    exact inFlight_of_slot rfl hres
  | @panicked w e hl =>
    have hjobs : x.jobs = w.jobs := by rw [State.jobs, hl]
    rw [inFlight_of_empty hs, hjobs]
    refine inFlight_of_empty fun result hr => ?_
    rw [← Option.some.inj hr]
    rfl
  | @recovered w hl =>
    have hjobs : x.jobs = w.jobs := by rw [State.jobs, hl]
    exact inFlight_congr hjobs.symm rfl
  | died => exact inFlight_congr (Eq.symm hs) rfl

theorem Works.tracks {x y : State} {a : WorkerAction} (h : Works x a y) (ho : Ordered x)
    (hx : Tracks x) (hs : Spares x (.worker a)) : Tracks y := by
  have hf := h.inFlight_eq ho hx hs
  obtain ⟨-, -, hp, hd, hi, hb, hph⟩ := h.frame
  have hbusy : y.modelWorkerBusy = true → ∃ r, y.inFlight = [r] ∧
      y.dispatchedModelIsGui = r.isGui ∧ (y.dispatchedModelGeneration = r.generation ∨
        y.dispatchedModelGeneration = 0 ∧ r.isGui = true ∧ y.pendingAsyncLoads ≠ []) := by
    rw [hf, hp, hd, hi, hb]
    exact hx.busy
  clear hp hd hi hb hph
  cases h with
  | @finished w job rest outcome file faults e hl hj =>
    have hjobs : x.jobs = job :: rest := by rw [State.jobs, hl]; exact hj
    obtain ⟨hb, rfl, -, -⟩ := hx.of_job hjobs
    have hnot : ¬ x.modelWorkerBusy = false := by rwa [Bool.not_eq_false]
    exact ⟨hbusy, fun h => absurd h hnot, fun _ h => absurd h hnot,
      fun d hd hr => Option.some.inj hd ▸ rfl, hx.loading⟩
  | @panicked w e hl =>
    have hjobs : x.jobs = w.jobs := by rw [State.jobs, hl]
    refine ⟨hbusy, fun h => ⟨hjobs.symm.trans (hx.idle h).1, ?_⟩, fun _ _ => ?_, ?_, hx.loading⟩
    · intro result hr
      rw [← Option.some.inj hr]
      rfl
    · intro result hr
      rw [← Option.some.inj hr]
      rfl
    · intro d hd hr
      rw [← Option.some.inj hd] at hr ⊢
      exact hx.dead w hl hr
  | @recovered w hl =>
    have hjobs : x.jobs = w.jobs := by rw [State.jobs, hl]
    refine ⟨hbusy, fun h => ⟨hjobs.symm.trans (hx.idle h).1, (hx.idle h).2⟩, hx.polled, ?_,
      fun h => by cases h⟩
    intro d hd hr
    rw [← Option.some.inj hd] at hr ⊢
    exact hx.dead w hl hr
  | died =>
    exact ⟨hbusy, fun h => ⟨rfl, (hx.idle h).2⟩, hx.polled, fun d hd _ => Option.some.inj hd ▸ rfl,
      hx.loading⟩

/-- A worker that is replaced had no job. -/
theorem Ensures.inFlight_eq {x y : State} {finished : Bool} (h : Ensures finished x y)
    (hx : Tracks x) : y.inFlight = x.inFlight := by
  cases h with
  | kept => rfl
  | spawned hl =>
    have hjobs : x.jobs = [] := by rw [State.jobs, hl]
    exact inFlight_congr hjobs.symm rfl
  | @replaced w loader hl hd hs =>
    rw [ModelLoader.isAvailable, Bool.or_eq_false_iff] at hd
    have hjobs : x.jobs = [] := by rw [State.jobs, hl]; exact hx.dead w hl hd.1
    refine inFlight_congr ?_ rfl
    rw [hjobs]
    rcases hs with rfl | rfl <;> rfl

theorem Ensures.tracks {x y : State} {finished spawned : Bool} (h : Ensures finished x y)
    (hp : x.phase = .rebuilds) (hx : Tracks x)
    (hs : Spares x (.ensureRebuildWorker finished spawned)) : Tracks y := by
  have hf := h.inFlight_eq hx
  cases h with
  | kept => exact hx
  | spawned hl =>
    refine ⟨fun h => ?_, fun h => ⟨rfl, (hx.idle h).2⟩, hx.polled, ?_, hx.loading⟩
    · rw [hf]
      exact hx.busy h
    · intro w hw _
      rw [← Option.some.inj hw]
      rfl
  | @replaced w loader hl hd hsp =>
    have hdead : x.modelLoader.any (!·.isAvailable finished) = true := by
      rw [hl, Option.any_some, hd]
      rfl
    refine .of_idle rfl ?_ (hs hdead) (fun h => ?_) fun h => (by cases h)
    · rcases hsp with rfl | rfl <;> rfl
    · cases hp.symm.trans h

/-- What a poll finds in the slot of a busy worker is the one request in flight. -/
theorem Tracks.of_slot {x : State} (hx : Tracks x) {result : PreparedModelResult}
    (h : x.modelResultSlot = some result) (h0 : result.generation ≠ 0)
    (hb : x.modelWorkerBusy = true) : x.jobs = [] ∧ x.inFlight = [result.toRequest] ∧
      (x.dispatchedModelGeneration = result.generation ∨
        result.isGui = true ∧ x.pendingAsyncLoads ≠ []) := by
  obtain ⟨r, hr, -, hd⟩ := hx.busy hb
  rw [inFlight_of_slot h h0, List.append_eq_singleton_iff] at hr
  rcases hr with ⟨hjobs, hres⟩ | ⟨-, hres⟩
  · obtain rfl := List.head_eq_of_cons_eq hres
    rw [List.map_eq_nil_iff] at hjobs
    refine ⟨hjobs, ?_, hd.imp_right And.right⟩
    rw [inFlight_of_slot h h0, hjobs]
    rfl
  · cases hres

/-- The answers of a log, by the preset they went to. -/
structure Answered (x : State) : Prop where
  balance : ∀ r, r.isGui = false →
    x.log.countP (Event.answers r) + x.waiting.count r = x.log.count (.accepted r)
  truthful : ∀ r, r.isGui = false → (.loaded r ∈ x.log ↔ .committed r ∈ x.log)

theorem Answered.init : Answered .init where
  balance _ _ := rfl
  truthful _ _ := ⟨fun h => (by cases h), fun h => (by cases h)⟩

theorem Answered.frame {x y : State} (h : Answered x) (hl : y.log = x.log)
    (hw : ∀ r, r.isGui = false → y.waiting.count r = x.waiting.count r) : Answered y where
  balance r hr := by
    rw [hl, hw r hr]
    exact h.balance r hr
  truthful r hr := by
    rw [hl]
    exact h.truthful r hr

/-- A load that ends takes its request from those that wait. -/
theorem Answered.conclude {x y : State} {sure : Prop} {q : Request} {notes : List Event}
    (h : Answered x) (hc : Concludes sure q notes) (hl : y.log = notes ++ x.log)
    (hw : ∀ r, r.isGui = false →
      y.waiting.count r + (if r = q then 1 else 0) = x.waiting.count r)
    (hs : q.isGui = false → sure) : Answered y where
  balance r hr := by
    have hx := h.balance r hr
    have hwr := hw r hr
    rw [hl, List.countP_append, List.count_append, hc.answers hr, hc.accepted]
    omega
  truthful r hr := by
    rw [hl, List.mem_append, List.mem_append]
    exact or_congr (hc.truthful hr fun he => hs (he ▸ hr)) (h.truthful r hr)

theorem count_waiting (x : State) (r : Request) :
    x.waiting.count r = (x.pendingAsyncLoads.map (·.toRequest)).count r + x.inFlight.count r :=
  List.count_append

/-- Once the result of a worker without jobs is polled, no request is in flight. -/
theorem count_waiting_polled {x y : State} (hj : x.jobs = [])
    (hp : y.pendingAsyncLoads = x.pendingAsyncLoads) (hl : y.modelLoader = x.modelLoader)
    (hs : y.modelResultSlot = none) (r : Request) :
    y.waiting.count r = (x.pendingAsyncLoads.map (·.toRequest)).count r := by
  have hjobs : y.jobs = [] := by rw [State.jobs, hl]; exact hj
  rw [count_waiting, hp, State.inFlight, hjobs, hs]
  rfl

theorem count_singleton (q r : Request) : [q].count r = if r = q then 1 else 0 := by
  rw [List.count_singleton]
  exact if_congr (beq_iff_eq.trans eq_comm) rfl rfl

theorem count_gui {r q : Request} (hr : r.isGui = false) (hq : q.isGui = true) :
    [q].count r = 0 := by
  refine List.count_eq_zero.2 fun hm => ?_
  rw [List.mem_singleton.1 hm, hq] at hr
  cases hr

/-- What a poll discards was not a preset's, and the worker is idle then. -/
theorem Tracks.of_stale {x : State} {s : Shared} {faults : EngineCall → Bool}
    {result : PreparedModelResult} (hx : Tracks x) (hs : Spares x (.poll s faults))
    (h : x.modelResultSlot = some result)
    (hstale : result.generation = 0 ∨ result.generation ≠ x.dispatchedModelGeneration) :
    x.jobs = [] ∧ (x.uiLoading = true → x.pendingAsyncLoads ≠ []) ∧
      (result.generation ≠ 0 → result.isGui = true) := by
  by_cases h0 : result.generation = 0
  · have hjobs := (hs result h).1 h0
    refine ⟨hjobs, fun hu => ?_, fun hne => absurd h0 hne⟩
    refine (hx.loading hu).resolve_left fun hb => ?_
    obtain ⟨r, hr, -⟩ := hx.busy hb
    rw [inFlight_of_empty fun q hq => Option.some.inj (h.symm.trans hq) ▸ h0, hjobs] at hr
    cases hr
  · by_cases hb : x.modelWorkerBusy = true
    · obtain ⟨hjobs, -, hd⟩ := hx.of_slot h h0 hb
      have hd := hd.resolve_left fun hd => hstale.elim h0 fun hne => hne hd.symm
      exact ⟨hjobs, fun _ => hd.2, fun _ => hd.1⟩
    · have hidle := hx.idle (eq_false_of_ne_true hb)
      exact ⟨hidle.1, fun hu => (hx.loading hu).resolve_left hb, fun _ => hidle.2 result h⟩

theorem Polls.tracks {x y : State} {s : Shared} {faults : EngineCall → Bool}
    (h : Polls s faults x y) (ho : Ordered x) (hx : Tracks x) (hs : Spares x (.poll s faults)) :
    Tracks { y with phase := .dispatch } := by
  cases h with
  | none h =>
    have hnone : ∀ result, x.modelResultSlot = some result → result.generation = 0 :=
      fun result hr => by rw [h] at hr; cases hr
    exact ⟨hx.busy, hx.idle, fun _ _ => hnone, hx.dead, hx.loading⟩
  | stale h hst =>
    obtain ⟨hjobs, hload, -⟩ := hx.of_stale hs h hst
    exact .of_idle rfl hjobs (fun _ hr => (by cases hr)) (fun _ _ hr => (by cases hr)) hload
  | concludes h h0 hd hc =>
    have hb := (ho.dispatched (hd ▸ h0)).1
    refine .of_idle rfl (hx.of_slot h h0 hb).1 (fun _ hr => (by cases hr))
      (fun _ _ hr => (by cases hr)) fun hu => ?_
    dsimp only at hu
    rw [Bool.not_eq_true', List.isEmpty_eq_false_iff] at hu
    exact hu

theorem Polls.answered {x y : State} {s : Shared} {faults : EngineCall → Bool}
    (h : Polls s faults x y) (ho : Ordered x) (hx : Tracks x) (hs : Spares x (.poll s faults))
    (ha : Answered x) : Answered y := by
  cases h with
  | none h => exact ha
  | @stale result h hst =>
    obtain ⟨hjobs, -, hg⟩ := hx.of_stale hs h hst
    refine ha.frame rfl fun r hr => ?_
    have hcount : x.inFlight.count r = 0 := by
      by_cases h0 : result.generation = 0
      · rw [inFlight_of_empty fun q hq => Option.some.inj (h.symm.trans hq) ▸ h0, hjobs]
        rfl
      · rw [inFlight_of_slot h h0, hjobs]
        exact count_gui hr (hg h0)
    refine Eq.trans (count_waiting_polled hjobs (by rfl) (by rfl) (by rfl) r) ?_
    rw [count_waiting, hcount, Nat.add_zero]
  | @concludes result notes e h h0 hd hc =>
    have hb := (ho.dispatched (hd ▸ h0)).1
    obtain ⟨hjobs, hf, -⟩ := hx.of_slot h h0 hb
    refine ha.conclude hc rfl (fun r _ => ?_) fun hg prep hp => ?_
    · rw [count_waiting x, hf, count_singleton]
      refine congrArg (· + _) ?_
      exact count_waiting_polled hjobs (by rfl) (by rfl) (by rfl) r
    · exact (hs result h).2 hg hd prep (by rw [hp]; rfl)

/-- The worker a job is sent to has no other. -/
theorem Tracks.of_sent {x : State} (hx : Tracks x) (hb : x.modelWorkerBusy = false)
    {w : ModelLoader} (hw : x.modelLoader = some w ∨
      w = .spawn ∧ ∀ d, x.modelLoader = some d → d.running = false) : w.jobs = [] := by
  rcases hw with hl | ⟨rfl, -⟩
  · have hjobs := (hx.idle hb).1
    rw [State.jobs, hl] at hjobs
    exact hjobs
  · rfl

theorem Dispatches.tracks {x y : State} {reach : Reach} {s : Shared} {file : Option ModelFile}
    {faults : EngineCall → Bool} (h : Dispatches reach s file faults x y) (hx : Tracks x)
    (hph : x.phase = .dispatch) : Tracks { y with phase := .rebuilds } := by
  cases h with
  | none h => exact ⟨hx.busy, hx.idle, fun h => (by cases h), hx.dead, hx.loading⟩
  | @sent job rest w hb hp hw hr =>
    have hjobs := hx.of_sent hb hw
    refine ⟨fun _ => ⟨job.toRequest, ?_, rfl, .inl rfl⟩, fun h => (by cases h),
      fun h => (by cases h), fun d hd hd' => ?_, fun _ => .inl rfl⟩
    · refine Eq.trans (inFlight_of_empty ?_) ?_
      · exact hx.polled hph hb
      · rw [State.jobs, hjobs]
        rfl
    · rw [← Option.some.inj hd] at hd'
      rw [hr] at hd'
      cases hd'
  | @sync job rest loader notes generation err hb hp hs hl hg hc =>
    obtain ⟨hjobs, hres⟩ := hx.idle hb
    refine .of_idle hb ?_ hres (fun h => (by cases h)) fun h => (by cases h)
    rcases hl with rfl | rfl
    · exact hjobs
    · rfl

/-- A job that is sent still waits. -/
theorem count_waiting_sent {x y : State} {job : ModelLoaderJob} {rest : List ModelLoaderJob}
    (hp : x.pendingAsyncLoads = job :: rest) (hf : x.inFlight = [])
    (hp' : y.pendingAsyncLoads = rest) (hf' : y.inFlight = [job.toRequest]) (r : Request) :
    y.waiting.count r = x.waiting.count r := by
  rw [count_waiting, count_waiting, hp, hf, hp', hf', List.map_cons, List.count_cons,
    List.count_cons, List.count_nil, Nat.zero_add]
  rfl

theorem Dispatches.answered {x y : State} {reach : Reach} {s : Shared} {file : Option ModelFile}
    {faults : EngineCall → Bool} {e : NamDiagnostic} (h : Dispatches reach s file faults x y)
    (hx : Tracks x) (hph : x.phase = .dispatch)
    (hs : Spares x (.dispatch reach s file faults e)) (ha : Answered x) : Answered y := by
  cases h with
  | none h => exact ha
  | @sent job rest w hb hp hw hr =>
    have hjobs := hx.of_sent hb hw
    have hslot := hx.polled hph hb
    refine ha.frame rfl fun r _ => ?_
    refine count_waiting_sent hp ?_ ?_ ?_ r
    · rw [inFlight_of_empty hslot, (hx.idle hb).1]
      rfl
    · rfl
    · refine Eq.trans (inFlight_of_empty ?_) ?_
      · exact hslot
      · rw [State.jobs, hjobs]
        rfl
  | @sync job rest loader notes generation err hb hp hsync hl hg hc =>
    obtain ⟨hjobs, -⟩ := hx.idle hb
    refine ha.conclude hc rfl (fun r _ => ?_) fun hg prep hprep => ?_
    · have hf : ∀ y : State, y.modelLoader = loader → y.modelResultSlot = x.modelResultSlot →
          y.inFlight = x.inFlight := by
        intro y hy hs
        refine inFlight_congr ?_ hs
        rw [hjobs, State.jobs, hy]
        rcases hl with rfl | rfl
        · exact hjobs
        · rfl
      have hone : (if job.toRequest == r then 1 else 0) = if r = job.toRequest then 1 else 0 :=
        if_congr (beq_iff_eq.trans eq_comm) rfl rfl
      rw [count_waiting x, hp, List.map_cons, List.count_cons, hone, count_waiting]
      refine (congrArg (_ + · + _) (congrArg (List.count r) (hf _ ?_ ?_))).trans ?_
      · rfl
      · rfl
      · exact Nat.add_right_comm _ _ _
    · exact hs hb hsync job (by rw [hp]; rfl) hg prep hprep

theorem acceptModelRequest_tracks {x : State} (path : Path) (origin : ModelRequestOrigin)
    (ho : Ordered x) (hx : Tracks x) :
    Tracks { x.acceptModelRequest path origin with phase := .poll } := by
  obtain ⟨out, kept, -, -, hy⟩ := acceptModelRequest_spec x path origin ho.bounded
  rw [hy]
  have hne : kept ++ [⟨⟨x.modelGeneration + 1, origin⟩, path, ⟨0, 0⟩⟩] ≠ [] :=
    List.append_ne_nil_of_right_ne_nil _ (List.cons_ne_nil _ _)
  refine ⟨fun hb => ?_, hx.idle, fun h => (by cases h), hx.dead, fun _ => .inr hne⟩
  obtain ⟨r, hr, hi, hd⟩ := hx.busy hb
  refine ⟨r, hr, hi, ?_⟩
  dsimp only
  split
  case isTrue hc =>
    rw [Bool.and_eq_true, hi] at hc
    exact .inr ⟨rfl, hc.2, hne⟩
  case isFalse => exact hd.imp_right fun h => ⟨h.1, h.2.1, hne⟩

/-- No preset's request is dropped for a new one. -/
theorem count_queueFor (x : State) (q : Request) {r : Request} (hr : r.isGui = false) :
    ((x.queueFor q).map (·.toRequest)).count r =
      (x.pendingAsyncLoads.map (·.toRequest)).count r := by
  unfold State.queueFor
  split
  case isFalse => rfl
  case isTrue =>
    rw [List.count_eq_countP, List.count_eq_countP, List.countP_map, List.countP_map,
      List.countP_filter]
    refine List.countP_congr fun job _ => ?_
    simp only [Function.comp_apply, Bool.and_eq_true, beq_iff_eq, Bool.not_eq_true',
      and_iff_left_iff_imp]
    rintro rfl
    exact hr

theorem acceptModelRequest_answered {x : State} (path : Path) (origin : ModelRequestOrigin)
    (ho : Ordered x) (ha : Answered x) : Answered (x.acceptModelRequest path origin) := by
  obtain ⟨out, kept, hQ, -, hy⟩ := acceptModelRequest_spec x path origin ho.bounded
  set q : Request := ⟨x.modelGeneration + 1, origin⟩
  set notes := out.toList.flatMap
    (fun j => answer j.toRequest (.error j.toRequest 0 SUPERSEDED)) with hnotes
  -- An eviction ends the load of the evicted request with an error.
  have hcase : out = none ∧ notes = [] ∨ ∃ o, out = some o ∧ Concludes True o.toRequest notes := by
    cases out with
    | none => exact .inl ⟨rfl, hnotes⟩
    | some o =>
      refine .inr ⟨o, rfl, ?_⟩
      rw [hnotes, Option.toList_some, List.flatMap_singleton]
      exact .failed 0 SUPERSEDED
  have hw : ∀ r, (x.acceptModelRequest path origin).waiting.count r =
      ((kept.map (·.toRequest)).count r + if r = q then 1 else 0) + x.inFlight.count r := by
    intro r
    rw [hy, count_waiting, List.map_append, List.count_append, ← count_singleton]
    rfl
  have hold : ∀ r, r.isGui = false → x.waiting.count r =
      ((out.toList.map (·.toRequest)).count r + (kept.map (·.toRequest)).count r) +
        x.inFlight.count r := by
    intro r hr
    rw [count_waiting, ← count_queueFor x q hr, hQ, List.map_append, List.count_append]
  have hlog : (x.acceptModelRequest path origin).log = notes ++ .accepted q :: x.log := by rw [hy]
  clear_value notes
  clear hy
  refine ⟨fun r hr => ?_, fun r hr => ?_⟩
  · have hb := ha.balance r hr
    have hnew : (.accepted q :: x.log).count (.accepted r) =
        x.log.count (.accepted r) + if r = q then 1 else 0 := by
      rw [List.count_cons]
      refine congrArg (_ + ·) (if_congr ?_ rfl rfl)
      rw [beq_iff_eq, Event.accepted.injEq, eq_comm]
    have hans : (.accepted q :: x.log).countP (Event.answers r) =
        x.log.countP (Event.answers r) := List.countP_cons_of_neg Bool.false_ne_true
    rw [hlog, List.countP_append, List.count_append, hw, hnew, hans]
    rw [hold r hr] at hb
    rcases hcase with ⟨rfl, rfl⟩ | ⟨o, rfl, hc⟩
    · rw [Option.toList_none, List.map_nil, List.count_nil] at hb
      rw [List.countP_nil, List.count_nil]
      omega
    · rw [Option.toList_some, List.map_singleton, count_singleton] at hb
      rw [hc.answers hr, hc.accepted]
      omega
  · have hnotes : .loaded r ∈ notes ↔ .committed r ∈ notes := by
      rcases hcase with ⟨-, rfl⟩ | ⟨o, -, hc⟩
      · exact ⟨fun h => (by cases h), fun h => (by cases h)⟩
      · exact hc.truthful hr fun _ => trivial
    have ht := ha.truthful r hr
    simp only [hlog, List.mem_append, List.mem_cons, reduceCtorEq, false_or]
    exact or_congr hnotes ht

theorem Answered.phase {x : State} (h : Answered x) (p : Phase) : Answered { x with phase := p } :=
  h.frame rfl fun _ _ => rfl

theorem step_answered {x y : State} {a : Action} (ho : Ordered x) (hx : Tracks x) (ha : Answered x)
    (hs : Spares x a) (h : step x a = some y) : Tracks y ∧ Answered y := by
  cases step_steps h with
  | worker hr hw =>
    obtain ⟨-, hl, hp, -⟩ := hw.frame
    refine ⟨hw.tracks ho hx hs, ha.frame hl fun r _ => ?_⟩
    rw [count_waiting, count_waiting, hp, hw.inFlight_eq ho hx hs]
  | ensured hp hw =>
    refine ⟨hw.tracks hp hx hs, ?_⟩
    have hf := hw.inFlight_eq hx
    cases hw with
    | kept => exact ha
    | spawned hl => exact ha.frame rfl fun r _ => by rw [count_waiting, count_waiting, hf]
    | replaced hl hd hsp => exact ha.frame rfl fun r _ => by rw [count_waiting, count_waiting, hf]
  | acceptedNone =>
    exact ⟨⟨hx.busy, hx.idle, fun h => (by cases h), hx.dead, hx.loading⟩, ha.phase _⟩
  | cancelled =>
    unfold State.maybeFinishLoadingUi
    split
    · exact ⟨⟨hx.busy, hx.idle, fun h => (by cases h), hx.dead, fun h => (by cases h)⟩,
        ha.frame rfl fun _ _ => rfl⟩
    · exact ⟨⟨hx.busy, hx.idle, fun h => (by cases h), hx.dead, hx.loading⟩, ha.phase _⟩
  | accepted path origin =>
    exact ⟨acceptModelRequest_tracks path origin ho hx,
      (acceptModelRequest_answered path origin ho ha).phase _⟩
  | polled hw => exact ⟨hw.tracks ho hx hs, (hw.answered ho hx hs ha).phase _⟩
  | dispatched hp hw => exact ⟨hw.tracks hx hp, (hw.answered hx hp hs ha).phase _⟩

/-! ## The promises -/

theorem Promises.of {x : State} (ho : Ordered x) (hx : Tracks x) (ha : Answered x) :
    Promises x where
  current := ho.ledger.current
  answered r hr hacc := by
    rw [ha.balance r hr]
    exact le_antisymm (ho.ledger.once r) (List.count_pos_iff.2 hacc)
  truthful := ha.truthful
  oneGui := ho.oneGui
  bounded := ho.bounded
  settled hw := by
    rw [← Bool.not_eq_true]
    intro hu
    obtain ⟨hp, hf⟩ := List.append_eq_nil_iff.1 hw
    rcases hx.loading hu with hb | hne
    · obtain ⟨r, hr, -⟩ := hx.busy hb
      rw [hr] at hf
      cases hf
    · exact hne (List.map_eq_nil_iff.1 hp)

/-- What the loader keeps in every run, and in one that loses no request. -/
theorem promises_kept {as : List Action} {x : State} (h : run step .init as = some x) :
    (Current x.log ∧ x.pendingAsyncLoads.countP (·.isGui) ≤ 1 ∧
      x.pendingAsyncLoads.length ≤ MAX_PENDING_MODEL_REQUESTS) ∧
    (Guarded step Spares .init as → Promises x) := by
  have ho : Ordered x := run_always (fun _ _ _ => step_ordered) Ordered.init h
  refine ⟨⟨ho.ledger.current, ho.oneGui, ho.bounded⟩, fun hg => ?_⟩
  have hstep : ∀ x a y, (Ordered x ∧ Tracks x ∧ Answered x) → Spares x a → step x a = some y →
      Ordered y ∧ Tracks y ∧ Answered y :=
    fun x a y ⟨ho, hx, ha⟩ hs h => ⟨step_ordered ho h, step_answered ho hx ha hs h⟩
  obtain ⟨-, hx, ha⟩ := run_invariant hstep ⟨Ordered.init, Tracks.init, Answered.init⟩ hg h
  exact .of ho hx ha

/-- The shared state of a plugin that runs with blocks of `n` frames. -/
def refHost (n : Nat) : Shared :=
  { Shared.init refParamEngine with sampleRate := 48000, bufferSize := n }

/-- The preset's request for a model. -/
def refPreset : ModelRequestOrigin := .preset "factory" none

def refDiagnostic : NamDiagnostic := ⟨7, "Model build failed", "", ""⟩

def refReach : Reach := ⟨true, true, true⟩

/-- A preset's request is accepted and sent to a worker that is spawned for it. -/
def refSent : List Action :=
  [.accept (refFile "one.nam").asset.path refPreset, .poll (refHost 64) noFaults,
    .dispatch refReach (refHost 64) none noFaults refDiagnostic]

/-- The worker prepares the model. -/
def refPrepared : List Action :=
  refSent ++ [.worker (.finishJob (some (refFile "one.nam")) noFaults refDiagnostic)]

/-- A preset's model is committed, the next one of the GUI's fails, and a rebuild poll panics while
the worker has no job. -/
def refServed : List Action :=
  refPrepared ++ [.acceptNone, .poll (refHost 64) noFaults,
    .dispatch refReach (refHost 64) none noFaults refDiagnostic,
    .accept (refFile "two.nam").asset.path .gui, .poll (refHost 64) noFaults,
    .dispatch refReach (refHost 64) none noFaults refDiagnostic,
    .worker (.finishJob none noFaults refDiagnostic),
    .acceptNone, .poll (refHost 64) noFaults,
    .worker (.rebuildPanic refDiagnostic), .worker .recover]

theorem promises_kept_served :
    (run step .init refServed).isSome = true ∧ ∀ x, run step .init refServed = some x →
      Promises x :=
  ⟨by decide +kernel, fun _ h => (promises_kept h).2 (by decide +kernel)⟩

/-- A model that is not committed as its resources cannot be had for the new block size: the host
is told that it is loaded. -/
def refUnadopted : List Action :=
  refPrepared ++ [.acceptNone, .poll (refHost 128) (· == .resampler)]

/-- The worker dies with the job of a preset, and `ensure_rebuild_worker` replaces it: the host is
never answered. -/
def refLost : List Action :=
  refSent ++ [.worker .die, .ensureRebuildWorker true true]

/-- The worker dies with the job of the GUI, and no rebuild is due: `ui_loading` stays raised. -/
def refStuck : List Action :=
  [.accept (refFile "one.nam").asset.path .gui, .poll (refHost 64) noFaults,
    .dispatch refReach (refHost 64) none noFaults refDiagnostic, .worker .die]

/-- A rebuild poll panics over the result of a preset: the host is never answered. -/
def refOverwritten : List Action :=
  refPrepared ++ [.worker (.rebuildPanic refDiagnostic), .worker .recover]

/-- The request the runs above start with. -/
def refRequest : Request := ⟨1, refPreset⟩

/-- A preset that is accepted, and neither waits nor was answered. -/
def Forgotten (x : State) (r : Request) : Bool :=
  x.log.contains (.accepted r) && x.log.countP (Event.answers r) + x.waiting.count r = 0

theorem Forgotten.not_promises {x : State} {r : Request} (hr : r.isGui = false)
    (h : Forgotten x r = true) : ¬ Promises x := by
  intro hx
  rw [Forgotten, Bool.and_eq_true, List.contains_iff_mem, decide_eq_true_eq] at h
  have hone := hx.answered r hr h.1
  omega

/-- A run that ends with a promise broken. -/
def BreaksPromises (as : List Action) : Prop := ∃ x, run step .init as = some x ∧ ¬ Promises x

theorem promises_broken : BreaksPromises refUnadopted ∧ BreaksPromises refLost ∧
    BreaksPromises refStuck ∧ BreaksPromises refOverwritten := by
  have hunadopted : ∃ x, run step .init refUnadopted = some x ∧ decide
      (.loaded refRequest ∈ x.log ∧ .committed refRequest ∉ x.log) = true :=
    (Option.any_eq_true _ _).1 (by decide +kernel)
  have hlost : ∃ x, run step .init refLost = some x ∧ Forgotten x refRequest = true :=
    (Option.any_eq_true _ _).1 (by decide +kernel)
  have hstuck : ∃ x, run step .init refStuck = some x ∧
      decide (x.waiting = [] ∧ x.uiLoading = true) = true :=
    (Option.any_eq_true _ _).1 (by decide +kernel)
  have hover : ∃ x, run step .init refOverwritten = some x ∧ Forgotten x refRequest = true :=
    (Option.any_eq_true _ _).1 (by decide +kernel)
  refine ⟨?_, ?_, ?_, ?_⟩
  · obtain ⟨x, h, hx⟩ := hunadopted
    obtain ⟨hl, hc⟩ := of_decide_eq_true hx
    exact ⟨x, h, fun hp => hc ((hp.truthful refRequest rfl).1 hl)⟩
  · obtain ⟨x, h, hx⟩ := hlost
    exact ⟨x, h, Forgotten.not_promises rfl hx⟩
  · obtain ⟨x, h, hx⟩ := hstuck
    obtain ⟨hw, hu⟩ := of_decide_eq_true hx
    exact ⟨x, h, fun hp => Bool.false_ne_true ((hp.settled hw).symm.trans hu)⟩
  · obtain ⟨x, h, hx⟩ := hover
    exact ⟨x, h, Forgotten.not_promises rfl hx⟩

end NamPlug.Loader
