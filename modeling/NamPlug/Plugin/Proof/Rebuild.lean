import NamPlug.Plugin.Rebuild

/-!
# No rebuild request is lost

Between the stores of a request the atomics are in motion; otherwise they hold the latest request,
and while that waits for its answer, a payload for it is on its way (`Held`) or the worker will take
it up (`Seen`): `Kept`. Every step meeting `NoRace` keeps it, one lemma for each thread, and a kept
state with three idle threads has lost nothing (`Kept.not_lost`).
-/

namespace NamPlug

variable {A B : Type} [DecidableEq A] [DecidableEq B] {x y : RebuildState A B} {id : A × B}

namespace RebuildState

/-- What the steps keep (module doc). -/
structure Kept (x : RebuildState A B) : Prop where
  atomics : x.request = .idle → ∀ id ∈ x.latest, x.requested = id
  cover : ∀ id ∈ x.waiting, x.Held id ∨ x.Seen id

theorem mem_waiting :
    id ∈ x.waiting ↔ x.request = .idle ∧ x.answered = false ∧ x.latest = some id ∧ id ∉ x.ring := by
  unfold waiting
  split
  case isTrue h => simp [h, Option.filter_eq_some_iff]
  case isFalse h =>
    constructor
    · intro hid; cases hid
    · rintro ⟨hr, ha, -⟩; exact absurd ⟨hr, ha⟩ h

/-- Outside a request the waiting request is the one in the atomics. -/
theorem Kept.requested_eq (h : x.Kept) (hid : id ∈ x.waiting) : x.requested = id :=
  have hw := mem_waiting.1 hid
  h.atomics hw.1 id hw.2.2.1

theorem kept_init (a : A) (b : B) : (init a b).Kept where
  atomics _ id hid := by cases hid
  cover id hid := by cases (mem_waiting.1 hid).2.2.1

/-! ## The audio thread -/

theorem Kept.of_request (hr : x.request ≠ .idle) : x.Kept where
  atomics h := absurd h hr
  cover _ hid := absurd (mem_waiting.1 hid).1 hr

theorem kept_raise (hG : x.NoRace .raise) (h : rebuildStep x .raise = some y) : y.Kept := by
  simp only [rebuildStep] at h
  split at h
  case isFalse => cases h
  case isTrue =>
    cases h
    refine ⟨fun _ id hid => ?_, fun id hid => ?_⟩
    · exact Option.some.inj hid
    · obtain ⟨-, -, hl, hring⟩ := mem_waiting.1 hid
      cases hl
      rcases hG with hG | hG | hG
      · exact .inr ⟨rfl, hG⟩
      · exact absurd hG hring
      · exact .inl hG

/-- The latest request is answered when its payload leaves the ring. -/
theorem kept_resolve (hI : x.Kept) (h : rebuildStep x .resolve = some y) : y.Kept := by
  simp only [rebuildStep] at h
  split at h
  case h_2 => cases h
  case h_1 id' rest hring =>
    split at h
    case isFalse => cases h
    case isTrue hr =>
      cases h
      refine ⟨hI.atomics, fun id hid => ?_⟩
      obtain ⟨-, ha, hl, hnot⟩ := mem_waiting.1 hid
      simp only [Bool.or_eq_false_iff, decide_eq_false_iff_not] at ha
      refine hI.cover id (mem_waiting.2 ⟨hr, ha.1, hl, ?_⟩)
      rw [hring, List.mem_cons]
      rintro (rfl | hm)
      · exact ha.2 hl
      · exact hnot hm

theorem kept_supersede (hI : x.Kept) (hG : x.NoRace .supersede)
    (h : rebuildStep x .supersede = some y) : y.Kept := by
  simp only [rebuildStep] at h
  split at h
  case h_2 => cases h
  case h_1 id₁ id₂ rest hring =>
    split at h
    case isFalse => cases h
    case isTrue hr =>
      cases h
      refine ⟨hI.atomics, fun id hid => ?_⟩
      obtain ⟨-, ha, hl, hnot⟩ := mem_waiting.1 hid
      by_cases hhead : x.ring.head? = some id
      · rcases hG id hl hhead with h | h | h | h
        · rw [ha] at h; cases h
        · rw [hring] at h; exact absurd h hnot
        · exact .inl h
        · exact .inr h
      · refine hI.cover id (mem_waiting.2 ⟨hr, ha, hl, ?_⟩)
        rw [hring] at hhead ⊢
        rw [List.mem_cons]
        rintro (rfl | hm)
        · exact hhead rfl
        · exact hnot hm

/-! ## The worker -/

theorem kept_worker (hI : x.Kept) (outcome : BuildOutcome) (hG : x.WorkerSafe x.worker) :
    (workerStep x outcome).Kept := by
  have hreq : ∀ id ∈ x.waiting, x.requested = id := fun id hid => hI.requested_eq hid
  obtain ⟨hat, hcover⟩ := hI
  obtain ⟨a, b, flag, slot, ring, built, request, worker, main, latest, answered⟩ := x
  cases worker with
  | idle =>
    cases flag with
    | true =>
      refine ⟨hat, fun id hid => ?_⟩
      rcases hcover id hid with (h | h | h) | h
      · exact .inl (.inl h)
      · exact .inl (.inr (.inl h))
      · cases h
      · exact .inr h
    | false =>
      refine ⟨hat, fun id hid => ?_⟩
      rcases hcover id hid with h | ⟨h, -⟩
      · exact .inl h
      · cases h
  | loadFirst =>
    refine ⟨hat, fun id hid => ?_⟩
    rcases hcover id hid with h | ⟨-, h⟩
    · exact .inl h
    · -- the request just read is the waiting one, and it is not built yet
      have hbuilt : built ≠ some (a, b) := fun hb => h (hb.trans (congrArg some (hreq id hid)))
      exact .inl (.inr (.inr ((if_neg hbuilt).trans (congrArg some (hreq id hid)))))
  | loadSecond a' =>
    simp only [workerStep]
    split
    case isTrue hb =>
      refine ⟨hat, fun id hid => ?_⟩
      rcases hcover id hid with (h | h | h) | ⟨hf, h⟩
      · exact .inl (.inl h)
      · exact .inl (.inr (.inl h))
      · exact absurd ((if_pos hb).symm.trans h) (by simp)
      · exact .inr ⟨hf, fun h' => h (hb.symm.trans h')⟩
    case isFalse hb =>
      refine ⟨hat, fun id hid => ?_⟩
      rcases hcover id hid with (h | h | h) | h
      · exact .inl (.inl h)
      · exact .inl (.inr (.inl h))
      · exact .inl (.inr (.inr ((if_neg hb).symm.trans h)))
      · exact .inr h
  | publish id' =>
    refine ⟨hat, fun id hid => ?_⟩
    by_cases hid' : id' = id
    · exact .inl (.inl (congrArg some hid'))
    · rcases hcover id hid with (h | h | h) | ⟨hf, -⟩
      · rcases hG id hid h with h | h | h
        · exact absurd h hid'
        · exact .inl (.inr (.inl h))
        · exact .inr ⟨h, fun h' => hid' (Option.some.inj h')⟩
      · exact .inl (.inr (.inl h))
      · exact absurd (Option.some.inj h) hid'
      · exact .inr ⟨hf, fun h' => hid' (Option.some.inj h')⟩
  | remember id' =>
    refine ⟨hat, fun id hid => ?_⟩
    rcases hcover id hid with (h | h | h) | h
    · exact .inl (.inl h)
    · exact .inl (.inr (.inl h))
    · cases h
    · exact .inr h

/-! ## The main thread -/

/-- What a payload in the main thread's hands comes to. -/
theorem kept_taken {outcome : BuildOutcome} {id' : A × B} (hI : x.Kept)
    (hm : x.main = .taken outcome id') (accepted : Bool) : (drainStep x accepted).Kept := by
  obtain ⟨hat, hcover⟩ := hI
  obtain ⟨a, b, flag, slot, ring, built, request, worker, main, latest, answered⟩ := x
  cases hm
  -- a build that failed answers the request it was for
  have hanswered : (RebuildState.mk a b flag slot ring built request worker .lower latest
      (answered || decide (latest = some id'))).Kept := by
    refine ⟨hat, fun id hid => ?_⟩
    obtain ⟨hr, ha, hl, hring⟩ := mem_waiting.1 hid
    simp only [Bool.or_eq_false_iff, decide_eq_false_iff_not] at ha
    rcases hcover id (mem_waiting.2 ⟨hr, ha.1, hl, hring⟩) with (h | h | h) | h
    · exact .inl (.inl h)
    · exact absurd (hl.trans h.symm) ha.2
    · exact .inl (.inr (.inr h))
    · exact .inr h
  cases outcome with
  | failed => exact hanswered
  | skipped => exact hanswered
  | ready =>
    cases accepted with
    | true =>
      refine ⟨hat, fun id hid => ?_⟩
      obtain ⟨hr, ha, hl, hring⟩ := mem_waiting.1 hid
      have hring : id ∉ ring ++ [id'] := hring
      simp only [List.mem_append, List.mem_singleton, not_or] at hring
      rcases hcover id (mem_waiting.2 ⟨hr, ha, hl, hring.1⟩) with (h | h | h) | h
      · exact .inl (.inl h)
      · exact absurd (Option.some.inj h).symm hring.2
      · exact .inl (.inr (.inr h))
      · exact .inr h
    | false =>
      refine ⟨hat, fun id hid => ?_⟩
      exact hcover id hid

theorem kept_drain (hI : x.Kept) (accepted : Bool) (hG : x.DrainSafe x.main) :
    (drainStep x accepted).Kept := by
  obtain ⟨hat, hcover⟩ := hI
  obtain ⟨a, b, flag, slot, ring, built, request, worker, main, latest, answered⟩ := x
  cases main with
  | idle =>
    cases flag with
    | true =>
      refine ⟨hat, fun id hid => ?_⟩
      rcases hcover id hid with (h | h | h) | h
      · exact .inl (.inl h)
      · cases h
      · exact .inl (.inr (.inr h))
      · exact .inr h
    | false => exact ⟨hat, hcover⟩
  | take =>
    cases slot with
    | none =>
      refine ⟨hat, fun id hid => ?_⟩
      rcases hcover id hid with (h | h | h) | h
      · cases h
      · cases h
      · exact .inl (.inr (.inr h))
      · exact .inr h
    | some r =>
      refine ⟨hat, fun id hid => ?_⟩
      rcases hcover id hid with (h | h | h) | h
      · exact .inl (.inr (.inl h))
      · cases h
      · exact .inl (.inr (.inr h))
      · exact .inr h
  | taken outcome id' => exact kept_taken ⟨hat, hcover⟩ rfl accepted
  | putBack id' =>
    refine ⟨hat, fun id hid => ?_⟩
    rcases hcover id hid with (h | h | h) | h
    · rcases hG id hid h with h | h | h
      · exact .inl (.inl (congrArg some h))
      · exact .inl (.inr (.inr h))
      · exact .inr h
    · exact .inl (.inl h)
    · exact .inl (.inr (.inr h))
    · exact .inr h
  | lower =>
    refine ⟨hat, fun id hid => ?_⟩
    rcases hG id hid with h | h | h
    · exact .inl (.inl h)
    · cases h
    · exact .inl (.inr (.inr h))

/-! ## Runs -/

theorem kept_step (a : RebuildAction A B) (hI : x.Kept) (hG : x.NoRace a)
    (h : rebuildStep x a = some y) : y.Kept := by
  cases a with
  | storeFirst a =>
    simp only [rebuildStep] at h
    split at h <;> cases h
    exact .of_request (by simp)
  | storeSecond b =>
    simp only [rebuildStep] at h
    split at h <;> cases h
    exact .of_request (by simp)
  | raise => exact kept_raise hG h
  | resolve => exact kept_resolve hI h
  | supersede => exact kept_supersede hI hG h
  | worker outcome => exact Option.some.inj h ▸ kept_worker hI outcome hG
  | main accepted => exact Option.some.inj h ▸ kept_drain hI accepted hG

/-- In a kept state with three idle threads the latest request is not lost. -/
theorem Kept.not_lost (hI : x.Kept) (hidle : x.Idle) : ¬ x.Lost := by
  obtain ⟨hr, hw, hm⟩ := hidle
  rintro ⟨id, hl, ha, hring, hslot, hseen⟩
  rcases hI.cover id (mem_waiting.2 ⟨hr, ha, hl, hring⟩) with (h | h | h) | ⟨hf, h⟩
  · obtain ⟨r, hr, rfl⟩ := Option.map_eq_some_iff.1 h
    exact hslot r.1 hr
  · rw [hm] at h; cases h
  · simp only [building, hw] at h; cases h
  · simp only [remembered, hw] at h
    exact h (hseen hf)

end RebuildState

open Machine

/-- A run of the three threads from the start that keeps clear of the races loses no request, at
either kind of rebuild. -/
theorem rebuilds_kept (ch gen factor : Nat) (as : List (RebuildAction Nat Nat))
    (bs : List (RebuildAction Nat Unit)) :
    (∀ x : SlimmableRebuilds, Guarded rebuildStep RebuildState.NoRace (.init ch gen) as →
      run rebuildStep (.init ch gen) as = some x → x.Idle → ¬ x.Lost) ∧
    (∀ x : OversampleRebuilds, Guarded rebuildStep RebuildState.NoRace (.init factor ()) bs →
      run rebuildStep (.init factor ()) bs = some x → x.Idle → ¬ x.Lost) := by
  constructor
  · intro x hG h hidle
    have hI : x.Kept := run_invariant (fun _ a _ hI hG h => RebuildState.kept_step a hI hG h)
      (RebuildState.kept_init ch gen) hG h
    exact hI.not_lost hidle
  · intro x hG h hidle
    have hI : x.Kept := run_invariant (fun _ a _ hI hG h => RebuildState.kept_step a hI hG h)
      (RebuildState.kept_init factor ()) hG h
    exact hI.not_lost hidle

/-- The steps of one request whose payload finds the ring full once and is installed. -/
def retriedRequest {A B : Type} (a : A) (b : B) : List (RebuildAction A B) :=
  [.storeFirst a, .storeSecond b, .raise, .worker .ready, .worker .ready, .worker .ready,
    .worker .ready, .worker .ready, .main true, .main true, .main false, .main false, .main true,
    .main true, .main true, .main true, .resolve]

/-- The steps of two requests, the second of them raised between the push for the first and the
lowering of the flag. -/
def coveredRequest {A B : Type} (a a' : A) (b : B) : List (RebuildAction A B) :=
  [.storeFirst a, .storeSecond b, .raise, .worker .ready, .worker .ready, .worker .ready,
    .worker .ready, .worker .ready, .main true, .main true, .main true, .storeFirst a',
    .storeSecond b, .raise, .main true]

theorem rebuilds_kept_retried :
    (∃ x, run rebuildStep (.init 0 0) (retriedRequest 8 1) = some x ∧ x.Idle ∧ ¬ x.Lost) ∧
    (∃ x, run rebuildStep (.init 0 ()) (retriedRequest 2 ()) = some x ∧ x.Idle ∧ ¬ x.Lost) := by
  constructor
  · refine ⟨_, rfl, by decide, ?_⟩
    exact (rebuilds_kept 0 0 0 (retriedRequest 8 1) []).1 _ (by decide) rfl (by decide)
  · refine ⟨_, rfl, by decide, ?_⟩
    exact (rebuilds_kept 0 0 0 [] (retriedRequest 2 ())).2 _ (by decide) rfl (by decide)

/-- A request raised between the push for the one before and the lowering of the flag is lost. -/
theorem rebuild_lost :
    ¬ ((∀ (ch gen : Nat) (as : List (RebuildAction Nat Nat)) (x : SlimmableRebuilds),
        run rebuildStep (.init ch gen) as = some x → x.Idle → ¬ x.Lost) ∧
      (∀ (factor : Nat) (as : List (RebuildAction Nat Unit)) (x : OversampleRebuilds),
        run rebuildStep (.init factor ()) as = some x → x.Idle → ¬ x.Lost)) := by
  intro h
  refine h.1 0 0 (coveredRequest 8 4 1) _ rfl (by decide) ⟨(4, 1), rfl, rfl, ?_, ?_, ?_⟩
  · decide
  · intro outcome ho; cases ho
  · intro hf; cases hf

end NamPlug
