import NamPlug.Dsp.Proof.Trace

/-!
# The invariant of a block

`Inv evs cur b`: the samples before `cur` of a block with the scheduled events `evs` are processed,
the events applied so far took effect on time, and the rest is pending. It is kept by the
application of events that are due (`Inv.applyNow`, `Inv.applyWhile`) and by a sub-block with gain
events fused into it (`Inv.process`). `scanEnd_exact` and `scanEnd_fused` say where the next
sub-block ends, `stageLoop_spec` what is fused into it.
-/

namespace NamPlug

open Timeline

/-- The wanted times of events. -/
def times (es : List ScheduledEvent) : List Nat := es.map (·.time)

theorem times_append (es es' : List ScheduledEvent) : times (es ++ es') = times es ++ times es' :=
  List.map_append

theorem le_of_head {t : Nat} {es : List ScheduledEvent} (hs : (times es).Pairwise (· ≤ ·))
    (hhead : ∀ e ∈ es.head?, t ≤ e.time) : ∀ e ∈ es, t ≤ e.time := by
  intro e he
  cases es with
  | nil => cases he
  | cons e₀ es =>
    have h₀ : t ≤ e₀.time := hhead e₀ rfl
    rcases List.mem_cons.1 he with rfl | he
    · exact h₀
    · exact Nat.le_trans h₀ ((List.pairwise_cons.1 hs).1 _ (List.mem_map.2 ⟨e, he, rfl⟩))

/-- The gain steps of a sub-block are those of its fused events, and only gain events are fused. -/
def SubOk : Obs → Prop
  | .apply _ => True
  | .sub _ n _ fused steps _ =>
    steps.length = fused.length ∧ (∀ s ∈ steps, s.offset < n) ∧
      ∀ e ∈ fused, isFusableGainParam e.paramId = true

/-- A block with the scheduled events `evs` and the samples before `cur` processed. -/
structure Inv (evs : List ScheduledEvent) (cur : Nat) (b : BlockState) : Prop where
  events : applied b.trace ++ b.pending = evs
  tiles : Tiles 0 cur (spans b.trace)
  output : Tiles 0 cur (writes b.trace)
  effects : effects 0 b.trace = (applied b.trace).zip (prefixMax 0 (times (applied b.trace)))
  bound : maxFrom 0 (times (applied b.trace)) ≤ cur
  next : ∀ e ∈ b.pending.head?, e.time < cur → maxFrom 0 (times (applied b.trace)) = cur
  sorted : b.sorted = true → (times evs).Pairwise (· ≤ ·)
  subs : ∀ o ∈ b.trace, SubOk o

theorem Inv.congr {evs : List ScheduledEvent} {cur : Nat} {b b' : BlockState} (h : Inv evs cur b)
    (ht : b'.trace = b.trace) (hp : b'.pending = b.pending) (hs : b'.sorted = b.sorted) :
    Inv evs cur b' := by
  obtain ⟨h1, h2, h3, h4, h5, h6, h7, h8⟩ := h
  constructor <;> simp only [ht, hp, hs] <;> assumption

@[simp] theorem refreshGate_trace (b : BlockState) : b.refreshGate.trace = b.trace := by
  unfold BlockState.refreshGate; split <;> rfl

@[simp] theorem refreshGate_pending (b : BlockState) : b.refreshGate.pending = b.pending := by
  unfold BlockState.refreshGate; split <;> rfl

@[simp] theorem refreshGate_sorted (b : BlockState) : b.refreshGate.sorted = b.sorted := by
  unfold BlockState.refreshGate; split <;> rfl

theorem Inv.refresh {evs : List ScheduledEvent} {cur : Nat} {b : BlockState} (h : Inv evs cur b) :
    Inv evs cur b.refreshGate.triggerBypass :=
  h.congr (by simp [BlockState.triggerBypass]) (by simp [BlockState.triggerBypass])
    (by simp [BlockState.triggerBypass])

section
variable {E : ParamEngine} {evs : List ScheduledEvent} {cur : Nat}

/-! ## Applying due events -/

/-- An event that is due at `cur` takes effect there. -/
theorem Inv.applyNow {b : BlockState} {e : ScheduledEvent} {es : List ScheduledEvent}
    (h : Inv evs cur { b with pending := e :: es })
    (hdue : max (maxFrom 0 (times (applied b.trace))) e.time = cur) :
    Inv evs cur { b.applyNow E e with pending := es } := by
  have htr : (b.applyNow E e).trace = b.trace ++ [.apply e] := rfl
  have happ : applied (b.trace ++ [.apply e]) = applied b.trace ++ [e] := by
    simp [applied, Obs.events]
  have hmax : maxFrom 0 (times (applied b.trace ++ [e])) = cur := by
    simp only [times, List.map_append, maxFrom_append, List.map_cons, List.map_nil, maxFrom_cons,
      maxFrom_nil]
    exact hdue
  obtain ⟨h1, h2, h3, h4, -, -, h7, h8⟩ := h
  simp only at h1 h2 h3 h4 h7 h8
  constructor <;> simp only [htr, happ]
  · simpa using h1
  · rw [spans_append]
    simpa [spans, Obs.spans] using h2
  · rw [writes_append]
    simpa [writes, Obs.writes] using h3
  · rw [effects_append, endAt_of_tiles h2, h4]
    simp only [times, List.map_append, prefixMax_append]
    rw [List.zip_append (by simp)]
    simp only [NamPlug.effects, List.map_cons, List.map_nil, prefixMax, List.zip_cons_cons,
      List.zip_nil_right]
    rw [show max (maxFrom 0 (List.map (·.time) (applied b.trace))) e.time = cur from hdue]
  · exact Nat.le_of_eq hmax
  · exact fun _ _ _ => hmax
  · exact h7
  · intro o ho
    rcases List.mem_append.1 ho with ho | ho
    · exact h8 o ho
    · rw [List.mem_singleton.1 ho]
      trivial

/-- A loop over due events: the invariant, and where it stops. -/
theorem Inv.applyWhile {cond : ScheduledEvent → Bool}
    (hcond : ∀ e m, cond e = true → m ≤ cur → (e.time < cur → m = cur) → max m e.time = cur) :
    ∀ {es : List ScheduledEvent} {b : BlockState}, Inv evs cur { b with pending := es } →
      Inv evs cur (NamPlug.applyWhile E cond es b).1 ∧
        (∀ e ∈ (NamPlug.applyWhile E cond es b).1.pending.head?, cond e = false) ∧
        (NamPlug.applyWhile E cond es b).1.pending <:+ es
  | [], b, h => ⟨h, by simp [NamPlug.applyWhile], List.suffix_refl _⟩
  | e :: es, b, h => by
    unfold NamPlug.applyWhile
    split
    · rename_i he
      have hdue := hcond e _ he h.bound (h.next e rfl)
      obtain ⟨h1, h2, h3⟩ := Inv.applyWhile hcond (h.applyNow (E := E) hdue)
      exact ⟨h1, h2, h3.trans (List.suffix_cons e es)⟩
    · rename_i he
      refine ⟨h, fun e' he' => ?_, List.suffix_refl _⟩
      simp only [List.head?_cons, Option.mem_some_iff] at he'
      subst he'
      simpa using he

theorem Inv.applyAnomalous {cond : ScheduledEvent → Bool} {b : BlockState}
    (hcond : ∀ e m, cond e = true → m ≤ cur → (e.time < cur → m = cur) → max m e.time = cur)
    (h : Inv evs cur b) :
    Inv evs cur (b.applyAnomalous E cond) ∧
      (∀ e ∈ (b.applyAnomalous E cond).pending.head?, cond e = false) ∧
      (b.applyAnomalous E cond).pending <:+ b.pending := by
  obtain ⟨h1, h2, h3⟩ := Inv.applyWhile (E := E) hcond (b := b) h
  unfold BlockState.applyAnomalous
  split
  · rename_i b' heq
    rw [heq] at h1 h2 h3
    have hflag : Inv evs cur { b' with timingAnomaly := true } := h1.congr rfl rfl rfl
    exact ⟨hflag.refresh, by simpa [BlockState.triggerBypass] using h2,
      by simpa [BlockState.triggerBypass] using h3⟩
  · rename_i b' heq
    rw [heq] at h1 h2 h3
    exact ⟨h1, h2, h3⟩

/-! ## The next boundary -/

/-- Without fusing, the next sub-block ends at the next event. -/
theorem scanEnd_exact {base n : Nat} {es : List ScheduledEvent} (hle : cur ≤ base + n)
    (hbase : base ≤ cur) (hcur : ∀ e ∈ es.head?, cur ≤ e.time) :
    let r := scanEnd false cur base n es 0
    cur ≤ base + r ∧ r ≤ n ∧ (∀ e ∈ es.head?, base + r ≤ e.time) ∧
      (r < n → ∃ e ∈ es.head?, e.time = base + r) := by
  match es with
  | [] => simp [scanEnd, hle]
  | e :: es =>
    have he : cur ≤ e.time := hcur e rfl
    simp only [scanEnd, if_neg (Nat.not_lt.2 he), Bool.not_false, Bool.true_or, if_true]
    split
    · rename_i hend
      exact ⟨hle, Nat.le_refl _, by simpa using hend, fun h => absurd h (Nat.lt_irrefl _)⟩
    · rename_i hend
      have hr : base + (e.time - base) = e.time := by omega
      rw [hr]
      exact ⟨he, by omega, by simp, fun _ => ⟨e, rfl, rfl⟩⟩

/-- With fusing, the events before the next boundary are gain events, and not too many. -/
theorem scanEnd_fused {base n : Nat} (hle : cur ≤ base + n) (hbase : base ≤ cur) :
    ∀ {es : List ScheduledEvent} {gains : Nat}, (times es).Pairwise (· ≤ ·) →
      (∀ e ∈ es, cur ≤ e.time) → gains ≤ MAX_GAIN_STEPS →
      let r := scanEnd true cur base n es gains
      cur ≤ base + r ∧ r ≤ n ∧
        (∀ e ∈ es, e.time < base + r → isFusableGainParam e.paramId = true) ∧
        (es.filter (fun e => decide (e.time < base + r))).length + gains ≤ MAX_GAIN_STEPS ∧
        (r < n → ∃ e ∈ es, e.time = base + r)
  | [], gains, _, _, hg => by simp [scanEnd, hle, hg]
  | e :: es, gains, hs, hcur, hg => by
    have he : cur ≤ e.time := hcur e (.head _)
    obtain ⟨hmin, hs'⟩ := List.pairwise_cons.1 hs
    have hmin' : ∀ e' ∈ es, e.time ≤ e'.time := fun e' he' => hmin _ (List.mem_map.2 ⟨e', he', rfl⟩)
    -- where the sub-block ends at `e`, no event lies before its end
    have hat : ∀ r, base + r = e.time → ∀ e' ∈ e :: es, ¬e'.time < base + r := by
      intro r hr e' he'
      rcases List.mem_cons.1 he' with rfl | he'
      · omega
      · have := hmin' e' he'
        omega
    have hstop : ∀ r, base + r = e.time →
        (∀ e' ∈ e :: es, e'.time < base + r → isFusableGainParam e'.paramId = true) ∧
        ((e :: es).filter (fun e' => decide (e'.time < base + r))).length + gains ≤
          MAX_GAIN_STEPS := by
      intro r hr
      refine ⟨fun e' he' hlt => absurd hlt (hat r hr e' he'), ?_⟩
      rw [List.filter_eq_nil_iff.2 fun e' he' => by simpa using hat r hr e' he']
      simpa using hg
    simp only [scanEnd, if_neg (Nat.not_lt.2 he), Bool.not_true, Bool.false_or]
    split
    · rename_i hend
      have hall : ∀ e' ∈ e :: es, ¬e'.time < base + n := by
        intro e' he'
        rcases List.mem_cons.1 he' with rfl | he'
        · omega
        · have := hmin' e' he'
          omega
      refine ⟨hle, Nat.le_refl _, fun e' he' hlt => absurd hlt (hall e' he'), ?_,
        fun h => absurd h (Nat.lt_irrefl _)⟩
      rw [List.filter_eq_nil_iff.2 fun e' he' => by simpa using hall e' he']
      simpa using hg
    · rename_i hend
      have hr : base + (e.time - base) = e.time := by omega
      split
      · obtain ⟨h1, h2⟩ := hstop _ hr
        exact ⟨by omega, by omega, h1, h2, fun _ => ⟨e, .head _, hr.symm⟩⟩
      · rename_i hgain
        split
        · obtain ⟨h1, h2⟩ := hstop _ hr
          exact ⟨by omega, by omega, h1, h2, fun _ => ⟨e, .head _, hr.symm⟩⟩
        · rename_i hroom
          obtain ⟨h1, h2, h3, h4, h5⟩ := scanEnd_fused hle hbase hs'
            (fun e' he' => hcur e' (.tail _ he')) (Nat.le_of_not_lt hroom)
          refine ⟨h1, h2, fun e' he' hlt => ?_, ?_, fun h => ?_⟩
          · rcases List.mem_cons.1 he' with rfl | he'
            · simpa [eventRequiresBoundary] using hgain
            · exact h3 e' he' hlt
          · rw [List.filter_cons]
            split
            · simp only [List.length_cons]
              omega
            · omega
          · obtain ⟨e', he', ht⟩ := h5 h
            exact ⟨e', .tail _ he', ht⟩

/-! ## Staged gain events -/

theorem applyEvent_gain (c : ParamCtx) {e : ScheduledEvent} (b : Bool)
    (h : isFusableGainParam e.paramId = true) : ((applyEvent E c e b).2).isSome = true := by
  have hid : e.paramId = 0 ∨ e.paramId = 1 := by
    simpa [isFusableGainParam, ParamId.code] using h
  unfold applyEvent
  rcases hid with hid | hid <;> rw [hid] <;>
    simp only [ParamId.ofCode, applyScheduledEvent] <;> split <;> rfl

/-- What the staging loop leaves: the events before `stop` fused, one step for each. -/
theorem stageLoop_spec {stop : Nat} : ∀ {es : List ScheduledEvent} {s : Staged},
    (∀ e ∈ es, e.time < stop → isFusableGainParam e.paramId = true) →
    s.steps.length + (es.takeWhile (fun e => decide (e.time < stop))).length ≤ MAX_GAIN_STEPS →
    s.steps.map (·.offset) = s.fused.map (fun e => e.time - cur) →
    let r := stageLoop E cur stop es s
    r.fused = s.fused ++ es.takeWhile (fun e => decide (e.time < stop)) ∧
      r.pending = es.dropWhile (fun e => decide (e.time < stop)) ∧
      r.steps.map (·.offset) = r.fused.map (fun e => e.time - cur)
  | [], s, _, _, hs => by simp [stageLoop, hs]
  | e :: es, s, hgain, hroom, hs => by
    unfold stageLoop
    by_cases ht : e.time < stop
    · have hg := hgain e (.head _) ht
      have hno : ¬(decide (stop ≤ e.time) || eventRequiresBoundary e.paramId) = true := by
        simp [eventRequiresBoundary, hg, ht]
      obtain ⟨gt, hgt⟩ := Option.isSome_iff_exists.1 (applyEvent_gain (E := E) s.ctx false hg)
      simp only [List.takeWhile_cons, List.dropWhile_cons, ht, decide_true, if_true,
        List.length_cons] at hroom ⊢
      have hlt : s.steps.length < MAX_GAIN_STEPS := by omega
      simp only [if_neg hno, hgt, if_pos hlt]
      obtain ⟨h1, h2, h3⟩ := stageLoop_spec (s := { s with
          ctx := (applyEvent E s.ctx e false).1
          fused := s.fused ++ [e]
          steps := s.steps ++ [⟨e.time - cur, gt.target, gt.isInput⟩] })
        (fun e' he' => hgain e' (.tail _ he'))
        (by simp only [List.length_append, List.length_singleton]; omega)
        (by simp [hs])
      exact ⟨by rw [h1]; simp, h2, h3⟩
    · have hyes : (decide (stop ≤ e.time) || eventRequiresBoundary e.paramId) = true := by
        simp [Nat.le_of_not_lt ht]
      simp [hyes, ht, hs]

/-! ## A sub-block -/

theorem written_of_tiles {a n : Nat} {ws : List (Nat × Nat)} (h : Tiles a (a + n) ws) :
    written ws = n := by
  have := h.sum
  unfold written
  omega

section
variable {D : DspEngine} (hD : ∀ pos n, D.streaming pos n = n)
include hD

theorem processChunk_fst (pos n : Nat) (bypass : Bool) (steps : List GainStep) (s : SubState) :
    (processChunk D pos n bypass steps s).1 = n := by
  unfold processChunk
  split
  · simp [hD]
  · split
    · rfl
    · simp [hD]

theorem processChunks_tiles (bypass : Bool) (fuel : Nat) :
    ∀ (pos outPos remaining : Nat) (s : SubState), remaining ≤ fuel →
      Tiles outPos (outPos + remaining)
        (processChunks D bypass fuel pos outPos remaining s).1 := by
  induction fuel with
  | zero =>
    intro pos outPos remaining s h
    rw [Nat.le_zero.1 h]
    rfl
  | succ fuel ih =>
    intro pos outPos remaining s h
    unfold processChunks
    split
    · rename_i h0
      rw [h0]
      rfl
    · rename_i h0
      have hpos := D.maxResampBuf_pos
      refine ⟨rfl, ?_, ?_⟩
      · simp only [processChunk_fst hD]
        omega
      · simp only [processChunk_fst hD]
        generalize hc : min remaining D.maxResampBuf = c
        have hrest := ih (pos + c) (outPos + c) (remaining - c)
          (processChunk D pos c bypass [] s).2 (by omega)
        rwa [show outPos + c + (remaining - c) = outPos + remaining by omega] at hrest

/-- A sub-block writes its output ranges one after the other, as many samples as it is given. -/
theorem processSubBlock_tiles {n : Nat} (hn : 0 < n) (pos outPos : Nat) (bypass : Bool)
    (steps : List GainStep) (s : SubState) :
    Tiles outPos (outPos + n) (processSubBlock D pos n outPos bypass steps s).1 := by
  unfold processSubBlock
  split
  · exact processChunks_tiles hD bypass n pos outPos n s (Nat.le_refl n)
  · simp only [processChunk_fst hD]
    exact Tiles.single hn

/-- A sub-block moves the block on by its length; its fused events take effect on time. -/
theorem Inv.process {b : BlockState} {len : Nat} (fused rest : List ScheduledEvent)
    (steps : List GainStep) (h : Inv evs cur { b with pending := fused ++ rest }) (hlen : 0 < len)
    (hcur : ∀ e ∈ fused, cur ≤ e.time ∧ e.time < cur + len)
    (hsort : (times fused).Pairwise (· ≤ ·))
    (hgain : ∀ e ∈ fused, isFusableGainParam e.paramId = true)
    (hsteps : steps.map (·.offset) = fused.map (fun e => e.time - cur))
    (hrest : ∀ e ∈ rest.head?, cur + len ≤ e.time) :
    Inv evs (cur + len) { (b.process D cur len cur fused steps).1 with pending := rest } ∧
      (b.process D cur len cur fused steps).2 = len := by
  have hws := processSubBlock_tiles hD hlen cur cur b.ctx.rt.params.bypass steps
    ⟨b.xfade, b.ctx.rt.smootherIn, b.ctx.rt.smootherOut⟩
  refine ⟨?_, written_of_tiles hws⟩
  generalize hw : (processSubBlock D cur len cur b.ctx.rt.params.bypass steps
    ⟨b.xfade, b.ctx.rt.smootherIn, b.ctx.rt.smootherOut⟩).1 = ws at hws
  have htr : (b.process D cur len cur fused steps).1.trace =
      b.trace ++ [.sub cur len b.ctx fused steps ws] := by
    simp only [BlockState.process, hw]
  have hso : (b.process D cur len cur fused steps).1.sorted = b.sorted := rfl
  have happ : applied (b.trace ++ [.sub cur len b.ctx fused steps ws]) = applied b.trace ++ fused := by
    simp [applied, Obs.events]
  have hlens : steps.length = fused.length := by
    simpa using congrArg List.length hsteps
  -- the steps put the fused events at their own times
  have hzip : (fused.zip steps).map (fun p => (p.1, cur + p.2.offset)) =
      fused.zip (times fused) := by
    have hoff : steps.map (fun s => cur + s.offset) = times fused := by
      have : steps.map (fun s => cur + s.offset) = (steps.map (·.offset)).map (cur + ·) := by
        simp [Function.comp_def]
      rw [this, hsteps, List.map_map]
      refine List.map_congr_left fun e he => ?_
      have := (hcur e he).1
      simp only [Function.comp_apply]
      omega
    rw [← hoff, List.zip_map_right]
    rfl
  obtain ⟨h1, h2, h3, h4, h5, -, h7, h8⟩ := h
  simp only at h1 h2 h3 h4 h5 h7 h8
  have hmono : (maxFrom 0 (times (applied b.trace)) :: times fused).Pairwise (· ≤ ·) := by
    refine List.pairwise_cons.2 ⟨fun t ht => ?_, hsort⟩
    obtain ⟨e, he, rfl⟩ := List.mem_map.1 ht
    exact Nat.le_trans h5 (hcur e he).1
  constructor <;> simp only [htr, happ, hso]
  · simpa using h1
  · rw [spans_append]
    exact Tiles.append (Tiles.single hlen) h2
  · rw [writes_append]
    exact Tiles.append (by simpa [writes, Obs.writes] using hws) h3
  · rw [effects_append, endAt_of_tiles h2, h4]
    simp only [times, List.map_append, prefixMax_append]
    rw [List.zip_append (by simp)]
    simp only [NamPlug.effects, List.append_nil, hzip]
    rw [show List.map (·.time) fused = times fused from rfl,
      show List.map (·.time) (applied b.trace) = times (applied b.trace) from rfl,
      prefixMax_of_sorted hmono]
  · simp only [times, List.map_append, maxFrom_append]
    refine maxFrom_le (Nat.le_trans h5 (Nat.le_add_right _ _)) fun t ht => ?_
    obtain ⟨e, he, rfl⟩ := List.mem_map.1 ht
    exact Nat.le_of_lt (hcur e he).2
  · intro e he hlt
    have := hrest e he
    omega
  · exact h7
  · intro o ho
    rcases List.mem_append.1 ho with ho | ho
    · exact h8 o ho
    · rw [List.mem_singleton.1 ho]
      refine ⟨hlens, fun s hs => ?_, hgain⟩
      have hmem : s.offset ∈ fused.map (fun e => e.time - cur) := by
        rw [← hsteps]
        exact List.mem_map.2 ⟨s, hs, rfl⟩
      obtain ⟨e, he, hoff⟩ := List.mem_map.1 hmem
      have := hcur e he
      omega

end

end

end NamPlug
