import NamPlug.Dsp.Proof.Fold

/-!
# Exactly-once, in-order, sample-accurate events

`processDspAudio_exact`: a block of any length applies every scheduled event once, in delivery
order, at the first sample no event before it is later than (or at the end of the block), with the
block tiled by sub-blocks and its output written completely; the parameters at the end, and those
every sub-block is processed with, are the fold of `apply_scheduled_event` over the events so far.

A round of the sub-block loop keeps the invariant of a block and makes progress
(`Inv.wetIteration`), hence so do a slice (`Inv.wetLoop`) and the slices of a block
(`Inv.sliceLoop`).
-/

namespace NamPlug

open Timeline Binary32

section
variable {evs : List ScheduledEvent}

/-- Where gain events are fused, the pending events are in order. -/
theorem Inv.pending_sorted {cur : Nat} {b : BlockState} (h : Inv evs cur b)
    (hs : b.sorted = true) : (times b.pending).Pairwise (· ≤ ·) := by
  have := h.sorted hs
  rw [← h.events, times, List.map_append] at this
  exact (List.pairwise_append.1 this).2.1

/-! ## A round of the sub-block loop -/

/-- What a round has done when its sub-block is processed up to `stop`. -/
structure Advanced (evs : List ScheduledEvent) (base n stop : Nat) (old b : BlockState) : Prop where
  inv : Inv evs (base + stop) b
  due : ∀ e ∈ b.pending.head?, base + stop ≤ e.time
  atStop : stop < n → ∃ e ∈ b.pending.head?, e.time = base + stop
  shrinks : b.pending <:+ old.pending

section
variable {E : ParamEngine} {D : DspEngine} (hD : ∀ pos n, D.streaming pos n = n)
  {base off n stop : Nat} {b : BlockState}
include hD

/-- The sub-block without fused events. -/
theorem Inv.advance_exact (h : Inv evs (base + off) b) (hoff : off < n)
    (hhead : ∀ e ∈ b.pending.head?, base + off ≤ e.time)
    (hstop : scanEnd false (base + off) base n b.pending 0 = stop) :
    let r := b.advanceTo E D base off stop off false
    off ≤ stop ∧ stop ≤ n ∧ Advanced evs base n stop b r.1 ∧ r.2 = stop := by
  obtain ⟨h1, h2, h3, h4⟩ := scanEnd_exact (n := n) (by omega : base + off ≤ base + n)
    (by omega : base ≤ base + off) hhead
  rw [hstop] at h1 h2 h3 h4
  have hle : off ≤ stop := by omega
  refine ⟨hle, h2, ?_⟩
  unfold BlockState.advanceTo
  split
  · rename_i hz
    have heq : stop = off := by omega
    exact ⟨⟨heq ▸ h, h3, h4, List.suffix_refl _⟩, heq.symm⟩
  · rename_i hpos
    have hend : base + off + (stop - off) = base + stop := by omega
    obtain ⟨hi, hn⟩ := Inv.process hD [] b.pending [] h (Nat.pos_of_ne_zero hpos) (by simp)
      (by simp [times]) (by simp) rfl (by rw [hend]; exact h3)
    rw [hend] at hi
    refine ⟨⟨hi, h3, h4, List.suffix_refl _⟩, ?_⟩
    simp only [Bool.false_eq_true, if_false, hn]
    omega

/-- The sub-block with the gain events before its end fused into it. -/
theorem Inv.advance_fused (h : Inv evs (base + off) b) (hoff : off < n)
    (hhead : ∀ e ∈ b.pending.head?, base + off ≤ e.time) (hs : b.sorted = true)
    (hstop : scanEnd true (base + off) base n b.pending 0 = stop) :
    let r := b.advanceTo E D base off stop off true
    off ≤ stop ∧ stop ≤ n ∧ Advanced evs base n stop b r.1 ∧ r.2 = stop := by
  have hsort := h.pending_sorted hs
  have hall := le_of_head hsort hhead
  obtain ⟨h1, h2, h3, h4, h5⟩ := scanEnd_fused (n := n) (by omega : base + off ≤ base + n)
    (by omega : base ≤ base + off) hsort hall (Nat.zero_le _)
  rw [hstop] at h1 h2 h3 h4 h5
  have hle : off ≤ stop := by omega
  refine ⟨hle, h2, ?_⟩
  obtain ⟨before, rest, hsplit, hfuse, hkeep, hb, hr⟩ : ∃ before rest, before ++ rest = b.pending ∧
      b.pending.takeWhile (fun e => decide (e.time < base + stop)) = before ∧
      b.pending.dropWhile (fun e => decide (e.time < base + stop)) = rest ∧
      (∀ e ∈ before, e.time < base + stop) ∧ ∀ e ∈ rest.head?, base + stop ≤ e.time := by
    refine ⟨_, _, List.takeWhile_append_dropWhile, rfl, rfl, fun e he => ?_, fun e he => ?_⟩
    · simpa using List.mem_takeWhile_imp he
    · have := List.head?_dropWhile_not (fun e : ScheduledEvent => decide (e.time < base + stop))
        b.pending
      rw [Option.mem_def.1 he] at this
      simpa using this
  have hmem : ∀ e ∈ before, e ∈ b.pending := fun e he => hsplit ▸ List.mem_append_left rest he
  have hsorts : (times before).Pairwise (· ≤ ·) ∧ (times rest).Pairwise (· ≤ ·) := by
    rw [← hsplit, times, List.map_append] at hsort
    exact ⟨(List.pairwise_append.1 hsort).1, (List.pairwise_append.1 hsort).2.1⟩
  -- the event the sub-block stops at is the first one left
  have hat : stop < n → ∃ e ∈ rest.head?, e.time = base + stop := by
    intro hlt
    obtain ⟨e, he, ht⟩ := h5 hlt
    rw [← hsplit] at he
    rcases List.mem_append.1 he with he | he
    · have := hb e he
      omega
    · obtain ⟨e₀, he₀⟩ := Option.isSome_iff_exists.1 (List.isSome_head?.2 (List.ne_nil_of_mem he))
      have h₀ := le_of_head hsorts.2 (t := e₀.time)
        (fun e' he' => by rw [he₀] at he'; exact Nat.le_of_eq (congrArg _ (Option.some.inj he')))
        e he
      exact ⟨e₀, he₀, Nat.le_antisymm (ht ▸ h₀) (hr e₀ he₀)⟩
  have hroom : before.length ≤ MAX_GAIN_STEPS := by
    have hfilter : before.filter (fun e => decide (e.time < base + stop)) = before :=
      List.filter_eq_self.2 fun e he => by simpa using hb e he
    rw [← hsplit, List.filter_append, hfilter, List.length_append] at h4
    omega
  unfold BlockState.advanceTo
  split
  · rename_i hz
    have heq : stop = off := by omega
    have hnil : before = [] := by
      refine List.eq_nil_iff_forall_not_mem.2 fun e he => ?_
      have := hb e he
      have := hall e (hmem e he)
      omega
    have hrest : rest = b.pending := by simpa [hnil] using hsplit
    exact ⟨⟨heq ▸ h, hrest ▸ hr, hrest ▸ hat, List.suffix_refl _⟩, heq.symm⟩
  · rename_i hpos
    have hend : base + off + (stop - off) = base + stop := by omega
    generalize hst : stageLoop E (base + off) (base + stop) b.pending ⟨b.ctx, [], [], []⟩ = st
    obtain ⟨hs1, hs2, hs3⟩ : st.fused = before ∧ st.pending = rest ∧
        st.steps.map (·.offset) = st.fused.map (fun e => e.time - (base + off)) := by
      have hspec := @stageLoop_spec E (base + off) (base + stop) b.pending ⟨b.ctx, [], [], []⟩ h3
        (by rw [hfuse]; simpa using hroom) rfl
      rw [hst, hfuse, hkeep] at hspec
      simpa using hspec
    have hlen : 0 < stop - off := Nat.pos_of_ne_zero hpos
    rw [hs1] at hs3
    have hinv : Inv evs (base + off) { b with ctx := st.ctx, pending := before ++ rest } :=
      h.congr rfl hsplit rfl
    obtain ⟨hi, hn⟩ := Inv.process hD (b := { b with ctx := st.ctx, pending := rest }) before rest
      st.steps hinv hlen
      (fun e he => ⟨hall e (hmem e he), by have := hb e he; omega⟩) hsorts.1
      (fun e he => h3 e (hmem e he) (hb e he)) hs3 (by rw [hend]; exact hr)
    rw [hend] at hi
    simp only [if_true, hs1, hs2]
    refine ⟨⟨hi.congr rfl rfl rfl, hr, hat, ⟨before, hsplit⟩⟩, ?_⟩
    rw [hn]
    omega

/-- The sub-block of a round, fused or not. -/
theorem Inv.advance (h : Inv evs (base + off) b) (hoff : off < n)
    (hhead : ∀ e ∈ b.pending.head?, base + off ≤ e.time)
    (hstop : scanEnd (b.fuses D n) (base + off) base n b.pending 0 = stop) :
    let r := b.advanceTo E D base off stop off (b.fuses D n)
    off ≤ stop ∧ stop ≤ n ∧ Advanced evs base n stop b r.1 ∧ r.2 = stop := by
  cases hfuse : b.fuses D n with
  | false => exact h.advance_exact hD hoff hhead (hfuse ▸ hstop)
  | true =>
    have hs : b.sorted = true := by
      simp only [BlockState.fuses, Bool.and_eq_true] at hfuse
      exact hfuse.1.1.1.2
    exact h.advance_fused hD hoff hhead hs (hfuse ▸ hstop)

/-- A round keeps the invariant; it ends later in the slice or with fewer events pending. -/
theorem Inv.wetIteration (h : Inv evs (base + off) b) (hoff : off < n) :
    let r := wetIteration E D base n b off off
    Inv evs (base + r.2.1) r.1 ∧ r.2.2 = r.2.1 ∧ r.2.1 ≤ n ∧ r.1.pending.length ≤ b.pending.length ∧
      n - r.2.1 + r.1.pending.length < n - off + b.pending.length := by
  -- the late events are due now
  obtain ⟨h1, hhead, hsuf⟩ := @Inv.applyAnomalous E evs (base + off)
    (fun e => decide (e.time < base + off)) b (fun e m he hm hlate => by
      have he : e.time < base + off := by simpa using he
      rw [hlate he]
      omega) h
  unfold NamPlug.wetIteration
  generalize b.applyAnomalous E (fun e => decide (e.time < base + off)) = b1 at h1 hhead hsuf ⊢
  simp only
  generalize hstop : scanEnd (b1.fuses D n) (base + off) base n b1.pending 0 = stop
  obtain ⟨hle, hn, hadv, hout⟩ := Inv.advance (E := E) hD h1 hoff
    (fun e he => by simpa using hhead e he) hstop
  generalize b1.advanceTo E D base off stop off (b1.fuses D n) = r at hadv hout ⊢
  obtain ⟨b', out⟩ := r
  simp only at hadv hout ⊢
  -- the events at the boundary are due there
  obtain ⟨h2, hnext, hsuf'⟩ := @Inv.applyWhile E evs (base + stop)
    (fun e => decide (e.time = base + stop ∧ stop < n)) (fun e m he hm _ => by
      have he : e.time = base + stop ∧ stop < n := by simpa using he
      rw [he.1]
      omega) b'.pending b' hadv.inv
  generalize (NamPlug.applyWhile E (fun e => decide (e.time = base + stop ∧ stop < n)) b'.pending
    b').1 = b2 at h2 hnext hsuf' ⊢
  have hlen := hsuf.length_le
  have hlen' := hadv.shrinks.length_le
  have hlen'' := hsuf'.length_le
  have hpend : b2.refreshGate.triggerBypass.pending = b2.pending := by
    simp [BlockState.triggerBypass]
  rw [hpend]
  refine ⟨h2.refresh, hout, hn, by omega, ?_⟩
  by_cases hmove : off < stop
  · omega
  · -- the sub-block is empty, so an event at the boundary was applied
    have hlt : stop < n := by omega
    obtain ⟨e, he, ht⟩ := hadv.atStop hlt
    have hne : b2.pending ≠ b'.pending := by
      intro heq
      rw [heq] at hnext
      have := hnext e he
      simp [ht, hlt] at this
    have hshort := Nat.lt_of_le_of_ne hlen'' fun heq => hne (hsuf'.eq_of_length heq)
    omega

/-- The sub-block loop ends, with the slice processed. -/
theorem Inv.wetLoop : ∀ {fuel off : Nat} {b : BlockState}, Inv evs (base + off) b → off ≤ n →
    n - off + b.pending.length < fuel →
    ∃ b', wetLoop E D base n fuel b off off = some b' ∧ Inv evs (base + n) b' ∧
      b'.pending.length ≤ b.pending.length := by
  intro fuel
  induction fuel with
  | zero =>
    intro off b _ _ hfuel
    cases hfuel
  | succ fuel ih =>
    intro off b h hoff hfuel
    unfold NamPlug.wetLoop
    split
    · rename_i hlt
      obtain ⟨h1, hout, hn, hlen, hless⟩ := Inv.wetIteration (E := E) hD h hlt
      simp only [hout]
      obtain ⟨b', hb', hinv, hlen'⟩ := ih h1 hn (by omega)
      exact ⟨b', hb', hinv, Nat.le_trans hlen' hlen⟩
    · rename_i hge
      obtain rfl : off = n := by omega
      exact ⟨b, rfl, h, Nat.le_refl _⟩

end

/-! ## The end of a block -/

/-- The trace of a block of `N` samples with the events `evs`. -/
structure TraceExact (N : Nat) (evs : List ScheduledEvent) (tr : List Obs) : Prop where
  /-- Every event is applied once, in delivery order. -/
  once : applied tr = evs
  /-- An event takes effect when it and the events before it are due, or at the end. -/
  onTime : ∀ i, (effects 0 tr)[i]? =
    evs[i]?.map fun e => (e, min N (maxFrom 0 ((times evs).take (i + 1))))
  tiles : Tiles 0 N (spans tr)
  output : Tiles 0 N (writes tr)
  /-- Every fused event has its gain step, inside the sub-block. -/
  fused : ∀ o ∈ tr, SubOk o
  /-- An event that is not a gain event takes effect inside no sub-block. -/
  boundary : ∀ e t, (e, t) ∈ effects 0 tr → isFusableGainParam e.paramId = false →
    ∀ s ∈ spans tr, ¬(s.1 < t ∧ t < s.1 + s.2)

/-- What a block of `N` samples that begins with the parameters `c` does with the events `evs`. -/
structure BlockExact (E : ParamEngine) (N : Nat) (evs : List ScheduledEvent) (c : ParamCtx)
    (b : BlockState) : Prop extends TraceExact N evs b.trace where
  /-- The parameters at the end are what the events make of `c`, in delivery order. -/
  params : b.ctx.refreshed = (applyAll E c evs).refreshed
  /-- A sub-block is processed with the parameters the events before it and those fused into it
  make of `c`; its gain steps have the targets and the sides of the fused events. -/
  inForce : ∀ {pre start n ctx fused steps ws post},
    b.trace = pre ++ .sub start n ctx fused steps ws :: post →
      ctx.refreshed = (stageAll E (applyAll E c (applied pre)) fused).refreshed ∧
        steps = gainSteps E start (applyAll E c (applied pre)) fused

/-- In tiled spans only fused events take effect inside a span. -/
theorem effects_boundary {e : ScheduledEvent} {t : Nat}
    (he : isFusableGainParam e.paramId = false) {tr : List Obs} : ∀ {a b : Nat},
    Tiles a b (spans tr) → (∀ o ∈ tr, SubOk o) → (e, t) ∈ effects a tr →
      ∀ s ∈ spans tr, ¬(s.1 < t ∧ t < s.1 + s.2) := by
  induction tr with
  | nil =>
    intro a b _ _ _ s hs
    cases hs
  | cons o tr ih =>
    intro a b h hok hmem s hs
    have hok' : ∀ o ∈ tr, SubOk o := fun o ho => hok o (.tail _ ho)
    cases o with
    | apply e' =>
      rcases List.mem_cons.1 hmem with hmem | hmem
      · obtain rfl : t = a := congrArg Prod.snd hmem
        have := Tiles.mem_bounds h hs
        omega
      · exact ih h hok' hmem s hs
    | sub start n ctx fused steps ws =>
      obtain ⟨rfl, -, h3⟩ := (show Tiles a b ((start, n) :: spans tr) from h)
      rcases List.mem_append.1 hmem with hmem | hmem
      · -- a fused event is a gain event
        obtain ⟨p, hp, hpe⟩ := List.mem_map.1 hmem
        have hgain := (hok _ (.head _)).2.2 p.1 (List.of_mem_zip hp).1
        rw [show p.1 = e from congrArg Prod.fst hpe, he] at hgain
        cases hgain
      · rcases List.mem_cons.1 hs with rfl | hs
        · have := le_of_mem_effects h3 hmem
          simp only at this ⊢
          omega
        · exact ih h3 hok' hmem s hs

/-- A block that is processed to its end, with nothing pending. -/
structure Done (evs : List ScheduledEvent) (N : Nat) (b : BlockState) : Prop where
  pending : b.pending = []
  exact : TraceExact N evs b.trace

theorem applyWhile_all {E : ParamEngine} : ∀ {es : List ScheduledEvent} {b : BlockState},
    (applyWhile E (fun _ => true) es b).1.pending = [] ∧
      (applyWhile E (fun _ => true) es b).1.trace = b.trace ++ es.map .apply := by
  intro es
  induction es with
  | nil =>
    intro b
    simp [applyWhile]
  | cons e es ih =>
    intro b
    obtain ⟨h1, h2⟩ := @ih (b.applyNow E e)
    refine ⟨h1, h2.trans ?_⟩
    simp [BlockState.applyNow]

theorem applyAnomalous_all {E : ParamEngine} (b : BlockState) :
    (b.applyAnomalous E fun _ => true).pending = [] ∧
      (b.applyAnomalous E fun _ => true).trace = b.trace ++ b.pending.map .apply := by
  obtain ⟨h1, h2⟩ := @applyWhile_all E b.pending b
  unfold BlockState.applyAnomalous
  split
  · rename_i b' heq
    rw [heq] at h1 h2
    exact ⟨by simpa [BlockState.triggerBypass] using h1, by simpa [BlockState.triggerBypass] using h2⟩
  · rename_i b' heq
    rw [heq] at h1 h2
    exact ⟨h1, h2⟩

theorem effects_map_apply (now : Nat) (es : List ScheduledEvent) :
    effects now (es.map .apply) = es.map fun e => (e, now) := by
  induction es with
  | nil => rfl
  | cons e es ih => exact congrArg ((e, now) :: ·) ih

/-- The events that are left take effect at the end of the block. -/
theorem Inv.finish {E : ParamEngine} {N : Nat} {b : BlockState} (h : Inv evs N b) :
    Done evs N (b.applyAnomalous E fun _ => true) := by
  obtain ⟨hpend, htr⟩ := applyAnomalous_all (E := E) b
  have hspans : spans (b.pending.map .apply) = [] := by simp [spans, Obs.spans]
  have hwrites : writes (b.pending.map .apply) = [] := by simp [writes, Obs.writes]
  have happ : applied (b.pending.map .apply) = b.pending := by
    induction b.pending with
    | nil => rfl
    | cons e es ih => exact congrArg (e :: ·) ih
  have htiles : Tiles 0 N (spans (b.trace ++ b.pending.map .apply)) := by
    rw [spans_append, hspans, List.append_nil]
    exact h.tiles
  have hok : ∀ o ∈ b.trace ++ b.pending.map .apply, SubOk o := by
    intro o ho
    rcases List.mem_append.1 ho with ho | ho
    · exact h.subs o ho
    · obtain ⟨e, -, rfl⟩ := List.mem_map.1 ho
      trivial
  -- no event is on time after the end
  have hlate : (prefixMax (maxFrom 0 (times (applied b.trace))) (times b.pending)).map (min N) =
      List.replicate b.pending.length N := by
    rw [prefixMax_min_of_ge, times, List.length_map]
    intro t ht
    rw [times, List.head?_map] at ht
    obtain ⟨e, he, rfl⟩ := Option.mem_map.1 ht
    by_cases hlt : e.time < N
    · rw [h.next e he hlt]
      exact Nat.le_max_left _ _
    · omega
  have hall : NamPlug.effects 0 (b.trace ++ b.pending.map .apply) =
      evs.zip ((prefixMax 0 (times evs)).map (min N)) := by
    rw [effects_append, endAt_of_tiles h.tiles, h.effects, effects_map_apply, ← h.events]
    rw [times_append, prefixMax_append, List.map_append, List.zip_append (by simp [times]),
      prefixMax_min_of_le h.bound, hlate]
    congr 1
    induction b.pending with
    | nil => rfl
    | cons e es ih => exact congrArg ((e, N) :: ·) ih
  refine ⟨hpend, htr ▸ ?_⟩
  constructor
  · rw [applied_append, happ]
    exact h.events
  · intro i
    rw [hall, List.zip, List.getElem?_zipWith, List.getElem?_map]
    cases he : evs[i]? with
    | none => rfl
    | some e =>
      have hi : i < (times evs).length := by
        rw [times, List.length_map]
        exact (List.getElem?_eq_some_iff.1 he).1
      rw [prefixMax_getElem? _ _ _ hi]
      rfl
  · exact htiles
  · rw [writes_append, hwrites, List.append_nil]
    exact h.output
  · exact hok
  · intro e t hmem he
    exact effects_boundary he htiles hok hmem

/-- There is nothing to do for the fallback at the end of the callback. -/
theorem Done.again {E : ParamEngine} {N : Nat} {b : BlockState} (h : Done evs N b) :
    Done evs N (b.applyAnomalous E fun _ => true) := by
  obtain ⟨hpend, htr⟩ := applyAnomalous_all (E := E) b
  rw [h.pending, List.map_nil, List.append_nil] at htr
  exact ⟨hpend, htr ▸ h.exact⟩

/-! ## The callback -/

section
variable {E : ParamEngine} {D : DspEngine} (hD : ∀ pos n, D.streaming pos n = n)
include hD

/-- A slice that is not the last one. -/
theorem Inv.slice {base n fuel : Nat} {b : BlockState} (h : Inv evs base b)
    (hfuel : n + b.pending.length < fuel) :
    ∃ b', processWetSubBlocks E D fuel base n false b = some b' ∧ Inv evs (base + n) b' ∧
      b'.pending.length ≤ b.pending.length := by
  obtain ⟨b', hb', hinv, hlen⟩ := @Inv.wetLoop evs E D hD base n fuel 0 b h (Nat.zero_le _) hfuel
  refine ⟨b', ?_, hinv, hlen⟩
  rw [processWetSubBlocks, hb']
  rfl

/-- The last slice, or the only one. -/
theorem Inv.lastSlice {base n fuel : Nat} {b : BlockState} (h : Inv evs base b)
    (hfuel : n + b.pending.length < fuel) :
    ∃ b', processWetSubBlocks E D fuel base n true b = some b' ∧ Done evs (base + n) b' := by
  obtain ⟨b', hb', hinv, -⟩ := @Inv.wetLoop evs E D hD base n fuel 0 b h (Nat.zero_le _) hfuel
  refine ⟨_, ?_, hinv.finish (E := E)⟩
  rw [processWetSubBlocks, hb']
  rfl

/-- The loop over the slices ends, with the block processed. -/
theorem Inv.sliceLoop {maxFrames total : Nat} (hmax : 1 ≤ maxFrames) :
    ∀ {fuel start : Nat} {b : BlockState}, Inv evs start b → start < total →
      total - start + b.pending.length < fuel →
      ∃ b', sliceLoop E D maxFrames total fuel start b = some b' ∧ Done evs total b' := by
  intro fuel
  induction fuel with
  | zero =>
    intro start b _ _ hfuel
    cases hfuel
  | succ fuel ih =>
    intro start b h hlt hfuel
    simp only [NamPlug.sliceLoop, if_pos hlt]
    by_cases hlast : total ≤ start + min (total - start) maxFrames
    · obtain ⟨b', hb', hdone⟩ := @Inv.lastSlice evs E D hD start (min (total - start) maxFrames)
        (fuel + 1) b h (by omega)
      have hend : start + min (total - start) maxFrames = total := by omega
      rw [hend] at hdone
      refine ⟨b', ?_, hdone⟩
      rw [decide_eq_true hlast, hb', hend]
      obtain ⟨fuel, rfl⟩ : ∃ k, fuel = k + 1 := ⟨fuel - 1, by omega⟩
      simp [NamPlug.sliceLoop]
    · obtain ⟨b', hb', hinv, hlen⟩ := @Inv.slice evs E D hD start (min (total - start) maxFrames)
        (fuel + 1) b h (by omega)
      obtain ⟨b'', hb'', hdone⟩ := ih hinv (by omega) (by omega)
      refine ⟨b'', ?_, hdone⟩
      rw [decide_eq_false hlast, hb']
      exact hb''

end

/-- A block as the scheduling leaves it. -/
theorem Inv.start (b : BlockState) (input : List InputEvent)
    (hlen : (paramEvents input).length ≤ MAX_SCHEDULED_EVENTS) :
    Inv (paramEvents input) 0 { b with
      pending := (scheduleInputEvents input).events
      sorted := (scheduleInputEvents input).sorted
      trace := [] } := by
  rw [scheduleInputEvents_events hlen]
  constructor
  case sorted =>
    intro hs
    have := scheduleInputEvents_sorted hs
    rwa [scheduleInputEvents_events hlen] at this
  case next =>
    intro e _ hlt
    exact absurd hlt (Nat.not_lt_zero _)
  case subs =>
    intro o ho
    cases ho
  all_goals rfl

theorem Folded.start (E : ParamEngine) (b : BlockState) (input : List InputEvent) :
    Folded E b.ctx { b with
      pending := (scheduleInputEvents input).events
      sorted := (scheduleInputEvents input).sorted
      trace := [] } where
  ctx := rfl
  subs hsub := by
    have := congrArg List.length hsub
    simp at this

/-- Every block ends, and every event is applied exactly once, in order and on time. -/
theorem processDspAudio_exact (E : ParamEngine) (D : DspEngine)
    (hD : ∀ pos n, D.streaming pos n = n) (N maxFrames : Nat) (hmax : 1 ≤ maxFrames)
    (input : List InputEvent) (hlen : (paramEvents input).length ≤ MAX_SCHEDULED_EVENTS)
    (b : BlockState) (fuel : Nat) (hfuel : N + (paramEvents input).length < fuel) :
    ∃ b', processDspAudio E D fuel maxFrames [⟨N, true⟩] input b = some b' ∧
      BlockExact E N (paramEvents input) b.ctx b' := by
  obtain ⟨b₁, hb₁, hdone⟩ : ∃ b₁, processPortPairs E D fuel maxFrames [⟨N, true⟩]
      { b with
        pending := (scheduleInputEvents input).events
        sorted := (scheduleInputEvents input).sorted
        trace := [] } = some b₁ ∧
      Done (paramEvents input) N (b₁.applyAnomalous E fun _ => true) := by
    have h := Inv.start b input hlen
    generalize { b with
      pending := (scheduleInputEvents input).events
      sorted := (scheduleInputEvents input).sorted
      trace := [] } = b₀ at h ⊢
    have hlen₀ : b₀.pending.length ≤ (paramEvents input).length := by
      rw [← h.events, List.length_append]
      omega
    simp only [processPortPairs, processPortPair, Bool.not_true, Bool.false_eq_true, if_false]
    split
    · -- an oversize block is cut into slices
      rename_i hover
      have h' : Inv (paramEvents input) 0 { b₀ with contractViolation := true } :=
        h.congr rfl rfl rfl
      have hp : { b₀ with contractViolation := true }.refreshGate.triggerBypass.pending =
          b₀.pending := by simp [BlockState.triggerBypass]
      obtain ⟨b₁, hb₁, hdone⟩ := Inv.sliceLoop (E := E) hD hmax h'.refresh (by omega)
        (by rw [hp]; omega : N - 0 + _ < fuel)
      exact ⟨b₁, by rw [hb₁]; rfl, hdone.again⟩
    · split
      · rename_i hzero
        exact ⟨b₀, rfl, hzero ▸ h.finish⟩
      · have hp : b₀.refreshGate.triggerBypass.pending = b₀.pending := by
          simp [BlockState.triggerBypass]
        obtain ⟨b₁, hb₁, hdone⟩ := @Inv.lastSlice _ E D hD 0 N fuel _ h.refresh (by rw [hp]; omega)
        rw [Nat.zero_add] at hdone
        exact ⟨b₁, by rw [hb₁]; rfl, hdone.again⟩
  obtain ⟨b', hb', htr⟩ : ∃ b', processDspAudio E D fuel maxFrames [⟨N, true⟩] input b = some b' ∧
      TraceExact N (paramEvents input) b'.trace := by
    refine ⟨_, by rw [processDspAudio, hb₁]; rfl, ?_⟩
    dsimp only
    split
    · exact hdone.exact
    · exact hdone.exact
  have hfold : Folded E b.ctx b' := by
    obtain ⟨b₂, ⟨hb₂, -⟩, -, rfl⟩ := (keeps_folded (c := b.ctx)).processDspAudio
      ⟨Folded.start E b input, scheduleInputEvents_sorted⟩ hb'
    split
    · exact hb₂.congr rfl rfl
    · exact hb₂
  have hparams := hfold.ctx
  rw [htr.once] at hparams
  exact ⟨b', hb', htr, hparams, hfold.subs⟩

/-- An engine that never closes the gate and returns what it is given. -/
def refDspEngine : DspEngine where
  maxResampBuf := 32
  gateClosed _ _ := false
  streaming _ n := n
  maxResampBuf_pos := by decide

def refBlock : BlockState where
  ctx := refCtx
  xfade := ⟨false, false, f1, f0, 0⟩
  gate := ⟨f0, f0⟩
  pending := []
  sorted := true
  timingAnomaly := false
  contractViolation := false
  requestRestart := false
  trace := []

/-- A gain event, a late gate event and an output gain event after the end of the block. -/
def refInput : List InputEvent :=
  [.value 5 (some 0) .nan, .value 3 (some 2) .nan, .other 7, .mod 60 (some 1) .nan]

theorem processDspAudio_exact_slices :
    ∃ b', processDspAudio refParamEngine refDspEngine 44 16 [⟨40, true⟩] refInput refBlock = some b' ∧
      BlockExact refParamEngine 40 (paramEvents refInput) refBlock.ctx b' :=
  processDspAudio_exact refParamEngine refDspEngine (fun _ _ => rfl) 40 16 (by decide) refInput
    (by decide) refBlock 44 (by decide)

end

end NamPlug
