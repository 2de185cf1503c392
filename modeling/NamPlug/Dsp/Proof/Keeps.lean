import NamPlug.Dsp.Proof.Events

/-!
# The invariant rule of a block

`Keeps E D P`: the moves of a block keep `P`. What they keep holds where a callback ends, with no
event left (`Keeps.processDspAudio`). Any block of a plugin that takes samples does end
(`processDspAudio_total`).
-/

namespace NamPlug

/-- The moves of a block: an event is applied, a sub-block is processed up to the next boundary, the
gate and the crossfader are refreshed, a flag is set. -/
structure Keeps (E : ParamEngine) (D : DspEngine) (P : BlockState → Prop) : Prop where
  applyNow : ∀ {b : BlockState} {e es}, P { b with pending := e :: es } →
    P { b.applyNow E e with pending := es }
  advance : ∀ {b : BlockState} {base n off : Nat} (out : Nat), P b → off < n →
    (∀ e ∈ b.pending.head?, base + off ≤ e.time) →
    P (b.advanceTo E D base off (scanEnd (b.fuses D n) (base + off) base n b.pending 0) out
      (b.fuses D n)).1
  refresh : ∀ {b : BlockState}, P b → P b.refreshGate.triggerBypass
  anomaly : ∀ {b : BlockState}, P b → P { b with timingAnomaly := true }
  violation : ∀ {b : BlockState}, P b → P { b with contractViolation := true }

/-! ## Events -/

section
variable {E : ParamEngine}

/-- The loops over due events take them from the front, up to the first that is not due. -/
theorem applyWhile_suffix (cond : ScheduledEvent → Bool) :
    ∀ (es : List ScheduledEvent) (b : BlockState),
      (applyWhile E cond es b).1.pending <:+ es ∧
        ∀ e ∈ (applyWhile E cond es b).1.pending.head?, cond e = false
  | [], b => ⟨List.suffix_refl _, by simp [applyWhile]⟩
  | e :: es, b => by
    unfold applyWhile
    split
    · obtain ⟨h1, h2⟩ := applyWhile_suffix cond es (b.applyNow E e)
      exact ⟨h1.trans (List.suffix_cons e es), h2⟩
    · rename_i he
      refine ⟨List.suffix_refl _, fun e' he' => ?_⟩
      obtain rfl : e = e' := by simpa using he'
      simpa using he

theorem applyAnomalous_suffix (b : BlockState) (cond : ScheduledEvent → Bool) :
    (b.applyAnomalous E cond).pending <:+ b.pending ∧
      ∀ e ∈ (b.applyAnomalous E cond).pending.head?, cond e = false := by
  obtain ⟨h1, h2⟩ := applyWhile_suffix (E := E) cond b.pending b
  unfold BlockState.applyAnomalous
  split
  · rename_i b' heq
    rw [heq] at h1 h2
    constructor
    · simpa [BlockState.triggerBypass] using h1
    · simpa [BlockState.triggerBypass] using h2
  · rename_i b' heq
    rw [heq] at h1 h2
    exact ⟨h1, h2⟩

/-- A loop with no condition leaves no event. -/
theorem applyAnomalous_nil (b : BlockState) :
    (b.applyAnomalous E fun _ => true).pending = [] := by
  have h := (applyAnomalous_suffix (E := E) b fun _ => true).2
  cases hp : (b.applyAnomalous E fun _ => true).pending with
  | nil => rfl
  | cons e es =>
    rw [hp] at h
    exact absurd (h e rfl) (by simp)

end

/-! ## The rule -/

section
variable {E : ParamEngine} {D : DspEngine} {P : BlockState → Prop} (h : Keeps E D P)
include h

theorem Keeps.applyWhile (cond : ScheduledEvent → Bool) :
    ∀ (es : List ScheduledEvent) {b : BlockState}, P { b with pending := es } →
      P (NamPlug.applyWhile E cond es b).1
  | [], b, hb => hb
  | e :: es, b, hb => by
    unfold NamPlug.applyWhile
    split
    · exact Keeps.applyWhile cond es (h.applyNow hb)
    · exact hb

theorem Keeps.applyAnomalous {b : BlockState} (cond : ScheduledEvent → Bool) (hb : P b) :
    P (b.applyAnomalous E cond) := by
  have hw := h.applyWhile cond b.pending hb
  unfold BlockState.applyAnomalous
  split
  · rename_i b' heq
    rw [heq] at hw
    exact h.refresh (h.anomaly hw)
  · rename_i b' heq
    rw [heq] at hw
    exact hw

theorem Keeps.wetIteration {b : BlockState} {base n off : Nat} (out : Nat) (hb : P b)
    (hoff : off < n) : P (NamPlug.wetIteration E D base n b off out).1 := by
  have hlate := h.applyAnomalous (fun e => decide (e.time < base + off)) hb
  have hhead := (applyAnomalous_suffix (E := E) b fun e => decide (e.time < base + off)).2
  have hadv := h.advance out hlate hoff fun e he => by simpa using hhead e he
  exact h.refresh (h.applyWhile _ _ hadv)

theorem Keeps.wetLoop {base n fuel off out : Nat} {b b' : BlockState} (hb : P b)
    (hw : NamPlug.wetLoop E D base n fuel b off out = some b') : P b' := by
  induction fuel generalizing b off out with
  | zero => cases hw
  | succ fuel ih =>
    unfold NamPlug.wetLoop at hw
    split at hw
    · rename_i hoff
      exact ih (h.wetIteration out hb hoff) hw
    · exact Option.some.inj hw ▸ hb

theorem Keeps.processWetSubBlocks {fuel base n : Nat} {last : Bool} {b b' : BlockState} (hb : P b)
    (hw : NamPlug.processWetSubBlocks E D fuel base n last b = some b') : P b' := by
  obtain ⟨b₁, hb₁, rfl⟩ := Option.map_eq_some_iff.1 hw
  have hloop := h.wetLoop hb hb₁
  split
  · exact h.applyAnomalous _ hloop
  · exact hloop

theorem Keeps.sliceLoop {maxFrames total fuel start : Nat} {b b' : BlockState} (hb : P b)
    (hw : NamPlug.sliceLoop E D maxFrames total fuel start b = some b') : P b' := by
  induction fuel generalizing b start with
  | zero => cases hw
  | succ fuel ih =>
    unfold NamPlug.sliceLoop at hw
    split at hw
    · obtain ⟨b₁, hb₁, hw⟩ := Option.bind_eq_some_iff.1 hw
      exact ih (h.processWetSubBlocks hb hb₁) hw
    · exact Option.some.inj hw ▸ hb

theorem Keeps.processPortPair {fuel maxFrames : Nat} {p : PortPair} {b b' : BlockState} (hb : P b)
    (hw : NamPlug.processPortPair E D fuel maxFrames b p = some b') : P b' := by
  unfold NamPlug.processPortPair at hw
  split at hw
  · dsimp only at hw
    split at hw
    · exact Option.some.inj hw ▸ h.violation hb
    · exact h.sliceLoop (h.refresh (h.violation hb)) hw
  · split at hw
    · exact Option.some.inj hw ▸ hb
    · split at hw
      · exact Option.some.inj hw ▸ hb
      · exact h.processWetSubBlocks (h.refresh hb) hw

theorem Keeps.processPortPairs {fuel maxFrames : Nat} {audio : List PortPair} {b b' : BlockState}
    (hb : P b) (hw : NamPlug.processPortPairs E D fuel maxFrames audio b = some b') : P b' := by
  induction audio generalizing b with
  | nil => exact Option.some.inj hw ▸ hb
  | cons p ps ih =>
    obtain ⟨b₁, hb₁, hw⟩ := Option.bind_eq_some_iff.1 hw
    exact ih (h.processPortPair hb hb₁) hw

/-- What the moves keep holds at the end of the callback, with no event left; the restart is
requested where the pending factor is not the one the block began with. -/
theorem Keeps.processDspAudio {fuel maxFrames : Nat} {audio : List PortPair}
    {input : List InputEvent} {b b' : BlockState}
    (hb : P { b with
      pending := (scheduleInputEvents input).events
      sorted := (scheduleInputEvents input).sorted
      trace := [] })
    (hw : NamPlug.processDspAudio E D fuel maxFrames audio input b = some b') :
    ∃ b₁, P b₁ ∧ b₁.pending = [] ∧
      b' = if b₁.ctx.pendingRestart ≠ b.ctx.pendingRestart ∧ b₁.ctx.pendingRestart ≠ .none then
        { b₁ with requestRestart := true } else b₁ := by
  obtain ⟨b₁, hb₁, rfl⟩ := Option.map_eq_some_iff.1 hw
  exact ⟨_, h.applyAnomalous _ (h.processPortPairs hb hb₁), applyAnomalous_nil b₁, rfl⟩

end

/-! ## Every block ends -/

/-- The events of a block the scheduling found sorted. -/
def Ordered (b : BlockState) : Prop := b.sorted = true → (times b.pending).Pairwise (· ≤ ·)

theorem Ordered.suffix {b b' : BlockState} (h : Ordered b) (hs : b'.sorted = b.sorted)
    (hp : b'.pending <:+ b.pending) : Ordered b' := fun hsort =>
  (h (hs ▸ hsort)).sublist (hp.sublist.map _)

theorem stageLoop_suffix {E : ParamEngine} (cur stop : Nat) :
    ∀ (es : List ScheduledEvent) (s : Staged), (stageLoop E cur stop es s).pending <:+ es
  | [], _ => List.suffix_refl _
  | e :: es, s => by
    unfold stageLoop
    split
    · exact List.suffix_refl _
    · exact (stageLoop_suffix cur stop es _).trans (List.suffix_cons e es)

section
variable {E : ParamEngine} {D : DspEngine}

/-- A sub-block only takes events from the front, and none where it is empty. -/
theorem advanceTo_pending (b : BlockState) (base off subEnd out : Nat) (fuse : Bool) :
    (b.advanceTo E D base off subEnd out fuse).1.sorted = b.sorted ∧
      (b.advanceTo E D base off subEnd out fuse).1.pending <:+ b.pending := by
  unfold BlockState.advanceTo
  split
  · exact ⟨rfl, List.suffix_refl _⟩
  · split
    · exact ⟨rfl, stageLoop_suffix _ _ _ _⟩
    · exact ⟨rfl, List.suffix_refl _⟩

theorem keeps_ordered : Keeps E D Ordered where
  applyNow {b e es} hb :=
    show Ordered { b.applyNow E e with pending := es } from hb.suffix rfl (List.suffix_cons e es)
  advance out hb _ _ := by
    obtain ⟨h1, h2⟩ := advanceTo_pending _ _ _ _ out _
    exact hb.suffix h1 h2
  refresh hb := hb.suffix (by simp [BlockState.triggerBypass]) (by simp [BlockState.triggerBypass])
  anomaly hb := hb
  violation hb := hb

/-- Where the next sub-block ends: not behind the next event, which is met there unless the slice
ends first. -/
theorem scanEnd_next {b : BlockState} {base n off : Nat} (hb : Ordered b) (hoff : off < n)
    (hhead : ∀ e ∈ b.pending.head?, base + off ≤ e.time) :
    let r := scanEnd (b.fuses D n) (base + off) base n b.pending 0
    off ≤ r ∧ r ≤ n ∧ (r = off → ∃ e ∈ b.pending.head?, e.time = base + off) := by
  dsimp only
  cases hf : b.fuses D n with
  | false =>
    obtain ⟨h1, h2, -, h4⟩ := scanEnd_exact (by omega : base + off ≤ base + n) (by omega)
      hhead
    refine ⟨by omega, h2, fun hr => ?_⟩
    obtain ⟨e, he, ht⟩ := h4 (by omega)
    exact ⟨e, he, by omega⟩
  | true =>
    have hsort : (times b.pending).Pairwise (· ≤ ·) := hb (by
      unfold BlockState.fuses at hf
      simp only [Bool.and_eq_true] at hf
      exact hf.1.1.1.2)
    obtain ⟨h1, h2, -, -, h5⟩ := scanEnd_fused (by omega : base + off ≤ base + n) (by omega) hsort
      (le_of_head hsort hhead) (Nat.zero_le _)
    refine ⟨by omega, h2, fun hr => ?_⟩
    obtain ⟨e, he, ht⟩ := h5 (by omega)
    cases hp : b.pending with
    | nil => rw [hp] at he; cases he
    | cons a as =>
      rw [hp] at he hsort hhead
      have ha : base + off ≤ a.time := hhead a rfl
      have hle : a.time ≤ e.time := le_of_head hsort (by simp) e he
      exact ⟨a, rfl, by omega⟩

/-- A round moves on in the slice, or takes an event. -/
theorem wetIteration_progress (base out : Nat) {b : BlockState} {n off : Nat} (hb : Ordered b)
    (hoff : off < n) :
    let r := wetIteration E D base n b off out
    Ordered r.1 ∧ r.2.1 ≤ n ∧ r.1.pending.length ≤ b.pending.length ∧
      n - r.2.1 + r.1.pending.length < n - off + b.pending.length := by
  have hord : Ordered (wetIteration E D base n b off out).1 :=
    keeps_ordered.wetIteration out hb hoff
  have hlate := (keeps_ordered (E := E) (D := D)).applyAnomalous
    (fun e => decide (e.time < base + off)) hb
  obtain ⟨hsuf, hhead⟩ := applyAnomalous_suffix (E := E) b fun e => decide (e.time < base + off)
  refine ⟨hord, ?_⟩
  unfold wetIteration
  dsimp only
  generalize b.applyAnomalous E (fun e => decide (e.time < base + off)) = b₁ at *
  have hhead : ∀ e ∈ b₁.pending.head?, base + off ≤ e.time := fun e he => by
    simpa using hhead e he
  obtain ⟨h1, h2, h3⟩ := scanEnd_next (D := D) hlate hoff hhead
  generalize scanEnd (b₁.fuses D n) (base + off) base n b₁.pending 0 = subEnd at *
  obtain ⟨-, hadv⟩ := advanceTo_pending (E := E) (D := D) b₁ base off subEnd out (b₁.fuses D n)
  obtain ⟨hrest, hcond⟩ := applyWhile_suffix (E := E)
    (fun e => decide (e.time = base + subEnd ∧ subEnd < n))
    (b₁.advanceTo E D base off subEnd out (b₁.fuses D n)).1.pending
    (b₁.advanceTo E D base off subEnd out (b₁.fuses D n)).1
  have hlen := hsuf.length_le
  have hlen1 := hadv.length_le
  have hlen2 := hrest.length_le
  simp only [refreshGate_pending, BlockState.triggerBypass]
  refine ⟨h2, by omega, ?_⟩
  by_cases hr : subEnd = off
  · -- an empty sub-block ends at an event, which the boundary loop takes
    obtain ⟨e, he, ht⟩ := h3 hr
    have hsame : (b₁.advanceTo E D base off subEnd out (b₁.fuses D n)).1 = b₁ := by
      unfold BlockState.advanceTo
      rw [if_pos (by omega)]
    rw [hsame] at hrest hcond hlen2 ⊢
    have hlt : (applyWhile E (fun e => decide (e.time = base + subEnd ∧ subEnd < n)) b₁.pending
        b₁).1.pending.length < b₁.pending.length := by
      rcases Nat.lt_or_eq_of_le hrest.length_le with hlt | heq
      · exact hlt
      · rw [hrest.eq_of_length heq] at hcond
        have := hcond e he
        rw [decide_eq_false_iff_not] at this
        exact absurd ⟨by omega, by omega⟩ this
    omega
  · omega

theorem wetLoop_total (base out : Nat) {n fuel off : Nat} {b : BlockState} (hb : Ordered b)
    (hoff : off ≤ n) (hfuel : n - off + b.pending.length < fuel) :
    ∃ b', wetLoop E D base n fuel b off out = some b' ∧ Ordered b' ∧
      b'.pending.length ≤ b.pending.length := by
  induction fuel generalizing b off out with
  | zero => cases hfuel
  | succ fuel ih =>
    unfold wetLoop
    split
    · rename_i hlt
      obtain ⟨h1, h2, h3, h4⟩ := wetIteration_progress (E := E) (D := D) base out hb hlt
      obtain ⟨b', hb', hord, hlen⟩ := ih (wetIteration E D base n b off out).2.2 h1 h2 (by omega)
      exact ⟨b', hb', hord, Nat.le_trans hlen h3⟩
    · exact ⟨b, rfl, hb, Nat.le_refl _⟩

theorem processWetSubBlocks_total (base : Nat) {fuel n : Nat} (last : Bool) {b : BlockState}
    (hb : Ordered b) (hfuel : n + b.pending.length < fuel) :
    ∃ b', processWetSubBlocks E D fuel base n last b = some b' ∧ Ordered b' ∧
      b'.pending.length ≤ b.pending.length := by
  obtain ⟨b', hb', hord, hlen⟩ := wetLoop_total (E := E) (D := D) base 0 hb (Nat.zero_le n)
    (show n - 0 + b.pending.length < fuel by omega)
  unfold processWetSubBlocks
  rw [hb', Option.map_some]
  cases last with
  | false => exact ⟨b', rfl, hord, hlen⟩
  | true =>
    refine ⟨_, rfl, keeps_ordered.applyAnomalous (D := D) _ hord, ?_⟩
    simp only [if_true, applyAnomalous_nil, List.length_nil]
    exact Nat.zero_le _

theorem sliceLoop_total {maxFrames total : Nat} (hmax : 1 ≤ maxFrames) {fuel start : Nat}
    {b : BlockState} (hb : Ordered b) (hfuel : total - start + b.pending.length < fuel) :
    ∃ b', sliceLoop E D maxFrames total fuel start b = some b' ∧ Ordered b' ∧
      b'.pending.length ≤ b.pending.length := by
  induction fuel generalizing b start with
  | zero => cases hfuel
  | succ fuel ih =>
    unfold sliceLoop
    split
    · rename_i hlt
      obtain ⟨b₁, hb₁, hord, hlen⟩ := processWetSubBlocks_total (E := E) (D := D) start
        (decide (total ≤ start + min (total - start) maxFrames)) hb
        (show min (total - start) maxFrames + b.pending.length < fuel + 1 by omega)
      obtain ⟨b', hb', hord', hlen'⟩ := ih hord
        (show total - (start + min (total - start) maxFrames) + b₁.pending.length < fuel by omega)
      refine ⟨b', ?_, hord', Nat.le_trans hlen' hlen⟩
      simp only [hb₁, Option.bind_some, hb']
    · exact ⟨b, rfl, hb, Nat.le_refl _⟩

theorem processPortPairs_total {maxFrames fuel : Nat} (hmax : 1 ≤ maxFrames) :
    ∀ {audio : List PortPair} {b : BlockState}, Ordered b →
      (audio.map (·.frames)).sum + b.pending.length < fuel →
      ∃ b', processPortPairs E D fuel maxFrames audio b = some b'
  | [], b, _, _ => ⟨b, rfl⟩
  | p :: ps, b, hb, hfuel => by
    rw [List.map_cons, List.sum_cons] at hfuel
    have hpair : ∃ b', processPortPair E D fuel maxFrames b p = some b' ∧ Ordered b' ∧
        b'.pending.length ≤ b.pending.length := by
      unfold processPortPair
      split
      · dsimp only
        split
        · exact ⟨_, rfl, hb, Nat.le_refl _⟩
        · have hb₀ : Ordered
              ({ b with contractViolation := true } : BlockState).refreshGate.triggerBypass :=
            keeps_ordered.refresh (E := E) (D := D) hb
          have hfuel₀ : p.frames - 0 + ({ b with contractViolation := true } :
              BlockState).refreshGate.triggerBypass.pending.length < fuel := by
            simp only [refreshGate_pending, BlockState.triggerBypass]
            omega
          obtain ⟨b', hb', hord, hlen⟩ := sliceLoop_total (E := E) (D := D) hmax hb₀ hfuel₀
          exact ⟨b', hb', hord, by simpa [BlockState.triggerBypass] using hlen⟩
      · split
        · exact ⟨_, rfl, hb, Nat.le_refl _⟩
        · split
          · exact ⟨_, rfl, hb, Nat.le_refl _⟩
          · have hfuel₀ : p.frames + b.refreshGate.triggerBypass.pending.length < fuel := by
              simp only [refreshGate_pending, BlockState.triggerBypass]
              omega
            obtain ⟨b', hb', hord, hlen⟩ := processWetSubBlocks_total (E := E) (D := D) 0 true
              (keeps_ordered.refresh (E := E) (D := D) hb) hfuel₀
            exact ⟨b', hb', hord, by simpa [BlockState.triggerBypass] using hlen⟩
    obtain ⟨b₁, hb₁, hord, hlen⟩ := hpair
    obtain ⟨b', hb'⟩ := processPortPairs_total hmax hord
      (show (ps.map (·.frames)).sum + b₁.pending.length < fuel by omega)
    refine ⟨b', ?_⟩
    simp only [processPortPairs, hb₁, Option.bind_some, hb']

/-- Every block ends. -/
theorem processDspAudio_total {maxFrames fuel : Nat} (hmax : 1 ≤ maxFrames)
    {audio : List PortPair} {input : List InputEvent} (b : BlockState)
    (hfuel : (audio.map (·.frames)).sum + (scheduleInputEvents input).events.length < fuel) :
    ∃ b', processDspAudio E D fuel maxFrames audio input b = some b' := by
  have hsort : Ordered { b with
      pending := (scheduleInputEvents input).events
      sorted := (scheduleInputEvents input).sorted
      trace := [] } := scheduleInputEvents_sorted
  obtain ⟨b', hb'⟩ := processPortPairs_total (E := E) (D := D) hmax hsort hfuel
  exact ⟨_, Option.map_eq_some_iff.2 ⟨b', hb', rfl⟩⟩

end

end NamPlug
