import Mathlib.Tactic.Ring
import Mathlib.Tactic.Linarith
import NamPlug.Dsp.DryWet

/-!
# Alignment of dry and wet

`aligned_iff`: a schedule of sub-blocks and bypass changes puts out the delayed input, whatever the
input is, exactly when no sample that a full bypass withheld from the wet chain lies within the
latency before a sample the wet chain has a weight in.

* `legs`: which of its samples a schedule feeds the wet chain, and the weight it gives the wet
  chain in them.
* `RunInv`: dry ring and wet chain are the delay lines of `Lib/Delay.lean`, fed all samples and
  those.
-/

namespace NamPlug

open Binary32 Delay

/-! ## Legs -/

/-- How a sample is processed: whether the wet chain is fed it, and the weight of the wet chain in
the output. -/
structure Leg where
  fed : Bool
  weight : F32
  deriving DecidableEq, Repr

/-- The legs of the samples of a chunk. -/
def chunkLegs (c : BypassCrossfader) (bypass : Bool) (n : Nat) : List Leg :=
  if c.active then
    (List.range n).map fun i => ⟨true, if i < c.remaining then rampMix c.mix c.step i else c.finalMix⟩
  else List.replicate n (if bypass then ⟨false, f0⟩ else ⟨true, f1⟩)

def chunksLegs (bypass : Bool) : List Nat → BypassCrossfader → List Leg × BypassCrossfader
  | [], c => ([], c)
  | n :: ns, c =>
    let rest := chunksLegs bypass ns (if c.active then c.advance n else c)
    (chunkLegs c bypass n ++ rest.1, rest.2)

/-- The legs of a schedule: which way its samples go depends on no sample. -/
def legs (maxBuf : Nat) : Bool → BypassCrossfader → List BypassAction → List Leg
  | _, _, [] => []
  | _, c, .setBypass bypass :: as => legs maxBuf bypass (c.trigger bypass) as
  | bypass, c, .subBlock n :: as =>
    let r := chunksLegs bypass (chunkSizes maxBuf n) c
    r.1 ++ legs maxBuf bypass r.2 as

/-! ## Blending -/

theorem blend_range (step mix : F32) (k : Nat) (f g : Nat → Rat) :
    blend step mix ((List.range k).map f) ((List.range k).map g) =
      (List.range k).map fun i => f i + (g i - f i) * ratOf (rampMix mix step i) := by
  induction k generalizing mix f g with
  | zero => rfl
  | succ k ih =>
    rw [List.range_succ_eq_map]
    simp only [List.map_cons, List.map_map, blend]
    rw [ih]
    congr 1

theorem ratOf_f0 : ratOf f0 = 0 := by
  have h : datum f0 = .fin false 0 := by decide +kernel
  simp [ratOf, h]

theorem ratOf_f1 : ratOf f1 = 1 := by
  have h : datum f1 = .fin false (2 ^ 1074) := by decide +kernel
  have hpos : (2 : Rat) ^ 1074 ≠ 0 := pow_ne_zero _ two_ne_zero
  simp only [ratOf, h, Nat.cast_pow, Nat.cast_ofNat, Bool.false_eq_true, if_false, one_mul]
  exact div_self hpos

theorem crossfade_range (c : BypassCrossfader) (n : Nat) (f g : Nat → Rat) :
    crossfade c ((List.range n).map f) ((List.range n).map g) =
      (List.range n).map fun i => f i + (g i - f i) *
        ratOf (if i < c.remaining then rampMix c.mix c.step i else c.finalMix) := by
  have hk : min n c.remaining ≤ n := Nat.min_le_left ..
  have hsplit : List.range n = List.range (min n c.remaining) ++
      (List.range (n - min n c.remaining)).map (min n c.remaining + ·) := by
    rw [← List.range_add, Nat.add_sub_cancel' hk]
  have htake : ∀ h : Nat → Rat, ((List.range n).map h).take (min n c.remaining) =
      (List.range (min n c.remaining)).map h := by
    intro h
    rw [← List.map_take, List.take_range, Nat.min_eq_left hk]
  have hdrop : ∀ h : Nat → Rat, ((List.range n).map h).drop (min n c.remaining) =
      (List.range (n - min n c.remaining)).map fun i => h (min n c.remaining + i) := by
    intro h
    conv_lhs => rw [hsplit]
    simp [Function.comp_def]
  unfold crossfade
  simp only [List.length_map, List.length_range, htake, hdrop, blend_range]
  conv_rhs => rw [hsplit, List.map_append, List.map_map]
  congr 1
  · refine List.map_congr_left fun i hi => ?_
    have hi := List.mem_range.1 hi
    rw [if_pos (by omega)]
  · have htail : ∀ i, i < n - min n c.remaining → ¬min n c.remaining + i < c.remaining := by omega
    cases ht : c.target with
    | true =>
      rw [if_pos rfl]
      refine List.map_congr_left fun i hi => ?_
      simp only [Function.comp, if_neg (htail i (List.mem_range.1 hi)), BypassCrossfader.finalMix, ht,
        if_true, ratOf_f0]
      ring
    | false =>
      rw [if_neg (by decide)]
      refine List.map_congr_left fun i hi => ?_
      simp only [Function.comp, if_neg (htail i (List.mem_range.1 hi)), BypassCrossfader.finalMix, ht,
        Bool.false_eq_true, if_false, ratOf_f1]
      ring

/-! ## Chunks -/

/-- The flags of legs. -/
def feds (ls : List Leg) : List Bool := ls.map Leg.fed

/-- The dry ring and the wet chain after a signal went along the legs `ls`. -/
structure LineInv (L : Nat) (signal : Nat → Rat) (ls : List Leg) (x : DryWet) : Prop where
  dry : x.dryDelay = line L 0 signal (List.replicate ls.length true)
  wet : x.wet = line L 0 signal (feds ls)

/-- The output of a sample. -/
def mixed (L : Nat) (signal : Nat → Rat) (ls : List Leg) (i : Nat) : Rat :=
  delayed L 0 signal i + (gated L 0 signal (feds ls) i - delayed L 0 signal i) *
    ratOf ((ls[i]?.map Leg.weight).getD f0)

/-- The next `n` samples of a signal. -/
def segment (signal : Nat → Rat) (start n : Nat) : List Rat :=
  (List.range n).map fun i => signal (start + i)

theorem feed_dry (L : Nat) (signal : Nat → Rat) (t n : Nat) :
    feed (line L 0 signal (List.replicate t true)) (segment signal t n) =
      ((List.range n).map fun i => delayed L 0 signal (t + i),
        line L 0 signal (List.replicate (t + n) true)) := by
  have h := feed_line L 0 signal (List.replicate t true) n
  rw [List.length_replicate, List.replicate_append_replicate] at h
  rw [segment, h]
  congr 1
  refine List.map_congr_left fun i hi => ?_
  have hi := List.mem_range.1 hi
  exact gated_eq_delayed (isFed_replicate (by omega) true)
    fun _ u _ hu => isFed_replicate (by omega) true

@[simp] theorem length_feds (ls : List Leg) : (feds ls).length = ls.length := List.length_map _

theorem feds_append (ls new : List Leg) : feds (ls ++ new) = feds ls ++ feds new :=
  List.map_append

@[simp] theorem length_chunkLegs (c : BypassCrossfader) (bypass : Bool) (n : Nat) :
    (chunkLegs c bypass n).length = n := by
  unfold chunkLegs
  split <;> simp

/-- The crossfader after a chunk. -/
def BypassCrossfader.afterChunk (c : BypassCrossfader) (n : Nat) : BypassCrossfader :=
  if c.active then c.advance n else c

/-- A leg that is not fed has no weight. -/
def Unweighted (l : Leg) : Prop := l.fed = false → l.weight = f0

theorem unweighted_chunkLegs (c : BypassCrossfader) (bypass : Bool) (n : Nat) :
    ∀ l ∈ chunkLegs c bypass n, Unweighted l := by
  intro l hl hfed
  unfold chunkLegs at hl
  split at hl
  · obtain ⟨i, -, rfl⟩ := List.mem_map.1 hl
    cases hfed
  · obtain rfl := List.eq_of_mem_replicate hl
    cases bypass with
    | true => rfl
    | false => cases hfed

/-- The samples of a chunk in the output. -/
theorem mixed_right (L : Nat) (signal : Nat → Rat) (ls new : List Leg) (i : Nat) :
    mixed L signal (ls ++ new) (ls.length + i) =
      delayed L 0 signal (ls.length + i) +
        (gated L 0 signal (feds ls ++ feds new) (ls.length + i) -
          delayed L 0 signal (ls.length + i)) * ratOf ((new[i]?.map Leg.weight).getD f0) := by
  rw [mixed, feds_append, List.getElem?_append_right (Nat.le_add_right _ _), Nat.add_sub_cancel_left]

theorem processChunk_spec {L : Nat} {signal : Nat → Rat} {ls : List Leg} {x : DryWet}
    (h : LineInv L signal ls x) (bypass : Bool) (n : Nat) :
    ∃ y, x.processChunk bypass (segment signal ls.length n) =
        ((List.range n).map fun i =>
          mixed L signal (ls ++ chunkLegs x.bypassXfade bypass n) (ls.length + i), y) ∧
      LineInv L signal (ls ++ chunkLegs x.bypassXfade bypass n) y ∧
      y.bypassXfade = x.bypassXfade.afterChunk n := by
  have hdry := feed_dry L signal ls.length n
  have hwet := feed_line L 0 signal (feds ls) n
  rw [length_feds] at hwet
  change feed _ (segment signal ls.length n) = _ at hwet
  have hlen : (segment signal ls.length n).length = n := by simp [segment]
  unfold DryWet.processChunk
  simp only [h.dry, h.wet, hdry, hwet, hlen]
  simp only [mixed_right]
  by_cases hact : x.bypassXfade.active = true
  · have hlegs : feds (chunkLegs x.bypassXfade bypass n) = List.replicate n true := by
      simp [chunkLegs, hact, feds, Function.comp_def]
    rw [if_pos hact, crossfade_range]
    refine ⟨_, Prod.ext ?_ rfl, ⟨?_, ?_⟩, ?_⟩
    · refine List.map_congr_left fun i hi => ?_
      have hi := List.mem_range.1 hi
      rw [hlegs]
      simp [chunkLegs, hact, hi]
    · simp
    · simp only [feds_append, hlegs]
    · simp [BypassCrossfader.afterChunk, hact]
  · have hact : x.bypassXfade.active = false := by simpa using hact
    rw [hact, if_neg (by decide)]
    cases bypass with
    | true =>
      refine ⟨_, Prod.ext ?_ rfl, ⟨?_, ?_⟩, ?_⟩
      · refine List.map_congr_left fun i hi => ?_
        have hi := List.mem_range.1 hi
        simp [chunkLegs, hact, hi, ratOf_f0]
      · simp
      · simp only [feds_append]
        simp [chunkLegs, hact, feds, line_withheld]
      · simp [BypassCrossfader.afterChunk, hact]
    | false =>
      have hlegs : feds (chunkLegs x.bypassXfade false n) = List.replicate n true := by
        simp [chunkLegs, hact, feds]
      rw [if_neg (by decide)]
      refine ⟨_, Prod.ext ?_ rfl, ⟨?_, ?_⟩, ?_⟩
      · refine List.map_congr_left fun i hi => ?_
        have hi := List.mem_range.1 hi
        rw [hlegs]
        simp [chunkLegs, hact, hi, ratOf_f1]
      · simp
      · simp only [feds_append, hlegs]
      · simp [BypassCrossfader.afterChunk, hact]

/-! ## Sub-blocks -/

theorem segment_take (signal : Nat → Rat) (t n m : Nat) :
    (segment signal t (n + m)).take n = segment signal t n := by
  rw [segment, ← List.map_take, List.take_range, Nat.min_eq_left (Nat.le_add_right _ _), segment]

theorem segment_drop (signal : Nat → Rat) (t n m : Nat) :
    (segment signal t (n + m)).drop n = segment signal (t + n) m := by
  rw [segment, List.range_add, List.map_append, List.drop_left' (by simp), List.map_map, segment]
  exact List.map_congr_left fun i _ => by simp only [Function.comp, Nat.add_assoc]

theorem sum_chunkSizes (maxBuf n : Nat) : (chunkSizes maxBuf n).sum = n := by
  unfold chunkSizes
  split
  · simp
  · have h := Nat.div_add_mod n maxBuf
    split
    · simp
      rw [Nat.mul_comm]
      omega
    · simp
      rw [Nat.mul_comm]
      omega

/-- Later legs do not change a sample of the output. -/
theorem mixed_left {L : Nat} {signal : Nat → Rat} {ls : List Leg} (new : List Leg) {i : Nat}
    (hw : ∀ l ∈ ls, Unweighted l) (hi : i < ls.length) :
    mixed L signal (ls ++ new) i = mixed L signal ls i := by
  rw [mixed, mixed, List.getElem?_append_left hi, feds_append, List.getElem?_eq_getElem hi]
  cases hfed : ls[i].fed with
  | true =>
    have hisFed : isFed (feds ls) i = true := by simp [isFed, feds, hi, hfed]
    rw [gated_append (feds new) hisFed]
  | false => simp [hw _ (List.getElem_mem hi) hfed, ratOf_f0]

theorem mixed_range_append {L : Nat} {signal : Nat → Rat} {ls new : List Leg}
    (hw : ∀ l ∈ ls, Unweighted l) :
    (List.range (ls ++ new).length).map (mixed L signal (ls ++ new)) =
      (List.range ls.length).map (mixed L signal ls) ++
        (List.range new.length).map fun i => mixed L signal (ls ++ new) (ls.length + i) := by
  rw [List.length_append, List.range_add, List.map_append, List.map_map]
  congr 1
  exact List.map_congr_left fun i hi => mixed_left new hw (List.mem_range.1 hi)

theorem unweighted_append {ls new : List Leg} (h : ∀ l ∈ ls, Unweighted l)
    (h' : ∀ l ∈ new, Unweighted l) : ∀ l ∈ ls ++ new, Unweighted l :=
  fun l hl => (List.mem_append.1 hl).elim (h l) (h' l)

theorem unweighted_chunksLegs (bypass : Bool) (ns : List Nat) (c : BypassCrossfader) :
    ∀ l ∈ (chunksLegs bypass ns c).1, Unweighted l := by
  induction ns generalizing c with
  | nil => exact fun l hl => by cases hl
  | cons n ns ih => exact unweighted_append (unweighted_chunkLegs c bypass n) (ih _)

theorem length_chunksLegs (bypass : Bool) (ns : List Nat) (c : BypassCrossfader) :
    (chunksLegs bypass ns c).1.length = ns.sum := by
  induction ns generalizing c with
  | nil => rfl
  | cons n ns ih => simp [chunksLegs, ih]

theorem processChunks_spec {L : Nat} {signal : Nat → Rat} (bypass : Bool) (ns : List Nat)
    {ls : List Leg} {x : DryWet} (h : LineInv L signal ls x) (hw : ∀ l ∈ ls, Unweighted l) :
    ∃ y, x.processChunks bypass ns (segment signal ls.length ns.sum) =
        ((List.range ns.sum).map fun i =>
          mixed L signal (ls ++ (chunksLegs bypass ns x.bypassXfade).1) (ls.length + i), y) ∧
      LineInv L signal (ls ++ (chunksLegs bypass ns x.bypassXfade).1) y ∧
      y.bypassXfade = (chunksLegs bypass ns x.bypassXfade).2 := by
  induction ns generalizing ls x with
  | nil => exact ⟨x, rfl, by simpa [chunksLegs] using h, rfl⟩
  | cons n ns ih =>
    obtain ⟨y, hy, hline, hxf⟩ := processChunk_spec h bypass n
    have hw1 := unweighted_append hw (unweighted_chunkLegs x.bypassXfade bypass n)
    obtain ⟨z, hz, hzline, hzxf⟩ := ih hline hw1
    have hnext : (chunksLegs bypass (n :: ns) x.bypassXfade).1 =
        chunkLegs x.bypassXfade bypass n ++ (chunksLegs bypass ns y.bypassXfade).1 := by
      rw [hxf]
      rfl
    rw [hnext, ← List.append_assoc]
    refine ⟨z, ?_, hzline, ?_⟩
    · rw [List.length_append, length_chunkLegs] at hz
      rw [List.sum_cons, DryWet.processChunks, segment_take, segment_drop, hy, hz, List.range_add,
        List.map_append, List.map_map]
      refine Prod.ext (congrArg₂ (· ++ ·) ?_ ?_) rfl
      · refine List.map_congr_left fun i hi => (mixed_left _ hw1 ?_).symm
        have hi := List.mem_range.1 hi
        simp only [List.length_append, length_chunkLegs]
        omega
      · exact List.map_congr_left fun i _ => by simp only [Function.comp, Nat.add_assoc]
    · rw [hzxf, hxf]
      rfl

/-! ## Schedules -/

/-- An instance after its samples went along the legs `ls`. -/
structure RunInv (L : Nat) (signal : Nat → Rat) (ls : List Leg) (x : DryWetRun) : Prop where
  line : LineInv L signal ls x.block
  time : x.time = ls.length
  out : x.out = (List.range ls.length).map (mixed L signal ls)
  unweighted : ∀ l ∈ ls, Unweighted l

theorem runInv_init (L : Nat) (signal : Nat → Rat) (bypass : Bool) :
    RunInv L signal [] (.init L bypass) where
  line := ⟨(line_nil L 0 signal).symm, (line_nil L 0 signal).symm⟩
  time := rfl
  out := rfl
  unweighted := fun l hl => by cases hl

theorem runInv_subBlock {L : Nat} {signal : Nat → Rat} {ls : List Leg} {x : DryWetRun}
    (h : RunInv L signal ls x) (maxBuf n : Nat) :
    let r := chunksLegs x.bypass (chunkSizes maxBuf n) x.block.bypassXfade
    let y := bypassStep maxBuf signal x (.subBlock n)
    RunInv L signal (ls ++ r.1) y ∧ y.bypass = x.bypass ∧ y.block.bypassXfade = r.2 := by
  obtain ⟨hline, htime, hout, hw⟩ := h
  obtain ⟨z, hz, hzline, hzxf⟩ :=
    processChunks_spec x.bypass (chunkSizes maxBuf n) hline hw
  have hlegs := length_chunksLegs x.bypass (chunkSizes maxBuf n) x.block.bypassXfade
  rw [sum_chunkSizes] at hz hlegs
  have hblock : x.block.processSubBlock maxBuf x.bypass
      ((List.range n).map fun i => signal (x.time + i)) =
      x.block.processChunks x.bypass (chunkSizes maxBuf n) (segment signal ls.length n) := by
    rw [DryWet.processSubBlock, List.length_map, List.length_range, htime, segment]
  simp only [bypassStep, hblock, hz]
  refine ⟨⟨hzline, ?_, ?_, unweighted_append hw (unweighted_chunksLegs _ _ _)⟩, trivial, hzxf⟩
  · rw [List.length_append, hlegs, htime]
  · rw [mixed_range_append hw, hlegs, hout]

theorem runInv_run {L : Nat} {signal : Nat → Rat} (maxBuf : Nat) (as : List BypassAction)
    {ls : List Leg} {x : DryWetRun} (h : RunInv L signal ls x) :
    RunInv L signal (ls ++ legs maxBuf x.bypass x.block.bypassXfade as)
      (as.foldl (bypassStep maxBuf signal) x) := by
  induction as generalizing ls x with
  | nil => simpa [legs] using h
  | cons a as ih =>
    cases a with
    | setBypass bypass =>
      have h' : RunInv L signal ls (bypassStep maxBuf signal x (.setBypass bypass)) :=
        ⟨⟨h.line.dry, h.line.wet⟩, h.time, h.out, h.unweighted⟩
      exact ih h'
    | subBlock n =>
      obtain ⟨h', hbypass, hxf⟩ := runInv_subBlock h maxBuf n
      have hrec := ih h'
      rw [hbypass, hxf, List.append_assoc] at hrec
      exact hrec

/-- The legs of a schedule from the start. -/
def scheduleLegs (maxBuf : Nat) (bypass : Bool) (as : List BypassAction) : List Leg :=
  legs maxBuf bypass (.new bypass) as

theorem runInv_bypassRun (maxBuf L : Nat) (bypass : Bool) (signal : Nat → Rat)
    (as : List BypassAction) :
    RunInv L signal (scheduleLegs maxBuf bypass as) (bypassRun maxBuf L bypass signal as) := by
  have h := runInv_run maxBuf as (runInv_init L signal bypass)
  rwa [List.nil_append] at h

/-- Whether a sample was withheld from the wet chain. -/
def Withheld (ls : List Leg) (u : Nat) : Prop := (ls[u]?.map Leg.fed) = some false

/-- The wet chain has a weight in a sample. -/
def Weighted (ls : List Leg) (t : Nat) : Prop := ∃ l, ls[t]? = some l ∧ ratOf l.weight ≠ 0

/-- A schedule puts out the delayed input, whatever the input is. -/
def Aligned (maxBuf L : Nat) (bypass : Bool) (as : List BypassAction) : Prop :=
  ∀ signal : Nat → Rat, ∀ t < (bypassRun maxBuf L bypass signal as).time,
    (bypassRun maxBuf L bypass signal as).out[t]? = some (delayed L 0 signal t)

/-- A schedule is aligned exactly when no sample withheld from the wet chain lies within the latency
before one the wet chain has a weight in. -/
theorem aligned_iff (maxBuf L : Nat) (bypass : Bool) (as : List BypassAction) :
    Aligned maxBuf L bypass as ↔
      ∀ t, Weighted (scheduleLegs maxBuf bypass as) t → L ≤ t →
        ∀ u, t - L ≤ u → u < t → ¬Withheld (scheduleLegs maxBuf bypass as) u := by
  generalize hls : scheduleLegs maxBuf bypass as = ls
  have hinv : ∀ signal, RunInv L signal ls (bypassRun maxBuf L bypass signal as) :=
    fun signal => hls ▸ runInv_bypassRun maxBuf L bypass signal as
  have hout : ∀ (signal : Nat → Rat) t, t < ls.length →
      (bypassRun maxBuf L bypass signal as).out[t]? = some (mixed L signal ls t) := by
    intro signal t ht
    rw [(hinv signal).out]
    simp [ht]
  have hfed : ∀ u, u < ls.length → ¬Withheld ls u → isFed (feds ls) u = true := by
    intro u hu hnot
    simpa [Withheld, isFed, feds, hu] using hnot
  constructor
  · intro hal t hheard hLt u hu hut hwithheld
    obtain ⟨l, hl, hweight⟩ := hheard
    obtain ⟨ht, -⟩ := List.getElem?_eq_some_iff.1 hl
    -- a pulse `L` samples before `t`
    have hpulse := hal (fun j => if j = t - L then 1 else 0) t (by rw [(hinv _).time]; exact ht)
    rw [hout _ t ht, Option.some_inj, mixed, hl] at hpulse
    have hunfed : isFed (feds ls) u = false := by
      have hu' : u < ls.length := Nat.lt_trans hut ht
      simpa [Withheld, isFed, feds, hu'] using hwithheld
    rw [gated_pulse hLt hu hut hunfed] at hpulse
    have hdelayed : delayed L (0 : Rat) (fun j => if j = t - L then 1 else 0) t = 1 := by
      rw [delayed, if_neg (Nat.not_lt.2 hLt), if_pos rfl]
    rw [hdelayed] at hpulse
    have hzero : ratOf l.weight = 0 := by
      simp only [Option.map_some, Option.getD_some] at hpulse
      linarith
    exact hweight hzero
  · intro hcond signal t ht
    rw [(hinv signal).time] at ht
    rw [hout signal t ht, mixed, List.getElem?_eq_getElem ht]
    congr 1
    by_cases hweight : ratOf ls[t].weight = 0
    · simp [hweight]
    · have hself : ¬Withheld ls t := by
        intro hwith
        refine hweight ?_
        have hl : ls[t].fed = false := by simpa [Withheld, ht] using hwith
        rw [(hinv signal).unweighted _ (List.getElem_mem ht) hl, ratOf_f0]
      have hg : gated L 0 signal (feds ls) t = delayed L 0 signal t :=
        gated_eq_delayed (hfed t ht hself) fun hL u hu hut => hfed u (Nat.lt_trans hut ht)
          (hcond t ⟨_, List.getElem?_eq_getElem ht, hweight⟩ hL u hu hut)
      rw [hg]
      ring

/-- The wet chain is off long enough for a sub-block to be withheld from it. -/
def refToggle : List BypassAction :=
  [.subBlock 4, .setBypass true, .subBlock 64, .subBlock 4, .setBypass false, .subBlock 4]

/-- The second sample after a bypass blends in a wet sample that is older than the latency. -/
theorem not_aligned_toggle :
    ¬∀ (maxBuf L : Nat) (bypass : Bool) (as : List BypassAction), Aligned maxBuf L bypass as := by
  intro h
  have hout := h 1024 2 false refToggle (fun j => if j = 71 then 1 else 0) 73 (by decide +kernel)
  exact absurd hout (by decide +kernel)

/-! ## The crossfader of a block -/

section
variable (D : DspEngine) (hD : ∀ pos n, D.streaming pos n = n)
include hD

theorem xfade_processChunk (x : DryWet) (bypass : Bool) (xs : List Rat) (pos : Nat)
    (steps : List GainStep) {s : SubState} (hs : s.xfade = x.bypassXfade) :
    (processChunk D pos xs.length bypass steps s).2.xfade =
      (x.processChunk bypass xs).2.bypassXfade := by
  unfold processChunk DryWet.processChunk
  rw [hs, hD, ite_self]
  dsimp only
  split
  · rfl
  · cases bypass with
    | true => exact hs
    | false => rfl

/-- The chunks of the loop in `process_sub_block_chunked`. -/
theorem xfade_processChunks (bypass : Bool) (fuel n : Nat) (hn : n ≤ fuel) (x : DryWet)
    (xs : List Rat) (hxs : xs.length = n) (pos outPos : Nat) {s : SubState}
    (hs : s.xfade = x.bypassXfade) :
    (processChunks D bypass fuel pos outPos n s).2.xfade =
      (x.processChunks bypass (List.replicate (n / D.maxResampBuf) D.maxResampBuf ++
        if n % D.maxResampBuf = 0 then [] else [n % D.maxResampBuf]) xs).2.bypassXfade := by
  have hpos := D.maxResampBuf_pos
  induction fuel generalizing n x xs pos outPos s with
  | zero =>
    obtain rfl : n = 0 := by omega
    simpa [processChunks, DryWet.processChunks] using hs
  | succ fuel ih =>
    unfold processChunks
    by_cases h0 : n = 0
    · subst h0
      simpa [DryWet.processChunks] using hs
    rw [if_neg h0]
    dsimp only
    by_cases hlt : n < D.maxResampBuf
    · rw [Nat.min_eq_left (Nat.le_of_lt hlt), Nat.sub_self, Nat.div_eq_of_lt hlt,
        Nat.mod_eq_of_lt hlt, if_neg h0]
      have h := xfade_processChunk D hD x bypass xs pos [] hs
      rw [hxs] at h
      have hnil : ∀ s', (processChunks D bypass fuel (pos + n)
          (outPos + (processChunk D pos n bypass [] s).1) 0 s').2 = s' := by
        intro s'
        cases fuel <;> rfl
      rw [hnil, h]
      simp [DryWet.processChunks, List.take_of_length_le (Nat.le_of_eq hxs)]
    · have hle : D.maxResampBuf ≤ n := Nat.not_lt.1 hlt
      have hdiv : n / D.maxResampBuf = (n - D.maxResampBuf) / D.maxResampBuf + 1 := by
        rw [Nat.div_eq_sub_div hpos hle]
      have hmod : n % D.maxResampBuf = (n - D.maxResampBuf) % D.maxResampBuf :=
        Nat.mod_eq_sub_mod hle
      have htake : (xs.take D.maxResampBuf).length = D.maxResampBuf := by
        rw [List.length_take, hxs, Nat.min_eq_left hle]
      have h := xfade_processChunk D hD x bypass (xs.take D.maxResampBuf) pos [] hs
      rw [htake] at h
      rw [Nat.min_eq_right hle, hdiv, hmod, List.replicate_succ, List.cons_append,
        DryWet.processChunks]
      exact ih (n - D.maxResampBuf) (by omega) _ _ (by rw [List.length_drop, hxs]) _ _ h

/-- Under strict cardinality the crossfader of a block (`Dsp/Orchestrator.lean`) takes the same
way. -/
theorem xfade_processSubBlock (x : DryWet) (bypass : Bool) (xs : List Rat) (pos outPos : Nat)
    (steps : List GainStep) {s : SubState} (hs : s.xfade = x.bypassXfade) :
    (processSubBlock D pos xs.length outPos bypass steps s).2.xfade =
      (x.processSubBlock D.maxResampBuf bypass xs).2.bypassXfade := by
  unfold processSubBlock DryWet.processSubBlock chunkSizes
  by_cases hlt : D.maxResampBuf < xs.length
  · rw [if_pos hlt, if_neg (Nat.not_le.2 hlt)]
    exact xfade_processChunks D hD bypass _ _ (Nat.le_refl _) x xs rfl pos outPos hs
  · rw [if_neg hlt, if_pos (Nat.not_lt.1 hlt)]
    have h := xfade_processChunk D hD x bypass xs pos steps hs
    simpa [DryWet.processChunks] using h

end

end NamPlug
