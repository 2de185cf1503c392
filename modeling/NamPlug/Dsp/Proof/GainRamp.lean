import NamPlug.Dsp.GainRamp
import NamPlug.Lib.OnePole

/-!
# Ramps and the recurrence

`ramps_track`: consecutive calls of the gain ramp multiply the samples by the one-pole recurrence
with every target set at its offset, to within `stableGain`, and leave the smoother as near to it.

* `applyIirGainRampSubBlock_spec`: a ramp without a step holds the gain or decays to the target.
* `Tracks`: a ramp that has come to a sample and is near the recurrence there. Every ramp keeps it
  (`Tracks.ramp`), so no number of steps or calls adds to the error.
-/

namespace NamPlug

open OnePole

/-! ## Buffers -/

theorem length_multiplied (offset n : Nat) (gain : Nat → ℚ) (buf : List ℚ) :
    (multiplied offset n gain buf).length = buf.length := by simp [multiplied]

theorem multiplied_zero (offset : Nat) (gain : Nat → ℚ) (buf : List ℚ) :
    multiplied offset 0 gain buf = buf := by
  refine List.ext_getElem (length_multiplied ..) fun j h1 h2 => ?_
  simp only [multiplied, List.getElem_mapIdx]
  rw [if_neg (by omega)]

/-- A slice multiplied in place. -/
theorem writeSlice_mapIdx {buf : List ℚ} {p n : Nat} (h : p + n ≤ buf.length) (gain : Nat → ℚ) :
    writeSlice buf p n ((sliceOf buf p n).mapIdx fun i v => v * gain i) =
      multiplied p n gain buf := by
  refine List.ext_getElem ?_ fun j h1 h2 => ?_
  · simp [writeSlice, sliceOf, multiplied]
    omega
  · simp only [writeSlice, sliceOf, multiplied, List.getElem_mapIdx]
    rw [length_multiplied] at h2
    rcases Nat.lt_or_ge j p with hj | hj
    · rw [if_neg (by omega), List.getElem_append_left (by simp; omega),
        List.getElem_append_left (by simp; omega), List.getElem_take]
    · rcases Nat.lt_or_ge j (p + n) with hjn | hjn
      · rw [if_pos ⟨hj, hjn⟩, List.getElem_append_left (by simp; omega),
          List.getElem_append_right (by simp; omega)]
        simp [Nat.min_eq_left (by omega : p ≤ buf.length), Nat.add_sub_cancel' hj]
      · rw [if_neg (by omega), List.getElem_append_right (by simp; omega)]
        simp only [List.length_append, List.length_take, List.length_mapIdx, List.length_drop,
          List.getElem_drop]
        congr 1
        omega

theorem writeSlice_sliceOf (buf : List ℚ) (p n : Nat) :
    writeSlice buf p n (sliceOf buf p n) = buf := by
  rw [writeSlice, sliceOf, List.append_assoc, ← List.drop_drop, List.take_append_drop,
    List.take_append_drop]

/-- A buffer multiplied up to a sample, and from it on. -/
theorem multiplied_multiplied (off k n : Nat) (g h : Nat → ℚ) (buf : List ℚ) :
    multiplied (off + k) n h (multiplied off k g buf) =
      multiplied off (k + n) (fun i => if i < k then g i else h (i - k)) buf := by
  refine List.ext_getElem (by simp [length_multiplied]) fun j h1 h2 => ?_
  simp only [multiplied, List.getElem_mapIdx]
  by_cases hk : off ≤ j ∧ j < off + k
  · rw [if_neg (by omega), if_pos hk, if_pos (by omega), if_pos (by omega)]
  · by_cases hn : off + k ≤ j ∧ j < off + k + n
    · rw [if_pos hn, if_neg hk, if_pos (by omega), if_neg (by omega), Nat.sub_sub]
    · rw [if_neg hn, if_neg hk, if_neg (by omega)]

/-! ## A ramp without a step -/

theorem rampLoop_fst (target diff beta bp : ℚ) (xs : List ℚ) :
    (rampLoop target diff beta bp xs).1 =
      xs.mapIdx fun i v => v * (target + bp * beta ^ i * diff) := by
  induction xs generalizing bp with
  | nil => rfl
  | cons x xs ih =>
    have hbp (i : Nat) : bp * beta * beta ^ i = bp * beta ^ (i + 1) := by ring
    simp only [rampLoop, List.mapIdx_cons, ih, pow_zero, mul_one, hbp]

theorem rampLoop_snd (target diff beta bp : ℚ) (xs : List ℚ) :
    (rampLoop target diff beta bp xs).2 = bp * beta ^ xs.length := by
  induction xs generalizing bp with
  | nil => simp [rampLoop]
  | cons x xs ih =>
    rw [rampLoop, ih, List.length_cons, pow_succ]
    ring

section
variable {S : Type} {E : SmootherEngine S}

/-- The gain a ramp has after some samples: held, or decayed to the target. -/
def rampGain (a T c : ℚ) (i : Nat) : ℚ := if |c - T| < stableGain then c else decay a T c i

/-- What a ramp without a step does. -/
theorem applyIirGainRampSubBlock_spec (detectClip processMono : Bool) {x : RampState S}
    {offset n : Nat} (hn : 0 < n) (ha : E.alpha x.smoother ≤ 1)
    (hL : offset + n ≤ x.bufL.length) (hR : offset + n ≤ x.bufR.length) :
    let x' := applyIirGainRampSubBlock E detectClip processMono x offset n
    let gain := rampGain (E.alpha x.smoother) (E.targetValue x.smoother) (E.peek x.smoother)
    x'.bufL = multiplied offset n (fun i => gain (i + 1)) x.bufL ∧
      x'.bufR = (if processMono then x.bufR
        else multiplied offset n (fun i => gain (i + 1)) x.bufR) ∧
      E.alpha x'.smoother = E.alpha x.smoother ∧
      E.targetValue x'.smoother = E.targetValue x.smoother ∧
      E.peek x'.smoother = gain n := by
  intro x' gain
  have hslice {buf : List ℚ} (h : offset + n ≤ buf.length) {ys : List ℚ}
      (hys : ys = (sliceOf buf offset n).mapIdx fun i v => v * gain (i + 1)) :
      writeSlice buf offset n ys = multiplied offset n (fun i => gain (i + 1)) buf := by
    rw [hys, writeSlice_mapIdx h]
  by_cases hheld : |E.peek x.smoother - E.targetValue x.smoother| < stableGain
  · have hgain (i : Nat) : gain i = E.peek x.smoother := if_pos hheld
    have hmap (xs : List ℚ) : xs.map (· * E.peek x.smoother) =
        xs.mapIdx fun i v => v * gain (i + 1) :=
      List.ext_getElem (by simp) fun i h1 h2 => by simp [hgain]
    have hx' : x' = { x with
        bufL := _
        bufR := _
        inputClipped := _ } := if_pos hheld
    rw [hx']
    refine ⟨hslice hL (hmap _), ?_, rfl, rfl, (hgain n).symm⟩
    cases processMono with
    | true => exact writeSlice_sliceOf ..
    | false => exact hslice hR (hmap _)
  · have hgain (i : Nat) : gain i = decay _ _ _ i := if_neg hheld
    have hloop (xs : List ℚ) : (rampLoop (E.targetValue x.smoother)
        (E.peek x.smoother - E.targetValue x.smoother) (1 - E.alpha x.smoother)
        (1 - E.alpha x.smoother) xs).1 = xs.mapIdx fun i v => v * gain (i + 1) := by
      simp only [rampLoop_fst, hgain, decay, ← pow_succ']
    have hx' : x' = RampState.mk _ _ _ _ := if_neg hheld
    rw [hx']
    refine ⟨hslice hL (hloop _), ?_, E.alpha_set _ _, E.targetValue_set _ _, ?_⟩
    · cases processMono with
      | true => exact writeSlice_sliceOf ..
      | false => exact hslice hR (hloop _)
    · have hlen : (sliceOf x.bufL offset n).length = n := by
        simp [sliceOf]
        omega
      rw [E.peek_set, rampLoop_snd, hlen, hgain, decay]
      split
      · -- the coefficient is 1: the ramp jumps to the target
        have h0 : 1 - E.alpha x.smoother = 0 := by linarith
        simp [h0, hn.ne']
      · rename_i hbeta
        rw [mul_div_cancel_left₀ _ fun h0 => hbeta (le_of_eq h0)]

/-- A ramp that has come to sample `k`, with its gains and its smoother near the recurrence `y`. -/
structure Tracks (E : SmootherEngine S) (processMono : Bool) (x₀ : RampState S) (offset : Nat)
    (y : Nat → ℚ) (k : Nat) (x : RampState S) : Prop where
  alpha : E.alpha x.smoother = E.alpha x₀.smoother
  close : |E.peek x.smoother - y k| ≤ stableGain
  gains : ∃ gain : Nat → ℚ, (∀ i < k, |gain i - y (i + 1)| ≤ stableGain) ∧
    x.bufL = multiplied offset k gain x₀.bufL ∧
    x.bufR = if processMono then x₀.bufR else multiplied offset k gain x₀.bufR

theorem rampGain_close {a T c y : ℚ} (h0 : 0 ≤ a) (h1 : a ≤ 1) (h : |c - y| ≤ stableGain)
    (i : Nat) : |rampGain a T c i - decay a T y i| ≤ stableGain := by
  unfold rampGain
  split
  · rename_i hheld
    exact hold_close h0 h1 (le_of_lt hheld) h i
  · exact decay_close h0 h1 h i

variable {processMono : Bool} {x₀ x : RampState S} {offset k : Nat} {target : Nat → ℚ} {y₀ : ℚ}

/-- A ramp without a step, over a stretch in which the target stays. -/
theorem Tracks.ramp (h0 : 0 ≤ E.alpha x₀.smoother) (h1 : E.alpha x₀.smoother ≤ 1)
    (hx : Tracks E processMono x₀ offset (state (E.alpha x₀.smoother) target y₀) k x)
    (detectClip : Bool) {n : Nat} (hn : 0 < n) (hL : offset + (k + n) ≤ x₀.bufL.length)
    (hR : offset + (k + n) ≤ x₀.bufR.length)
    (htarget : ∀ i, k ≤ i → i < k + n → target i = E.targetValue x.smoother) :
    Tracks E processMono x₀ offset (state (E.alpha x₀.smoother) target y₀) (k + n)
      (applyIirGainRampSubBlock E detectClip processMono x (offset + k) n) ∧
    E.targetValue (applyIirGainRampSubBlock E detectClip processMono x (offset + k) n).smoother =
      E.targetValue x.smoother := by
  obtain ⟨ha, hclose, g, hg, hbufL, hbufR⟩ := hx
  have hlenR : x.bufR.length = x₀.bufR.length := by
    rw [hbufR]
    split
    · rfl
    · exact length_multiplied ..
  have hL : offset + k + n ≤ x.bufL.length := by
    rw [hbufL, length_multiplied]
    omega
  have hR : offset + k + n ≤ x.bufR.length := by
    rw [hlenR]
    omega
  obtain ⟨hL', hR', ha', ht', hpeek⟩ :=
    applyIirGainRampSubBlock_spec (E := E) detectClip processMono hn (ha ▸ h1) hL hR
  have hstate {i : Nat} (hi : i ≤ n) :
      |rampGain (E.alpha x.smoother) (E.targetValue x.smoother) (E.peek x.smoother) i -
        state (E.alpha x₀.smoother) target y₀ (k + i)| ≤ stableGain := by
    rw [state_add fun j hj hji => htarget j hj (by omega), ha]
    exact rampGain_close h0 h1 hclose i
  refine ⟨⟨ha'.trans ha, ?_, fun i => if i < k then g i else rampGain (E.alpha x.smoother)
    (E.targetValue x.smoother) (E.peek x.smoother) (i - k + 1), ?_, ?_, ?_⟩, ht'⟩
  · rw [hpeek]
    exact hstate (Nat.le_refl n)
  · intro i hi
    by_cases hik : i < k
    · simpa only [if_pos hik] using hg i hik
    · simp only [if_neg hik]
      have := hstate (i := i - k + 1) (by omega)
      rwa [show k + (i - k + 1) = i + 1 by omega] at this
  · rw [hL', hbufL, multiplied_multiplied]
  · rw [hR', hbufR]
    split
    · rfl
    · rw [multiplied_multiplied]

/-! ## Targets -/

theorem targetAt_cons_le {T : ℚ} {e : Nat × ℚ} {es : List (Nat × ℚ)} {i : Nat} (h : e.1 ≤ i) :
    targetAt T (e :: es) i = targetAt e.2 es i := by
  simp [targetAt, h]

theorem targetAt_of_lt {T : ℚ} {es : List (Nat × ℚ)} {i : Nat} (h : ∀ e ∈ es, i < e.1) :
    targetAt T es i = T := by
  rw [targetAt, List.filter_eq_nil_iff.2 fun e he => by simpa using h e he]
  rfl

theorem targetAt_append (T : ℚ) (es fs : List (Nat × ℚ)) (i : Nat) :
    targetAt T (es ++ fs) i = targetAt (targetAt T es i) fs i := by
  simp only [targetAt, List.filter_append, List.foldl_append]

/-- After the last step the target stays. -/
theorem targetAt_of_le {T : ℚ} {es : List (Nat × ℚ)} {i j : Nat} (hi : ∀ e ∈ es, e.1 ≤ i)
    (hj : ∀ e ∈ es, e.1 ≤ j) : targetAt T es i = targetAt T es j := by
  rw [targetAt, targetAt, List.filter_eq_self.2 fun e he => by simpa using hi e he,
    List.filter_eq_self.2 fun e he => by simpa using hj e he]

theorem mem_callSteps {wantInput : Bool} {base : Nat} {steps : List RampStep} {e : Nat × ℚ}
    (h : e ∈ callSteps wantInput base steps) : ∃ s ∈ steps, e = (base + s.offset, s.target) := by
  obtain ⟨s, hs, rfl⟩ := List.mem_map.1 h
  exact ⟨s, (List.mem_filter.1 hs).1, rfl⟩

/-! ## Ramps with steps -/

theorem Tracks.setTarget {y : Nat → ℚ} (hx : Tracks E processMono x₀ offset y k x) (t : ℚ) :
    Tracks E processMono x₀ offset y k { x with smoother := E.setTarget x.smoother t } :=
  ⟨(E.alpha_setTarget ..).trans hx.alpha, (E.peek_setTarget ..).symm ▸ hx.close, hx.gains⟩

/-- The loop over the steps of a call on the `n` samples from `base` on. It comes to a sample from
which on the target stays. -/
theorem Tracks.steps (h0 : 0 ≤ E.alpha x₀.smoother) (h1 : E.alpha x₀.smoother ≤ 1)
    (wantInput detectClip : Bool) {base n : Nat} (hL : offset + (base + n) ≤ x₀.bufL.length)
    (hR : offset + (base + n) ≤ x₀.bufR.length) {steps : List RampStep}
    (hsorted : steps.Pairwise fun s t => s.offset ≤ t.offset)
    (hwithin : ∀ s ∈ steps, s.offset ≤ n) {p : Nat} (hp : p ≤ base + n)
    (hafter : ∀ s ∈ steps, p ≤ base + s.offset)
    (hx : Tracks E processMono x₀ offset (state (E.alpha x₀.smoother) target y₀) p x)
    (htarget : ∀ i, p ≤ i → i < base + n →
      target i = targetAt (E.targetValue x.smoother) (callSteps wantInput base steps) i) :
    ∃ q x', steps.foldl (rampStep E wantInput detectClip processMono (offset + base) n)
        (x, offset + p) = (x', offset + q) ∧ q ≤ base + n ∧
      Tracks E processMono x₀ offset (state (E.alpha x₀.smoother) target y₀) q x' ∧
      E.targetValue x'.smoother =
        targetAt (E.targetValue x.smoother) (callSteps wantInput base steps) (base + n) ∧
      ∀ i, q ≤ i → i < base + n → target i = E.targetValue x'.smoother := by
  induction steps generalizing x p with
  | nil => exact ⟨p, x, rfl, hp, hx, rfl, htarget⟩
  | cons s steps ih =>
    rw [List.pairwise_cons] at hsorted
    have hs := hwithin s List.mem_cons_self
    have hps := hafter s List.mem_cons_self
    have hwithin' := fun t ht => hwithin t (List.mem_cons_of_mem s ht)
    rw [List.foldl_cons, rampStep]
    by_cases hw : s.isInput = wantInput
    · have hcall : callSteps wantInput base (s :: steps) =
          (base + s.offset, s.target) :: callSteps wantInput base steps := by
        simp [callSteps, hw]
      rw [if_neg (not_not.2 hw), Nat.min_eq_left hs]
      rw [hcall] at htarget ⊢
      have hlater : ∀ i, p ≤ i → i < base + s.offset → target i = E.targetValue x.smoother := by
        intro i hpi hi
        rw [htarget i hpi (by omega), targetAt_of_lt fun e he => ?_]
        rcases List.mem_cons.1 he with rfl | he
        · exact hi
        · obtain ⟨t, ht, rfl⟩ := mem_callSteps he
          have := hsorted.1 t ht
          simp only
          omega
      -- the ramp up to the step, if there is one
      obtain ⟨x₁, hx₁, hto, hT₁⟩ : ∃ x₁, Tracks E processMono x₀ offset
          (state (E.alpha x₀.smoother) target y₀) (base + s.offset) x₁ ∧
          (if offset + p < offset + base + s.offset then
            (applyIirGainRampSubBlock E detectClip processMono x (offset + p)
              (offset + base + s.offset - (offset + p)), offset + base + s.offset)
          else (x, offset + p)) = (x₁, offset + (base + s.offset)) ∧
          E.targetValue x₁.smoother = E.targetValue x.smoother := by
        by_cases hlt : offset + p < offset + base + s.offset
        · have hsum : p + (base + s.offset - p) = base + s.offset := by omega
          obtain ⟨hx₁, hT₁⟩ := hx.ramp h0 h1 detectClip (n := base + s.offset - p) (by omega)
            (by omega) (by omega) fun i hi hin => hlater i hi (by omega)
          rw [hsum] at hx₁
          refine ⟨_, hx₁, ?_, hT₁⟩
          rw [if_pos hlt, show offset + base + s.offset - (offset + p) = base + s.offset - p by omega,
            Nat.add_assoc]
        · have hps : p = base + s.offset := by omega
          refine ⟨x, hps ▸ hx, ?_, rfl⟩
          rw [if_neg hlt, hps]
      simp only [hto]
      obtain ⟨q, x', hrun, hq, hx', hT', hstays⟩ := ih hsorted.2 hwithin' (by omega)
        (fun t ht => by have := hsorted.1 t ht; omega) (hx₁.setTarget s.target) fun i hi hin => by
          rw [htarget i (by omega) hin, targetAt_cons_le hi, E.targetValue_setTarget]
      refine ⟨q, x', hrun, hq, hx', ?_, hstays⟩
      rw [hT', E.targetValue_setTarget, targetAt_cons_le (by simp only; omega)]
    · have hcall : callSteps wantInput base (s :: steps) = callSteps wantInput base steps := by
        simp [callSteps, hw]
      rw [if_pos hw]
      rw [hcall] at htarget ⊢
      exact ih hsorted.2 hwithin' hp (fun t ht => hafter t (List.mem_cons_of_mem s ht)) hx htarget

/-- A call on the `n` samples from `base` on. -/
theorem Tracks.call (h0 : 0 ≤ E.alpha x₀.smoother) (h1 : E.alpha x₀.smoother ≤ 1)
    (wantInput detectClip : Bool) {base : Nat} {c : RampCall} (hc : c.Ordered)
    (hL : offset + (base + c.n) ≤ x₀.bufL.length) (hR : offset + (base + c.n) ≤ x₀.bufR.length)
    (hx : Tracks E processMono x₀ offset (state (E.alpha x₀.smoother) target y₀) base x)
    (htarget : ∀ i, base ≤ i → i < base + c.n →
      target i = targetAt (E.targetValue x.smoother) (callSteps wantInput base c.steps) i) :
    let x' := applyGainRampWithSteps E wantInput detectClip processMono x (offset + base) c.n c.steps
    Tracks E processMono x₀ offset (state (E.alpha x₀.smoother) target y₀) (base + c.n) x' ∧
      E.targetValue x'.smoother =
        targetAt (E.targetValue x.smoother) (callSteps wantInput base c.steps) (base + c.n) := by
  obtain ⟨q, x₁, hrun, hq, hx₁, hT₁, hstays⟩ := Tracks.steps h0 h1 wantInput detectClip hL hR
    hc.sorted hc.within (Nat.le_add_right ..) (fun _ _ => Nat.le_add_right ..) hx htarget
  simp only [applyGainRampWithSteps, hrun]
  by_cases hlt : offset + q < offset + base + c.n
  · have hsum : q + (base + c.n - q) = base + c.n := by omega
    obtain ⟨hx₂, hT₂⟩ := hx₁.ramp h0 h1 detectClip (n := base + c.n - q) (by omega) (by omega)
      (by omega) fun i hi hin => hstays i hi (by omega)
    rw [if_pos hlt, show offset + base + c.n - (offset + q) = base + c.n - q by omega]
    rw [hsum] at hx₂
    exact ⟨hx₂, hT₂.trans hT₁⟩
  · have hq : q = base + c.n := by omega
    rw [if_neg hlt]
    exact ⟨hq ▸ hx₁, hT₁⟩

theorem timeline_ge {wantInput : Bool} {base : Nat} {calls : List RampCall} :
    ∀ e ∈ timeline wantInput base calls, base ≤ e.1 := by
  induction calls generalizing base with
  | nil => simp [timeline]
  | cons c cs ih =>
    intro e he
    rcases List.mem_append.1 he with he | he
    · obtain ⟨s, -, rfl⟩ := mem_callSteps he
      exact Nat.le_add_right ..
    · exact Nat.le_trans (Nat.le_add_right ..) (ih e he)

/-- Consecutive calls from sample `base` on. -/
theorem Tracks.calls (h0 : 0 ≤ E.alpha x₀.smoother) (h1 : E.alpha x₀.smoother ≤ 1)
    (wantInput detectClip : Bool) {base : Nat} {calls : List RampCall}
    (hcalls : ∀ c ∈ calls, c.Ordered)
    (hL : offset + (base + totalSamples calls) ≤ x₀.bufL.length)
    (hR : offset + (base + totalSamples calls) ≤ x₀.bufR.length)
    (hx : Tracks E processMono x₀ offset (state (E.alpha x₀.smoother) target y₀) base x)
    (htarget : ∀ i, base ≤ i → i < base + totalSamples calls →
      target i = targetAt (E.targetValue x.smoother) (timeline wantInput base calls) i) :
    let x' := applyRampCalls E wantInput detectClip processMono x (offset + base) calls
    Tracks E processMono x₀ offset (state (E.alpha x₀.smoother) target y₀)
        (base + totalSamples calls) x' ∧
      E.targetValue x'.smoother = targetAt (E.targetValue x.smoother)
        (timeline wantInput base calls) (base + totalSamples calls) := by
  induction calls generalizing x base with
  | nil => exact ⟨hx, rfl⟩
  | cons c cs ih =>
    have hc := hcalls c List.mem_cons_self
    have htotal : totalSamples (c :: cs) = c.n + totalSamples cs := rfl
    rw [htotal] at hL hR htarget ⊢
    have hown {i : Nat} (hi : base + c.n ≤ i) :
        ∀ e ∈ callSteps wantInput base c.steps, e.1 ≤ i := by
      intro e he
      obtain ⟨s, hs, rfl⟩ := mem_callSteps he
      have := hc.within s hs
      simp only
      omega
    obtain ⟨hx₁, hT₁⟩ := hx.call h0 h1 wantInput detectClip hc (by omega) (by omega)
      fun i hi hin => by
        rw [htarget i hi (by omega), timeline, targetAt_append]
        exact targetAt_of_lt fun e he => Nat.lt_of_lt_of_le hin (timeline_ge e he)
    obtain ⟨hx₂, hT₂⟩ := ih (fun d hd => hcalls d (List.mem_cons_of_mem c hd)) (by omega) (by omega)
      hx₁ fun i hi hin => by
        rw [htarget i (by omega) (by omega), timeline, targetAt_append, hT₁,
          targetAt_of_le (hown hi) (hown (Nat.le_refl _))]
    simp only [applyRampCalls, timeline, targetAt_append, ← Nat.add_assoc] at hx₂ hT₂ ⊢
    refine ⟨hx₂, hT₂.trans ?_⟩
    rw [hT₁, targetAt_of_le (hown (Nat.le_refl _))
      (hown (i := base + c.n + totalSamples cs) (by omega))]

/-- Consecutive calls of the gain ramp, each with its steps in order: every sample is multiplied by
a gain within `stableGain` of the recurrence with each target set at its offset, and the smoother is
left as near to the recurrence, with the last target. -/
theorem ramps_track (E : SmootherEngine S) (wantInput detectClip processMono : Bool)
    (x : RampState S) (offset : Nat) (calls : List RampCall)
    (halpha : 0 ≤ E.alpha x.smoother ∧ E.alpha x.smoother ≤ 1) (hcalls : ∀ c ∈ calls, c.Ordered)
    (hL : offset + totalSamples calls ≤ x.bufL.length)
    (hR : offset + totalSamples calls ≤ x.bufR.length) :
    let target := targetAt (E.targetValue x.smoother) (timeline wantInput 0 calls)
    let x' := applyRampCalls E wantInput detectClip processMono x offset calls
    Tracks E processMono x offset (state (E.alpha x.smoother) target (E.peek x.smoother))
        (totalSamples calls) x' ∧
      E.targetValue x'.smoother = target (totalSamples calls) := by
  intro target x'
  have hx : Tracks E processMono x offset (state (E.alpha x.smoother) target (E.peek x.smoother))
      0 x := by
    refine ⟨rfl, by simp [state, stableGain], fun _ => 0, by simp, (multiplied_zero ..).symm, ?_⟩
    split
    · rfl
    · exact (multiplied_zero ..).symm
  have := hx.calls halpha.1 halpha.2 wantInput detectClip hcalls (by omega) (by omega)
    fun i _ _ => rfl
  simpa only [Nat.zero_add, Nat.add_zero] using this

end

/-! ## An example -/

/-- A smoother as a coefficient, a value and a target. -/
def exactSmoother : SmootherEngine (ℚ × ℚ × ℚ) where
  alpha s := s.1
  peek s := s.2.1
  targetValue s := s.2.2
  set s v := (s.1, v, s.2.2)
  setTarget s t := (s.1, s.2.1, t)
  detectClipping xs := xs.any fun s => decide (1 < |s|)
  alpha_set _ _ := rfl
  peek_set _ _ := rfl
  targetValue_set _ _ := rfl
  alpha_setTarget _ _ := rfl
  peek_setTarget _ _ := rfl
  targetValue_setTarget _ _ := rfl

/-- Two calls: input steps at the start, twice at one offset and at the end, and an output step. -/
def exampleCalls : List RampCall :=
  [⟨3, [⟨0, 2, true⟩, ⟨1, 1 / 2, true⟩, ⟨1, 4, true⟩, ⟨2, 0, false⟩]⟩, ⟨2, [⟨2, 1, true⟩]⟩]

def exampleRamp : RampState (ℚ × ℚ × ℚ) :=
  ⟨(1 / 2, 1, 1), [1, 1, 1, 1, 1, 1], [1, 1, 1, 1, 1, 1], false⟩

theorem ramps_track_example :
    Tracks exactSmoother false exampleRamp 1
        (state (1 / 2) (targetAt 1 (timeline true 0 exampleCalls)) 1) 5
        (applyRampCalls exactSmoother true false false exampleRamp 1 exampleCalls) ∧
      (applyRampCalls exactSmoother true false false exampleRamp 1 exampleCalls).bufL =
        [1, 3 / 2, 11 / 4, 27 / 8, 59 / 16, 123 / 32] :=
  ⟨(ramps_track exactSmoother true false false exampleRamp 1 exampleCalls
    ⟨by norm_num [exactSmoother, exampleRamp], by norm_num [exactSmoother, exampleRamp]⟩
    (by
      intro c hc
      simp only [exampleCalls, List.mem_cons, List.not_mem_nil, or_false] at hc
      rcases hc with rfl | rfl
      · exact ⟨by decide, by decide⟩
      · exact ⟨by decide, by decide⟩)
    (by decide) (by decide)).1, by decide +kernel⟩

end NamPlug
