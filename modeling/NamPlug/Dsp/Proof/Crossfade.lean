import Mathlib.Data.List.Chain
import Mathlib.Tactic.Linarith
import Mathlib.Tactic.Ring
import NamPlug.Dsp.Crossfade
import NamPlug.Lib.Run

/-!
# Crossfades under any schedule

`crossfade_kept`: a schedule of triggers and sub-blocks keeps what a crossfade promises where every
trigger that changes the direction comes within one step of the end it leaves; any other trigger
breaks the promise in the next sub-block of 64 samples.

* `Ramping`: what holds of the crossfader in every schedule.
* `processSubBlock_eq`: a sub-block that ramps within `[0, 1]` is its samples, one by one.
* `single_range`, `single_gradual`: one by one, samples keep all that is promised.
* `FullRamp`: what holds of it where every crossfade starts at the other end.
-/

namespace NamPlug.Crossfader

/-- A trigger that changes the direction comes within one step of the end it leaves: there are 63
steps or more to the other end. -/
def FromEnd (x : Crossfader) : XfadeAction → Prop
  | .trigger bypass => x.target ≠ bypass → 63 / 64 ≤ |finalMix bypass - x.mix|
  | .subBlock _ => True

instance (x : Crossfader) : ∀ a, Decidable (x.FromEnd a)
  | .trigger _ => inferInstanceAs (Decidable (_ → _))
  | .subBlock _ => isTrue trivial

/-- A sub-block does not ramp out of `[0, 1]` before its end. -/
def RampsInRange (x : Crossfader) : XfadeAction → Prop
  | .trigger _ => True
  | .subBlock frames =>
    x.active = true →
      0 ≤ x.mix + (min frames.length x.remaining - 1 : ℕ) * x.step ∧
        x.mix + (min frames.length x.remaining - 1 : ℕ) * x.step ≤ 1

/-- The crossfader after an action. -/
def next (x : Crossfader) (a : XfadeAction) : Option Crossfader := some (x.act a).2

/-! ## The crossfader in every schedule -/

/-- A crossfade under way moves to its target and is near enough to reach it; the mix rests at the
target else. -/
structure Ramping (x : Crossfader) : Prop where
  lo : 0 ≤ x.mix
  hi : x.mix ≤ 1
  idle : x.active = false → x.remaining = 0 ∧ x.mix = finalMix x.target
  step : x.active = true → x.step = if x.target then -xfadeInv else xfadeInv
  positive : x.active = true → 0 < x.remaining
  bounded : x.remaining ≤ xfadeSamples
  near : x.active = true → |finalMix x.target - x.mix| ≤ x.remaining * xfadeInv

theorem xfadeInv_eq : xfadeInv = 1 / 64 := rfl

theorem finalMix_cases (target : Bool) :
    target = true ∧ finalMix target = 0 ∨ target = false ∧ finalMix target = 1 := by
  cases target <;> simp [finalMix]

theorem clamp01_of_mem {q : ℚ} (h0 : 0 ≤ q) (h1 : q ≤ 1) : clamp01 q = q := by
  rw [clamp01, min_eq_left h1, max_eq_right h0]

theorem clamp01_nonneg (q : ℚ) : 0 ≤ clamp01 q := le_max_left ..

theorem clamp01_le_one (q : ℚ) : clamp01 q ≤ 1 := max_le (by norm_num) (min_le_right ..)

theorem ramping_new (bypass : Bool) : Ramping (.new bypass) := by
  rcases finalMix_cases bypass with ⟨rfl, -⟩ | ⟨rfl, -⟩ <;>
    constructor <;> simp [new, finalMix]

theorem Ramping.trigger {x : Crossfader} (hx : Ramping x) (bypass : Bool) :
    Ramping (x.trigger bypass) := by
  unfold Crossfader.trigger
  split
  · exact hx
  · have hlo := hx.lo
    have hhi := hx.hi
    refine ⟨hlo, hhi, by simp, by simp, by simp [xfadeSamples], by simp, fun _ => ?_⟩
    rw [xfadeInv_eq, xfadeSamples, abs_le]
    rcases finalMix_cases bypass with ⟨-, hm⟩ | ⟨-, hm⟩ <;> rw [hm] <;>
      constructor <;> push_cast <;> linarith

/-- The mix after `k` more steps, clamped, is as near as the rest of the crossfade needs. -/
theorem near_clamp01 {target : Bool} {mix step : ℚ} {remaining k : Nat} (hk : k ≤ remaining)
    (hlo : 0 ≤ mix) (hhi : mix ≤ 1) (hstep : step = if target then -xfadeInv else xfadeInv)
    (hnear : |finalMix target - mix| ≤ remaining * xfadeInv) :
    |finalMix target - clamp01 (mix + k * step)| ≤ (remaining - k : ℕ) * xfadeInv := by
  have hkr : ((remaining - k : ℕ) : ℚ) = remaining - k := by push_cast [hk]; rfl
  have hk' : (k : ℚ) ≤ remaining := by exact_mod_cast hk
  have hk0 : (0 : ℚ) ≤ k := by positivity
  rw [hkr, xfadeInv_eq]
  rw [xfadeInv_eq] at hstep hnear
  rw [abs_le] at hnear ⊢
  unfold clamp01
  rcases finalMix_cases target with ⟨rfl, hm⟩ | ⟨rfl, hm⟩ <;> rw [hm] at hnear ⊢ <;>
    simp only [if_true, if_false, Bool.false_eq_true] at hstep <;> subst hstep <;>
    obtain ⟨h1, h2⟩ := hnear
  · rw [min_eq_left (by linarith)]
    constructor
    · rcases max_cases 0 (mix + k * -(1 / 64)) with ⟨h, -⟩ | ⟨h, -⟩ <;> rw [h] <;> linarith
    · have := le_max_left 0 (mix + k * -(1 / 64))
      linarith
  · rw [max_eq_right (le_min (by linarith) (by norm_num))]
    constructor
    · have := min_le_right (mix + k * (1 / 64)) 1
      linarith
    · rcases min_cases (mix + k * (1 / 64)) 1 with ⟨h, -⟩ | ⟨h, -⟩ <;> rw [h] <;> linarith

theorem blend_snd (step mix : ℚ) (frames : List (ℚ × ℚ)) :
    (blend step mix frames).2 = mix + frames.length * step := by
  induction frames generalizing mix with
  | nil => simp [blend]
  | cons f fs ih =>
    simp only [blend, ih, List.length_cons]
    push_cast
    ring

theorem Ramping.processSubBlock {x : Crossfader} (hx : Ramping x) (frames : List (ℚ × ℚ)) :
    Ramping (x.processSubBlock frames).2 := by
  unfold Crossfader.processSubBlock
  by_cases ha : x.active = true
  · rw [if_pos ha]
    unfold processCrossfadeSubBlock
    have hle : min frames.length x.remaining ≤ x.remaining := min_le_right ..
    have hb := hx.bounded
    simp only [blend_snd, List.length_take]
    split
    · rename_i h0
      rcases finalMix_cases x.target with ⟨-, hm⟩ | ⟨-, hm⟩ <;>
        constructor <;> simp [hm, h0]
    · rename_i h0
      refine ⟨clamp01_nonneg _, clamp01_le_one _, fun h => ?_, fun _ => hx.step ha,
        fun _ => Nat.pos_of_ne_zero h0, by simp only; omega, fun _ => ?_⟩
      · exact absurd h (by simp [ha])
      · have hk : min (min frames.length x.remaining) frames.length =
            min frames.length x.remaining := by omega
        rw [hk]
        exact near_clamp01 hle hx.lo hx.hi (hx.step ha) (hx.near ha)
  · rw [if_neg ha]
    exact hx

theorem Ramping.act {x : Crossfader} (hx : Ramping x) (a : XfadeAction) :
    Ramping (x.act a).2 := by
  cases a with
  | trigger bypass => exact hx.trigger bypass
  | subBlock frames => exact hx.processSubBlock frames

theorem Ramping.render {x : Crossfader} (hx : Ramping x) (as : List XfadeAction) :
    Ramping (x.render as).2 := by
  induction as generalizing x with
  | nil => exact hx
  | cons a as ih => exact ih (hx.act a)

theorem render_append (x : Crossfader) (as bs : List XfadeAction) :
    x.render (as ++ bs) =
      ((x.render as).1 ++ ((x.render as).2.render bs).1, ((x.render as).2.render bs).2) := by
  induction as generalizing x with
  | nil => rfl
  | cons a as ih => simp [Crossfader.render, ih]

/-! ## The end of a crossfade -/

theorem length_blend (step mix : ℚ) (frames : List (ℚ × ℚ)) :
    (blend step mix frames).1.length = frames.length := by
  induction frames generalizing mix with
  | nil => rfl
  | cons f fs ih => simp [blend, ih]

theorem mix_of_mem_pure {target : Bool} {frames : List (ℚ × ℚ)} {m : ℚ}
    (h : m ∈ (frames.map (Crossfader.pure target)).map (·.mix)) : m = finalMix target := by
  rw [List.map_map] at h
  obtain ⟨f, -, rfl⟩ := List.mem_map.1 h
  rfl

/-- Without a trigger, the mix is the target's after the remaining samples. -/
theorem Ramping.settles {x : Crossfader} (hx : Ramping x) {as : List XfadeAction}
    (has : ∀ a ∈ as, a.isTrigger = false) :
    ∀ m ∈ (x.mixes as).drop x.remaining, m = finalMix x.target := by
  induction as generalizing x with
  | nil => simp [mixes, Crossfader.render]
  | cons a as ih =>
    have hrest := fun b hb => has b (List.mem_cons_of_mem a hb)
    cases a with
    | trigger bypass => exact absurd (has _ List.mem_cons_self) (by simp [XfadeAction.isTrigger])
    | subBlock frames =>
      have ih := ih (hx.act (.subBlock frames)) hrest
      intro m hm
      simp only [mixes, Crossfader.render, List.map_append] at hm
      simp only [Crossfader.act, mixes] at ih hm
      unfold Crossfader.processSubBlock at ih hm
      by_cases ha : x.active = true
      · rw [if_pos ha] at ih hm
        unfold processCrossfadeSubBlock at ih hm
        by_cases h0 : x.remaining - min frames.length x.remaining = 0
        · -- the crossfade ends in this sub-block
          simp only [if_pos h0] at ih hm
          rw [List.map_append, List.append_assoc, List.drop_append_of_le_length (by
            simp [length_blend]; omega), List.drop_eq_nil_of_le (by
            simp [length_blend]), List.nil_append] at hm
          rcases List.mem_append.1 hm with hm | hm
          · exact mix_of_mem_pure hm
          · exact ih m (by simpa only [h0, List.drop_zero] using hm)
        · simp only [if_neg h0] at ih hm
          have hn : min frames.length x.remaining = frames.length := by omega
          rw [hn] at ih hm
          rw [List.drop_eq_nil_of_le (Nat.le_refl _), List.map_nil, List.append_nil,
            List.drop_append, List.drop_eq_nil_of_le (by simp [length_blend]; omega),
            List.nil_append] at hm
          refine ih m ?_
          simpa [length_blend] using hm
      · rw [if_neg ha] at ih hm
        obtain ⟨h0, -⟩ := hx.idle (Bool.eq_false_iff.2 ha)
        rw [h0, List.drop_zero] at ih hm
        rcases List.mem_append.1 hm with hm | hm
        · exact mix_of_mem_pure hm
        · exact ih m hm

/-! ## One sample -/

/-- The crossfader after one sample. -/
def tick (x : Crossfader) : Crossfader :=
  if x.active then
    if x.remaining ≤ 1 then
      { x with active := false, mix := finalMix x.target, remaining := 0 }
    else { x with mix := clamp01 (x.mix + x.step), remaining := x.remaining - 1 }
  else x

/-- What a sample puts out. -/
def sample (x : Crossfader) (f : ℚ × ℚ) : Blended :=
  if x.active then ⟨x.mix, f.1, f.2, f.1 + (f.2 - f.1) * x.mix⟩ else pure x.target f

/-- A sub-block of one sample after the other. -/
def ticks (x : Crossfader) : List (ℚ × ℚ) → List Blended × Crossfader
  | [] => ([], x)
  | f :: fs => (x.sample f :: (ticks x.tick fs).1, (ticks x.tick fs).2)

theorem processSubBlock_single {x : Crossfader} (hx : Ramping x) (f : ℚ × ℚ) :
    x.processSubBlock [f] = ([x.sample f], x.tick) := by
  unfold processSubBlock sample tick
  by_cases ha : x.active = true
  · have hpos := hx.positive ha
    have hmin : min 1 x.remaining = 1 := by omega
    simp only [if_pos ha, processCrossfadeSubBlock, List.length_singleton, hmin]
    by_cases h1 : x.remaining ≤ 1
    · have h0 : x.remaining - 1 = 0 := by omega
      simp [h0, h1, blend]
    · have h0 : x.remaining - 1 ≠ 0 := by omega
      simp [h0, h1, blend]
  · simp [if_neg ha]

theorem render_singles {x : Crossfader} (hx : Ramping x) (frames : List (ℚ × ℚ)) :
    x.render (frames.map fun f => .subBlock [f]) = x.ticks frames := by
  induction frames generalizing x with
  | nil => rfl
  | cons f fs ih =>
    have hs := processSubBlock_single hx f
    have ht : Ramping x.tick := by
      have := hx.processSubBlock [f]
      rwa [hs] at this
    simp only [List.map_cons, render, act, hs, ih ht, ticks, List.singleton_append]

/-- The blended portion begins with its first sample; the mix is not clamped after it. -/
theorem processCrossfadeSubBlock_cons {x : Crossfader} (hrem : 1 < x.remaining) (f : ℚ × ℚ)
    (fs : List (ℚ × ℚ)) :
    x.processCrossfadeSubBlock (f :: fs) =
      let r := processCrossfadeSubBlock
        { x with mix := x.mix + x.step, remaining := x.remaining - 1 } fs
      (⟨x.mix, f.1, f.2, f.1 + (f.2 - f.1) * x.mix⟩ :: r.1, r.2) := by
  have hmin : min (fs.length + 1) x.remaining = min fs.length (x.remaining - 1) + 1 := by omega
  have hsub : x.remaining - (min fs.length (x.remaining - 1) + 1) =
      x.remaining - 1 - min fs.length (x.remaining - 1) := by omega
  simp only [processCrossfadeSubBlock, List.length_cons, hmin, List.take_succ_cons,
    List.drop_succ_cons, blend, hsub]
  split <;> rfl

/-- The mix after one step, where the ramp takes more of them within `[0, 1]`. -/
theorem one_step_mem {mix step : ℚ} {k : Nat} (hk : 0 < k) (hlo : 0 ≤ mix) (hhi : mix ≤ 1)
    (hend : 0 ≤ mix + k * step ∧ mix + k * step ≤ 1) : 0 ≤ mix + step ∧ mix + step ≤ 1 := by
  have hk1 : (1 : ℚ) ≤ k := by exact_mod_cast hk
  rcases le_total 0 step with h | h
  · have := le_mul_of_one_le_left h hk1
    constructor <;> linarith
  · have := mul_le_of_one_le_left h hk1
    constructor <;> linarith

/-- A sub-block that ramps within `[0, 1]` is its samples, one by one. -/
theorem processSubBlock_eq {x : Crossfader} (hx : Ramping x) {frames : List (ℚ × ℚ)}
    (hr : x.RampsInRange (.subBlock frames)) : x.processSubBlock frames = x.ticks frames := by
  induction frames generalizing x with
  | nil =>
    unfold processSubBlock
    split
    · rename_i ha
      have h0 : x.remaining ≠ 0 := Nat.ne_of_gt (hx.positive ha)
      simp [processCrossfadeSubBlock, blend, ticks, h0, clamp01_of_mem hx.lo hx.hi]
    · rfl
  | cons f fs ih =>
    have ht : Ramping x.tick := by
      have := hx.processSubBlock [f]
      rwa [processSubBlock_single hx f] at this
    by_cases ha : x.active = true
    · have hpos := hx.positive ha
      by_cases h1 : x.remaining ≤ 1
      · -- the last sample of the crossfade; the rest is pure
        have hidle : x.tick.active = false := by simp [tick, ha, h1]
        rw [ticks, ← ih ht fun h => absurd h (by simp [hidle])]
        have hmin : min (fs.length + 1) x.remaining = 1 := by omega
        have h0 : x.remaining - 1 = 0 := by omega
        simp [processSubBlock, processCrossfadeSubBlock, sample, tick, ha, h1, h0, hmin, blend]
      · have hrem : 1 < x.remaining := by omega
        rcases fs with - | ⟨g, fs⟩
        · simp [processSubBlock_single hx f, ticks]
        · have hend := hr ha
          have hlast : min (f :: g :: fs).length x.remaining - 1 =
              min (g :: fs).length (x.remaining - 1) - 1 + 1 := by
            simp only [List.length_cons]
            omega
          rw [hlast] at hend
          have hmem := one_step_mem (Nat.succ_pos _) hx.lo hx.hi hend
          have htick : x.tick = { x with mix := x.mix + x.step, remaining := x.remaining - 1 } := by
            simp [tick, ha, h1, clamp01_of_mem hmem.1 hmem.2]
          rw [ticks, ← ih ht ?_, htick]
          · simp only [processSubBlock, ha, if_true]
            rw [processCrossfadeSubBlock_cons hrem]
            simp [sample, ha]
          · intro _
            rw [htick]
            push_cast at hend
            constructor <;> linarith
    · have htick : x.tick = x := by simp [tick, ha]
      rw [ticks, htick, ← ih hx fun h => absurd h ha]
      simp [processSubBlock, sample, ha]

theorem Ramping.sample_mix {x : Crossfader} (hx : Ramping x) (f : ℚ × ℚ) :
    (x.sample f).mix = x.mix := by
  unfold Crossfader.sample
  split
  · rfl
  · rename_i ha
    exact (hx.idle (Bool.eq_false_iff.2 ha)).2.symm

theorem sample_frame (x : Crossfader) (f : ℚ × ℚ) :
    (x.sample f).dry = f.1 ∧ (x.sample f).wet = f.2 := by
  unfold sample
  split <;> exact ⟨rfl, rfl⟩

/-- What a sample puts out is mixed from its frame. -/
theorem sample_out (x : Crossfader) (f : ℚ × ℚ) :
    (x.sample f).out = f.1 + (f.2 - f.1) * (x.sample f).mix := by
  unfold sample
  split
  · rfl
  · unfold Crossfader.pure
    cases x.target with
    | true => simp [finalMix]
    | false => simp [finalMix]

theorem Ramping.tick_near {x : Crossfader} (hx : Ramping x) : |x.tick.mix - x.mix| ≤ 1 / 64 := by
  unfold Crossfader.tick
  have hlo := hx.lo
  have hhi := hx.hi
  split_ifs with ha h1
  · -- the crossfade ends: what remains is at most one step
    have hnear := hx.near ha
    have hrem : (x.remaining : ℚ) ≤ 1 := by exact_mod_cast h1
    rw [xfadeInv_eq] at hnear
    simp only
    linarith
  · have hstep := hx.step ha
    unfold clamp01
    simp only
    rw [abs_le]
    rcases finalMix_cases x.target with ⟨ht, -⟩ | ⟨ht, -⟩ <;>
      simp only [ht, if_true, if_false, Bool.false_eq_true, xfadeInv_eq] at hstep <;> rw [hstep]
    · rw [min_eq_left (by linarith)]
      rcases max_cases 0 (x.mix + -(1 / 64)) with ⟨h, hle⟩ | ⟨h, hlt⟩ <;> rw [h] <;>
        constructor <;> linarith
    · rw [max_eq_right (le_min (by linarith) (by norm_num))]
      rcases min_cases (x.mix + 1 / 64) 1 with ⟨h, hle⟩ | ⟨h, hlt⟩ <;> rw [h] <;>
        constructor <;> linarith
  · simp

/-! ## Samples one by one -/

/-- A trigger, or a sub-block of one sample. -/
def IsSingle : XfadeAction → Prop
  | .trigger _ => True
  | .subBlock frames => frames.length = 1

theorem isSingle_singles (as : List XfadeAction) : ∀ a ∈ singles as, IsSingle a := by
  intro a ha
  obtain ⟨b, -, hb⟩ := List.mem_flatMap.1 ha
  cases b with
  | trigger bypass =>
    obtain rfl := List.mem_singleton.1 hb
    trivial
  | subBlock frames =>
    obtain ⟨f, -, rfl⟩ := List.mem_map.1 hb
    rfl

/-- One by one, the samples are those of `sample`, each after the tick before it. -/
theorem render_single {P : Crossfader → List Blended → Prop} (hnil : ∀ x, P x [])
    (htrigger : ∀ x bypass out, P (x.trigger bypass) out → P x out)
    (hsample : ∀ x f out, Ramping x → P x.tick out → P x (x.sample f :: out))
    {x : Crossfader} (hx : Ramping x) {as : List XfadeAction} (has : ∀ a ∈ as, IsSingle a) :
    P x (x.render as).1 := by
  induction as generalizing x with
  | nil => exact hnil x
  | cons a as ih =>
    have ih := ih (hx.act a) fun b hb => has b (List.mem_cons_of_mem a hb)
    cases a with
    | trigger bypass => exact htrigger x bypass _ ih
    | subBlock frames =>
      obtain ⟨f, rfl⟩ := List.length_eq_one_iff.1 (has _ List.mem_cons_self)
      simp only [act, processSubBlock_single hx] at ih
      simp only [render, act, processSubBlock_single hx, List.singleton_append]
      exact hsample x f _ hx ih

theorem trigger_mix (x : Crossfader) (bypass : Bool) : (x.trigger bypass).mix = x.mix := by
  unfold trigger
  split <;> rfl

/-- One by one, all samples have a mix in `[0, 1]` and lie between dry and wet. -/
theorem single_range {x : Crossfader} (hx : Ramping x) {as : List XfadeAction}
    (has : ∀ a ∈ as, IsSingle a) :
    ∀ s ∈ (x.render as).1, (0 ≤ s.mix ∧ s.mix ≤ 1) ∧ min s.dry s.wet ≤ s.out ∧
      s.out ≤ max s.dry s.wet := by
  refine render_single (P := fun _ out => ∀ s ∈ out, (0 ≤ s.mix ∧ s.mix ≤ 1) ∧
    min s.dry s.wet ≤ s.out ∧ s.out ≤ max s.dry s.wet) (by simp) (fun _ _ _ h => h) ?_ hx has
  rintro x f out hx ih s hs
  rcases List.mem_cons.1 hs with rfl | hs
  · have hlo := hx.lo
    have hhi := hx.hi
    obtain ⟨hd, hw⟩ := sample_frame x f
    rw [sample_out, hd, hw, hx.sample_mix]
    refine ⟨⟨hlo, hhi⟩, ?_⟩
    rcases le_total f.1 f.2 with h | h
    · rw [min_eq_left h, max_eq_right h]
      constructor <;> nlinarith
    · rw [min_eq_right h, max_eq_left h]
      constructor <;> nlinarith
  · exact ih s hs

/-- One by one, the mixes start at the crossfader's and move by at most one step. -/
theorem single_gradual {x : Crossfader} (hx : Ramping x) {as : List XfadeAction}
    (has : ∀ a ∈ as, IsSingle a) :
    (x.mixes as).IsChain (fun m m' => |m' - m| ≤ 1 / 64) ∧ ∀ m ∈ (x.mixes as).head?, m = x.mix := by
  refine render_single (P := fun x out =>
    (out.map (·.mix)).IsChain (fun m m' => |m' - m| ≤ 1 / 64) ∧
      ∀ m ∈ (out.map (·.mix)).head?, m = x.mix) (by simp) ?_ ?_ hx has
  · intro x bypass out h
    rwa [trigger_mix] at h
  · rintro x f out hx ⟨hchain, hhead⟩
    rw [List.map_cons, hx.sample_mix]
    refine ⟨List.isChain_cons.2 ⟨fun m hm => ?_, hchain⟩, by simp⟩
    rw [hhead m hm]
    exact hx.tick_near

/-! ## Sub-blocks within range, and out of it -/

theorem render_singles_act {x : Crossfader} (hx : Ramping x) {a : XfadeAction}
    (hr : x.RampsInRange a) : x.render a.singles = x.act a := by
  cases a with
  | trigger bypass => rfl
  | subBlock frames =>
    rw [XfadeAction.singles, render_singles hx, act, processSubBlock_eq hx hr]

/-- A schedule whose sub-blocks all ramp within range is its samples, one by one. -/
theorem render_eq_singles {x : Crossfader} (hx : Ramping x) {as : List XfadeAction}
    (hG : Machine.Guarded next RampsInRange x as) : x.render as = x.render (singles as) := by
  induction as generalizing x with
  | nil => rfl
  | cons a as ih =>
    rw [singles, List.flatMap_cons, render_append, render_singles_act hx hG.1, render,
      ih (hx.act a) (hG.2 _ rfl)]
    rfl

theorem last_mem_blend (step mix : ℚ) {frames : List (ℚ × ℚ)} (hne : frames ≠ []) :
    mix + (frames.length - 1 : ℕ) * step ∈ (blend step mix frames).1.map (·.mix) := by
  induction frames generalizing mix with
  | nil => exact absurd rfl hne
  | cons f fs ih =>
    cases fs with
    | nil => simp [blend]
    | cons g fs =>
      have h := ih (mix + step) (by simp)
      simp only [List.length_cons, Nat.add_sub_cancel] at h ⊢
      rw [blend, List.map_cons]
      refine List.mem_cons_of_mem _ ?_
      push_cast at h ⊢
      rwa [show mix + (fs.length + 1) * step = mix + step + fs.length * step by ring]

/-- A sub-block whose mixes all lie in `[0, 1]` ramps within it. -/
theorem inRange_of_act {x : Crossfader} (hx : Ramping x) {a : XfadeAction}
    (h : ∀ m ∈ (x.act a).1.map (·.mix), 0 ≤ m ∧ m ≤ 1) : x.RampsInRange a := by
  cases a with
  | trigger bypass => trivial
  | subBlock frames =>
    intro ha
    have hpos := hx.positive ha
    rcases Nat.eq_zero_or_pos frames.length with h0 | hlen
    · rw [h0, Nat.zero_min]
      simpa using ⟨hx.lo, hx.hi⟩
    · have hne : frames.take (min frames.length x.remaining) ≠ [] := by
        intro hc
        have := congrArg List.length hc
        simp only [List.length_take, List.length_nil] at this
        omega
      have hlast := last_mem_blend x.step x.mix hne
      rw [List.length_take, Nat.min_eq_left (Nat.min_le_left ..)] at hlast
      refine h _ ?_
      simp only [act, processSubBlock, if_pos ha, processCrossfadeSubBlock]
      split <;> simp only [List.map_append] <;> exact List.mem_append_left _ hlast

/-! ## What is kept -/

theorem kept_of_guarded {bypass : Bool} {as : List XfadeAction}
    (hG : Machine.Guarded next RampsInRange (.new bypass) as) : CrossfadeKept bypass as := by
  have hx := ramping_new bypass
  have heq := render_eq_singles hx hG
  have hsingle := isSingle_singles as
  constructor
  · intro s hs
    rw [heq] at hs
    exact (single_range hx hsingle s hs).1
  · rw [mixes, heq]
    exact (single_gradual hx hsingle).1
  · intro s hs
    rw [heq] at hs
    exact (single_range hx hsingle s hs).2
  · intro before target after _ hafter m hm
    have hy := hx.render (before ++ [.trigger target])
    have htarget : ((new bypass).render (before ++ [.trigger target])).2.target = target := by
      simp only [render_append, render, act, Crossfader.trigger]
      split <;> simp_all
    rw [← htarget]
    exact hy.settles hafter m (List.drop_subset_drop_left _ hy.bounded hm)
  · rw [mixes, mixes, heq]

/-! ## Crossfades from the other end -/

/-- A crossfade that began within one step of the other end: all its samples but the last are steps
towards its target. -/
structure FullRamp (x : Crossfader) : Prop where
  ramping : Ramping x
  far : x.active = true → (x.remaining - 1 : ℕ) * xfadeInv ≤ |finalMix x.target - x.mix|

theorem fullRamp_new (bypass : Bool) : FullRamp (.new bypass) :=
  ⟨ramping_new bypass, fun h => absurd h (by simp [new])⟩

theorem FullRamp.trigger {x : Crossfader} (hx : FullRamp x) {bypass : Bool}
    (h : x.FromEnd (.trigger bypass)) : FullRamp (x.trigger bypass) := by
  refine ⟨hx.ramping.trigger bypass, ?_⟩
  unfold Crossfader.trigger
  split
  · exact hx.far
  · rename_i hne
    have hfar := h hne
    simp only [xfadeSamples, xfadeInv_eq]
    norm_num at hfar ⊢
    exact hfar

/-- The mix after `k` steps of the remaining samples but the last. -/
theorem FullRamp.after {x : Crossfader} (hx : FullRamp x) (ha : x.active = true) {k : Nat}
    (hk : k < x.remaining) :
    (0 ≤ x.mix + k * x.step ∧ x.mix + k * x.step ≤ 1) ∧
      (x.remaining - k - 1 : ℕ) * xfadeInv ≤ |finalMix x.target - (x.mix + k * x.step)| := by
  have hfar := hx.far ha
  have hlo := hx.ramping.lo
  have hhi := hx.ramping.hi
  have hk0 : (0 : ℚ) ≤ k := by positivity
  have hkr : (k : ℚ) + 1 ≤ x.remaining := by exact_mod_cast hk
  have hsub : ((x.remaining - k - 1 : ℕ) : ℚ) = x.remaining - k - 1 := by
    rw [Nat.sub_sub, Nat.cast_sub (by omega)]
    push_cast
    ring
  have hsub' : ((x.remaining - 1 : ℕ) : ℚ) = x.remaining - 1 := by
    rw [Nat.cast_sub (by omega)]
    simp
  rw [hx.ramping.step ha, hsub]
  rw [hsub', xfadeInv_eq] at hfar
  rw [xfadeInv_eq]
  rcases finalMix_cases x.target with ⟨ht, hm⟩ | ⟨ht, hm⟩ <;> rw [hm] at hfar ⊢ <;>
    simp only [ht, if_true, if_false, Bool.false_eq_true]
  · rw [abs_of_nonpos (by linarith)] at hfar
    rw [abs_of_nonpos (by linarith)]
    exact ⟨⟨by linarith, by linarith⟩, by linarith⟩
  · rw [abs_of_nonneg (by linarith)] at hfar
    rw [abs_of_nonneg (by linarith)]
    exact ⟨⟨by linarith, by linarith⟩, by linarith⟩

theorem FullRamp.inRange {x : Crossfader} (hx : FullRamp x) (a : XfadeAction) :
    x.RampsInRange a := by
  cases a with
  | trigger bypass => trivial
  | subBlock frames =>
    intro ha
    have hpos := hx.ramping.positive ha
    exact (hx.after ha (by omega)).1

theorem FullRamp.processSubBlock {x : Crossfader} (hx : FullRamp x) (frames : List (ℚ × ℚ)) :
    FullRamp (x.processSubBlock frames).2 := by
  refine ⟨hx.ramping.processSubBlock frames, ?_⟩
  unfold Crossfader.processSubBlock
  by_cases ha : x.active = true
  · have hk : min (min frames.length x.remaining) frames.length =
        min frames.length x.remaining := by omega
    rw [if_pos ha]
    unfold processCrossfadeSubBlock
    simp only [blend_snd, List.length_take, hk]
    split
    · simp
    · rename_i hrem
      obtain ⟨hmem, hfar⟩ := hx.after ha (show min frames.length x.remaining < x.remaining by omega)
      rw [clamp01_of_mem hmem.1 hmem.2]
      exact fun _ => hfar
  · rw [if_neg ha]
    exact fun h => absurd h ha

theorem guarded_inRange {x : Crossfader} (hx : FullRamp x) {as : List XfadeAction}
    (hG : Machine.Guarded next FromEnd x as) : Machine.Guarded next RampsInRange x as := by
  induction as generalizing x with
  | nil => trivial
  | cons a as ih =>
    refine Machine.guarded_cons_of rfl (hx.inRange a) (ih ?_ (hG.2 _ rfl))
    cases a with
    | trigger bypass => exact hx.trigger hG.1
    | subBlock frames => exact hx.processSubBlock frames

/-! ## Crossfades from half way -/

/-- A crossfade that begins nearer to its target ramps beyond it within 64 samples. -/
theorem not_inRange_of_turned {x : Crossfader} (hx : Ramping x) {bypass : Bool}
    (h : ¬ x.FromEnd (.trigger bypass)) {frames : List (ℚ × ℚ)} (hlen : frames.length = 64) :
    ¬ (x.trigger bypass).RampsInRange (.subBlock frames) := by
  obtain ⟨hne, hnear⟩ : x.target ≠ bypass ∧ |finalMix bypass - x.mix| < 63 / 64 := by
    simpa [FromEnd] using h
  intro hr
  have hlo := hx.lo
  have hhi := hx.hi
  simp only [RampsInRange, Crossfader.trigger, if_neg hne, hlen, xfadeSamples, xfadeInv_eq] at hr
  obtain ⟨h0, h1⟩ := hr trivial
  rw [abs_lt] at hnear
  rcases finalMix_cases bypass with ⟨rfl, hm⟩ | ⟨rfl, hm⟩ <;> rw [hm] at hnear
  · norm_num at h0
    linarith [hnear.1]
  · norm_num at h1
    linarith [hnear.2]

theorem not_kept_of_turned {bypass bypass' : Bool} {before : List XfadeAction}
    (h : ¬ ((new bypass).render before).2.FromEnd (.trigger bypass')) {frames : List (ℚ × ℚ)}
    (hlen : frames.length = 64) :
    ¬ CrossfadeKept bypass (before ++ [.trigger bypass', .subBlock frames]) := by
  intro hkept
  have hx := (ramping_new bypass).render before
  refine not_inRange_of_turned hx h hlen (inRange_of_act (hx.trigger bypass') fun m hm => ?_)
  obtain ⟨s, hs, rfl⟩ := List.mem_map.1 hm
  refine hkept.range s ?_
  rw [render_append]
  refine List.mem_append_right _ ?_
  simpa [render, act] using hs

/-! ## Main result -/

/-- A schedule keeps what a crossfade promises where every trigger that changes the direction comes
within one step of the end it leaves. After any other trigger, in any schedule, the next sub-block of
64 samples breaks it. -/
theorem crossfade_kept (bypass : Bool) :
    (∀ as, Machine.Guarded next FromEnd (new bypass) as → CrossfadeKept bypass as) ∧
      ∀ before bypass', ¬ ((new bypass).render before).2.FromEnd (.trigger bypass') →
        ∀ frames, frames.length = 64 →
          ¬ CrossfadeKept bypass (before ++ [.trigger bypass', .subBlock frames]) :=
  ⟨fun _ hG => kept_of_guarded (guarded_inRange (fullRamp_new bypass) hG),
    fun _ _ h _ hlen => not_kept_of_turned h hlen⟩

/-- A crossfade to dry in two sub-blocks, and one back. -/
theorem crossfade_kept_back :
    CrossfadeKept false [.trigger true, .subBlock (List.replicate 40 (0, 1)),
      .subBlock (List.replicate 24 (0, 1)), .trigger false, .subBlock (List.replicate 70 (0, 1))] :=
  (crossfade_kept false).1 _ (by
    refine Machine.guarded_cons_of rfl (by decide +kernel) ?_
    refine Machine.guarded_cons_of rfl trivial ?_
    refine Machine.guarded_cons_of rfl trivial ?_
    refine Machine.guarded_cons_of rfl (by decide +kernel) ?_
    exact Machine.guarded_cons_of rfl trivial trivial)

/-- A bypass toggled back half way: the ramp back to wet starts at 1/2 and is not clamped within the
sub-block of its 64 samples, so that its last mix is 95/64. -/
theorem crossfade_overshoots :
    ¬ CrossfadeKept false [.trigger true, .subBlock (List.replicate 32 (0, 1)), .trigger false,
      .subBlock (List.replicate 64 (0, 1))] := fun h => by
  have hrange := h.range ⟨95 / 64, 0, 1, 95 / 64⟩ (by decide +kernel)
  norm_num at hrange

end NamPlug.Crossfader
