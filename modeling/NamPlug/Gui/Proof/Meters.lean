import NamPlug.Gui.Heard
import Mathlib.Data.List.Induction

/-!
# No peak is lost

`no_peak_lost`: however the two threads interleave, every peak is heard by exactly one tick or waits
in its cell, and what a meter shows is what its ticks heard (`Follows`, kept by every access). The
hold never falls below the level (`Sound`), since a decayed level stays in order.

`meters_rest`: a channel that hears only silence comes to rest within `restingTicks`, the hold time and
the ticks that the largest finite level takes to decay (`Fading`), unless it ever heard an infinite peak.
-/

namespace NamPlug.Gui

open Binary32 Machine

/-! ## The decay -/

/-- One decayed tick of a level. -/
def decayed (x : F32) : F32 := mul x BALLISTICS_DECAY_RATE

theorem rate_finite : BALLISTICS_DECAY_RATE.toNat < infBits := by decide

theorem rate_pos : 0 < unitsOf BALLISTICS_DECAY_RATE.toNat := by decide +kernel

theorem rate_le_one : unitsOf BALLISTICS_DECAY_RATE.toNat ≤ 2 ^ 1074 := by decide +kernel

theorem isLevel_decayed {x : F32} (hx : IsLevel x) : IsLevel (decayed x) :=
  isLevel_mul rate_finite rate_pos hx

theorem decayed_mono {x y : F32} (hx : IsLevel x) (hy : IsLevel y) (h : x.toNat ≤ y.toNat) :
    (decayed x).toNat ≤ (decayed y).toNat :=
  toNat_mul_mono rate_finite rate_pos hx hy h

theorem decayed_le {x : F32} (hx : IsLevel x) : (decayed x).toNat ≤ x.toNat :=
  toNat_mul_le rate_finite rate_pos rate_le_one hx

/-! ## The loudest peak -/

theorem isLevel_safePeak (peak : F32) : IsLevel (safePeak peak) := by
  unfold safePeak
  split
  · exact isLevel_zero
  · rename_i h
    simp only [Bool.or_eq_true, not_or, Bool.not_eq_true] at h
    exact isLevel_of_pos h.1 h.2

/-- A level that is not below what is stored of a peak is not below the peak. -/
theorem not_lt_of_safePeak {x peak : F32} (hx : IsLevel x) (h : (safePeak peak).toNat ≤ x.toNat) :
    lt x peak = false := by
  by_contra hlt
  rw [Bool.not_eq_false] at hlt
  obtain ⟨h0, hn⟩ := pos_of_lt hx hlt
  have hsafe : safePeak peak = peak := by
    unfold safePeak
    rw [h0, hn]
    rfl
  rw [hsafe] at h
  have := (lt_iff hx (isLevel_of_pos h0 hn)).1 hlt
  omega

theorem loudest_concat (peaks : List F32) (peak : F32) :
    loudest (peaks ++ [peak]) = fetchMax (loudest peaks) (safePeak peak) := by
  simp only [loudest, List.foldl_append, List.foldl_cons, List.foldl_nil]

theorem isLevel_loudest (peaks : List F32) : IsLevel (loudest peaks) := by
  induction peaks using List.reverseRecOn with
  | nil => exact isLevel_zero
  | append_singleton peaks peak ih =>
    rw [loudest_concat]
    exact isLevel_fetchMax ih (isLevel_safePeak peak)

theorem loudest_append (xs ys : List F32) :
    (loudest (xs ++ ys)).toNat = max (loudest xs).toNat (loudest ys).toNat := by
  induction ys using List.reverseRecOn with
  | nil => rw [List.append_nil, show loudest [] = 0 from rfl]; exact (Nat.max_zero _).symm
  | append_singleton ys peak ih =>
    rw [← List.append_assoc, loudest_concat, loudest_concat, toNat_fetchMax, toNat_fetchMax, ih,
      Nat.max_assoc]

theorem safePeak_le_loudest {peaks : List F32} {peak : F32} (h : peak ∈ peaks) :
    (safePeak peak).toNat ≤ (loudest peaks).toNat := by
  induction peaks using List.reverseRecOn with
  | nil => cases h
  | append_singleton peaks last ih =>
    rw [loudest_concat, toNat_fetchMax]
    rcases List.mem_append.1 h with h | h
    · exact (ih h).trans (le_max_left ..)
    · rw [List.mem_singleton.1 h]
      exact le_max_right ..

theorem loudest_mem {peaks : List F32} (h : (loudest peaks).toNat ≠ 0) :
    ∃ peak ∈ peaks, loudest peaks = safePeak peak := by
  induction peaks using List.reverseRecOn with
  | nil => exact absurd rfl h
  | append_singleton peaks last ih =>
    rw [loudest_concat] at h ⊢
    unfold fetchMax at h ⊢
    split at h <;> rename_i hlt
    · rw [if_pos hlt]
      exact ⟨last, List.mem_append_right _ (List.mem_singleton_self _), rfl⟩
    · rw [if_neg hlt]
      obtain ⟨peak, hmem, heq⟩ := ih h
      exact ⟨peak, List.mem_append_left _ hmem, heq⟩

/-! ## One tick -/

/-- Both peaks of a meter are levels, and the held one is not the lower. -/
structure Ballistics.Steady (b : Ballistics) : Prop where
  current : IsLevel b.currentPeak
  hold : IsLevel b.holdPeak
  ordered : b.currentPeak.toNat ≤ b.holdPeak.toNat
  timer : b.holdTimer ≤ PEAK_HOLD_FRAMES

theorem Ballistics.Steady.zero : Ballistics.zero.Steady :=
  ⟨isLevel_zero, isLevel_zero, Nat.le_refl _, Nat.zero_le _⟩

section
variable {b : Ballistics} {raw : F32} (hb : b.Steady) (hr : IsLevel raw)
include hb hr

theorem tick_current :
    (b.tick raw).currentPeak.toNat = max (decayed b.currentPeak).toNat raw.toNat := by
  have hcur : (b.tick raw).currentPeak =
      if lt b.currentPeak raw then raw else fmax (decayed b.currentPeak) raw := by
    unfold Ballistics.tick decayed
    dsimp only
    split
    · rfl
    · split <;> rfl
  have hle := decayed_le hb.current
  rw [hcur]
  split
  · rename_i hlt
    have := (lt_iff hb.current hr).1 hlt
    omega
  · rw [fmax_of_isLevel (isLevel_decayed hb.current) hr, toNat_fetchMax]

/-- A tick that reaches the held peak holds its own; another lets the timer run down, and then the
peak decays. -/
theorem tick_hold :
    (b.holdPeak.toNat ≤ raw.toNat ∧ (b.tick raw).holdPeak = raw ∧
        (b.tick raw).holdTimer = PEAK_HOLD_FRAMES) ∨
      (raw.toNat < b.holdPeak.toNat ∧ 0 < b.holdTimer ∧ (b.tick raw).holdPeak = b.holdPeak ∧
        (b.tick raw).holdTimer = b.holdTimer - 1) ∨
      (raw.toNat < b.holdPeak.toNat ∧ b.holdTimer = 0 ∧
        (b.tick raw).holdPeak = fetchMax (decayed b.holdPeak) raw ∧ (b.tick raw).holdTimer = 0) := by
  have hiff := le_iff hb.hold hr
  unfold Ballistics.tick
  dsimp only
  split
  · rename_i hle
    exact .inl ⟨hiff.1 hle, rfl, rfl⟩
  · rename_i hle
    have hlt : raw.toNat < b.holdPeak.toNat := Nat.not_le.1 fun h => hle (hiff.2 h)
    split
    · rename_i ht
      exact .inr (.inl ⟨hlt, ht, rfl, rfl⟩)
    · rename_i ht
      have h0 : b.holdTimer = 0 := by omega
      refine .inr (.inr ⟨hlt, h0, ?_, h0⟩)
      exact fmax_of_isLevel (isLevel_decayed hb.hold) hr

theorem Ballistics.Steady.tick : (b.tick raw).Steady := by
  have hcur := tick_current hb hr
  have hdecay := decayed_mono hb.current hb.hold hb.ordered
  have hcl := decayed_le hb.current
  have hlevel : IsLevel (b.tick raw).currentPeak := by
    have h1 := isLevel_decayed hb.current
    unfold IsLevel at *
    omega
  rcases tick_hold hb hr with ⟨hle, hh, ht⟩ | ⟨hlt, h0, hh, ht⟩ | ⟨hlt, h0, hh, ht⟩
  · refine ⟨hlevel, by rw [hh]; exact hr, ?_, Nat.le_of_eq ht⟩
    have := hb.ordered
    rw [hh]
    omega
  · refine ⟨hlevel, by rw [hh]; exact hb.hold, ?_, ?_⟩
    · have := hb.ordered
      rw [hh]
      omega
    · have := hb.timer
      omega
  · refine ⟨hlevel, ?_, ?_, by omega⟩
    · rw [hh]
      exact isLevel_fetchMax (isLevel_decayed hb.hold) hr
    · rw [hh, toNat_fetchMax]
      omega

end

/-! ## The meter of some ticks -/

theorem shownAfter_concat (ticks : List (List F32)) (peaks : List F32) :
    shownAfter (ticks ++ [peaks]) = (shownAfter ticks).tick (loudest peaks) := by
  simp only [shownAfter, List.foldl_append, List.foldl_cons, List.foldl_nil]

theorem shownAfter_steady (ticks : List (List F32)) : (shownAfter ticks).Steady := by
  induction ticks using List.reverseRecOn with
  | nil => exact .zero
  | append_singleton ticks peaks ih =>
    rw [shownAfter_concat]
    exact ih.tick (isLevel_loudest peaks)

/-- A peak that reached the hold stays held for the hold time. -/
theorem shownAfter_held {before : List (List F32)} {peaks : List F32}
    (h : (shownAfter before).holdPeak.toNat ≤ (loudest peaks).toNat) (after : List (List F32))
    (hlen : after.length ≤ PEAK_HOLD_FRAMES) :
    (loudest peaks).toNat ≤ (shownAfter (before ++ peaks :: after)).holdPeak.toNat ∧
      PEAK_HOLD_FRAMES ≤ (shownAfter (before ++ peaks :: after)).holdTimer + after.length := by
  induction after using List.reverseRecOn with
  | nil =>
    rw [shownAfter_concat]
    rcases tick_hold (shownAfter_steady before) (isLevel_loudest peaks) with
      ⟨-, hh, ht⟩ | ⟨hlt, -⟩ | ⟨hlt, -⟩
    · rw [hh, ht]
      exact ⟨Nat.le_refl _, Nat.le_refl _⟩
    · omega
    · omega
  | append_singleton after last ih =>
    rw [List.length_append, List.length_singleton] at hlen ⊢
    obtain ⟨hle, htimer⟩ := ih (by omega)
    rw [← List.cons_append, ← List.append_assoc, shownAfter_concat]
    rcases tick_hold (shownAfter_steady (before ++ peaks :: after)) (isLevel_loudest last) with
      ⟨hreach, hh, ht⟩ | ⟨-, h0, hh, ht⟩ | ⟨-, h0, -⟩
    · rw [hh, ht]
      omega
    · rw [hh, ht]
      omega
    · -- the timer has not run down yet
      omega

/-- A meter holds nothing it has not heard. -/
theorem shownAfter_heard (ticks : List (List F32)) :
    (shownAfter ticks).holdPeak.toNat ≤ (loudest ticks.flatten).toNat := by
  induction ticks using List.reverseRecOn with
  | nil => exact Nat.le_refl _
  | append_singleton ticks peaks ih =>
    have hb := shownAfter_steady ticks
    have hr := isLevel_loudest peaks
    have hdecay := decayed_le hb.hold
    rw [shownAfter_concat, List.flatten_append, List.flatten_singleton, loudest_append]
    rcases tick_hold hb hr with ⟨-, hh, -⟩ | ⟨-, -, hh, -⟩ | ⟨-, -, hh, -⟩
    · rw [hh]
      omega
    · rw [hh]
      omega
    · rw [hh, toNat_fetchMax]
      omega

/-! ## The meters follow what is heard -/

/-- What the tick in progress collected of the two channels. -/
def GuiAt.raws : GuiAt → Option (F32 × F32)
  | .collected rawL rawR | .unlit rawL rawR | .shown rawL rawR => some (rawL, rawR)
  | _ => none

/-- The level a tick collected is that of the last peaks heard. -/
def Heard.EndsWith (h : Heard) (raw : F32) : Prop :=
  ∃ ticks peaks, h.ticks = ticks ++ [peaks] ∧ raw = loudest peaks

/-- The cells hold the loudest peak since the last tick and the meters show the ticks, but for a left
channel that is collected and not yet shown. -/
structure Follows (x : Meters) (h : Heard × Heard) : Prop where
  cellL : x.uiPeakL = loudest h.1.since
  cellR : x.uiPeakR = loudest h.2.since
  left : (∀ raw, x.gui ≠ .collectedLeft raw) → x.left = shownAfter h.1.ticks
  collecting : ∀ raw, x.gui = .collectedLeft raw → ∃ ticks peaks,
    h.1.ticks = ticks ++ [peaks] ∧ raw = loudest peaks ∧ x.left = shownAfter ticks
  right : x.right = shownAfter h.2.ticks
  raws : ∀ rawL rawR, x.gui.raws = some (rawL, rawR) → h.1.EndsWith rawL ∧ h.2.EndsWith rawR

/-- Both channels hear. -/
def hearBoth (h : Heard × Heard) (s : Sound) : Heard × Heard := (h.1.hear .left s, h.2.hear .right s)

theorem sounds_storeLeft (x : Meters) (peakL peakR : F32) :
    sounds x (.storeLeft peakL peakR) = [.stored .left peakL] := rfl

theorem sounds_storeRight {x : Meters} {peakL peakR : F32} (h : x.audio = .storedLeft peakL peakR) :
    sounds x .storeRight = [.stored .right peakR] := by
  show x.audio.due = _
  rw [h]
  rfl

theorem sounds_swapLeft (x : Meters) : sounds x .swapLeft = [.collected .left] := rfl

theorem sounds_swapRight (x : Meters) : sounds x .swapRight = [.collected .right] := rfl

theorem hearBoth_stored_left (h : Heard × Heard) (peak : F32) :
    hearBoth h (.stored .left peak) = ({ h.1 with since := h.1.since ++ [peak] }, h.2) := rfl

theorem hearBoth_stored_right (h : Heard × Heard) (peak : F32) :
    hearBoth h (.stored .right peak) = (h.1, { h.2 with since := h.2.since ++ [peak] }) := rfl

theorem hearBoth_collected_left (h : Heard × Heard) :
    hearBoth h (.collected .left) = (⟨h.1.ticks ++ [h.1.since], []⟩, h.2) := rfl

theorem hearBoth_collected_right (h : Heard × Heard) :
    hearBoth h (.collected .right) = (h.1, ⟨h.2.ticks ++ [h.2.since], []⟩) := rfl

theorem foldl_hearBoth (ss : List Sound) (h : Heard × Heard) :
    ss.foldl hearBoth h = (ss.foldl (Heard.hear .left) h.1, ss.foldl (Heard.hear .right) h.2) := by
  induction ss generalizing h with
  | nil => rfl
  | cons s ss ih => exact ih _

theorem Follows.new : Follows .new (⟨[], []⟩, ⟨[], []⟩) where
  cellL := rfl
  cellR := rfl
  left _ := rfl
  collecting _ h := by cases h
  right := rfl
  raws _ _ h := by cases h

/-- A step that leaves cells and meters alone, and leads to no new collection. -/
theorem Follows.of_frame {x y : Meters} {h : Heard × Heard} (hx : Follows x h)
    (hcells : y.uiPeakL = x.uiPeakL ∧ y.uiPeakR = x.uiPeakR)
    (hmeters : y.left = x.left ∧ y.right = x.right)
    (hgui : y.gui = x.gui ∨ (∀ raw, x.gui ≠ .collectedLeft raw) ∧ (∀ raw, y.gui ≠ .collectedLeft raw) ∧
      (y.gui.raws = none ∨ y.gui.raws = x.gui.raws)) : Follows y h := by
  refine ⟨hcells.1.trans hx.cellL, hcells.2.trans hx.cellR, ?_, ?_, hmeters.2.trans hx.right, ?_⟩
  · intro hne
    rcases hgui with heq | ⟨hx', -, -⟩
    · exact hmeters.1.trans (hx.left fun raw => heq ▸ hne raw)
    · exact hmeters.1.trans (hx.left hx')
  · intro raw hraw
    rcases hgui with heq | ⟨-, hy, -⟩
    · rw [hmeters.1]
      exact hx.collecting raw (heq ▸ hraw)
    · exact absurd hraw (hy raw)
  · intro rawL rawR hraws
    rcases hgui with heq | ⟨-, -, hnone | heq⟩
    · exact hx.raws rawL rawR (heq ▸ hraws)
    · rw [hnone] at hraws
      cases hraws
    · exact hx.raws rawL rawR (heq ▸ hraws)

theorem Meters.evaluateCadence_frame (x : Meters) (rawL rawR : F32) (lastInteraction now : Nat) :
    ∃ cadence timer, x.evaluateCadence rawL rawR lastInteraction now =
      { x with cadence := cadence, timer := timer, gui := .idle } := by
  unfold Meters.evaluateCadence
  dsimp only
  split
  · exact ⟨_, _, rfl⟩
  · exact ⟨x.cadence, x.timer, rfl⟩

theorem follows_step {x y : Meters} {a : Access} {h : Heard × Heard} (hx : Follows x h)
    (hs : x.step a = some y) : Follows y ((sounds x a).foldl hearBoth h) := by
  cases a with
  | storeLeft peakL peakR =>
    cases haudio : x.audio <;> simp only [Meters.step, haudio, reduceCtorEq, Option.some.injEq] at hs
    subst hs
    rw [sounds_storeLeft, List.foldl_cons, List.foldl_nil, hearBoth_stored_left]
    refine ⟨?_, hx.cellR, hx.left, hx.collecting, hx.right, hx.raws⟩
    simp only [loudest_concat, hx.cellL]
  | storeRight =>
    cases haudio : x.audio <;> simp only [Meters.step, haudio, reduceCtorEq, Option.some.injEq] at hs
    subst hs
    rw [sounds_storeRight haudio, List.foldl_cons, List.foldl_nil, hearBoth_stored_right]
    refine ⟨hx.cellL, ?_, hx.left, hx.collecting, hx.right, hx.raws⟩
    simp only [loudest_concat, hx.cellR]
  | clipInput | setClipped | setIndicator =>
    cases haudio : x.audio <;> simp only [Meters.step, haudio, reduceCtorEq, Option.some.injEq] at hs
    subst hs
    exact hx.of_frame ⟨rfl, rfl⟩ ⟨rfl, rfl⟩ (.inl rfl)
  | swapLeft =>
    cases hgui : x.gui <;> simp only [Meters.step, hgui, reduceCtorEq, Option.some.injEq] at hs
    subst hs
    rw [sounds_swapLeft, List.foldl_cons, List.foldl_nil, hearBoth_collected_left]
    refine ⟨rfl, hx.cellR, fun hne => absurd rfl (hne _), fun raw hraw => ?_, hx.right,
      fun _ _ hraws => by cases hraws⟩
    obtain rfl := GuiAt.collectedLeft.inj hraw
    exact ⟨h.1.ticks, h.1.since, rfl, hx.cellL, hx.left fun raw => by rw [hgui]; simp⟩
  | swapRight =>
    cases hgui : x.gui <;> simp only [Meters.step, hgui, reduceCtorEq, Option.some.injEq] at hs
    subst hs
    obtain ⟨ticks, peaks, hticks, hraw, hleft⟩ := hx.collecting _ hgui
    rw [sounds_swapRight, List.foldl_cons, List.foldl_nil, hearBoth_collected_right]
    refine ⟨hx.cellL, rfl, fun _ => ?_, fun _ hraw => (by cases hraw), ?_, ?_⟩
    · simp only [hticks, shownAfter_concat, hleft, hraw]
    · simp only [shownAfter_concat, hx.right, hx.cellR]
    · intro l r hraws
      simp only [GuiAt.raws, Option.some.injEq, Prod.mk.injEq] at hraws
      obtain ⟨rfl, rfl⟩ := hraws
      exact ⟨⟨ticks, peaks, hticks, hraw⟩, h.2.ticks, h.2.since, rfl, hx.cellR⟩
  | loadIndicator =>
    cases hgui : x.gui <;> simp only [Meters.step, hgui, reduceCtorEq] at hs
    split at hs <;> obtain rfl := Option.some.inj hs <;>
      exact hx.of_frame ⟨rfl, rfl⟩ ⟨rfl, rfl⟩ (.inr ⟨by simp [hgui], by simp,
        .inr (by rw [hgui]; rfl)⟩)
  | loadClipped =>
    cases hgui : x.gui <;> simp only [Meters.step, hgui, reduceCtorEq, Option.some.injEq] at hs
    subst hs
    exact hx.of_frame ⟨rfl, rfl⟩ ⟨rfl, rfl⟩ (.inr ⟨by simp [hgui], by simp,
      .inr (by rw [hgui]; rfl)⟩)
  | evaluateCadence lastInteraction now =>
    cases hgui : x.gui <;> simp only [Meters.step, hgui, reduceCtorEq, Option.some.injEq] at hs
    rename_i rawL rawR
    obtain ⟨cadence, timer, heq⟩ := x.evaluateCadence_frame rawL rawR lastInteraction now
    obtain rfl := heq ▸ hs
    exact hx.of_frame ⟨rfl, rfl⟩ ⟨rfl, rfl⟩ (.inr ⟨by simp [hgui], by simp, .inl rfl⟩)
  | clearIndicator | clearClipped =>
    cases hgui : x.gui <;> simp only [Meters.step, hgui, reduceCtorEq, Option.some.injEq] at hs
    subst hs
    exact hx.of_frame ⟨rfl, rfl⟩ ⟨rfl, rfl⟩ (.inr ⟨by simp [hgui], by simp, .inl rfl⟩)
  | setTelemetryActive active =>
    cases hgui : x.gui <;> simp only [Meters.step, hgui, reduceCtorEq, Option.some.injEq] at hs
    subst hs
    exact hx.of_frame ⟨rfl, rfl⟩ ⟨rfl, rfl⟩ (.inl rfl)

theorem follows_run {as : List Access} {x : Meters} (hx : run Meters.step .new as = some x) :
    Follows x (heard .left as, heard .right as) := by
  have h : Follows x ((soundsOf as).foldl hearBoth (⟨[], []⟩, ⟨[], []⟩)) :=
    run_simulates (G := fun _ _ => True) (fun _ _ _ _ hR _ hs => follows_step hR hs) Follows.new
      (Guarded.of_forall (fun _ _ => trivial) _ as) hx
  rw [foldl_hearBoth] at h
  exact h

/-! ## No peak is lost -/

theorem heard_all (c : Channel) (ss : List Sound) (h : Heard) :
    (ss.foldl (Heard.hear c) h).ticks.flatten ++ (ss.foldl (Heard.hear c) h).since =
      h.ticks.flatten ++ h.since ++ ss.filterMap (Sound.peak c) := by
  induction ss generalizing h with
  | nil => simp
  | cons s ss ih =>
    rw [List.foldl_cons, ih]
    cases s with
    | stored d peak =>
      by_cases hd : d = c
      · simp [Heard.hear, Sound.peak, hd]
      · simp [Heard.hear, Sound.peak, hd]
    | collected d =>
      rw [List.filterMap_cons_none (show Sound.peak c (.collected d) = none from rfl)]
      by_cases hd : d = c
      · simp [Heard.hear, hd]
      · simp [Heard.hear, hd]

theorem Follows.cell {x : Meters} {as : List Access} (h : Follows x (heard .left as, heard .right as))
    (c : Channel) : x.cell c = loudest (heard c as).since := by
  cases c with
  | left => exact h.cellL
  | right => exact h.cellR

theorem Follows.meter {x : Meters} {as : List Access} (h : Follows x (heard .left as, heard .right as))
    (hgui : ∀ raw, x.gui ≠ .collectedLeft raw) (c : Channel) :
    x.meter c = shownAfter (heard c as).ticks := by
  cases c with
  | left => exact h.left hgui
  | right => exact h.right

/-- What is stored of a peak that is not silenced is the peak. -/
theorem safePeak_eq {peak : F32} (h : (safePeak peak).toNat ≠ 0) : safePeak peak = peak := by
  unfold safePeak at h ⊢
  split at h
  · exact absurd rfl h
  · rename_i hc
    rw [if_neg hc]

theorem no_peak_lost {as : List Access} {x : Meters} (hx : run Meters.step .new as = some x)
    (hgui : x.gui = .idle) (c : Channel) :
    peaksStored c as = (heard c as).ticks.flatten ++ (heard c as).since ∧
      x.cell c = loudest (heard c as).since ∧
      x.meter c = shownAfter (heard c as).ticks ∧
      (∀ before peaks, (heard c as).ticks = before ++ [peaks] →
        ∀ peak ∈ peaks, lt (x.meter c).currentPeak peak = false) ∧
      le (x.meter c).currentPeak (x.meter c).holdPeak = true ∧
      (∀ before peaks after, (heard c as).ticks = before ++ peaks :: after →
        after.length ≤ PEAK_HOLD_FRAMES →
          le (shownAfter before).holdPeak (loudest peaks) = true →
            ∀ peak ∈ peaks, lt (x.meter c).holdPeak peak = false) ∧
      ((x.meter c).holdPeak = 0 ∨ ∃ peak ∈ peaksStored c as, le (x.meter c).holdPeak peak = true) := by
  have hfollows := follows_run hx
  have hmeter := hfollows.meter (fun raw => by rw [hgui]; simp) c
  have hsteady := shownAfter_steady (heard c as).ticks
  have hall : peaksStored c as = (heard c as).ticks.flatten ++ (heard c as).since :=
    (heard_all c (soundsOf as) ⟨[], []⟩).symm
  rw [hmeter]
  refine ⟨hall, hfollows.cell c, rfl, ?_, (le_iff hsteady.current hsteady.hold).2 hsteady.ordered,
    ?_, ?_⟩
  · -- the level is no lower than what the last tick collected
    intro before peaks hticks peak hpeak
    rw [hticks] at hsteady ⊢
    refine not_lt_of_safePeak hsteady.current ?_
    rw [shownAfter_concat, tick_current (shownAfter_steady before) (isLevel_loudest peaks)]
    exact (safePeak_le_loudest hpeak).trans (le_max_right ..)
  · intro before peaks after hticks hlen hreach peak hpeak
    have hreach := (le_iff (shownAfter_steady before).hold (isLevel_loudest peaks)).1 hreach
    rw [hticks] at hsteady ⊢
    exact not_lt_of_safePeak hsteady.hold
      ((safePeak_le_loudest hpeak).trans (shownAfter_held hreach after hlen).1)
  · by_cases h0 : (shownAfter (heard c as).ticks).holdPeak.toNat = 0
    · exact .inl (BitVec.eq_of_toNat_eq h0)
    · -- the loudest peak heard is at least what is held
      have hle := shownAfter_heard (heard c as).ticks
      have hloud : (loudest (heard c as).ticks.flatten).toNat ≠ 0 := by omega
      obtain ⟨peak, hmem, heq⟩ := loudest_mem hloud
      have hpeak : safePeak peak = peak := safePeak_eq (by rw [← heq]; omega)
      refine .inr ⟨peak, by rw [hall]; exact List.mem_append_left _ hmem, ?_⟩
      rw [← hpeak, ← heq]
      exact (le_iff hsteady.hold (isLevel_loudest _)).2 hle

/-- The right peak, above full scale, is stored between the two collections of a tick. -/
def refInterleaved : List Access :=
  [.storeLeft 0x3F000000#32 0x3FC00000#32, .swapLeft, .storeRight, .setClipped, .swapRight,
    .loadIndicator, .setIndicator, .loadClipped, .evaluateCadence 0 0]

theorem no_peak_lost_interleaved : ∃ x, run Meters.step .new refInterleaved = some x ∧
    peaksStored .right refInterleaved = [0x3FC00000#32] ∧ x.clipActive = true ∧
    lt x.right.currentPeak 0x3FC00000#32 = false := by
  obtain ⟨x, hx⟩ : ∃ x, run Meters.step .new refInterleaved = some x :=
    Option.isSome_iff_exists.1 (by decide +kernel)
  have hidle : (run Meters.step .new refInterleaved).map (·.gui) = some .idle := by decide +kernel
  have hclip : (run Meters.step .new refInterleaved).map (·.clipActive) = some true := by
    decide +kernel
  rw [hx] at hidle hclip
  have hlevel := (no_peak_lost hx (Option.some.inj hidle) .right).2.2.2.1 [] [0x3FC00000#32]
    (by decide +kernel) 0x3FC00000#32 (List.mem_singleton_self _)
  exact ⟨x, hx, by decide +kernel, Option.some.inj hclip, hlevel⟩

/-! ## Coming to rest -/

theorem silence_finite : SILENCE_PEAK_AMP.toNat < infBits := by decide

theorem silence_units : unitsOf SILENCE_PEAK_AMP.toNat = 8692403 * 2 ^ 1036 := by decide +kernel

theorem unitsOf_mono {a b : Nat} (h : a ≤ b) (hb : b < infBits) : unitsOf a ≤ unitsOf b := by
  have := unitsOf_lt_iff hb (Nat.lt_of_le_of_lt h hb)
  omega

theorem unitsOf_le_max {a : Nat} (h : a < infBits) : unitsOf a ≤ 2 ^ 1202 :=
  (unitsOf_mono (Nat.le_sub_one_of_lt h) (by decide)).trans (by decide +kernel)

/-- A level above silence loses a part in thirty of its value with a decayed tick. -/
theorem decayed_units {x : F32} (hx : IsLevel x) (hfin : (decayed x).toNat < infBits)
    (hloud : SILENCE_PEAK_AMP.toNat ≤ (decayed x).toNat) :
    1000 * unitsOf (decayed x).toNat ≤ 963 * unitsOf x.toNat := by
  have hle := decayed_le hx
  refine mul_decays rate_finite rate_pos (by decide +kernel) hx hfin ?_
  rcases Nat.lt_or_eq_of_le hx with hlt | heq
  · have hunits := unitsOf_mono (hloud.trans hle) hlt
    rw [silence_units] at hunits
    calc 2 ^ 949 ≤ 8692403 * 2 ^ 1036 * unitsOf BALLISTICS_DECAY_RATE.toNat / 2 ^ 1074 := by
          decide +kernel
      _ ≤ unitsOf x.toNat * unitsOf BALLISTICS_DECAY_RATE.toNat / 2 ^ 1074 :=
          Nat.div_le_div_right (Nat.mul_le_mul_right _ hunits)
  · rw [show decayed x = x from mul_inf heq rate_finite rate_pos] at hfin
    omega

theorem decay_outlasts {k : Nat} (hk : 2640 ≤ k) :
    963 ^ k * 2 ^ 1202 < 1000 ^ k * unitsOf SILENCE_PEAK_AMP.toNat := by
  induction k, hk using Nat.le_induction with
  | base => decide +kernel
  | succ k hk ih =>
    rw [Nat.pow_succ 963, Nat.pow_succ 1000]
    generalize unitsOf SILENCE_PEAK_AMP.toNat = u at *
    generalize (2 : Nat) ^ 1202 = m at *
    calc 963 ^ k * 963 * m = 963 * (963 ^ k * m) := by ring
      _ < 1000 * (1000 ^ k * u) := by omega
      _ = 1000 ^ k * 1000 * u := by ring

/-- The hold is silent, or `n` quiet ticks ran its timer down and took their part off it. -/
def Fading (n : Nat) (b : Ballistics) : Prop :=
  b.holdPeak.toNat < SILENCE_PEAK_AMP.toNat ∨
    b.holdPeak.toNat < infBits ∧ ∃ k, n + b.holdTimer ≤ k + PEAK_HOLD_FRAMES ∧
      1000 ^ k * unitsOf b.holdPeak.toNat ≤ 963 ^ k * 2 ^ 1202

theorem Fading.start {b : Ballistics} (hb : b.Steady) (hfin : b.holdPeak.toNat < infBits) :
    Fading 0 b :=
  .inr ⟨hfin, 0, by have := hb.timer; omega, by
    rw [Nat.pow_zero, Nat.pow_zero, Nat.one_mul, Nat.one_mul]
    exact unitsOf_le_max hfin⟩

theorem Fading.tick {n : Nat} {b : Ballistics} {raw : F32} (h : Fading n b) (hb : b.Steady)
    (hr : IsLevel raw) (hquiet : raw.toNat < SILENCE_PEAK_AMP.toNat) :
    Fading (n + 1) (b.tick raw) := by
  have hdecay := decayed_le hb.hold
  rcases h with hlow | ⟨hfin, k, hk, hunits⟩
  · left
    rcases tick_hold hb hr with ⟨-, hh, -⟩ | ⟨-, -, hh, -⟩ | ⟨-, -, hh, -⟩
    · rw [hh]
      exact hquiet
    · rw [hh]
      exact hlow
    · rw [hh, toNat_fetchMax]
      omega
  · rcases tick_hold hb hr with ⟨-, hh, -⟩ | ⟨-, h0, hh, ht⟩ | ⟨-, h0, hh, ht⟩
    · left
      rw [hh]
      exact hquiet
    · right
      rw [hh, ht]
      exact ⟨hfin, k, by omega, hunits⟩
    · -- a decayed level, silent or still louder than the tick
      by_cases hloud : SILENCE_PEAK_AMP.toNat ≤ (decayed b.holdPeak).toNat
      · have hmax : (b.tick raw).holdPeak.toNat = (decayed b.holdPeak).toNat := by
          rw [hh, toNat_fetchMax]
          omega
        have hfin' : (decayed b.holdPeak).toNat < infBits := by omega
        have hpart := decayed_units hb.hold hfin' hloud
        right
        rw [hmax, ht]
        refine ⟨hfin', k + 1, by omega, ?_⟩
        rw [Nat.pow_succ, Nat.pow_succ, Nat.mul_assoc]
        calc 1000 ^ k * (1000 * unitsOf (decayed b.holdPeak).toNat)
            ≤ 1000 ^ k * (963 * unitsOf b.holdPeak.toNat) := Nat.mul_le_mul_left _ hpart
          _ = 963 * (1000 ^ k * unitsOf b.holdPeak.toNat) := by ring
          _ ≤ 963 * (963 ^ k * 2 ^ 1202) := Nat.mul_le_mul_left _ hunits
          _ = 963 ^ k * 963 * 2 ^ 1202 := by
            generalize (2 : Nat) ^ 1202 = m
            ring
      · left
        rw [hh, toNat_fetchMax]
        omega

theorem Fading.ends {n : Nat} {b : Ballistics} (h : Fading n b) (hn : restingTicks ≤ n) :
    b.holdPeak.toNat < SILENCE_PEAK_AMP.toNat := by
  rcases h with hlow | ⟨hfin, k, hk, hunits⟩
  · exact hlow
  · by_contra hloud
    have hk : 2640 ≤ k := by
      unfold restingTicks at hn
      omega
    have hsilence := unitsOf_mono (Nat.not_lt.1 hloud) hfin
    have := decay_outlasts hk
    have := Nat.mul_le_mul_left (1000 ^ k) hsilence
    omega

/-! ## An infinite peak -/

/-- Level and hold are infinite. -/
def Ballistics.Stuck (b : Ballistics) : Prop :=
  b.currentPeak.toNat = infBits ∧ b.holdPeak.toNat = infBits

theorem Ballistics.Stuck.tick {b : Ballistics} {raw : F32} (h : b.Stuck) (hb : b.Steady)
    (hr : IsLevel raw) : (b.tick raw).Stuck := by
  have hcur := tick_current hb hr
  rw [show decayed b.currentPeak = _ from mul_inf h.1 rate_finite rate_pos] at hcur
  have hdecay : decayed b.holdPeak = _ := mul_inf h.2 rate_finite rate_pos
  have hle : raw.toNat ≤ infBits := hr
  obtain ⟨h1, h2⟩ := h
  refine ⟨by omega, ?_⟩
  rcases tick_hold hb hr with ⟨hreach, hh, -⟩ | ⟨-, -, hh, -⟩ | ⟨-, -, hh, -⟩
  · rw [hh]
    omega
  · rw [hh]
    exact h2
  · rw [hh, hdecay, toNat_fetchMax]
    omega

/-- A meter is at rest at a finite level or stuck at an infinite one, and it is stuck just if a tick
heard an infinite peak. -/
theorem shownAfter_stuck (ticks : List (List F32)) :
    ((∀ peaks ∈ ticks, (loudest peaks).toNat < infBits) ∧
        (shownAfter ticks).holdPeak.toNat < infBits) ∨
      (∃ peaks ∈ ticks, (loudest peaks).toNat = infBits) ∧ (shownAfter ticks).Stuck := by
  induction ticks using List.reverseRecOn with
  | nil => exact .inl ⟨fun _ h => (by cases h), by decide⟩
  | append_singleton ticks peaks ih =>
    have hb := shownAfter_steady ticks
    have hr := isLevel_loudest peaks
    have hle : (loudest peaks).toNat ≤ infBits := hr
    have hdecay := decayed_le hb.hold
    rw [shownAfter_concat]
    rcases ih with ⟨hall, hfin⟩ | ⟨⟨loud, hmem, hloud⟩, hstuck⟩
    · rcases Nat.lt_or_eq_of_le hle with hlt | heq
      · left
        refine ⟨fun p hp => ?_, ?_⟩
        · rcases List.mem_append.1 hp with hp | hp
          · exact hall p hp
          · rw [List.mem_singleton.1 hp]
            exact hlt
        · rcases tick_hold hb hr with ⟨-, hh, -⟩ | ⟨-, -, hh, -⟩ | ⟨-, -, hh, -⟩
          · rw [hh]
            exact hlt
          · rw [hh]
            exact hfin
          · rw [hh, toNat_fetchMax]
            omega
      · right
        refine ⟨⟨peaks, List.mem_append_right _ (List.mem_singleton_self _), heq⟩, ?_⟩
        have hcur := tick_current hb hr
        have hcl := isLevel_decayed hb.current
        unfold IsLevel at hcl
        refine ⟨by omega, ?_⟩
        rcases tick_hold hb hr with ⟨-, hh, -⟩ | ⟨hlt, -⟩ | ⟨hlt, -⟩
        · rw [hh]
          exact heq
        · omega
        · omega
    · exact .inr ⟨⟨loud, List.mem_append_left _ hmem, hloud⟩, hstuck.tick hb hr⟩

theorem loudest_infinite {peaks : List F32} :
    (loudest peaks).toNat = infBits ↔ INFINITY ∈ peaks := by
  constructor
  · intro h
    have hloud : (loudest peaks).toNat ≠ 0 := by rw [h]; decide
    obtain ⟨peak, hmem, heq⟩ := loudest_mem hloud
    have hpeak : safePeak peak = peak := safePeak_eq (by rw [← heq, h]; decide)
    have : peak = INFINITY := BitVec.eq_of_toNat_eq (by rw [← hpeak, ← heq, h]; decide)
    exact this ▸ hmem
  · intro h
    have h1 := safePeak_le_loudest h
    have h2 : (loudest peaks).toNat ≤ infBits := isLevel_loudest peaks
    have h3 : (safePeak INFINITY).toNat = infBits := by decide +kernel
    omega

/-- A channel that heard an infinite peak is stuck. -/
theorem shownAfter_infinite {ticks : List (List F32)} (h : INFINITY ∈ ticks.flatten) :
    (shownAfter ticks).Stuck := by
  obtain ⟨peaks, hpeaks, hinf⟩ := List.mem_flatten.1 h
  rcases shownAfter_stuck ticks with ⟨hall, -⟩ | ⟨-, hstuck⟩
  · exact absurd (loudest_infinite.2 hinf) (Nat.ne_of_lt (hall peaks hpeaks))
  · exact hstuck

/-- The meters change where the right peak is collected, and only there. -/
theorem step_meters {x y : Meters} {a : Access} (hs : x.step a = some y) :
    (∀ c, y.meter c = x.meter c) ∨ ∃ rawL, x.gui = .collectedLeft rawL ∧
      y.left = x.left.tick rawL ∧ y.right = x.right.tick x.uiPeakR := by
  cases a with
  | storeLeft | storeRight | clipInput | setClipped | setIndicator =>
    cases haudio : x.audio <;> simp only [Meters.step, haudio, reduceCtorEq, Option.some.injEq] at hs
    subst hs
    exact .inl fun c => by cases c <;> rfl
  | swapRight =>
    cases hgui : x.gui <;> simp only [Meters.step, hgui, reduceCtorEq, Option.some.injEq] at hs
    subst hs
    exact .inr ⟨_, rfl, rfl, rfl⟩
  | swapLeft | loadClipped | clearIndicator | clearClipped | setTelemetryActive =>
    cases hgui : x.gui <;> simp only [Meters.step, hgui, reduceCtorEq, Option.some.injEq] at hs
    subst hs
    exact .inl fun c => by cases c <;> rfl
  | loadIndicator =>
    cases hgui : x.gui <;> simp only [Meters.step, hgui, reduceCtorEq] at hs
    split at hs <;> obtain rfl := Option.some.inj hs <;> exact .inl fun c => by cases c <;> rfl
  | evaluateCadence lastInteraction now =>
    cases hgui : x.gui <;> simp only [Meters.step, hgui, reduceCtorEq, Option.some.injEq] at hs
    rename_i rawL rawR
    obtain ⟨cadence, timer, heq⟩ := x.evaluateCadence_frame rawL rawR lastInteraction now
    obtain rfl := heq ▸ hs
    exact .inl fun c => by cases c <;> rfl

/-- What is at infinity stays there. -/
theorem Follows.stuck_step {x y : Meters} {a : Access} {h : Heard × Heard} (hx : Follows x h)
    (hs : x.step a = some y) {c : Channel} (hstuck : (x.meter c).Stuck) : (y.meter c).Stuck := by
  rcases step_meters hs with hsame | ⟨rawL, hgui, hleft, hright⟩
  · rw [hsame c]
    exact hstuck
  · cases c with
    | left =>
      obtain ⟨ticks, peaks, -, hraw, hshown⟩ := hx.collecting rawL hgui
      have hsteady : x.left.Steady := by
        rw [hshown]
        exact shownAfter_steady ticks
      show y.left.Stuck
      rw [hleft, hraw]
      exact Ballistics.Stuck.tick hstuck hsteady (isLevel_loudest peaks)
    | right =>
      have hsteady : x.right.Steady := by
        rw [hx.right]
        exact shownAfter_steady h.2.ticks
      show y.right.Stuck
      rw [hright, hx.cellR]
      exact Ballistics.Stuck.tick hstuck hsteady (isLevel_loudest _)

theorem Follows.stuck_run {x z : Meters} {bs : List Access} {h : Heard × Heard} (hx : Follows x h)
    {c : Channel} (hstuck : (x.meter c).Stuck) (hz : run Meters.step x bs = some z) :
    (z.meter c).Stuck :=
  (run_always (I := fun z => ∃ h, Follows z h ∧ (z.meter c).Stuck)
    (fun _ _ _ ⟨_, hx, hstuck⟩ hs => ⟨_, follows_step hx hs, hx.stuck_step hs hstuck⟩)
    ⟨h, hx, hstuck⟩ hz).elim fun _ h => h.2

theorem Ballistics.Stuck.infinite {b : Ballistics} (h : b.Stuck) :
    b.currentPeak = INFINITY ∧ b.holdPeak = INFINITY :=
  ⟨BitVec.eq_of_toNat_eq h.1, BitVec.eq_of_toNat_eq h.2⟩

theorem lt_silence_iff {x : F32} (hx : IsLevel x) :
    lt x SILENCE_PEAK_AMP = true ↔ x.toNat < SILENCE_PEAK_AMP.toNat :=
  lt_iff hx (Nat.le_of_lt silence_finite)

theorem Ballistics.Steady.silent_iff {b : Ballistics} (hb : b.Steady) :
    b.silent = true ↔ b.holdPeak.toNat < SILENCE_PEAK_AMP.toNat := by
  unfold Ballistics.silent
  rw [Bool.and_eq_true, lt_silence_iff hb.current, lt_silence_iff hb.hold]
  have := hb.ordered
  omega

theorem shownAfter_fading {before : List (List F32)} (hfin : (shownAfter before).holdPeak.toNat < infBits)
    {quiet : List (List F32)} (hquiet : ∀ peaks ∈ quiet, lt (loudest peaks) SILENCE_PEAK_AMP = true) :
    Fading quiet.length (shownAfter (before ++ quiet)) := by
  induction quiet using List.reverseRecOn with
  | nil =>
    rw [List.append_nil]
    exact .start (shownAfter_steady before) hfin
  | append_singleton quiet peaks ih =>
    rw [← List.append_assoc, shownAfter_concat, List.length_append, List.length_singleton]
    have hlast := hquiet peaks (List.mem_append_right _ (List.mem_singleton_self _))
    exact (ih fun p hp => hquiet p (List.mem_append_left _ hp)).tick (shownAfter_steady _)
      (isLevel_loudest peaks) ((lt_silence_iff (isLevel_loudest peaks)).1 hlast)

/-- After enough quiet ticks a meter is silent, unless it ever heard an infinite peak. -/
theorem shownAfter_silent {before quiet : List (List F32)} (hlen : restingTicks ≤ quiet.length)
    (hquiet : ∀ peaks ∈ quiet, lt (loudest peaks) SILENCE_PEAK_AMP = true) :
    (shownAfter (before ++ quiet)).silent = true ↔ INFINITY ∉ (before ++ quiet).flatten := by
  have hsteady := shownAfter_steady (before ++ quiet)
  rw [hsteady.silent_iff]
  constructor
  · intro hsilent hmem
    obtain ⟨peaks, hpeaks, hinf⟩ := List.mem_flatten.1 hmem
    rcases shownAfter_stuck (before ++ quiet) with ⟨hall, -⟩ | ⟨-, -, hhold⟩
    · exact absurd (loudest_infinite.2 hinf) (Nat.ne_of_lt (hall peaks hpeaks))
    · have := silence_finite
      omega
  · intro hnot
    rcases shownAfter_stuck before with ⟨-, hfin⟩ | ⟨⟨peaks, hpeaks, hinf⟩, -⟩
    · exact (shownAfter_fading hfin hquiet).ends hlen
    · exact absurd (List.mem_flatten.2 ⟨peaks, List.mem_append_left _ hpeaks, loudest_infinite.1 hinf⟩)
        hnot

/-! ## The cadence -/

theorem Meters.evaluateCadence_cadence (x : Meters) (rawL rawR : F32) (lastInteraction now : Nat) :
    (x.evaluateCadence rawL rawR lastInteraction now).cadence =
      x.targetCadence rawL rawR lastInteraction now := by
  unfold Meters.evaluateCadence
  dsimp only
  split
  · rfl
  · rename_i h
    exact (not_not.1 h).symm

/-- The timer runs while the telemetry is active, at the cadence. -/
def Meters.Timed (x : Meters) : Prop :=
  x.timer = if x.telemetryActive then some x.cadence else none

theorem Meters.Timed.evaluateCadence {x : Meters} (h : x.Timed) (rawL rawR : F32)
    (lastInteraction now : Nat) : (x.evaluateCadence rawL rawR lastInteraction now).Timed := by
  unfold Meters.evaluateCadence
  dsimp only
  split
  · unfold Timed at h ⊢
    dsimp only
    split
    · rfl
    · rename_i hactive
      rw [h, if_neg hactive]
  · exact h

theorem timed_run {as : List Access} {x : Meters} (hx : run Meters.step .new as = some x) :
    x.Timed := by
  refine run_always (I := Meters.Timed) (fun x a y h hs => ?_)
    (show Meters.new.Timed from rfl) hx
  cases a with
  | storeLeft | storeRight | clipInput | setClipped | setIndicator =>
    cases haudio : x.audio <;> simp only [Meters.step, haudio, reduceCtorEq, Option.some.injEq] at hs
    subst hs
    exact h
  | swapLeft | swapRight | loadClipped | clearIndicator | clearClipped =>
    cases hgui : x.gui <;> simp only [Meters.step, hgui, reduceCtorEq, Option.some.injEq] at hs
    subst hs
    exact h
  | loadIndicator =>
    cases hgui : x.gui <;> simp only [Meters.step, hgui, reduceCtorEq] at hs
    split at hs <;> obtain rfl := Option.some.inj hs <;> exact h
  | evaluateCadence lastInteraction now =>
    cases hgui : x.gui <;> simp only [Meters.step, hgui, reduceCtorEq, Option.some.injEq] at hs
    subst hs
    exact h.evaluateCadence ..
  | setTelemetryActive active =>
    cases hgui : x.gui <;> simp only [Meters.step, hgui, reduceCtorEq, Option.some.injEq] at hs
    subst hs
    rfl

theorem meters_rest {as : List Access} {x : Meters} (hx : run Meters.step .new as = some x)
    {rawL rawR : F32} (hgui : x.gui = .shown rawL rawR)
    (hquiet : ∀ c, ∃ before quiet, (heard c as).ticks = before ++ quiet ∧
      restingTicks ≤ quiet.length ∧ ∀ peaks ∈ quiet, lt (loudest peaks) SILENCE_PEAK_AMP = true)
    (lastInteraction now : Nat) :
    ∃ y, x.step (.evaluateCadence lastInteraction now) = some y ∧
      (∀ c, (y.meter c).silent = true ↔ INFINITY ∉ (heard c as).ticks.flatten) ∧
      (∀ c, INFINITY ∈ (heard c as).ticks.flatten → ∀ bs z, run Meters.step y bs = some z →
        (z.meter c).currentPeak = INFINITY ∧ (z.meter c).holdPeak = INFINITY) ∧
      (y.cadence = TELEMETRY_PERIOD_LOW ↔ isIdle lastInteraction now = true ∧
        ∀ c, INFINITY ∉ (heard c as).ticks.flatten) ∧
      y.timer = if y.telemetryActive then some y.cadence else none := by
  have hfollows := follows_run hx
  have hsilent : ∀ c, (x.meter c).silent = true ↔ INFINITY ∉ (heard c as).ticks.flatten := by
    intro c
    obtain ⟨before, quiet, hticks, hlen, hq⟩ := hquiet c
    rw [hfollows.meter (fun raw => by rw [hgui]; simp) c, hticks]
    exact shownAfter_silent hlen hq
  -- what the last tick collected is among the quiet
  have hraw : ∀ {c : Channel} {raw : F32}, (heard c as).EndsWith raw →
      lt raw SILENCE_PEAK_AMP = true := by
    rintro c raw ⟨ticks, peaks, hlast, rfl⟩
    obtain ⟨before, quiet, hticks, hlen, hq⟩ := hquiet c
    obtain ⟨init, last, rfl⟩ := List.eq_nil_or_concat quiet |>.resolve_left fun h => by
      rw [h] at hlen
      exact absurd hlen (by decide)
    rw [hlast, List.concat_eq_append, ← List.append_assoc] at hticks
    have := (List.append_inj' hticks rfl).2
    exact List.singleton_inj.1 this ▸ hq last (by simp)
  obtain ⟨hL, hR⟩ := hfollows.raws rawL rawR (by rw [hgui]; rfl)
  have hstep : x.step (.evaluateCadence lastInteraction now) =
      some (x.evaluateCadence rawL rawR lastInteraction now) := by
    simp only [Meters.step, hgui]
  refine ⟨x.evaluateCadence rawL rawR lastInteraction now, hstep, ?_, ?_, ?_, ?_⟩
  · intro c
    rw [← hsilent c]
    obtain ⟨cadence, timer, heq⟩ := x.evaluateCadence_frame rawL rawR lastInteraction now
    rw [heq]
    cases c <;> rfl
  · intro c hinf bs z hz
    have hstuck : (x.meter c).Stuck := by
      rw [hfollows.meter (fun raw => by rw [hgui]; simp) c]
      exact shownAfter_infinite hinf
    exact (hfollows.stuck_run hstuck (run_cons.2 ⟨_, hstep, hz⟩)).infinite
  · rw [x.evaluateCadence_cadence]
    unfold Meters.targetCadence
    rw [hraw hL, hraw hR]
    have hboth : (∀ c, INFINITY ∉ (heard c as).ticks.flatten) ↔
        x.left.silent = true ∧ x.right.silent = true :=
      ⟨fun h => ⟨(hsilent .left).2 (h .left), (hsilent .right).2 (h .right)⟩, fun h c => by
        cases c with
        | left => exact (hsilent .left).1 h.1
        | right => exact (hsilent .right).1 h.2⟩
    rw [hboth]
    generalize isIdle lastInteraction now = idle
    generalize x.left.silent = l
    generalize x.right.silent = r
    cases idle <;> cases l <;> cases r <;> simp [TELEMETRY_PERIOD_LOW, TELEMETRY_PERIOD_FULL]
  · exact (timed_run hx).evaluateCadence ..

/-! ## Silence after loud peaks -/

/-- Both threads are at rest and the clip lamp is reset. -/
structure Idle (x : Meters) : Prop where
  audio : x.audio = .idle
  gui : x.gui = .idle
  indicator : x.uiClipIndicator = false

/-- A tick up to the choice of its cadence. -/
def refShown : List Access := [.swapLeft, .swapRight, .loadIndicator, .loadClipped]

/-- One tick while nothing is stored, right after an interaction. -/
def refTick : List Access := refShown ++ [.evaluateCadence 0 0]

/-- `n` ticks after `loud`, and one more up to the choice of its cadence. -/
def refSilence (loud : List Access) (n : Nat) : List Access :=
  loud ++ ((List.replicate n refTick).flatten ++ refShown)

theorem idle_of_any {as : List Access} (h : ((run Meters.step .new as).any fun x =>
    decide (x.audio = .idle ∧ x.gui = .idle ∧ x.uiClipIndicator = false)) = true) :
    ∃ x, run Meters.step .new as = some x ∧ Idle x := by
  obtain ⟨x, hx, hidle⟩ := (Option.any_eq_true _ _).1 h
  obtain ⟨haudio, hgui, hind⟩ := of_decide_eq_true hidle
  exact ⟨x, hx, haudio, hgui, hind⟩

theorem Idle.shown {x : Meters} (h : Idle x) : ∃ y rawL rawR, run Meters.step x refShown = some y ∧
    y.gui = .shown rawL rawR ∧ y.audio = .idle ∧ y.uiClipIndicator = false := by
  obtain ⟨haudio, hgui, hind⟩ := h
  simp only [refShown, run, Meters.step, hgui, hind, Option.bind_some, Bool.false_eq_true, if_false]
  exact ⟨_, _, _, rfl, rfl, haudio, rfl⟩

theorem Idle.tick {x : Meters} (h : Idle x) : ∃ y, run Meters.step x refTick = some y ∧ Idle y := by
  obtain ⟨y, rawL, rawR, hy, hgui, haudio, hind⟩ := h.shown
  have hstep : y.step (.evaluateCadence 0 0) = some (y.evaluateCadence rawL rawR 0 0) := by
    simp only [Meters.step, hgui]
  obtain ⟨cadence, timer, heq⟩ := y.evaluateCadence_frame rawL rawR 0 0
  rw [heq] at hstep
  exact ⟨{ y with cadence := cadence, timer := timer, gui := .idle },
    run_append.2 ⟨y, hy, run_cons.2 ⟨_, hstep, rfl⟩⟩, haudio, rfl, hind⟩

theorem Idle.ticks {x : Meters} (h : Idle x) (n : Nat) :
    ∃ y, run Meters.step x (List.replicate n refTick).flatten = some y ∧ Idle y := by
  induction n generalizing x with
  | zero => exact ⟨x, rfl, h⟩
  | succ n ih =>
    obtain ⟨y, hy, hidle⟩ := h.tick
    obtain ⟨z, hz, hz'⟩ := ih hidle
    rw [List.replicate_succ, List.flatten_cons]
    exact ⟨z, run_append.2 ⟨y, hy, hz⟩, hz'⟩

theorem Idle.silence {x : Meters} {loud : List Access} (hx : run Meters.step .new loud = some x)
    (h : Idle x) (n : Nat) : ∃ y rawL rawR,
      run Meters.step .new (refSilence loud n) = some y ∧ y.gui = .shown rawL rawR := by
  obtain ⟨y, hy, hidle⟩ := h.ticks n
  obtain ⟨z, rawL, rawR, hz, hgui, -, -⟩ := hidle.shown
  exact ⟨z, rawL, rawR, run_append.2 ⟨x, hx, run_append.2 ⟨y, hy, hz⟩⟩, hgui⟩

/-- The two collections of a tick. -/
def refCollected : List Sound := [.collected .left, .collected .right]

theorem Idle.sounds {x : Meters} (h : Idle x) (n : Nat) :
    emitted Meters.step sounds x ((List.replicate n refTick).flatten ++ refShown) =
      (List.replicate (n + 1) refCollected).flatten := by
  have hshown : ∀ {x : Meters}, Idle x → emitted Meters.step NamPlug.Gui.sounds x refShown =
      refCollected := by
    rintro x ⟨-, hgui, hind⟩
    simp only [refShown, emitted, Meters.step, hgui, hind]
    rfl
  induction n generalizing x with
  | zero =>
    rw [List.replicate_zero, List.flatten_nil, List.nil_append, hshown h, List.replicate_one,
      List.flatten_singleton]
  | succ n ih =>
    obtain ⟨y, hy, hidle⟩ := h.tick
    obtain ⟨w, hw, hlast⟩ : ∃ w, run Meters.step x refShown = some w ∧
        run Meters.step w [.evaluateCadence 0 0] = some y := run_append.1 hy
    have htick : emitted Meters.step NamPlug.Gui.sounds x refTick = refCollected := by
      have hnone : emitted Meters.step NamPlug.Gui.sounds w [.evaluateCadence 0 0] = [] := by
        simp only [emitted]
        cases w.step (.evaluateCadence 0 0) <;> rfl
      rw [show refTick = refShown ++ [.evaluateCadence 0 0] from rfl, emitted_append hw, hshown h,
        hnone, List.append_nil]
    rw [List.replicate_succ, List.flatten_cons, List.append_assoc, emitted_append hy, htick,
      ih hidle, List.replicate_succ (n := n + 1), List.flatten_cons]

theorem hear_silence (c : Channel) (n : Nat) (h : Heard) (hh : h.since = []) :
    ((List.replicate n refCollected).flatten).foldl (Heard.hear c) h =
      ⟨h.ticks ++ List.replicate n [], []⟩ := by
  induction n generalizing h with
  | zero => simp [← hh]
  | succ n ih =>
    have hone : refCollected.foldl (Heard.hear c) h = ⟨h.ticks ++ [[]], []⟩ := by
      obtain ⟨ticks, since⟩ := h
      obtain rfl : since = [] := hh
      cases c <;> rfl
    rw [List.replicate_succ, List.flatten_cons, List.foldl_append, hone, ih _ rfl,
      List.replicate_succ, List.append_assoc, List.singleton_append]

/-- The ticks of silence hear nothing. -/
theorem Idle.heard {x : Meters} {loud : List Access} (hx : run Meters.step .new loud = some x)
    (h : Idle x) {c : Channel} (hsince : (heard c loud).since = []) (n : Nat) :
    (heard c (refSilence loud n)).ticks = (heard c loud).ticks ++ List.replicate (n + 1) [] := by
  have hss : soundsOf (refSilence loud n) =
      soundsOf loud ++ (List.replicate (n + 1) refCollected).flatten := by
    unfold soundsOf refSilence
    rw [emitted_append hx, h.sounds]
  unfold NamPlug.Gui.heard at hsince ⊢
  rw [hss, List.foldl_append, hear_silence c _ _ hsince]

/-- A peak of full scale on the left and `right` on the right are stored, and shown by a tick. -/
def refLoud (right : F32) : List Access := [.storeLeft f1 right, .storeRight] ++ refTick

/-- An infinite peak on the right lights the clip lamp, which is reset. -/
def refInfinite : List Access :=
  [.storeLeft f1 INFINITY, .storeRight, .setClipped, .setIndicator, .swapLeft, .swapRight,
    .loadIndicator, .evaluateCadence 0 0, .clearIndicator, .clearClipped]

theorem refSilence_quiet {x : Meters} {loud : List Access} (hx : run Meters.step .new loud = some x)
    (h : Idle x) (hsince : ∀ c, (heard c loud).since = []) (c : Channel) :
    ∃ before quiet, (heard c (refSilence loud restingTicks)).ticks = before ++ quiet ∧
      restingTicks ≤ quiet.length ∧ ∀ peaks ∈ quiet, lt (loudest peaks) SILENCE_PEAK_AMP = true := by
  refine ⟨(heard c loud).ticks, List.replicate (restingTicks + 1) [], h.heard hx (hsince c) _, ?_,
    fun peaks hp => ?_⟩
  · rw [List.length_replicate]
    exact Nat.le_succ _
  · rw [List.eq_of_mem_replicate hp]
    decide +kernel

/-- Two loud peaks die away, an infinite one does not. -/
theorem meters_rest_silence :
    (∃ x y, run Meters.step .new (refSilence (refLoud f0_5) restingTicks) = some x ∧
      x.step (.evaluateCadence 0 5000) = some y ∧ y.left.silent = true ∧ y.right.silent = true ∧
        y.cadence = TELEMETRY_PERIOD_LOW) ∧
    ∃ x y, run Meters.step .new (refSilence refInfinite restingTicks) = some x ∧
      x.step (.evaluateCadence 0 5000) = some y ∧ y.left.silent = true ∧
        y.right.holdPeak = INFINITY ∧ y.cadence ≠ TELEMETRY_PERIOD_LOW := by
  constructor
  · obtain ⟨x₀, hx₀, hidle⟩ : ∃ x, run Meters.step .new (refLoud f0_5) = some x ∧ Idle x :=
      idle_of_any (by decide +kernel)
    obtain ⟨x, rawL, rawR, hx, hgui⟩ := hidle.silence hx₀ restingTicks
    have hsince : ∀ c, (heard c (refLoud f0_5)).since = [] := by
      intro c
      cases c <;> decide +kernel
    obtain ⟨y, hy, hsilent, -, hcadence, -⟩ := meters_rest hx hgui
      (refSilence_quiet hx₀ hidle hsince) 0 5000
    have hnone : ∀ c, INFINITY ∉ (heard c (refSilence (refLoud f0_5) restingTicks)).ticks.flatten := by
      intro c
      rw [hidle.heard hx₀ (hsince c), List.flatten_append, List.flatten_replicate_nil,
        List.append_nil]
      cases c <;> decide +kernel
    exact ⟨x, y, hx, hy, (hsilent .left).2 (hnone .left), (hsilent .right).2 (hnone .right),
      hcadence.2 ⟨by decide, hnone⟩⟩
  · obtain ⟨x₀, hx₀, hidle⟩ : ∃ x, run Meters.step .new refInfinite = some x ∧ Idle x :=
      idle_of_any (by decide +kernel)
    obtain ⟨x, rawL, rawR, hx, hgui⟩ := hidle.silence hx₀ restingTicks
    have hsince : ∀ c, (heard c refInfinite).since = [] := by
      intro c
      cases c <;> decide +kernel
    obtain ⟨y, hy, hsilent, hstuck, hcadence, -⟩ := meters_rest hx hgui
      (refSilence_quiet hx₀ hidle hsince) 0 5000
    have hheard : ∀ c, (heard c (refSilence refInfinite restingTicks)).ticks.flatten =
        (heard c refInfinite).ticks.flatten := by
      intro c
      rw [hidle.heard hx₀ (hsince c), List.flatten_append, List.flatten_replicate_nil,
        List.append_nil]
    have hleft : INFINITY ∉ (heard .left (refSilence refInfinite restingTicks)).ticks.flatten := by
      rw [hheard]
      decide +kernel
    have hright : INFINITY ∈ (heard .right (refSilence refInfinite restingTicks)).ticks.flatten := by
      rw [hheard]
      decide +kernel
    exact ⟨x, y, hx, hy, (hsilent .left).2 hleft, (hstuck .right hright [] y rfl).2,
      fun hlow => (hcadence.1 hlow).2 .right hright⟩

end NamPlug.Gui
