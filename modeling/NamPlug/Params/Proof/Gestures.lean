import NamPlug.Params.Gestures
import NamPlug.Params.Proof.GuiEvents

/-!
# The gesture stream

The flags of a parameter say that a gesture begins, changes and ends, not how often nor in which
order. `gestures_kept`: in every run in which no gesture of a parameter begins while one of its
flags is still set, and a drain takes or puts back no flag of a parameter while an earlier one of it
is set (`GestureGuard`), the host sees every gesture of the GUI once and in order, and the last
value the GUI set.

* `GestureInv`: what is emitted, the event under way and the flags make up the GUI's history.
* `run_emits`: a drain the GUI does not interrupt is `writeGuiEvents`.
* `drained_flags`: a drain into a queue with room leaves no flag set.
-/

namespace NamPlug

open Binary32 Machine

/-! ## Flags -/

theorem gestureIdx_eq_iff {p q : ParamId} {f g : GestureFlag} :
    gestureIdx q g = gestureIdx p f ↔ q = p ∧ g = f :=
  ⟨gestureIdx_inj, fun ⟨h1, h2⟩ => by rw [h1, h2]⟩

theorem hasGesture_setGesture_eq (u : UiToRt) (p q : ParamId) (f g : GestureFlag) :
    (u.setGesture p f).hasGesture q g = (u.hasGesture q g || decide (q = p ∧ g = f)) := by
  simp [UiToRt.setGesture, UiToRt.hasGesture, gestureBit_eq, gestureIdx_lt, gestureIdx_eq_iff]

theorem hasGesture_takeGesture_eq (u : UiToRt) (p q : ParamId) (f g : GestureFlag) :
    (u.takeGesture p f).2.hasGesture q g = (u.hasGesture q g && !decide (q = p ∧ g = f)) := by
  simp [UiToRt.takeGesture, UiToRt.hasGesture, gestureBit_eq, gestureIdx_lt, gestureIdx_eq_iff]

@[simp] theorem hasGesture_store (u : UiToRt) (p q : ParamId) (v : BitVec 32) (g : GestureFlag) :
    (u.store p v).hasGesture q g = u.hasGesture q g := by
  simp only [UiToRt.hasGesture, UiToRt.store_gestureFlags]

/-- A flag that is taken was set or not, and all else stays. -/
theorem takeGesture_cases (u : UiToRt) (p : ParamId) (f : GestureFlag) :
    ∃ w : UiToRt, u.takeGesture p f = (u.hasGesture p f, w) ∧ (∀ q, w.load q = u.load q) ∧
      ∀ q g, w.hasGesture q g = (u.hasGesture q g && !decide (q = p ∧ g = f)) :=
  ⟨(u.takeGesture p f).2, Prod.ext (takeGesture_fst u p f) rfl,
    fun q => UiToRt.load_takeGesture u p q f, fun q g => hasGesture_takeGesture_eq u p q f g⟩

/-! ## Streams of events -/

def OutEvent.param : OutEvent → ParamId
  | .gestureBegin p => p
  | .value p _ => p
  | .gestureEnd p => p

theorem gestures_append (p : ParamId) (es fs : List OutEvent) :
    gestures p (es ++ fs) = (gestures p es).bind fun a => fs.foldlM (OutEvent.follow p) a := by
  simp [gestures, List.foldlM_append, Option.bind_eq_bind]

theorem gestures_concat (p : ParamId) (es : List OutEvent) (ev : OutEvent) :
    gestures p (es ++ [ev]) = (gestures p es).bind fun a => ev.follow p a := by
  simp [gestures_append]

/-- The events of the other parameters do not matter. -/
theorem gestures_other {p : ParamId} {ev : OutEvent} (h : ev.param ≠ p) (es : List OutEvent) :
    gestures p (es ++ [ev]) = gestures p es := by
  rw [gestures_concat]
  cases ev <;> simp_all [OutEvent.param, OutEvent.follow]

theorem lastValue_other {p : ParamId} {ev : OutEvent} (h : ev.param ≠ p) (es : List OutEvent) :
    lastValue p (es ++ [ev]) = lastValue p es := by
  cases ev <;> simp_all [OutEvent.param, OutEvent.valueOf, lastValue]

theorem count_other {p : ParamId} {ev e : OutEvent} (h : ev.param ≠ p) (he : e.param = p)
    (es : List OutEvent) : (es ++ [ev]).count e = es.count e := by
  have hne : ev ≠ e := by rintro rfl; exact h he
  simp [hne]

theorem lastValue_value (p : ParamId) (v : Datum) (es : List OutEvent) :
    lastValue p (es ++ [.value p v]) = some v := by
  simp [lastValue, OutEvent.valueOf]

theorem lastValue_gestureBegin (p q : ParamId) (es : List OutEvent) :
    lastValue p (es ++ [.gestureBegin q]) = lastValue p es := by
  simp [lastValue, OutEvent.valueOf]

theorem lastValue_gestureEnd (p q : ParamId) (es : List OutEvent) :
    lastValue p (es ++ [.gestureEnd q]) = lastValue p es := by
  simp [lastValue, OutEvent.valueOf]

/-! ## GUI histories -/

theorem lastSet_of_unmarked {p : ParamId} {h : List GuiStep} (hu : unmarked p h = true) :
    (lastSet p h).isSome = true := by
  induction h with
  | nil => cases hu
  | cons s h ih =>
    cases s with
    | beginGesture q => exact ih hu
    | endGesture q => exact ih hu
    | store q v =>
      simp only [unmarked, lastSet] at hu ⊢
      split
      · rfl
      · rename_i hq
        rw [if_neg hq] at hu
        exact ih hu
    | markParamChanged q =>
      simp only [unmarked, lastSet] at hu ⊢
      split at hu
      · cases hu
      · exact ih hu

/-! ## The invariant -/

/-- The event a drain has taken the flag of and not pushed yet. -/
def EmitPc.event (u : UiToRt) : EmitPc → List OutEvent
  | .idle => []
  | .take _ _ _ => []
  | .load p _ => [valueEvent u p]
  | .push _ _ ev _ => [ev]
  | .retain p .begin_ => [.gestureBegin p]
  | .retain p .changed => [valueEvent u p]
  | .retain p .end_ => [.gestureEnd p]

/-- What the host has seen once the event under way is in. -/
def GestureState.seen (x : GestureState) : List OutEvent := x.out ++ x.pc.event x.ui

/-- The flags `b`, `c`, `e` of a parameter lead from the gesture state `a` of the host to the gesture
state `g` of the GUI. -/
structure FlagOrder (a b c e g : Bool) : Prop where
  begun : b = true → a = false
  changed : c = true → (a || b) = true
  ended : e = true → (a || b) = true
  gui : g = ((a || b) && !e)

/-- What the host has seen of a parameter and its flags make up what the GUI did. -/
structure GestureInv (p : ParamId) (x : GestureState) : Prop where
  order : ∃ a, gestures p x.seen = some a ∧ FlagOrder a (x.ui.hasGesture p .begin_)
    (x.ui.hasGesture p .changed) (x.ui.hasGesture p .end_) (guiOpen p x.gui)
  begins : x.seen.count (.gestureBegin p) + (x.ui.hasGesture p .begin_).toNat =
    x.gui.count (.beginGesture p)
  ends : x.seen.count (.gestureEnd p) + (x.ui.hasGesture p .end_).toNat =
    x.gui.count (.endGesture p)
  loaded : ∀ v, lastSet p x.gui = some v → x.ui.load p = v
  isSet : x.ui.hasGesture p .changed = true → (lastSet p x.gui).isSome = true
  value : unmarked p x.gui = true ∨ x.ui.hasGesture p .changed = true ∨
    lastValue p x.seen = (lastSet p x.gui).map datum

/-- A step that leaves everything of the parameter alone. -/
theorem GestureInv.frame {p : ParamId} {x y : GestureState} (h : GestureInv p x)
    (hgui : y.gui = x.gui) (hflag : ∀ f, y.ui.hasGesture p f = x.ui.hasGesture p f)
    (hload : y.ui.load p = x.ui.load p) (hgest : gestures p y.seen = gestures p x.seen)
    (hb : y.seen.count (.gestureBegin p) = x.seen.count (.gestureBegin p))
    (he : y.seen.count (.gestureEnd p) = x.seen.count (.gestureEnd p))
    (hv : lastValue p y.seen = lastValue p x.seen) : GestureInv p y := by
  obtain ⟨ho, hbs, hes, hl, hi, hval⟩ := h
  refine ⟨?_, ?_, ?_, ?_, ?_, ?_⟩
  · rw [hgest, hgui, hflag, hflag, hflag]; exact ho
  · rw [hb, hgui, hflag]; exact hbs
  · rw [he, hgui, hflag]; exact hes
  · rw [hgui, hload]; exact hl
  · rw [hgui, hflag]; exact hi
  · rw [hgui, hflag, hv]; exact hval

/-- A step that leaves the flags, the values and what the host sees alone. -/
theorem GestureInv.same {p : ParamId} {x y : GestureState} (h : GestureInv p x)
    (hgui : y.gui = x.gui) (hflag : ∀ f, y.ui.hasGesture p f = x.ui.hasGesture p f)
    (hload : y.ui.load p = x.ui.load p) (hseen : y.seen = x.seen) : GestureInv p y :=
  h.frame hgui hflag hload (by rw [hseen]) (by rw [hseen]) (by rw [hseen]) (by rw [hseen])

/-- A step that takes, drops or changes an event of another parameter. -/
theorem GestureInv.other {p : ParamId} {x y : GestureState} (h : GestureInv p x)
    (hgui : y.gui = x.gui) (hflag : ∀ f, y.ui.hasGesture p f = x.ui.hasGesture p f)
    (hload : y.ui.load p = x.ui.load p) {es fs gs : List OutEvent} (hx : x.seen = es ++ fs)
    (hy : y.seen = es ++ gs) (hfs : ∀ e ∈ fs, e.param ≠ p) (hgs : ∀ e ∈ gs, e.param ≠ p)
    (hf1 : fs.length ≤ 1) (hg1 : gs.length ≤ 1) : GestureInv p y := by
  have key : ∀ l : List OutEvent, (∀ e ∈ l, e.param ≠ p) → l.length ≤ 1 →
      gestures p (es ++ l) = gestures p es ∧
      (es ++ l).count (.gestureBegin p) = es.count (.gestureBegin p) ∧
      (es ++ l).count (.gestureEnd p) = es.count (.gestureEnd p) ∧
      lastValue p (es ++ l) = lastValue p es := by
    intro l hl hl1
    match l, hl1 with
    | [], _ => simp
    | [e], _ =>
      have he := hl e (by simp)
      exact ⟨gestures_other he es, count_other he rfl es, count_other he rfl es,
        lastValue_other he es⟩
  obtain ⟨x1, x2, x3, x4⟩ := key fs hfs hf1
  obtain ⟨y1, y2, y3, y4⟩ := key gs hgs hg1
  rw [← hx] at x1 x2 x3 x4
  rw [← hy] at y1 y2 y3 y4
  exact h.frame hgui hflag hload (y1.trans x1.symm) (y2.trans x2.symm) (y3.trans x3.symm)
    (y4.trans x4.symm)

/-! ## Steps of the GUI -/

/-- The events of the other parameters and the values do not matter. -/
theorem gestures_event (p : ParamId) (es : List OutEvent) (u w : UiToRt) (pc : EmitPc) :
    gestures p (es ++ pc.event w) = gestures p (es ++ pc.event u) := by
  cases pc with
  | load q rest => simp only [EmitPc.event, gestures_concat]; rfl
  | retain q f => cases f <;> simp only [EmitPc.event, gestures_concat]; rfl
  | _ => rfl

theorem count_event (es : List OutEvent) (u w : UiToRt) (pc : EmitPc) {e : OutEvent}
    (he : ∀ q v, e ≠ .value q v) :
    (es ++ pc.event w).count e = (es ++ pc.event u).count e := by
  have hne : ∀ q v, OutEvent.value q v ≠ e := fun q v h => he q v h.symm
  cases pc with
  | load q rest => simp [EmitPc.event, valueEvent, hne]
  | retain q f => cases f <;> simp [EmitPc.event, valueEvent, hne]
  | _ => rfl

theorem event_setGesture (u : UiToRt) (p : ParamId) (f : GestureFlag) (pc : EmitPc) :
    pc.event (u.setGesture p f) = pc.event u := by
  cases pc with
  | retain q f => cases f <;> simp [EmitPc.event, valueEvent]
  | _ => simp [EmitPc.event, valueEvent]

theorem GestureInv.beginGesture {p q : ParamId} {x : GestureState} (h : GestureInv p x)
    (hopen : guiOpen q x.gui = false) (hflags : ∀ f, x.ui.hasGesture q f = false) :
    GestureInv p { x with ui := x.ui.beginGesture q, gui := .beginGesture q :: x.gui } := by
  obtain ⟨⟨a, ha, hord⟩, hb, he, hl, hi, hv⟩ := h
  have hseen : GestureState.seen
      { x with ui := x.ui.beginGesture q, gui := .beginGesture q :: x.gui } = x.seen := by
    simp only [GestureState.seen, UiToRt.beginGesture, event_setGesture]
  by_cases hqp : q = p
  · subst hqp
    rw [hopen, hflags, hflags, hflags] at hord
    obtain rfl : a = false := by simpa using hord.gui.symm
    refine ⟨⟨false, hseen ▸ ha, ?_⟩, ?_, ?_, ?_, ?_, ?_⟩
    · simp only [UiToRt.beginGesture, hasGesture_setGesture_eq, hflags, guiOpen]
      exact ⟨fun _ => rfl, by simp, by simp, by simp⟩
    · rw [hseen, List.count_cons_self, ← hb]
      simp [UiToRt.beginGesture, hasGesture_setGesture_eq, hflags]
    · rw [hseen]
      simpa [UiToRt.beginGesture, hasGesture_setGesture_eq] using he
    · intro v hv
      rw [UiToRt.beginGesture, UiToRt.load_setGesture]
      exact hl v hv
    · simpa [UiToRt.beginGesture, hasGesture_setGesture_eq, lastSet] using hi
    · rw [hseen]
      simpa [UiToRt.beginGesture, hasGesture_setGesture_eq, lastSet, unmarked] using hv
  · have hne : ¬p = q := fun h => hqp h.symm
    refine ⟨⟨a, hseen ▸ ha, ?_⟩, ?_, ?_, ?_, ?_, ?_⟩
    · simpa [UiToRt.beginGesture, hasGesture_setGesture_eq, hne, guiOpen, hqp] using hord
    · rw [hseen]
      simpa [UiToRt.beginGesture, hasGesture_setGesture_eq, hne, hqp] using hb
    · rw [hseen]
      simpa [UiToRt.beginGesture, hasGesture_setGesture_eq, hne] using he
    · intro v hv
      rw [UiToRt.beginGesture, UiToRt.load_setGesture]
      exact hl v hv
    · simpa [UiToRt.beginGesture, hasGesture_setGesture_eq, lastSet] using hi
    · rw [hseen]
      simpa [UiToRt.beginGesture, hasGesture_setGesture_eq, lastSet, unmarked] using hv

theorem GestureInv.endGesture {p q : ParamId} {x : GestureState} (h : GestureInv p x)
    (hopen : guiOpen q x.gui = true) :
    GestureInv p { x with ui := x.ui.endGesture q, gui := .endGesture q :: x.gui } := by
  obtain ⟨⟨a, ha, hord⟩, hb, he, hl, hi, hv⟩ := h
  have hseen : GestureState.seen
      { x with ui := x.ui.endGesture q, gui := .endGesture q :: x.gui } = x.seen := by
    simp only [GestureState.seen, UiToRt.endGesture, event_setGesture]
  have hflag : (UiToRt.endGesture x.ui q).hasGesture p .begin_ = x.ui.hasGesture p .begin_ ∧
      (UiToRt.endGesture x.ui q).hasGesture p .changed = x.ui.hasGesture p .changed := by
    simp [UiToRt.endGesture, hasGesture_setGesture_eq]
  obtain ⟨hf1, hf2⟩ := hflag
  have hrest : ∀ v, lastSet p (.endGesture q :: x.gui) = some v →
      (UiToRt.endGesture x.ui q).load p = v := by
    intro v hv
    rw [UiToRt.endGesture, UiToRt.load_setGesture]
    exact hl v hv
  by_cases hqp : q = p
  · subst hqp
    rw [hopen] at hord
    obtain ⟨hab, hne⟩ : (a || x.ui.hasGesture q .begin_) = true ∧ x.ui.hasGesture q .end_ = false := by
      simpa using hord.gui.symm
    refine ⟨⟨a, hseen ▸ ha, ?_⟩, ?_, ?_, hrest, ?_, ?_⟩
    · rw [hf1, hf2]
      simp only [UiToRt.endGesture, hasGesture_setGesture_eq, guiOpen]
      exact ⟨hord.begun, hord.changed, fun _ => hab, by simp⟩
    · rw [hseen, hf1]
      simpa using hb
    · rw [hseen, List.count_cons_self, ← he]
      simp [UiToRt.endGesture, hasGesture_setGesture_eq, hne]
    · rw [hf2]; exact hi
    · rw [hseen, hf2]; exact hv
  · have hne : ¬p = q := fun h => hqp h.symm
    refine ⟨⟨a, hseen ▸ ha, ?_⟩, ?_, ?_, hrest, ?_, ?_⟩
    · simpa [UiToRt.endGesture, hasGesture_setGesture_eq, hne, guiOpen, hqp] using hord
    · rw [hseen, hf1]
      simpa using hb
    · rw [hseen]
      simpa [UiToRt.endGesture, hasGesture_setGesture_eq, hne, hqp] using he
    · rw [hf2]; exact hi
    · rw [hseen, hf2]; exact hv

theorem GestureInv.markParamChanged {p q : ParamId} {x : GestureState} (h : GestureInv p x)
    (hopen : guiOpen q x.gui = true) (hun : unmarked q x.gui = true) :
    GestureInv p { x with ui := x.ui.markParamChanged q, gui := .markParamChanged q :: x.gui } := by
  obtain ⟨⟨a, ha, hord⟩, hb, he, hl, hi, hv⟩ := h
  have hseen : GestureState.seen
      { x with ui := x.ui.markParamChanged q, gui := .markParamChanged q :: x.gui } = x.seen := by
    simp only [GestureState.seen, UiToRt.markParamChanged, event_setGesture]
  have hf1 : (UiToRt.markParamChanged x.ui q).hasGesture p .begin_ = x.ui.hasGesture p .begin_ := by
    simp [UiToRt.markParamChanged, hasGesture_setGesture_eq]
  have hf3 : (UiToRt.markParamChanged x.ui q).hasGesture p .end_ = x.ui.hasGesture p .end_ := by
    simp [UiToRt.markParamChanged, hasGesture_setGesture_eq]
  have hrest : ∀ v, lastSet p (.markParamChanged q :: x.gui) = some v →
      (UiToRt.markParamChanged x.ui q).load p = v := by
    intro v hv
    rw [UiToRt.markParamChanged, UiToRt.load_setGesture]
    exact hl v hv
  by_cases hqp : q = p
  · subst hqp
    have hc : (UiToRt.markParamChanged x.ui q).hasGesture q .changed = true := by
      simp [UiToRt.markParamChanged, hasGesture_setGesture_eq]
    have hset : (lastSet q x.gui).isSome = true := lastSet_of_unmarked hun
    have hab : (a || x.ui.hasGesture q .begin_) = true := by
      have hg := hord.gui
      rw [hopen] at hg
      exact (Bool.and_eq_true_iff.1 hg.symm).1
    refine ⟨⟨a, hseen ▸ ha, ?_⟩, ?_, ?_, hrest, fun _ => hset, .inr (.inl hc)⟩
    · rw [hf1, hf3]
      exact ⟨hord.begun, fun _ => hab, hord.ended, hord.gui⟩
    · rw [hseen, hf1]
      simpa using hb
    · rw [hseen, hf3]
      simpa using he
  · have hc : (UiToRt.markParamChanged x.ui q).hasGesture p .changed = x.ui.hasGesture p .changed := by
      simp [UiToRt.markParamChanged, hasGesture_setGesture_eq, Ne.symm hqp]
    refine ⟨⟨a, hseen ▸ ha, ?_⟩, ?_, ?_, hrest, ?_, ?_⟩
    · rw [hf1, hc, hf3]
      exact hord
    · rw [hseen, hf1]
      simpa using hb
    · rw [hseen, hf3]
      simpa using he
    · rw [hc]
      exact hi
    · rw [hseen, hc]
      simpa only [unmarked, lastSet, if_neg hqp] using hv

/-- The values of the other parameters do not matter. -/
theorem lastValue_event {p : ParamId} {u w : UiToRt} (h : w.load p = u.load p)
    (es : List OutEvent) (pc : EmitPc) :
    lastValue p (es ++ pc.event w) = lastValue p (es ++ pc.event u) := by
  have hval : ∀ q, lastValue p (es ++ [valueEvent w q]) = lastValue p (es ++ [valueEvent u q]) := by
    intro q
    by_cases hq : q = p
    · rw [hq, valueEvent, valueEvent, h]
    · rw [@lastValue_other p (valueEvent w q) hq, @lastValue_other p (valueEvent u q) hq]
  cases pc with
  | load q rest => exact hval q
  | retain q f =>
    cases f with
    | changed => exact hval q
    | begin_ => rfl
    | end_ => rfl
  | _ => rfl

theorem GestureInv.store {p q : ParamId} {x : GestureState} (h : GestureInv p x)
    (hq : q ≠ .activeModel) (v : BitVec 32) :
    GestureInv p { x with ui := x.ui.store q v, gui := .store q v :: x.gui } := by
  obtain ⟨⟨a, ha, hord⟩, hb, he, hl, hi, hv⟩ := h
  have hbs := count_event x.out x.ui (x.ui.store q v) x.pc (e := .gestureBegin p) (by simp)
  have hes := count_event x.out x.ui (x.ui.store q v) x.pc (e := .gestureEnd p) (by simp)
  refine ⟨⟨a, ?_, ?_⟩, ?_, ?_, ?_, ?_, ?_⟩
  · rw [← ha]
    exact gestures_event p x.out x.ui _ x.pc
  · simpa [guiOpen] using hord
  · rw [GestureState.seen, hbs]
    simpa [GestureState.seen] using hb
  · rw [GestureState.seen, hes]
    simpa [GestureState.seen] using he
  · intro w hw
    by_cases hqp : q = p
    · subst hqp
      simp only [lastSet, if_true, Option.some.injEq] at hw
      rw [UiToRt.load_store_self x.ui v hq, hw]
    · simp only [lastSet, if_neg hqp] at hw
      rw [UiToRt.load_store_ne x.ui v (Ne.symm hqp)]
      exact hl w hw
  · intro hc
    simp only [lastSet]
    split
    · rfl
    · exact hi (by simpa using hc)
  · by_cases hqp : q = p
    · exact .inl (by simp [unmarked, hqp])
    · have hsame := lastValue_event (UiToRt.load_store_ne x.ui v (Ne.symm hqp)) x.out x.pc
      rw [GestureState.seen, hsame, hasGesture_store]
      simpa only [GestureState.seen, unmarked, lastSet, if_neg hqp] using hv

/-! ## Steps of a drain -/

/-- No flag is taken, or put back at the end of a gesture, while an earlier one of its parameter is
set. -/
def EmitGuard (u : UiToRt) : EmitPc → Prop
  | .take p .changed _ => u.hasGesture p .changed = true → u.hasGesture p .begin_ = false
  | .take p .end_ _ => u.hasGesture p .end_ = true →
      u.hasGesture p .begin_ = false ∧ u.hasGesture p .changed = false
  | .retain p .end_ => u.hasGesture p .begin_ = false
  | _ => True

/-- The condition: drains meet theirs, and no gesture begins while a flag of its parameter is
set. -/
def GestureGuard (x : GestureState) : GestureAction → Prop
  | .gui (.beginGesture p) => x.ui.hasGesture p .begin_ = false ∧
      x.ui.hasGesture p .changed = false ∧ x.ui.hasGesture p .end_ = false
  | .gui _ => True
  | .emit _ => EmitGuard x.ui x.pc

instance (u : UiToRt) : ∀ pc, Decidable (EmitGuard u pc)
  | .take p .changed _ =>
    inferInstanceAs (Decidable (u.hasGesture p .changed = true → u.hasGesture p .begin_ = false))
  | .take p .end_ _ =>
    inferInstanceAs (Decidable (u.hasGesture p .end_ = true →
      u.hasGesture p .begin_ = false ∧ u.hasGesture p .changed = false))
  | .retain p .end_ => inferInstanceAs (Decidable (u.hasGesture p .begin_ = false))
  | .idle | .take _ .begin_ _ | .load _ _ | .push _ _ _ _ | .retain _ .begin_
  | .retain _ .changed => isTrue trivial

instance (x : GestureState) : ∀ a, Decidable (GestureGuard x a)
  | .gui (.beginGesture p) => inferInstanceAs (Decidable (x.ui.hasGesture p .begin_ = false ∧
      x.ui.hasGesture p .changed = false ∧ x.ui.hasGesture p .end_ = false))
  | .gui (.store _ _) | .gui (.markParamChanged _) | .gui (.endGesture _) => isTrue trivial
  | .emit _ => inferInstanceAs (Decidable (EmitGuard x.ui x.pc))

@[simp] theorem event_idle (u : UiToRt) : EmitPc.idle.event u = [] := rfl

@[simp] theorem event_take (u : UiToRt) (p : ParamId) (f : GestureFlag) (rest : List ParamId) :
    (EmitPc.take p f rest).event u = [] := rfl

@[simp] theorem event_load (u : UiToRt) (p : ParamId) (rest : List ParamId) :
    (EmitPc.load p rest).event u = [valueEvent u p] := rfl

@[simp] theorem event_push (u : UiToRt) (p : ParamId) (f : GestureFlag) (ev : OutEvent)
    (rest : List ParamId) : (EmitPc.push p f ev rest).event u = [ev] := rfl

@[simp] theorem event_nextFlag (u : UiToRt) (p : ParamId) (f : GestureFlag) (rest : List ParamId) :
    (nextFlag p f rest).event u = [] := by
  cases f <;> try rfl
  cases rest <;> rfl

/-- The event of a flag. -/
def flagEvent (u : UiToRt) (p : ParamId) : GestureFlag → OutEvent
  | .begin_ => .gestureBegin p
  | .changed => valueEvent u p
  | .end_ => .gestureEnd p

theorem flagEvent_param (u : UiToRt) (p : ParamId) (f : GestureFlag) :
    (flagEvent u p f).param = p := by cases f <;> rfl

@[simp] theorem event_takenFlag (u : UiToRt) (p : ParamId) (f : GestureFlag) (rest : List ParamId) :
    (takenFlag p f rest).event u = [flagEvent u p f] := by cases f <;> rfl

@[simp] theorem event_retain (u : UiToRt) (p : ParamId) (f : GestureFlag) :
    (EmitPc.retain p f).event u = [flagEvent u p f] := by cases f <;> rfl

/-- A flag is taken: its event is under way. -/
theorem GestureInv.taken {p q : ParamId} {f : GestureFlag} {rest : List ParamId}
    {x : GestureState} {w : UiToRt} (h : GestureInv p x) (hpc : x.pc = .take q f rest)
    (hf : x.ui.hasGesture q f = true) (hG : GestureGuard x (.emit true))
    (hload : ∀ r, w.load r = x.ui.load r)
    (hflag : ∀ r g, w.hasGesture r g = (x.ui.hasGesture r g && !decide (r = q ∧ g = f))) :
    GestureInv p { x with ui := w, pc := takenFlag q f rest } := by
  have hx : x.seen = x.out := by simp [GestureState.seen, hpc]
  have hy : GestureState.seen { x with ui := w, pc := takenFlag q f rest } =
      x.out ++ [flagEvent w q f] := by simp [GestureState.seen]
  by_cases hqp : q = p
  · subst hqp
    obtain ⟨⟨a, ha, hord⟩, hb, he, hl, hi, hv⟩ := h
    rw [hx] at ha hb he hv
    simp only [GestureGuard, hpc, EmitGuard] at hG
    cases f with
    | begin_ =>
      rw [hf] at hord hb
      obtain rfl : a = false := hord.begun rfl
      refine ⟨⟨true, ?_, ?_⟩, ?_, ?_, fun v hv => (hload q).trans (hl v hv), ?_, ?_⟩
      · rw [hy, gestures_concat, ha]
        simp [flagEvent, OutEvent.follow]
      · have hg := hord.gui
        simp only [hflag]
        exact ⟨by simp, by simp, by simp, by simpa using hg⟩
      · rw [hy]
        simp only [hflag, flagEvent]
        simpa using hb
      · rw [hy]
        simp only [hflag, flagEvent]
        simpa using he
      · simpa [hflag] using hi
      · rw [hy, flagEvent, lastValue_gestureBegin]
        simpa [hflag] using hv
    | changed =>
      have hbf := hG hf
      rw [hf, hbf] at hord
      obtain rfl : a = true := by simpa using hord.changed rfl
      obtain ⟨v, hset⟩ := Option.isSome_iff_exists.1 (hi hf)
      refine ⟨⟨true, ?_, ?_⟩, ?_, ?_, fun v hv => (hload q).trans (hl v hv), ?_, ?_⟩
      · rw [hy, gestures_concat, ha]
        simp [flagEvent, valueEvent, OutEvent.follow]
      · have hg := hord.gui
        simp only [hflag]
        exact ⟨by simp [hbf], by simp, by simp, by simpa using hg⟩
      · rw [hy]
        simp only [hflag, flagEvent, valueEvent]
        simpa using hb
      · rw [hy]
        simp only [hflag, flagEvent, valueEvent]
        simpa using he
      · simp [hflag]
      · refine .inr (.inr ?_)
        rw [hy, flagEvent, valueEvent, lastValue_value, hload, hl v hset]
        simp [hset]
    | end_ =>
      obtain ⟨hbf, hcf⟩ := hG hf
      rw [hf, hbf, hcf] at hord
      rw [hf] at he
      obtain rfl : a = true := by simpa using hord.ended rfl
      refine ⟨⟨false, ?_, ?_⟩, ?_, ?_, fun v hv => (hload q).trans (hl v hv), ?_, ?_⟩
      · rw [hy, gestures_concat, ha]
        simp [flagEvent, OutEvent.follow]
      · have hg := hord.gui
        simp only [hflag]
        exact ⟨by simp, by simp [hcf], by simp, by simpa [hbf] using hg⟩
      · rw [hy]
        simp only [hflag, flagEvent]
        simpa using hb
      · rw [hy]
        simp only [hflag, flagEvent]
        simpa using he
      · simpa [hflag] using hi
      · rw [hy, flagEvent, lastValue_gestureEnd]
        simpa [hflag] using hv
  · refine h.other rfl (fun g => ?_) (hload p) (hx.trans (List.append_nil _).symm) hy (by simp)
      (fun e he => ?_) (by simp) (by simp)
    · simp [hflag, Ne.symm hqp]
    · rw [List.mem_singleton.1 he, flagEvent_param]
      exact hqp

/-- A flag is put back: its event is no longer under way. -/
theorem GestureInv.retained {p q : ParamId} {f : GestureFlag} {x : GestureState}
    (h : GestureInv p x) (hpc : x.pc = .retain q f) (hG : GestureGuard x (.emit true)) :
    GestureInv p { x with ui := x.ui.setGesture q f, pc := .idle } := by
  have hx : x.seen = x.out ++ [flagEvent x.ui q f] := by simp [GestureState.seen, hpc]
  have hy : GestureState.seen { x with ui := x.ui.setGesture q f, pc := .idle } = x.out := by
    simp [GestureState.seen]
  have hflag := fun g => hasGesture_setGesture_eq x.ui q p f g
  by_cases hqp : q = p
  · subst hqp
    obtain ⟨⟨a, ha, hord⟩, hb, he, hl, hi, hv⟩ := h
    rw [hx] at ha hb he hv
    rw [gestures_concat] at ha
    obtain ⟨a', ha', hfollow⟩ := Option.bind_eq_some_iff.1 ha
    simp only [GestureGuard, hpc, EmitGuard] at hG
    have hload : ∀ v, lastSet q x.gui = some v → (x.ui.setGesture q f).load q = v :=
      fun v hv => (UiToRt.load_setGesture ..).trans (hl v hv)
    cases f with
    | begin_ =>
      obtain ⟨rfl, rfl⟩ : a' = false ∧ a = true := by
        cases a' <;> simp_all [flagEvent, OutEvent.follow]
      have hbf : x.ui.hasGesture q .begin_ = false := by
        cases hbf : x.ui.hasGesture q .begin_ with
        | false => rfl
        | true => exact absurd (hord.begun hbf) (by decide)
      refine ⟨⟨false, by rw [hy]; exact ha', ?_⟩, ?_, ?_, hload, ?_, ?_⟩
      · have hg := hord.gui
        simp only [hflag]
        exact ⟨by simp, by simp, by simp, by simpa [hbf] using hg⟩
      · rw [hy]
        simp only [hflag]
        simpa [hbf, flagEvent] using hb
      · rw [hy]
        simp only [hflag]
        simpa [flagEvent] using he
      · simpa [hflag] using hi
      · rw [hy]
        rw [flagEvent, lastValue_gestureBegin] at hv
        simpa [hflag] using hv
    | changed =>
      obtain ⟨rfl, rfl⟩ : a' = true ∧ a = true := by
        cases a' <;> simp_all [flagEvent, valueEvent, OutEvent.follow]
      refine ⟨⟨true, by rw [hy]; exact ha', ?_⟩, ?_, ?_, hload, fun _ => ?_, ?_⟩
      · have hg := hord.gui
        have hbf := hord.begun
        simp only [hflag]
        exact ⟨by simpa using hbf, by simp, by simp, by simpa using hg⟩
      · rw [hy]
        simp only [hflag]
        simpa [flagEvent, valueEvent] using hb
      · rw [hy]
        simp only [hflag]
        simpa [flagEvent, valueEvent] using he
      · rcases hv with hv | hv | hv
        · exact lastSet_of_unmarked hv
        · exact hi hv
        · rw [flagEvent, valueEvent, lastValue_value] at hv
          rw [← Option.isSome_map (f := datum), ← hv]
          rfl
      · exact .inr (.inl (by simp [hflag]))
    | end_ =>
      obtain ⟨rfl, rfl⟩ : a' = true ∧ a = false := by
        cases a' <;> simp_all [flagEvent, OutEvent.follow]
      have hef : x.ui.hasGesture q .end_ = false := by
        cases hef : x.ui.hasGesture q .end_ with
        | false => rfl
        | true => exact absurd (hord.ended hef) (by simp [hG])
      refine ⟨⟨true, by rw [hy]; exact ha', ?_⟩, ?_, ?_, hload, ?_, ?_⟩
      · have hg := hord.gui
        simp only [hflag]
        exact ⟨by simp [hG], by simp, by simp, by simpa [hG] using hg⟩
      · rw [hy]
        simp only [hflag]
        simpa [flagEvent] using hb
      · rw [hy]
        simp only [hflag]
        simpa [hef, flagEvent] using he
      · simpa [hflag] using hi
      · rw [hy]
        rw [flagEvent, lastValue_gestureEnd] at hv
        simpa [hflag] using hv
  · refine h.other rfl (fun g => ?_) (UiToRt.load_setGesture ..) hx
      (hy.trans (List.append_nil _).symm) (fun e he => ?_) (by simp) (by simp) (by simp)
    · simp [hflag, Ne.symm hqp]
    · rw [List.mem_singleton.1 he, flagEvent_param]
      exact hqp

/-- An event of a flag, with any value. -/
def Fits (p : ParamId) (ev : OutEvent) : GestureFlag → Prop
  | .begin_ => ev = .gestureBegin p
  | .changed => ∃ v, ev = .value p v
  | .end_ => ev = .gestureEnd p

/-- What is pushed for a flag is an event of the flag. -/
def EmitPc.Fitting (pc : EmitPc) : Prop := ∀ p f ev rest, pc = .push p f ev rest → Fits p ev f

theorem fitting_nextFlag (p : ParamId) (f : GestureFlag) (rest : List ParamId) :
    (nextFlag p f rest).Fitting := by
  intro q g ev r h
  cases f with
  | end_ => cases rest <;> cases h
  | _ => cases h

theorem fitting_takenFlag (p : ParamId) (f : GestureFlag) (rest : List ParamId) :
    (takenFlag p f rest).Fitting := by
  intro q g ev r h
  cases f <;> cases h <;> rfl

theorem fitting_emitStep (x : GestureState) (accepted : Bool) :
    (emitStep x accepted).pc.Fitting := by
  unfold emitStep
  split
  · dsimp only
    split
    · intro q g ev r h
      cases h
    · intro q g ev r h
      cases h
  · obtain ⟨w, hw, -, -⟩ := takeGesture_cases x.ui _ _
    rw [hw]
    split
    · exact fitting_nextFlag _ _ _
    · exact fitting_takenFlag _ _ _
  · intro q g ev r h
    cases h
    exact ⟨_, rfl⟩
  · split
    · exact fitting_nextFlag _ _ _
    · intro q g ev r h
      cases h
  · intro q g ev r h
    cases h

/-- The queue is full: the event under way is one of the same flag. -/
theorem GestureInv.refused {p q : ParamId} {f : GestureFlag} {ev : OutEvent}
    {rest : List ParamId} {x : GestureState} (h : GestureInv p x)
    (hpc : x.pc = .push q f ev rest) (hfit : Fits q ev f) :
    GestureInv p { x with pc := .retain q f } := by
  have hx : x.seen = x.out ++ [ev] := by simp [GestureState.seen, hpc]
  have hy : GestureState.seen { x with pc := .retain q f } = x.out ++ [flagEvent x.ui q f] := by
    simp [GestureState.seen]
  cases f with
  | begin_ => exact h.same rfl (fun _ => rfl) rfl (by rw [hx, hy, show ev = _ from hfit]; rfl)
  | end_ => exact h.same rfl (fun _ => rfl) rfl (by rw [hx, hy, show ev = _ from hfit]; rfl)
  | changed =>
    obtain ⟨v, rfl⟩ := hfit
    by_cases hqp : q = p
    · subst hqp
      obtain ⟨⟨a, ha, hord⟩, hb, he, hl, hi, hv⟩ := h
      rw [hx] at ha hb he hv
      refine ⟨⟨a, ?_, hord⟩, ?_, ?_, hl, hi, ?_⟩
      · rw [hy, ← ha, gestures_concat, gestures_concat]
        rfl
      · rw [hy]
        simpa [flagEvent, valueEvent] using hb
      · rw [hy]
        simpa [flagEvent, valueEvent] using he
      · rcases hv with hv | hv | hv
        · exact .inl hv
        · exact .inr (.inl hv)
        · refine .inr (.inr ?_)
          rw [lastValue_value] at hv
          obtain ⟨u, hu, -⟩ := Option.map_eq_some_iff.1 hv.symm
          rw [hy, flagEvent, valueEvent, lastValue_value, hl u hu, hu]
          rfl
    · exact h.other rfl (fun _ => rfl) rfl hx hy (fun e he => by rw [List.mem_singleton.1 he]; exact hqp)
        (fun e he => by rw [List.mem_singleton.1 he]; exact hqp) (by simp) (by simp)

theorem GestureInv.emitStep {p : ParamId} {x : GestureState} (h : GestureInv p x)
    (hfit : x.pc.Fitting) {accepted : Bool} (hG : GestureGuard x (.emit accepted)) :
    GestureInv p (emitStep x accepted) := by
  unfold NamPlug.emitStep
  split
  · rename_i hpc
    refine h.same rfl (fun _ => rfl) rfl ?_
    simp only [GestureState.seen, hpc]
    split <;> rfl
  · rename_i q f rest hpc
    obtain ⟨w, hw, hload, hflag⟩ := takeGesture_cases x.ui q f
    rw [hw]
    cases hf : x.ui.hasGesture q f with
    | false =>
      refine h.same rfl (fun g => ?_) (hload p) (by simp [GestureState.seen, hpc])
      by_cases hqg : p = q ∧ g = f
      · obtain ⟨rfl, rfl⟩ := hqg
        simp [hflag, hf]
      · simp [hflag, hqg]
    | true => exact h.taken hpc hf hG hload hflag
  · rename_i q rest hpc
    exact h.same rfl (fun _ => rfl) rfl (by simp [GestureState.seen, hpc])
  · rename_i q f ev rest hpc
    split
    · exact h.same rfl (fun _ => rfl) rfl (by simp [GestureState.seen, hpc])
    · exact h.refused hpc (hfit q f ev rest hpc)
  · rename_i q f hpc
    exact h.retained hpc hG

/-- What every guarded step keeps. -/
def GestureKept (x : GestureState) : Prop := x.pc.Fitting ∧ ∀ p, GestureInv p x

theorem gestureKept_step (x : GestureState) (a : GestureAction) (y : GestureState)
    (h : GestureKept x) (hG : GestureGuard x a) (hy : gestureStep x a = some y) :
    GestureKept y := by
  obtain ⟨hfit, hinv⟩ := h
  cases a with
  | emit accepted =>
    obtain rfl := Option.some.inj hy
    exact ⟨fitting_emitStep x accepted, fun p => (hinv p).emitStep hfit hG⟩
  | gui s =>
    simp only [gestureStep] at hy
    split at hy
    · rename_i hs
      obtain rfl := Option.some.inj hy
      obtain ⟨hne, hord⟩ := hs
      refine ⟨hfit, fun p => ?_⟩
      cases s with
      | beginGesture q =>
        obtain ⟨h1, h2, h3⟩ := hG
        refine (hinv p).beginGesture (by simpa [GuiStep.inOrder] using hord) fun f => ?_
        cases f <;> assumption
      | store q v => exact (hinv p).store hne v
      | markParamChanged q =>
        obtain ⟨h1, h2⟩ := Bool.and_eq_true_iff.1 hord
        exact (hinv p).markParamChanged h1 h2
      | endGesture q => exact (hinv p).endGesture hord
    · cases hy

theorem gestureKept_init (u : UiToRt) : GestureKept (.init u) := by
  have hf : ∀ p f, (GestureState.init u).ui.hasGesture p f = false := by
    intro p f
    simp [GestureState.init, UiToRt.hasGesture]
  have hfit : (GestureState.init u).pc.Fitting := by
    intro q f ev rest h
    cases h
  refine ⟨hfit, fun p => ⟨⟨false, rfl, ?_⟩, ?_, ?_, ?_, ?_, ?_⟩⟩
  · rw [hf, hf, hf]
    exact ⟨by simp, by simp, by simp, rfl⟩
  · rw [hf]; rfl
  · rw [hf]; rfl
  · intro v hv
    cases hv
  · simp [hf]
  · exact .inr (.inr rfl)

theorem gestureKept_run {u : UiToRt} {as : List GestureAction} {x : GestureState}
    (hG : Guarded gestureStep GestureGuard (.init u) as)
    (h : run gestureStep (.init u) as = some x) : GestureKept x :=
  run_invariant gestureKept_step (gestureKept_init u) hG h

/-! ## Drains the GUI does not interrupt -/

/-- Guarded steps of drains alone lead from one state to the other. -/
def Emits (x y : GestureState) : Prop :=
  ∃ as : List GestureAction, (∀ a ∈ as, ∃ accepted, a = .emit accepted) ∧
    Guarded gestureStep GestureGuard x as ∧ run gestureStep x as = some y

theorem Emits.refl (x : GestureState) : Emits x x := ⟨[], by simp, trivial, rfl⟩

theorem Emits.step {x y : GestureState} (accepted : Bool) (hG : GestureGuard x (.emit accepted))
    (h : Emits (emitStep x accepted) y) : Emits x y := by
  obtain ⟨as, has, hg, hr⟩ := h
  refine ⟨.emit accepted :: as, fun a ha => ?_, guarded_cons_of rfl hG hg,
    run_cons.2 ⟨_, rfl, hr⟩⟩
  rcases List.mem_cons.1 ha with rfl | ha
  · exact ⟨accepted, rfl⟩
  · exact has a ha

theorem Emits.trans {x y z : GestureState} (h : Emits x y) (h' : Emits y z) : Emits x z := by
  obtain ⟨as, has, hg, hr⟩ := h
  obtain ⟨bs, hbs, hg', hr'⟩ := h'
  refine ⟨as ++ bs, fun a ha => (List.mem_append.1 ha).elim (has a) (hbs a), ?_,
    run_append.2 ⟨y, hr, hr'⟩⟩
  clear has
  induction as generalizing x with
  | nil =>
    obtain rfl : x = y := Option.some.inj hr
    exact hg'
  | cons a as ih =>
    obtain ⟨w, hw, hr⟩ := run_cons.1 hr
    exact guarded_cons_of hw hg.1 (ih (hg.2 w hw) hr)

/-- The state in the middle of a drain. -/
def GuiDrain.state (d : GuiDrain) (x : GestureState) (pc : EmitPc) : GestureState :=
  ⟨d.ui, pc, x.out ++ d.out, x.gui⟩

/-- The state after a flag or a parameter: a drain that is stopped is over. -/
def GuiDrain.landed (d : GuiDrain) (x : GestureState) (pc : EmitPc) : GestureState :=
  d.state x (if d.stopped then .idle else pc)

theorem landed_going {d : GuiDrain} (h : d.stopped = false) (x : GestureState) (pc : EmitPc) :
    d.landed x pc = d.state x pc := by simp [GuiDrain.landed, h]

theorem landed_stopped {d : GuiDrain} (h : d.stopped = true) (x : GestureState) (pc pc' : EmitPc) :
    d.landed x pc = d.landed x pc' := by simp [GuiDrain.landed, h]

/-- The earlier flags of the parameter are taken. -/
def EarlierTaken (u : UiToRt) (p : ParamId) : GestureFlag → Prop
  | .begin_ => True
  | .changed => u.hasGesture p .begin_ = false
  | .end_ => u.hasGesture p .begin_ = false ∧ u.hasGesture p .changed = false

/-- What one flag does to a drain that is not stopped. -/
theorem flag_cases (d : GuiDrain) (p : ParamId) (f : GestureFlag) (ev : OutEvent)
    (hs : d.stopped = false) :
    ∃ w : UiToRt, d.ui.takeGesture p f = (d.ui.hasGesture p f, w) ∧
      (∀ q, w.load q = d.ui.load q) ∧
      (∀ q g, w.hasGesture q g = (d.ui.hasGesture q g && !decide (q = p ∧ g = f))) ∧
      ((d.ui.hasGesture p f = false ∧ d.flag p f ev = { d with ui := w }) ∨
        (d.ui.hasGesture p f = true ∧ d.room = 0 ∧
          d.flag p f ev = { d with ui := w.setGesture p f, stopped := true }) ∨
        (d.ui.hasGesture p f = true ∧ d.room ≠ 0 ∧
          d.flag p f ev = { d with ui := w, room := d.room - 1, out := d.out ++ [ev] })) := by
  obtain ⟨w, hw, hload, hflag⟩ := takeGesture_cases d.ui p f
  refine ⟨w, hw, hload, hflag, ?_⟩
  unfold GuiDrain.flag
  rw [if_neg (by simp [hs]), hw]
  cases hf : d.ui.hasGesture p f with
  | false => exact .inl ⟨rfl, rfl⟩
  | true =>
    by_cases hr : d.room = 0
    · exact .inr (.inl ⟨rfl, hr, if_pos hr⟩)
    · exact .inr (.inr ⟨rfl, hr, if_neg hr⟩)

theorem emits_flag (x : GestureState) {d : GuiDrain} (p : ParamId) (f : GestureFlag)
    (rest : List ParamId) (hs : d.stopped = false) (he : EarlierTaken d.ui p f) :
    Emits (d.state x (.take p f rest))
      ((d.flag p f (flagEvent d.ui p f)).landed x (nextFlag p f rest)) := by
  have hG : ∀ b, GestureGuard (d.state x (.take p f rest)) (.emit b) := by
    intro b
    cases f with
    | begin_ => trivial
    | changed => exact fun _ => he
    | end_ => exact fun _ => he
  obtain ⟨w, hw, hload, hflag, hcase⟩ := flag_cases d p f (flagEvent d.ui p f) hs
  have htake : ∀ b, emitStep (d.state x (.take p f rest)) b =
      { d.state x (.take p f rest) with
        ui := w, pc := if d.ui.hasGesture p f then takenFlag p f rest else nextFlag p f rest } := by
    intro b
    simp only [emitStep, GuiDrain.state, hw]
    cases d.ui.hasGesture p f <;> rfl
  refine .step true (hG true) ?_
  rw [htake]
  -- once the flag is taken, its event is pushed, or put back where there is no room
  have hpush : ∀ b, d.ui.hasGesture p f = true →
      Emits { d.state x (.take p f rest) with ui := w, pc := takenFlag p f rest }
        (emitStep { d.state x (.take p f rest) with
          ui := w, pc := .push p f (flagEvent d.ui p f) rest } b) := by
    intro b _
    cases f with
    | changed =>
      refine .step true trivial (.step b trivial ?_)
      have hval : valueEvent w p = flagEvent d.ui p .changed := by
        rw [flagEvent, valueEvent, valueEvent, hload]
      simp only [emitStep, takenFlag, hval]
      exact .refl _
    | begin_ => exact .step b trivial (.refl _)
    | end_ => exact .step b trivial (.refl _)
  rcases hcase with ⟨hf, hd⟩ | ⟨hf, -, hd⟩ | ⟨hf, -, hd⟩
  · rw [hf, hd]
    simp only [GuiDrain.landed, GuiDrain.state, hs, Bool.false_eq_true, if_false]
    exact .refl _
  · rw [hf, if_pos rfl, hd]
    refine (hpush false hf).trans (.step true ?_ ?_)
    · cases f with
      | end_ =>
        show w.hasGesture p .begin_ = false
        rw [hflag, he.1]
        rfl
      | _ => trivial
    · simp only [emitStep, GuiDrain.landed, GuiDrain.state, Bool.false_eq_true, if_false, if_true]
      exact .refl _
  · rw [hf, if_pos rfl, hd]
    refine (hpush true hf).trans ?_
    simp only [emitStep, GuiDrain.landed, GuiDrain.state, if_true, hs, Bool.false_eq_true,
      if_false, List.append_assoc]
    exact .refl _

/-- A flag that does not stop a drain is taken. -/
theorem flag_hasGesture {d : GuiDrain} {p : ParamId} {f : GestureFlag} {ev : OutEvent}
    (h : (d.flag p f ev).stopped = false) (q : ParamId) (g : GestureFlag) :
    (d.flag p f ev).ui.hasGesture q g = (d.ui.hasGesture q g && !decide (q = p ∧ g = f)) := by
  have hs : d.stopped = false := by
    cases hs : d.stopped with
    | false => rfl
    | true => rw [GuiDrain.flag, if_pos hs, hs] at h; cases h
  obtain ⟨w, -, -, hflag, hcase⟩ := flag_cases d p f ev hs
  rcases hcase with ⟨-, hd⟩ | ⟨-, -, hd⟩ | ⟨-, -, hd⟩
  · rw [hd]; exact hflag q g
  · rw [hd] at h; cases h
  · rw [hd]; exact hflag q g

theorem flag_stopped {d : GuiDrain} (h : d.stopped = true) (p : ParamId) (f : GestureFlag)
    (ev : OutEvent) : d.flag p f ev = d := by
  rw [GuiDrain.flag, if_pos h]

theorem emits_param (x : GestureState) {d : GuiDrain} (p : ParamId) (rest : List ParamId)
    (hs : d.stopped = false) :
    Emits (d.state x (.take p .begin_ rest)) ((d.param p).landed x (nextParam rest)) := by
  have h1 := emits_flag x p .begin_ rest hs trivial
  let afterBegin := d.flag p .begin_ (flagEvent d.ui p .begin_)
  show Emits _ (GuiDrain.landed (GuiDrain.flag (afterBegin.flag p .changed
    (flagEvent afterBegin.ui p .changed)) p .end_ (.gestureEnd p)) x _)
  simp only [afterBegin]
  generalize hd1 : d.flag p .begin_ (flagEvent d.ui p .begin_) = d1 at *
  cases hs1 : d1.stopped with
  | true =>
    rw [flag_stopped hs1, flag_stopped hs1, landed_stopped hs1]
    exact h1
  | false =>
    have hb1 : d1.ui.hasGesture p .begin_ = false := by
      rw [← hd1, flag_hasGesture (by rw [hd1, hs1])]
      simp
    rw [landed_going hs1] at h1
    have h2 := h1.trans (emits_flag x p .changed rest hs1 hb1)
    generalize hd2 : d1.flag p .changed (flagEvent d1.ui p .changed) = d2 at *
    cases hs2 : d2.stopped with
    | true =>
      rw [flag_stopped hs2, landed_stopped hs2]
      exact h2
    | false =>
      have hc2 : ∀ g, d2.ui.hasGesture p g = (d1.ui.hasGesture p g && !decide (g = .changed)) := by
        intro g
        rw [← hd2, flag_hasGesture (by rw [hd2, hs2])]
        simp
      rw [landed_going hs2] at h2
      exact h2.trans (emits_flag x p .end_ rest hs2 ⟨by simp [hc2, hb1], by simp [hc2]⟩)

theorem params_stopped {d : GuiDrain} (h : d.stopped = true) (ps : List ParamId) :
    ps.foldl GuiDrain.param d = d := by
  induction ps with
  | nil => rfl
  | cons p ps ih =>
    rw [List.foldl_cons, show d.param p = d by
      simp only [GuiDrain.param, flag_stopped h], ih]

theorem emits_params (x : GestureState) (ps : List ParamId) {d : GuiDrain}
    (hs : d.stopped = false) :
    Emits (d.state x (nextParam ps)) ((ps.foldl GuiDrain.param d).state x .idle) := by
  induction ps generalizing d with
  | nil => exact .refl _
  | cons p ps ih =>
    have h := emits_param x p ps hs
    rw [List.foldl_cons]
    cases hs' : (d.param p).stopped with
    | true =>
      rw [landed_stopped hs' x _ .idle] at h
      rw [params_stopped hs']
      simp only [GuiDrain.landed, ite_self] at h
      exact h
    | false =>
      rw [landed_going hs'] at h
      exact h.trans (ih hs')

/-- A drain the GUI does not interrupt is `writeGuiEvents`. -/
theorem run_emits (x : GestureState) (room : Nat) (h : x.pc = .idle) :
    Emits x (x.drained room) := by
  by_cases h0 : x.ui.gestureFlags = 0
  · have hsame : x.drained room = x := by
      simp only [GestureState.drained, writeGuiEvents, if_pos h0, List.append_nil]
    rw [hsame]
    exact .refl x
  · have hd := emits_params x guiEventParams (d := ⟨x.ui, room, [], false⟩) rfl
    refine .step true (by simp only [GestureGuard, EmitGuard, h]) ?_
    have hstart : emitStep x true = GuiDrain.state ⟨x.ui, room, [], false⟩ x (nextParam guiEventParams) := by
      unfold emitStep
      rw [h]
      simp only [if_neg h0, GuiDrain.state, List.append_nil]
    have hend : x.drained room =
        (guiEventParams.foldl GuiDrain.param ⟨x.ui, room, [], false⟩).state x .idle := by
      simp only [GestureState.drained, writeGuiEvents, if_neg h0, GuiDrain.state, h]
    rw [hstart, hend]
    exact hd

/-! ## Drains into a queue with room -/

/-- A drain with room for more than `n` events goes on, with room for `n`. -/
theorem flag_going {d : GuiDrain} {n : Nat} (hs : d.stopped = false) (hr : n + 1 ≤ d.room)
    (p : ParamId) (f : GestureFlag) (ev : OutEvent) :
    (d.flag p f ev).stopped = false ∧ n ≤ (d.flag p f ev).room := by
  obtain ⟨w, -, -, -, hcase⟩ := flag_cases d p f ev hs
  rcases hcase with ⟨-, hd⟩ | ⟨-, h0, -⟩ | ⟨-, -, hd⟩
  · rw [hd]
    exact ⟨hs, by simp only; omega⟩
  · omega
  · rw [hd]
    exact ⟨hs, by simp only; omega⟩

theorem param_going {d : GuiDrain} {n : Nat} (hs : d.stopped = false) (hr : n + 3 ≤ d.room)
    (p : ParamId) : (d.param p).stopped = false ∧ n ≤ (d.param p).room ∧
      ∀ q g, (d.param p).ui.hasGesture q g = true → d.ui.hasGesture q g = true ∧ q ≠ p := by
  obtain ⟨hs1, hr1⟩ := flag_going hs (n := n + 2) (by omega) p .begin_ (.gestureBegin p)
  have hf1 := flag_hasGesture hs1
  unfold GuiDrain.param
  dsimp only
  generalize d.flag p .begin_ (.gestureBegin p) = d1 at *
  obtain ⟨hs2, hr2⟩ := flag_going hs1 hr1 p .changed (valueEvent d1.ui p)
  have hf2 := flag_hasGesture hs2
  generalize d1.flag p .changed (valueEvent d1.ui p) = d2 at *
  obtain ⟨hs3, hr3⟩ := flag_going hs2 hr2 p .end_ (.gestureEnd p)
  refine ⟨hs3, hr3, fun q g h => ?_⟩
  rw [flag_hasGesture hs3, hf2, hf1] at h
  simp only [Bool.and_eq_true, Bool.not_eq_true', decide_eq_false_iff_not] at h
  obtain ⟨⟨⟨hx, hb⟩, hc⟩, he⟩ := h
  refine ⟨hx, fun hq => ?_⟩
  cases g with
  | begin_ => exact hb ⟨hq, rfl⟩
  | changed => exact hc ⟨hq, rfl⟩
  | end_ => exact he ⟨hq, rfl⟩

theorem params_taken (ps : List ParamId) {d : GuiDrain} (hs : d.stopped = false)
    (hr : 3 * ps.length ≤ d.room) (q : ParamId) (g : GestureFlag)
    (h : (ps.foldl GuiDrain.param d).ui.hasGesture q g = true) :
    d.ui.hasGesture q g = true ∧ q ∉ ps := by
  induction ps generalizing d with
  | nil => exact ⟨h, by simp⟩
  | cons p ps ih =>
    obtain ⟨hs', hr', htaken⟩ := param_going (n := 3 * ps.length) hs
      (by simpa [Nat.mul_add] using hr) p
    obtain ⟨hq, hps⟩ := ih hs' hr' h
    obtain ⟨hx, hne⟩ := htaken q g hq
    exact ⟨hx, by simp [hne, hps]⟩

/-- A drain with room for every event leaves no flag set. -/
theorem drained_flags (u : UiToRt) {room : Nat} (hr : 24 ≤ room) {p : ParamId}
    (hp : p ≠ .activeModel) (f : GestureFlag) :
    (writeGuiEvents u room).ui.hasGesture p f = false := by
  rw [← Bool.not_eq_true]
  intro h
  unfold writeGuiEvents at h
  split at h
  · rename_i h0
    simp [UiToRt.hasGesture, h0] at h
  · exact (params_taken guiEventParams (d := ⟨u, room, [], false⟩) rfl hr p f h).2 (mem_guiEventParams hp)

/-! ## The stream the host sees -/

/-- The host has seen legal gestures of the parameter, no more than the GUI made, and sees all of
them and the last value once it has room. -/
def HostSees (p : ParamId) (x : GestureState) : Prop :=
  (gestures p x.out).isSome = true ∧
    x.out.count (.gestureBegin p) ≤ x.gui.count (.beginGesture p) ∧
    x.out.count (.gestureEnd p) ≤ x.gui.count (.endGesture p) ∧
    (x.pc = .idle → ∀ room, 24 ≤ room →
      gestures p (x.drained room).out = some (guiOpen p x.gui) ∧
      (x.drained room).out.count (.gestureBegin p) = x.gui.count (.beginGesture p) ∧
      (x.drained room).out.count (.gestureEnd p) = x.gui.count (.endGesture p) ∧
      (unmarked p x.gui = false →
        lastValue p (x.drained room).out = (lastSet p x.gui).map datum))

/-- No flag of the parameter is set and no drain is under way: the host has seen it all. -/
theorem GestureInv.settled {p : ParamId} {x : GestureState} (h : GestureInv p x)
    (hpc : x.pc = .idle) (hf : ∀ f, x.ui.hasGesture p f = false) :
    gestures p x.out = some (guiOpen p x.gui) ∧
      x.out.count (.gestureBegin p) = x.gui.count (.beginGesture p) ∧
      x.out.count (.gestureEnd p) = x.gui.count (.endGesture p) ∧
      (unmarked p x.gui = false → lastValue p x.out = (lastSet p x.gui).map datum) := by
  obtain ⟨⟨a, ha, hord⟩, hb, he, -, -, hv⟩ := h
  have hseen : x.seen = x.out := by simp [GestureState.seen, hpc]
  rw [hseen] at ha hb he hv
  rw [hf] at hb he
  obtain rfl : guiOpen p x.gui = a := by simpa [hf] using hord.gui
  refine ⟨ha, hb, he, fun hun => ?_⟩
  rcases hv with hv | hv | hv
  · rw [hun] at hv; cases hv
  · rw [hf] at hv; cases hv
  · exact hv

/-- In every run that meets the condition the host sees the gestures of every parameter. -/
theorem gestures_kept {u : UiToRt} {as : List GestureAction} {x : GestureState}
    (hG : Guarded gestureStep GestureGuard (.init u) as)
    (h : run gestureStep (.init u) as = some x) {p : ParamId} (hp : p ≠ .activeModel) :
    HostSees p x := by
  have hkept := gestureKept_run hG h
  obtain ⟨⟨a, ha, -⟩, hb, he, -⟩ := hkept.2 p
  refine ⟨?_, ?_, ?_, fun hpc room hr => ?_⟩
  · rw [GestureState.seen, gestures_append] at ha
    obtain ⟨a', ha', -⟩ := Option.bind_eq_some_iff.1 ha
    rw [ha']
    rfl
  · rw [← hb, GestureState.seen, List.count_append]
    omega
  · rw [← he, GestureState.seen, List.count_append]
    omega
  · obtain ⟨bs, -, hGb, hrun⟩ := run_emits x room hpc
    have hdrained : GestureKept (x.drained room) :=
      run_invariant gestureKept_step hkept hGb hrun
    exact (hdrained.2 p).settled hpc (drained_flags x.ui hr hp)

/-- Steps enough for a whole drain. -/
def refDrain : List GestureAction := List.replicate 31 (.emit true)

/-- A knob gesture with two changes, the first of them drained. -/
def refGesture : List GestureAction :=
  [.gui (.beginGesture .inputGain), .gui (.store .inputGain f1),
    .gui (.markParamChanged .inputGain)] ++ refDrain ++
  [.gui (.store .inputGain f2), .gui (.markParamChanged .inputGain),
    .gui (.endGesture .inputGain)] ++ refDrain

/-- The host sees a gesture that spans two drains. -/
theorem gestures_kept_knob : ∃ x, run gestureStep (.init .default) refGesture = some x ∧
    HostSees .inputGain x := by
  obtain ⟨x, hx⟩ := Option.isSome_iff_exists.1
    (show (run gestureStep (.init .default) refGesture).isSome = true by decide +kernel)
  exact ⟨x, hx, gestures_kept (by decide +kernel) hx (by decide)⟩

/-- A second gesture that begins between the end of the first and the next drain. -/
def refRegrab : List GestureAction :=
  .gui (.beginGesture .inputGain) :: refDrain ++
  [.gui (.endGesture .inputGain), .gui (.beginGesture .inputGain)] ++ refDrain

/-- The host sees the second gesture begin in the first one. -/
theorem gestures_lost : ¬∀ u as x, run gestureStep (.init u) as = some x →
    ∀ p, p ≠ .activeModel → HostSees p x := by
  intro h
  obtain ⟨x, hx⟩ := Option.isSome_iff_exists.1
    (show (run gestureStep (.init .default) refRegrab).isSome = true by decide +kernel)
  have hsome := (h _ _ x hx .inputGain (by decide)).1
  have hnone : (run gestureStep (.init .default) refRegrab).all
      (fun x => (gestures .inputGain x.out).isNone) = true := by decide +kernel
  rw [hx] at hnone
  rw [Option.all_some, Option.isNone_iff_eq_none] at hnone
  rw [hnone] at hsome
  cases hsome

end NamPlug
