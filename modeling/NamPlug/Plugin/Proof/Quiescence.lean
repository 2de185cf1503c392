import Mathlib.Algebra.BigOperators.Group.Finset.Piecewise
import Mathlib.Algebra.Order.BigOperators.Group.Finset
import NamPlug.Plugin.Quiescence

/-!
# Quiescence is reached, and stays

`QuiescenceInv`: the threads that hold the mutex are alone with it, the count is the number of live
guards, and a quiescer that sleeps while no guard is live has a wake-up coming. It holds in every
state of a run (`quiescence_step`), whatever the threads do and in whatever order.
-/

namespace NamPlug

open Machine

variable {T : Type}

/-! ## Where a thread is -/

/-- The thread holds the mutex. -/
def QuiescencePc.holds : QuiescencePc → Bool
  | .enterHeld _ | .enterChecked | .enterRejected | .enterAdmitted => true
  | .dropHeld _ | .dropCounted _ | .dropUnlock _ _ => true
  | .quiesceHeld _ | .quiesceLoop _ | .quiesceRecover _ _ => true
  | .quiesceStalled | .quiesceUnlock _ => true
  | _ => false

/-- The thread has closed the coordinator. -/
def QuiescencePc.closed : QuiescencePc → Bool
  | .quiesceLoop _ | .quiesceAsleep _ | .quiesceRelock _ | .quiesceRecover _ _ => true
  | .quiesceStalled | .quiesceUnlock _ | .quiesceReturned _ => true
  | _ => false

/-- The thread has found no guard live. -/
def QuiescencePc.done : QuiescencePc → Bool
  | .quiesceUnlock _ | .quiesceReturned _ => true
  | _ => false

/-- What a thread relies on. -/
structure QuiescencePc.Ok (x : Quiescence T) (t : T) (pc : QuiescencePc) : Prop where
  holds : pc.holds = true → x.owner = some t
  checked : pc = .enterChecked → x.state.active = true
  closed : pc.closed = true → x.state.active = false
  done : pc.done = true → x.state.inFlight = 0

/-- A thread that has nothing to rely on. -/
theorem QuiescencePc.Ok.free (x : Quiescence T) (t : T) {pc : QuiescencePc} (hh : pc.holds = false)
    (hc : pc.closed = false) (hd : pc.done = false) : pc.Ok x t where
  holds h := by rw [hh] at h; cases h
  checked h := by subst h; cases hh
  closed h := by rw [hc] at h; cases h
  done h := by rw [hd] at h; cases h

/-- What another thread relies on stays, if the state changes under the lock only. -/
theorem QuiescencePc.Ok.other {x y : Quiescence T} {t u : T} {pc : QuiescencePc} (h : pc.Ok x u)
    (hne : u ≠ t) (howner : y.owner = x.owner ∨ x.owner = none ∨ x.owner = some t)
    (hactive : y.state.active = x.state.active ∨ (x.owner = some t ∧ y.state.active = false))
    (hdone : x.state.active = false → x.state.inFlight = 0 → y.state.inFlight = 0)
    (hclosed : pc.done = true → pc.closed = true) : pc.Ok y u where
  holds hh := by
    have hu := h.holds hh
    obtain ho | ho | ho := howner
    · exact ho.trans hu
    · rw [hu] at ho
      cases ho
    · rw [hu] at ho
      exact absurd (Option.some.inj ho) hne
  checked hc := by
    obtain ha | ⟨ho, -⟩ := hactive
    · exact ha.trans (h.checked hc)
    · rw [h.holds (hc ▸ rfl)] at ho
      exact absurd (Option.some.inj ho) hne
  closed hc := by
    obtain ha | ⟨-, ha⟩ := hactive
    · exact ha.trans (h.closed hc)
    · exact ha
  done hd := hdone (h.closed (hclosed hd)) (h.done hd)

theorem QuiescencePc.closed_of_done {pc : QuiescencePc} (h : pc.done = true) :
    pc.closed = true := by
  cases pc <;> first | rfl | cases h

/-- A thread that holds the mutex on its way. -/
theorem QuiescencePc.Ok.hold {x : Quiescence T} {t : T} {pc : QuiescencePc}
    (ho : x.owner = some t) (hn : pc ≠ .enterChecked) (hc : pc.closed = false) : pc.Ok x t where
  holds _ := ho
  checked h := absurd h hn
  closed h := by rw [hc] at h; cases h
  done h := by rw [closed_of_done h] at hc; cases hc

/-- The quiescer that holds the mutex. -/
theorem QuiescencePc.Ok.quiescer {x : Quiescence T} {t : T} {pc : QuiescencePc}
    (ho : pc.holds = true → x.owner = some t) (ha : x.state.active = false)
    (hn : pc ≠ .enterChecked) (hd : pc.done = true → x.state.inFlight = 0) : pc.Ok x t where
  holds := ho
  checked h := absurd h hn
  closed _ := ha
  done := hd

theorem clearPoison_eq (x : Quiescence T) (p : Bool) :
    x.clearPoison p = { x with poisoned := x.poisoned && !p } := by
  unfold Quiescence.clearPoison
  cases p <;> simp

/-! ## Moves -/

section
variable [DecidableEq T]

/-- What the step of one thread does. -/
structure QuiescenceMove (x y : Quiescence T) (t : T) (pc : QuiescencePc) : Prop where
  moved : y.pc = Function.update x.pc t pc
  owner : y.owner = x.owner ∨ x.owner = none ∨ x.owner = some t
  active : y.state.active = x.state.active ∨ (x.owner = some t ∧ y.state.active = false)
  done : x.state.active = false → x.state.inFlight = 0 → y.state.inFlight = 0
  ok : pc.Ok y t
  counted : y.state.inFlight + x.owned + (x.pc t).guards = x.state.inFlight + y.owned + pc.guards
  asleep : pc.asleep = true → y.state.inFlight ≠ 0
  wakes : y.state.inFlight = 0 →
    x.state.inFlight ≠ 0 ∨ (x.pc t).wakes 0 = true → pc.wakes 0 = true

/-- A step that leaves the state alone. -/
theorem QuiescenceMove.keep {x y : Quiescence T} {t : T} {pc : QuiescencePc}
    (hm : y.pc = Function.update x.pc t pc)
    (howner : y.owner = x.owner ∨ x.owner = none ∨ x.owner = some t) (hs : y.state = x.state)
    (hok : pc.Ok y t) (hg : x.owned + (x.pc t).guards = y.owned + pc.guards)
    (ha : pc.asleep = true → x.state.inFlight ≠ 0)
    (hw : x.state.inFlight = 0 → (x.pc t).wakes 0 = true → pc.wakes 0 = true) :
    QuiescenceMove x y t pc where
  moved := hm
  owner := howner
  active := .inl (by rw [hs])
  done _ h := by rw [hs]; exact h
  ok := hok
  counted := by rw [hs]; omega
  asleep h := by rw [hs]; exact ha h
  wakes h0 hp := by
    rw [hs] at h0
    exact hw h0 (hp.resolve_left fun hn => hn h0)

theorem QuiescenceMove.lock {x y : Quiescence T} {t : T} {f : Bool → QuiescencePc}
    (h : x.lock t f = some y) (hg : ∀ p, (x.pc t).guards = (f p).guards)
    (hok : ∀ p, (f p).Ok { x with owner := some t } t) (ha : ∀ p, (f p).asleep = false)
    (hw : (x.pc t).wakes 0 = false) : QuiescenceMove x y t (f x.poisoned) := by
  unfold Quiescence.lock at h
  split_ifs at h with ho
  obtain rfl := Option.some.inj h
  have hok := hok x.poisoned
  refine .keep rfl (.inr (.inl ho)) rfl ⟨hok.holds, hok.checked, hok.closed, hok.done⟩ ?_ ?_ ?_
  · exact congrArg (x.owned + ·) (hg _)
  · intro h
    rw [ha] at h
    cases h
  · intro _ h
    rw [hw] at h
    cases h

/-- The steps of `enter`. -/
theorem enter_move {x y : Quiescence T} {t : T} (hok : (x.pc t).Ok x t) (h : x.advance t = some y)
    (ht : x.pc t = .enterLock ∨ (∃ p, x.pc t = .enterHeld p) ∨ x.pc t = .enterChecked ∨
      x.pc t = .enterRejected ∨ x.pc t = .enterAdmitted) : ∃ pc, QuiescenceMove x y t pc := by
  unfold Quiescence.advance at h
  rcases ht with ht | ⟨p, ht⟩ | ht | ht | ht <;> rw [ht] at h hok <;> dsimp only at h
  · exact ⟨_, .lock h (fun p => by rw [ht]; rfl) (fun p => .hold rfl (by simp) rfl)
      (fun p => rfl) (by rw [ht]; rfl)⟩
  · have ho := hok.holds rfl
    obtain rfl := Option.some.inj h
    refine ⟨_, .keep rfl (.inl rfl) rfl ?_ ?_ ?_ ?_⟩
    · by_cases hr : (p || x.rejects) = true
      · rw [if_pos hr]
        exact .hold ho (by simp) rfl
      · rw [if_neg hr]
        refine ⟨fun _ => ho, fun _ => ?_, fun h => (by cases h), fun h => (by cases h)⟩
        simp only [Quiescence.rejects, Bool.not_eq_true, Bool.or_eq_false_iff,
          Bool.not_eq_false'] at hr
        exact hr.2.1
    · rw [ht]
      split <;> rfl
    · split <;> exact fun h => by cases h
    · rw [ht]
      exact fun _ h => by cases h
  · -- the call is counted
    have ho := hok.holds rfl
    have ha := hok.checked rfl
    obtain rfl := Option.some.inj h
    refine ⟨_, rfl, .inl rfl, .inl rfl, fun hc => ?_, .hold ho (by simp) rfl, ?_,
      fun h => (by cases h), fun h0 => ?_⟩
    · rw [ha] at hc
      cases hc
    · rw [ht]
      show x.state.inFlight + 1 + x.owned + 0 = x.state.inFlight + x.owned + 1
      omega
    · cases h0
  · obtain rfl := Option.some.inj h
    exact ⟨_, .keep rfl (.inr (.inr (hok.holds rfl))) rfl (.free _ t rfl rfl rfl) (by rw [ht]; rfl)
      (fun h => (by cases h)) (by rw [ht]; exact fun _ h => by cases h)⟩
  · obtain rfl := Option.some.inj h
    exact ⟨_, .keep rfl (.inr (.inr (hok.holds rfl))) rfl (.free _ t rfl rfl rfl) (by rw [ht]; rfl)
      (fun h => (by cases h)) (by rw [ht]; exact fun _ h => by cases h)⟩

/-- The steps of the drop of a guard, besides the notification. -/
theorem drop_move {x y : Quiescence T} {t : T} (hok : (x.pc t).Ok x t)
    (hc : (x.pc t).guards ≤ x.state.inFlight) (h : x.advance t = some y)
    (ht : x.pc t = .dropLock ∨ (∃ p, x.pc t = .dropHeld p) ∨ (∃ p, x.pc t = .dropCounted p) ∨
      (∃ w p, x.pc t = .dropUnlock w p) ∨ x.pc t = .dropClear) :
    ∃ pc, QuiescenceMove x y t pc := by
  unfold Quiescence.advance at h
  rcases ht with ht | ⟨p, ht⟩ | ⟨p, ht⟩ | ⟨w, p, ht⟩ | ht <;> rw [ht] at h hok hc <;>
    dsimp only at h
  · exact ⟨_, .lock h (fun p => by rw [ht]; rfl) (fun p => .hold rfl (by simp) rfl)
      (fun p => rfl) (by rw [ht]; rfl)⟩
  · -- the guard is counted down
    have hc : 1 ≤ x.state.inFlight := hc
    obtain rfl := Option.some.inj h
    refine ⟨_, rfl, .inl rfl, .inl rfl, fun _ h0 => ?_, .hold (hok.holds rfl) (by simp) rfl, ?_,
      fun h => (by cases h), fun h0 _ => rfl⟩
    · omega
    · rw [ht]
      show x.state.inFlight - 1 + x.owned + 1 = x.state.inFlight + x.owned + 0
      omega
  · obtain rfl := Option.some.inj h
    refine ⟨_, .keep rfl (.inl rfl) rfl (.hold (hok.holds rfl) (by simp) rfl) (by rw [ht]; rfl)
      (fun h => (by cases h)) fun h0 _ => ?_⟩
    exact decide_eq_true h0
  · obtain rfl := Option.some.inj h
    refine ⟨_, .keep rfl (.inr (.inr (hok.holds rfl))) rfl ?_ ?_ ?_ ?_⟩
    · cases w <;> cases p <;> exact .free _ t rfl rfl rfl
    · rw [ht]
      cases w <;> cases p <;> rfl
    · cases w <;> cases p <;> exact fun h => by cases h
    · rw [ht]
      rintro - (rfl : w = true)
      rfl
  · obtain rfl := Option.some.inj h
    rw [clearPoison_eq]
    exact ⟨_, .keep rfl (.inl rfl) rfl (.free _ t rfl rfl rfl) (by rw [ht]; rfl)
      (fun h => (by cases h)) (by rw [ht]; exact fun _ h => by cases h)⟩

/-- The steps of `quiesce`. -/
theorem quiesce_move {x y : Quiescence T} {t : T} (hok : (x.pc t).Ok x t)
    (h : x.advance t = some y)
    (ht : x.pc t = .quiesceLock ∨ (∃ p, x.pc t = .quiesceHeld p) ∨
      (∃ w, x.pc t = .quiesceLoop w) ∨ (∃ w, x.pc t = .quiesceRelock w) ∨
      (∃ w p, x.pc t = .quiesceRecover w p) ∨ x.pc t = .quiesceStalled ∨
      ∃ w, x.pc t = .quiesceUnlock w) : ∃ pc, QuiescenceMove x y t pc := by
  unfold Quiescence.advance at h
  rcases ht with ht | ⟨p, ht⟩ | ⟨w, ht⟩ | ⟨w, ht⟩ | ⟨w, p, ht⟩ | ht | ⟨w, ht⟩ <;>
    rw [ht] at h hok <;> dsimp only at h
  · exact ⟨_, .lock h (fun p => by rw [ht]; rfl) (fun p => .hold rfl (by simp) rfl)
      (fun p => rfl) (by rw [ht]; rfl)⟩
  · -- the coordinator is closed
    have ho := hok.holds rfl
    obtain rfl := Option.some.inj h
    rw [clearPoison_eq]
    exact ⟨_, rfl, .inl rfl, .inr ⟨ho, rfl⟩, fun _ h => h,
      .quiescer (fun _ => ho) rfl (by simp) (fun h => by cases h), by rw [ht]; rfl,
      fun h => (by cases h), fun h0 hw => by
        rw [ht] at hw
        exact absurd (hw.resolve_left fun hn => hn h0) (by simp [QuiescencePc.wakes])⟩
  · have ho := hok.holds rfl
    have ha := hok.closed rfl
    split_ifs at h with h0
    · obtain rfl := Option.some.inj h
      exact ⟨_, .keep rfl (.inl rfl) rfl (.quiescer (fun _ => ho) ha (by simp) fun _ => h0)
        (by rw [ht]; rfl) (fun h => (by cases h)) (by rw [ht]; exact fun _ h => by cases h)⟩
    · obtain rfl := Option.some.inj h
      exact ⟨_, .keep rfl (.inr (.inr ho)) rfl
        (.quiescer (fun h => by cases h) ha (by simp) fun h => by cases h)
        (by rw [ht]; rfl) (fun _ => h0) (by rw [ht]; exact fun _ h => by cases h)⟩
  · have ha := hok.closed rfl
    exact ⟨_, .lock h (fun p => by rw [ht]; rfl)
      (fun p => .quiescer (fun _ => rfl) ha (by simp) fun h => by cases h) (fun p => rfl)
      (by rw [ht]; rfl)⟩
  · have ho := hok.holds rfl
    have ha := hok.closed rfl
    obtain rfl := Option.some.inj h
    rw [clearPoison_eq]
    exact ⟨_, .keep rfl (.inl rfl) rfl
      (.quiescer (fun _ => ho) ha (by simp) fun h => by cases h)
      (by rw [ht]; rfl) (fun h => (by cases h)) (by rw [ht]; exact fun _ h => by cases h)⟩
  · have ho := hok.holds rfl
    have ha := hok.closed rfl
    obtain rfl := Option.some.inj h
    exact ⟨_, .keep rfl (.inr (.inr ho)) rfl
      (.quiescer (fun h => by cases h) ha (by simp) fun h => by cases h)
      (by rw [ht]; rfl) (fun h => (by cases h)) (by rw [ht]; exact fun _ h => by cases h)⟩
  · have ho := hok.holds rfl
    have ha := hok.closed rfl
    have h0 := hok.done rfl
    obtain rfl := Option.some.inj h
    exact ⟨_, .keep rfl (.inr (.inr ho)) rfl
      (.quiescer (fun h => by cases h) ha (by simp) fun _ => h0)
      (by rw [ht]; rfl) (fun h => (by cases h)) (by rw [ht]; exact fun _ h => by cases h)⟩

end

/-! ## The invariant -/

section
variable [Fintype T]

structure QuiescenceInv (x : Quiescence T) : Prop where
  ok : ∀ t, (x.pc t).Ok x t
  counted : x.state.inFlight = x.liveGuards
  woken : ∀ t, (x.pc t).asleep = true → x.state.inFlight = 0 → x.WakePending

theorem quiescence_init (kind : QuiescenceKind) : QuiescenceInv (.init T kind) where
  ok t := .free _ t rfl rfl rfl
  counted := by
    show 0 = 0 + ∑ _ : T, 0
    simp
  woken t h := by cases h

/-- A guard in the hands of a thread is counted. -/
theorem QuiescenceInv.guards_le {x : Quiescence T} (hx : QuiescenceInv x) (t : T) :
    (x.pc t).guards ≤ x.state.inFlight := by
  have := Finset.single_le_sum (f := fun t => (x.pc t).guards) (fun _ _ => Nat.zero_le _)
    (Finset.mem_univ t)
  rw [hx.counted]
  unfold Quiescence.liveGuards
  omega

/-- The coordinator is closed and no guard is live. -/
structure Quiesced (x : Quiescence T) : Prop extends QuiescenceInv x where
  active : x.state.active = false
  inFlight : x.state.inFlight = 0

theorem Quiesced.rejects {x : Quiescence T} (hx : Quiesced x) : x.rejects = true := by
  simp [Quiescence.rejects, hx.active]

/-- No thread is past the check of `enter`. -/
theorem Quiesced.not_admitted {x : Quiescence T} (hx : Quiesced x) (t : T) :
    x.pc t ≠ .enterChecked ∧ x.pc t ≠ .enterAdmitted := by
  constructor
  · intro ht
    have := (hx.ok t).checked ht
    rw [hx.active] at this
    cases this
  · intro ht
    have := hx.guards_le t
    rw [hx.inFlight, ht] at this
    cases this

variable [DecidableEq T]

theorem sum_update (f : T → Nat) (t : T) (n : Nat) :
    ∑ u, Function.update f t n u + f t = ∑ u, f u + n := by
  have hs := Finset.sum_sdiff (f := f) (Finset.subset_univ {t})
  rw [Finset.sum_update_of_mem (Finset.mem_univ t)]
  rw [Finset.sum_singleton] at hs
  omega

/-- The guards in the hands of the threads, after one of them moved on. -/
theorem guards_update (pc : T → QuiescencePc) (t : T) (pc' : QuiescencePc) :
    ∑ u, (Function.update pc t pc' u).guards + (pc t).guards = ∑ u, (pc u).guards + pc'.guards := by
  rw [← sum_update (fun u => (pc u).guards) t pc'.guards]
  congr 1
  refine Finset.sum_congr rfl fun u _ => ?_
  by_cases hu : u = t
  · subst hu
    rw [Function.update_self, Function.update_self]
  · rw [Function.update_of_ne hu, Function.update_of_ne hu]

theorem QuiescenceInv.move {x y : Quiescence T} {t : T} {pc : QuiescencePc}
    (hx : QuiescenceInv x) (h : QuiescenceMove x y t pc) : QuiescenceInv y where
  ok u := by
    rw [h.moved]
    by_cases hu : u = t
    · subst hu
      rw [Function.update_self]
      exact h.ok
    · rw [Function.update_of_ne hu]
      exact (hx.ok u).other hu h.owner h.active h.done QuiescencePc.closed_of_done
  counted := by
    have hg := guards_update x.pc t pc
    have hc := hx.counted
    have hm := h.counted
    unfold Quiescence.liveGuards at hc ⊢
    rw [h.moved]
    omega
  woken u hu h0 := by
    by_cases hx0 : x.state.inFlight = 0 ∧ (x.pc t).wakes 0 = false
    · -- the wake-up that was coming is another thread's
      rw [h.moved] at hu
      have hu' : (x.pc u).asleep = true := by
        by_cases hut : u = t
        · subst hut
          rw [Function.update_self] at hu
          exact absurd h0 (h.asleep hu)
        · rwa [Function.update_of_ne hut] at hu
      obtain ⟨v, hv⟩ := hx.woken u hu' hx0.1
      rw [hx0.1] at hv
      have hvt : v ≠ t := by
        rintro rfl
        rw [hx0.2] at hv
        cases hv
      refine ⟨v, ?_⟩
      rw [h0, h.moved, Function.update_of_ne hvt]
      exact hv
    · refine ⟨t, ?_⟩
      rw [h0, h.moved, Function.update_self]
      refine h.wakes h0 ?_
      by_cases hi : x.state.inFlight = 0
      · exact .inr (by simpa using fun hw => hx0 ⟨hi, hw⟩)
      · exact .inl hi

/-- A notification wakes everyone, so that nobody waits for it. -/
theorem quiescence_notify {x : Quiescence T} {t : T} {p : Bool} (hx : QuiescenceInv x)
    (ht : x.pc t = .dropNotify p) :
    QuiescenceInv ({ x with pc := fun u => (x.pc u).notified }.goto t (dropEnd p)) := by
  have hpc : ∀ u, ({ x with pc := fun u => (x.pc u).notified }.goto t (dropEnd p)).pc u =
      if u = t then dropEnd p else (x.pc u).notified := fun u => Function.update_apply ..
  have hend : (dropEnd p).holds = false ∧ (dropEnd p).closed = false ∧ (dropEnd p).done = false ∧
      (dropEnd p).guards = 0 ∧ (dropEnd p).asleep = false := by
    cases p <;> exact ⟨rfl, rfl, rfl, rfl, rfl⟩
  refine ⟨fun u => ?_, ?_, fun u hu => ?_⟩
  · rw [hpc]
    split
    · exact .free _ u hend.1 hend.2.1 hend.2.2.1
    · have hok := hx.ok u
      cases hu : x.pc u <;> rw [hu] at hok
      case quiesceAsleep w => exact .quiescer (fun h => by cases h) (hok.closed rfl) (by simp [QuiescencePc.notified]) fun h => by cases h
      all_goals exact ⟨hok.holds, hok.checked, hok.closed, hok.done⟩
  · refine hx.counted.trans ?_
    refine congrArg (x.owned + ·) (Finset.sum_congr rfl fun u _ => ?_)
    rw [hpc]
    split
    · rename_i hu
      rw [hu, ht, hend.2.2.2.1]
      rfl
    · cases x.pc u <;> rfl
  · rw [hpc] at hu
    split at hu
    · rw [hend.2.2.2.2] at hu
      cases hu
    · cases hp : x.pc u <;> rw [hp] at hu <;> cases hu

theorem advance_moves {x y : Quiescence T} {t : T} (hx : QuiescenceInv x)
    (h : x.advance t = some y) :
    (∃ t pc, QuiescenceMove x y t pc) ∨ (y.state = x.state ∧ QuiescenceInv y) := by
  cases ht : x.pc t with
  | idle => simp [Quiescence.advance, ht] at h
  | enterLock => exact .inl ⟨t, enter_move (hx.ok t) h (.inl ht)⟩
  | enterHeld p => exact .inl ⟨t, enter_move (hx.ok t) h (.inr (.inl ⟨p, ht⟩))⟩
  | enterChecked => exact .inl ⟨t, enter_move (hx.ok t) h (.inr (.inr (.inl ht)))⟩
  | enterRejected => exact .inl ⟨t, enter_move (hx.ok t) h (.inr (.inr (.inr (.inl ht))))⟩
  | enterAdmitted => exact .inl ⟨t, enter_move (hx.ok t) h (.inr (.inr (.inr (.inr ht))))⟩
  | dropLock => exact .inl ⟨t, drop_move (hx.ok t) (hx.guards_le t) h (.inl ht)⟩
  | dropHeld p => exact .inl ⟨t, drop_move (hx.ok t) (hx.guards_le t) h (.inr (.inl ⟨p, ht⟩))⟩
  | dropCounted p => exact .inl ⟨t, drop_move (hx.ok t) (hx.guards_le t) h (.inr (.inr (.inl ⟨p, ht⟩)))⟩
  | dropUnlock w p => exact .inl ⟨t, drop_move (hx.ok t) (hx.guards_le t) h (.inr (.inr (.inr (.inl ⟨w, p, ht⟩))))⟩
  | dropNotify p =>
    simp only [Quiescence.advance, ht] at h
    obtain rfl := Option.some.inj h
    exact .inr ⟨rfl, quiescence_notify hx ht⟩
  | dropClear => exact .inl ⟨t, drop_move (hx.ok t) (hx.guards_le t) h (.inr (.inr (.inr (.inr ht))))⟩
  | quiesceLock => exact .inl ⟨t, quiesce_move (hx.ok t) h (.inl ht)⟩
  | quiesceHeld p => exact .inl ⟨t, quiesce_move (hx.ok t) h (.inr (.inl ⟨p, ht⟩))⟩
  | quiesceLoop w => exact .inl ⟨t, quiesce_move (hx.ok t) h (.inr (.inr (.inl ⟨w, ht⟩)))⟩
  | quiesceAsleep w => simp [Quiescence.advance, ht] at h
  | quiesceRelock w => exact .inl ⟨t, quiesce_move (hx.ok t) h (.inr (.inr (.inr (.inl ⟨w, ht⟩))))⟩
  | quiesceRecover w p => exact .inl ⟨t, quiesce_move (hx.ok t) h (.inr (.inr (.inr (.inr (.inl ⟨w, p, ht⟩)))))⟩
  | quiesceStalled => exact .inl ⟨t, quiesce_move (hx.ok t) h (.inr (.inr (.inr (.inr (.inr (.inl ht))))))⟩
  | quiesceUnlock w => exact .inl ⟨t, quiesce_move (hx.ok t) h (.inr (.inr (.inr (.inr (.inr (.inr ⟨w, ht⟩))))))⟩
  | quiesceReturned o => simp [Quiescence.advance, ht] at h

/-- A step is a move of one thread, or leaves the state alone. -/
theorem step_moves {x y : Quiescence T} {a : QuiescenceAction T} (hx : QuiescenceInv x)
    (h : quiescenceStep x a = some y) :
    (∃ t pc, QuiescenceMove x y t pc) ∨ (y.state = x.state ∧ QuiescenceInv y) := by
  have hfree : ∀ t, (x.pc t).free = true → (x.pc t).guards = 0 ∧ (x.pc t).wakes 0 = false := by
    intro t ht
    cases hp : x.pc t <;> rw [hp] at ht <;> cases ht <;> exact ⟨rfl, rfl⟩
  have hwoken : ∀ t w, x.pc t = .quiesceAsleep w →
      QuiescenceMove x (x.goto t (.quiesceRelock w)) t (.quiesceRelock w) := by
    intro t w ht
    have hok := hx.ok t
    rw [ht] at hok
    exact .keep rfl (.inl rfl) rfl (.quiescer (fun h => by cases h) (hok.closed rfl)
      (by simp) fun h => by cases h) (by rw [ht]; rfl) (fun h => (by cases h))
      (by rw [ht]; exact fun _ h => by cases h)
  cases a with
  | callEnter t =>
    simp only [quiescenceStep] at h
    split_ifs at h with ht
    obtain rfl := Option.some.inj h
    obtain ⟨hg, hw⟩ := hfree t ht
    exact .inl ⟨t, _, .keep rfl (.inl rfl) rfl (.free _ t rfl rfl rfl) (by rw [hg]; rfl)
      (fun h => (by cases h)) (by rw [hw]; exact fun _ h => by cases h)⟩
  | callDrop t =>
    simp only [quiescenceStep] at h
    split_ifs at h with ht
    obtain rfl := Option.some.inj h
    obtain ⟨hg, hw⟩ := hfree t ht.1
    refine .inl ⟨t, _, .keep rfl (.inl rfl) rfl (.free _ t rfl rfl rfl) ?_
      (fun h => (by cases h)) (by rw [hw]; exact fun _ h => by cases h)⟩
    rw [hg]
    show x.owned + 0 = x.owned - 1 + 1
    omega
  | callQuiesce t =>
    simp only [quiescenceStep] at h
    split_ifs at h with ht
    obtain rfl := Option.some.inj h
    obtain ⟨hg, hw⟩ := hfree t ht
    exact .inl ⟨t, _, .keep rfl (.inl rfl) rfl (.free _ t rfl rfl rfl) (by rw [hg]; rfl)
      (fun h => (by cases h)) (by rw [hw]; exact fun _ h => by cases h)⟩
  | advance t => exact advance_moves hx h
  | timeout t =>
    have hok := hx.ok t
    simp only [quiescenceStep] at h
    split at h
    · rename_i ht
      rw [ht] at hok
      split_ifs at h
      obtain rfl := Option.some.inj h
      exact .inl ⟨t, _, .keep rfl (.inl rfl) rfl (.quiescer (fun _ => hok.holds rfl)
        (hok.closed rfl) (by simp) fun h => by cases h) (by rw [ht]; rfl) (fun h => (by cases h))
        (by rw [ht]; exact fun _ h => by cases h)⟩
    · obtain rfl := Option.some.inj h
      exact .inl ⟨t, _, hwoken t _ ‹_›⟩
    · cases h
  | spuriousWakeup t =>
    simp only [quiescenceStep] at h
    split at h
    · obtain rfl := Option.some.inj h
      exact .inl ⟨t, _, hwoken t _ ‹_›⟩
    · cases h
  | poison =>
    simp only [quiescenceStep] at h
    split_ifs at h
    obtain rfl := Option.some.inj h
    exact .inr ⟨rfl, fun t => ⟨(hx.ok t).holds, (hx.ok t).checked, (hx.ok t).closed,
      (hx.ok t).done⟩, hx.counted, hx.woken⟩
  | setFence alive =>
    obtain rfl := Option.some.inj h
    exact .inr ⟨rfl, fun t => ⟨(hx.ok t).holds, (hx.ok t).checked, (hx.ok t).closed,
      (hx.ok t).done⟩, hx.counted, hx.woken⟩

theorem quiescence_step {x y : Quiescence T} {a : QuiescenceAction T} (hx : QuiescenceInv x)
    (h : quiescenceStep x a = some y) : QuiescenceInv y := by
  obtain ⟨t, pc, hm⟩ | ⟨-, hy⟩ := step_moves hx h
  · exact hx.move hm
  · exact hy

/-! ## After the teardown -/

theorem quiesced_step {x y : Quiescence T} {a : QuiescenceAction T} (hx : Quiesced x)
    (h : quiescenceStep x a = some y) : Quiesced y := by
  refine ⟨quiescence_step hx.toQuiescenceInv h, ?_, ?_⟩
  · obtain ⟨t, pc, hm⟩ | ⟨hs, -⟩ := step_moves hx.toQuiescenceInv h
    · obtain ha | ⟨-, ha⟩ := hm.active
      · exact ha.trans hx.active
      · exact ha
    · rw [hs]
      exact hx.active
  · obtain ⟨t, pc, hm⟩ | ⟨hs, -⟩ := step_moves hx.toQuiescenceInv h
    · exact hm.done hx.active hx.inFlight
    · rw [hs]
      exact hx.inFlight

/-- In every state of a run the count is the number of live guards and no quiescer sleeps through
the last wake-up, and once a quiesce has returned no guard is live and every `enter` is rejected. -/
theorem quiescence_kept {kind : QuiescenceKind} {as : List (QuiescenceAction T)}
    {x : Quiescence T} (h : run quiescenceStep (.init T kind) as = some x) :
    x.state.inFlight = x.liveGuards ∧
    (∀ t o, x.pc t = .quiesceReturned o → ∀ bs y, run quiescenceStep x bs = some y →
      y.liveGuards = 0 ∧ y.rejects = true ∧
        ∀ u, y.pc u ≠ .enterChecked ∧ y.pc u ≠ .enterAdmitted) ∧
    ¬∃ t, (x.pc t).asleep = true ∧ x.state.inFlight = 0 ∧ ¬x.WakePending := by
  have hx : QuiescenceInv x := run_always (fun _ _ _ hI h => quiescence_step hI h)
    (quiescence_init kind) h
  refine ⟨hx.counted, fun t o ht bs y hy => ?_, ?_⟩
  · have hok := hx.ok t
    rw [ht] at hok
    have hq : Quiesced x := ⟨hx, hok.closed rfl, hok.done rfl⟩
    have hy : Quiesced y := run_always (fun _ _ _ hI h => quiesced_step hI h) hq hy
    exact ⟨hy.counted.symm.trans hy.inFlight, hy.rejects, hy.not_admitted⟩
  · rintro ⟨t, ha, h0, hw⟩
    exact hw (hx.woken t ha h0)

end

/-! ## A run on fixed inputs -/

/-- The thread `true` is in a host call, with the mutex poisoned, when `false` quiesces. The grace
period ends, and the drop of the guard wakes the quiescer up. -/
def stalledTeardown : List (QuiescenceAction Bool) :=
  .callEnter true :: List.replicate 4 (.advance true) ++ [.poison] ++
    .callQuiesce false :: List.replicate 3 (.advance false) ++ [.timeout false] ++
    List.replicate 2 (.advance false) ++ [.timeout false] ++ List.replicate 4 (.advance false) ++
    .callDrop true :: List.replicate 5 (.advance true) ++ List.replicate 4 (.advance false)

theorem quiescence_kept_stalled :
    ∃ x, run quiescenceStep (.init Bool .hostCall) stalledTeardown = some x ∧
      x.pc false = .quiesceReturned .stalledWait ∧ x.liveGuards = 0 ∧ x.rejects = true := by
  have hsome : (run quiescenceStep (.init Bool .hostCall) stalledTeardown).any
      (·.pc false = .quiesceReturned .stalledWait) = true := by decide +kernel
  obtain ⟨x, hx, ht⟩ := (Option.any_eq_true _ _).1 hsome
  have ht : x.pc false = .quiesceReturned .stalledWait := of_decide_eq_true ht
  obtain ⟨-, hq, -⟩ := quiescence_kept hx
  obtain ⟨hl, hr, -⟩ := hq false _ ht [] x rfl
  exact ⟨x, hx, ht, hl, hr⟩

end NamPlug
