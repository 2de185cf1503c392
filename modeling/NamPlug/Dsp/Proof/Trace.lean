import NamPlug.Dsp.Orchestrator
import NamPlug.Lib.Timeline

/-!
# The trace of a block

What a trace says about the events of a block: which were applied (`applied`), at which sample each
took effect (`effects`: a fused event at the offset of its gain step, any other where the next
sub-block starts), which spans were processed (`spans`) and which output was written (`writes`).

`scheduleInputEvents_events`: up to 4096 parameter events are scheduled, in order;
`scheduleInputEvents_sorted`: a list flagged sorted is.
-/

namespace NamPlug

open Timeline

/-! ## Reading a trace -/

def Obs.events : Obs → List ScheduledEvent
  | .apply e => [e]
  | .sub _ _ _ fused _ _ => fused

/-- The events applied, in order. -/
def applied (tr : List Obs) : List ScheduledEvent := tr.flatMap Obs.events

def Obs.spans : Obs → List (Nat × Nat)
  | .apply _ => []
  | .sub start n _ _ _ _ => [(start, n)]

/-- The sub-blocks processed, in order. -/
def spans (tr : List Obs) : List (Nat × Nat) := tr.flatMap Obs.spans

def Obs.writes : Obs → List (Nat × Nat)
  | .apply _ => []
  | .sub _ _ _ _ _ ws => ws

/-- The output ranges written, in order. -/
def writes (tr : List Obs) : List (Nat × Nat) := tr.flatMap Obs.writes

/-- The sample reached after a trace that starts at `now`. -/
def endAt : Nat → List Obs → Nat
  | now, [] => now
  | now, .apply _ :: tr => endAt now tr
  | _, .sub start n _ _ _ _ :: tr => endAt (start + n) tr

/-- The applied events with the sample each takes effect at, from `now` on. -/
def effects : Nat → List Obs → List (ScheduledEvent × Nat)
  | _, [] => []
  | now, .apply e :: tr => (e, now) :: effects now tr
  | _, .sub start n _ fused steps _ :: tr =>
    (fused.zip steps).map (fun p => (p.1, start + p.2.offset)) ++ effects (start + n) tr

@[simp] theorem applied_append (tr tr' : List Obs) :
    applied (tr ++ tr') = applied tr ++ applied tr' := List.flatMap_append

@[simp] theorem spans_append (tr tr' : List Obs) : spans (tr ++ tr') = spans tr ++ spans tr' :=
  List.flatMap_append

@[simp] theorem writes_append (tr tr' : List Obs) :
    writes (tr ++ tr') = writes tr ++ writes tr' := List.flatMap_append

theorem effects_append (tr' : List Obs) : ∀ (tr : List Obs) (now : Nat),
    effects now (tr ++ tr') = effects now tr ++ effects (endAt now tr) tr'
  | [], _ => rfl
  | .apply e :: tr, now => congrArg ((e, now) :: ·) (effects_append tr' tr now)
  | .sub start n _ _ _ _ :: tr, now => by
    simp only [List.cons_append, effects, endAt, effects_append tr' tr (start + n),
      List.append_assoc]

theorem endAt_of_tiles {tr : List Obs} : ∀ {a b : Nat}, Tiles a b (spans tr) → endAt a tr = b := by
  induction tr with
  | nil =>
    intro a b h
    exact h
  | cons o tr ih =>
    intro a b h
    cases o with
    | apply e => exact ih h
    | sub start n ctx fused steps ws =>
      obtain ⟨-, -, h3⟩ := (show Tiles a b ((start, n) :: spans tr) from h)
      simp only at h3
      obtain rfl : start = a := h.1
      exact ih h3

theorem le_of_mem_effects {e : ScheduledEvent} {t : Nat} {tr : List Obs} :
    ∀ {a b : Nat}, Tiles a b (spans tr) → (e, t) ∈ effects a tr → a ≤ t := by
  induction tr with
  | nil =>
    intro a b _ he
    cases he
  | cons o tr ih =>
    intro a b h he
    cases o with
    | apply e' =>
      rcases List.mem_cons.1 he with he | he
      · exact Nat.le_of_eq (congrArg Prod.snd he).symm
      · exact ih h he
    | sub start n ctx fused steps ws =>
      obtain ⟨rfl, -, h3⟩ := (show Tiles a b ((start, n) :: spans tr) from h)
      rcases List.mem_append.1 he with he | he
      · obtain ⟨p, -, hp⟩ := List.mem_map.1 he
        have := congrArg Prod.snd hp
        simp only at this
        omega
      · exact Nat.le_trans (Nat.le_add_right _ _) (ih h3 he)

/-! ## Scheduling -/

/-- The scheduled form of a parameter event. -/
def InputEvent.scheduled : InputEvent → Option ScheduledEvent
  | .value t (some id) v => some ⟨t, id, Binary32.narrow v, false⟩
  | .mod t (some id) v => some ⟨t, id, Binary32.narrow v, true⟩
  | _ => none

/-- The parameter events of a host list, in delivery order. -/
def paramEvents (input : List InputEvent) : List ScheduledEvent :=
  input.filterMap InputEvent.scheduled

theorem scheduleLoop_events {input : List InputEvent} {s : Schedule}
    (h : s.events.length + (paramEvents input).length ≤ MAX_SCHEDULED_EVENTS) :
    (scheduleLoop s input).events = s.events ++ paramEvents input := by
  induction input generalizing s with
  | nil => simp [scheduleLoop, paramEvents]
  | cons ev evs ih =>
    have hcons : paramEvents (ev :: evs) = ev.scheduled.toList ++ paramEvents evs := by
      simp only [paramEvents, List.filterMap_cons]
      cases ev.scheduled <;> rfl
    rw [hcons, List.length_append] at h
    unfold scheduleLoop
    split
    · rename_i hfull
      have hnil : ev.scheduled.toList ++ paramEvents evs = [] := by
        rw [← List.length_eq_zero_iff, List.length_append]
        omega
      rw [hcons, hnil, List.append_nil]
    · have hpush : ∀ e, ev.scheduled = some e →
          (scheduleLoop (s.push e) evs).events = s.events ++ paramEvents (ev :: evs) := by
        intro e he
        rw [ih (by simp [Schedule.push, he] at h ⊢; omega), hcons, he]
        simp [Schedule.push]
      have hskip : ev.scheduled = none →
          (scheduleLoop s evs).events = s.events ++ paramEvents (ev :: evs) := by
        intro he
        rw [ih (by omega), hcons, he]
        rfl
      split
      · exact hpush _ rfl
      · exact hpush _ rfl
      · rename_i h1 h2
        apply hskip
        match ev with
        | .value _ (some _) _ => exact absurd rfl (h1 _ _ _)
        | .mod _ (some _) _ => exact absurd rfl (h2 _ _ _)
        | .value _ none _ => rfl
        | .mod _ none _ => rfl
        | .other _ => rfl

theorem scheduleInputEvents_events {input : List InputEvent}
    (h : (paramEvents input).length ≤ MAX_SCHEDULED_EVENTS) :
    (scheduleInputEvents input).events = paramEvents input := by
  rw [scheduleInputEvents, scheduleLoop_events (by simpa using h)]
  rfl

/-- No more events are scheduled than the host passes. -/
theorem scheduleLoop_length {input : List InputEvent} {s : Schedule} :
    (scheduleLoop s input).events.length ≤ s.events.length + input.length := by
  induction input generalizing s with
  | nil => exact Nat.le_refl _
  | cons ev evs ih =>
    have hpush : ∀ e, (scheduleLoop (s.push e) evs).events.length ≤
        s.events.length + (ev :: evs).length := by
      intro e
      have := ih (s := s.push e)
      simp only [Schedule.push, List.length_append, List.length_singleton] at this
      rw [List.length_cons]
      exact Nat.le_trans this (by omega)
    unfold scheduleLoop
    split
    · exact Nat.le_add_right _ _
    · split
      · exact hpush _
      · exact hpush _
      · exact Nat.le_trans ih (by rw [List.length_cons]; omega)

theorem scheduleInputEvents_length (input : List InputEvent) :
    (scheduleInputEvents input).events.length ≤ input.length := by
  have h : (scheduleInputEvents input).events.length ≤ ([] : List ScheduledEvent).length +
      input.length := scheduleLoop_length
  rwa [List.length_nil, Nat.zero_add] at h

/-- Flagged sorted so far: the times are in order and end at `lastTime`. -/
def Schedule.Ordered (s : Schedule) : Prop :=
  s.sorted = true →
    (s.events.map (·.time)).Pairwise (· ≤ ·) ∧ ∀ e ∈ s.events, e.time ≤ s.lastTime

theorem Schedule.Ordered.push {s : Schedule} (h : s.Ordered) (e : ScheduledEvent) :
    (s.push e).Ordered := by
  intro hs
  simp only [Schedule.push, Bool.and_eq_true, decide_eq_true_eq] at hs
  obtain ⟨h1, h2⟩ := h hs.1
  refine ⟨?_, fun e' he' => ?_⟩
  · simp only [Schedule.push, List.map_append, List.pairwise_append]
    refine ⟨h1, by simp, fun t ht u hu => ?_⟩
    obtain ⟨e', he', rfl⟩ := List.mem_map.1 ht
    have := h2 e' he'
    simp only [List.map_cons, List.map_nil, List.mem_singleton] at hu
    omega
  · rcases List.mem_append.1 he' with he' | he'
    · exact Nat.le_trans (h2 e' he') hs.2
    · rw [List.mem_singleton.1 he']
      exact Nat.le_refl _

theorem scheduleLoop_ordered {input : List InputEvent} {s : Schedule} (h : s.Ordered) :
    (scheduleLoop s input).Ordered := by
  induction input generalizing s with
  | nil => exact h
  | cons ev evs ih =>
    unfold scheduleLoop
    split
    · exact h
    · split
      · exact ih (h.push _)
      · exact ih (h.push _)
      · exact ih h

theorem scheduleInputEvents_sorted {input : List InputEvent}
    (h : (scheduleInputEvents input).sorted = true) :
    ((scheduleInputEvents input).events.map (·.time)).Pairwise (· ≤ ·) :=
  (scheduleLoop_ordered (s := ⟨[], true, 0, false⟩)
    (fun _ => ⟨List.Pairwise.nil, fun _ he => by cases he⟩) h).1

end NamPlug
