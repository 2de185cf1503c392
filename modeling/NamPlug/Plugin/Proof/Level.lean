import NamPlug.Plugin.Proof.Slimming

/-!
# The slimming level

The adaptive controller asks for a channel count, and rebuilds bring the model there. `Heads`: what
the audio thread installs in the end is what the controller asked for. `level_agrees`: it stays so as
long as no activation takes over a model that is slimmed or about to be, and the flag is lowered on
no request for the installed model but the one that was answered (`KeepsLevel`), so that in a state
with nothing under way the installed model has the channels the controller believes in.
-/

namespace NamPlug

open Ticket Machine

/-! ## Rebuilds under way -/

/-- What a queue of rebuilds makes of the model `m` of the generation `g`. -/
def modelAfter (g : Nat) (q : List SlimmableRebuild) (m : Option StaticModel) : Option StaticModel :=
  q.foldl (fun m r => if r.generation = g then some r.model else m) m

theorem modelAfter_append (g : Nat) (q : List SlimmableRebuild) (r : SlimmableRebuild)
    (m : Option StaticModel) : modelAfter g (q ++ [r]) m =
      if r.generation = g then some r.model else modelAfter g q m := by
  unfold modelAfter
  rw [List.foldl_append]
  rfl

theorem modelAfter_cons (g : Nat) (q : List SlimmableRebuild) (r : SlimmableRebuild)
    (m : Option StaticModel) : modelAfter g (r :: q) m =
      modelAfter g q (if r.generation = g then some r.model else m) := rfl

/-- Rebuilds for other generations are not installed. -/
theorem modelAfter_of_ne {g : Nat} {q : List SlimmableRebuild} (h : ∀ r ∈ q, r.generation ≠ g)
    (m : Option StaticModel) : modelAfter g q m = m := by
  induction q with
  | nil => rfl
  | cons r q ih =>
    rw [modelAfter_cons, if_neg (h r List.mem_cons_self)]
    exact ih fun e he => h e (List.mem_cons_of_mem r he)

/-- The request that is raised is for the generation `g`. -/
def SlimmableShared.Asks (t : SlimmableShared) (g : Nat) : Prop :=
  t.needsRebuild = true ∧ t.requestedGeneration = g

/-- A WaveNet has a channel count, `none` standing for the full one. -/
def AtLevel (count : Option Nat) (m : Option StaticModel) : Prop :=
  ∀ n full, m = some n → n.fullChannels = some full → n.channels = some (count.getD full)

/-- The controller has asked for the count it believes in. -/
def SlimLevel.Asked (l : SlimLevel) (m : Option StaticModel) : Prop :=
  ∀ n full, m = some n → n.fullChannels = some full → l.requested.getD full = l.believed.getD full

theorem SlimLevel.Asked.atLevel {l : SlimLevel} {m : Option StaticModel} (h : l.Asked m)
    (hm : AtLevel l.requested m) : AtLevel l.believed m := by
  intro n full hn hf
  rw [hm n full hn hf, h n full hn hf]

/-- What the audio thread comes to is what the controller asked for: a request that is raised is its
last one, without one the queue brings the model there, and the queue ends with the rebuild that the
main thread is about to lower the flag for. -/
structure Heads (t : SlimmableShared) (q : List SlimmableRebuild) (g : Nat)
    (requested : Option Nat) (m : Option StaticModel) : Prop where
  asked : t.Asks g → requested = some t.requestedCh
  settled : ¬t.Asks g → AtLevel requested (modelAfter g q m)
  pushed : ∀ r, t.drain = .lowering (some r) → r.generation = g →
    modelAfter g q m = some r.model

/-- Nothing is under way for the generation. -/
theorem Heads.still {t : SlimmableShared} {q : List SlimmableRebuild} {g : Nat}
    {requested : Option Nat} {m : Option StaticModel} (ht : ¬t.Asks g)
    (hq : ∀ r ∈ q, r.generation ≠ g)
    (hd : ∀ r, t.drain = .lowering (some r) → r.generation ≠ g) (hm : AtLevel requested m) :
    Heads t q g requested m where
  asked h := absurd h ht
  settled _ := by
    rw [modelAfter_of_ne hq]
    exact hm
  pushed r hr hg := absurd hg (hd r hr)

/-- A rebuild is pushed: for the generation only if it is asked for. -/
theorem Heads.push {t t' : SlimmableShared} {q : List SlimmableRebuild} {g : Nat}
    {requested : Option Nat} {m : Option StaticModel} {r : SlimmableRebuild}
    (h : Heads t q g requested m) (hask : t'.Asks g ↔ t.Asks g)
    (hch : t'.requestedCh = t.requestedCh) (hd : t'.drain = .lowering (some r))
    (hr : r.generation = g → t.Asks g) : Heads t' (q ++ [r]) g requested m where
  asked ha := by
    rw [hch]
    exact h.asked (hask.1 ha)
  settled hno := by
    have hno : ¬t.Asks g := fun ha => hno (hask.2 ha)
    rw [modelAfter_append, if_neg fun hg => hno (hr hg)]
    exact h.settled hno
  pushed e he hg := by
    obtain rfl : r = e := Option.some.inj (RebuildDrain.lowering.inj (hd.symm.trans he))
    rw [modelAfter_append, if_pos hg]

/-- The flag is lowered, on no request for the generation but the one that was answered. -/
theorem Heads.lower {t t' : SlimmableShared} {q : List SlimmableRebuild} {g : Nat}
    {requested : Option Nat} {m : Option StaticModel} (h : Heads t q g requested m)
    (hr : t.Asks g → ∃ r, t.drain = .lowering (some r) ∧ r.generation = g ∧
      r.model.channels = some t.requestedCh)
    (hf' : t'.needsRebuild = false) (hd' : t'.drain = .idle) : Heads t' q g requested m where
  asked ha := by
    rw [ha.1] at hf'
    cases hf'
  settled _ := by
    by_cases ha : t.Asks g
    · obtain ⟨r, hd, hg, hc⟩ := hr ha
      rw [h.pushed r hd hg, h.asked ha]
      rintro _ full ⟨⟩ -
      exact hc
    · exact h.settled ha
  pushed r hd _ := by
    rw [hd'] at hd
    cases hd

/-- The drain of the slot comes to nothing. -/
theorem Heads.drop {t t' : SlimmableShared} {q : List SlimmableRebuild} {g : Nat}
    {requested : Option Nat} {m : Option StaticModel} (h : Heads t q g requested m)
    (hask : t'.Asks g ↔ t.Asks g) (hch : t'.requestedCh = t.requestedCh)
    (hd : t'.drain = .lowering none) : Heads t' q g requested m where
  asked ha := by
    rw [hch]
    exact h.asked (hask.1 ha)
  settled hno := h.settled fun ha => hno (hask.2 ha)
  pushed r hr _ := by
    rw [hd] at hr
    cases hr

/-- A queue and a model that come to the same. -/
theorem Heads.queue {t : SlimmableShared} {q q' : List SlimmableRebuild} {g : Nat}
    {requested : Option Nat} {m m' : Option StaticModel} (h : Heads t q g requested m)
    (heq : modelAfter g q' m' = modelAfter g q m) : Heads t q' g requested m' where
  asked := h.asked
  settled hno := heq ▸ h.settled hno
  pushed r hr hg := heq.trans (h.pushed r hr hg)

/-- The head of the queue is installed. -/
theorem Heads.install {t : SlimmableShared} {q : List SlimmableRebuild} {g : Nat}
    {requested : Option Nat} {m : Option StaticModel} {r : SlimmableRebuild}
    (h : Heads t (r :: q) g requested m) (hr : r.generation = g) :
    Heads t q g requested (some r.model) := by
  refine h.queue ?_
  rw [modelAfter_cons, if_pos hr]

/-- The head of the queue is for another generation, or superseded. -/
theorem Heads.discard {t : SlimmableShared} {q : List SlimmableRebuild} {g : Nat}
    {requested : Option Nat} {m : Option StaticModel} {r : SlimmableRebuild}
    (h : Heads t (r :: q) g requested m)
    (hr : r.generation ≠ g ∨ ∃ r' rest, q = r' :: rest ∧ r'.generation = r.generation) :
    Heads t q g requested m := by
  refine h.queue ?_
  by_cases hg : r.generation = g
  · obtain hr | ⟨r', rest, rfl, hr'⟩ := hr
    · exact absurd hg hr
    · simp only [modelAfter_cons, if_pos (hr'.trans hg)]
  · rw [modelAfter_cons, if_neg hg]

/-! ## Builds -/

/-- The rebuilds on their way to the audio thread, in the order they are taken. -/
def Plugin.queue (x : Plugin) : List SlimmableRebuild :=
  (x.proc.bind (·.slim.deferred)).toList ++ x.shared.slim.ring

/-- A rebuild for the generation `g` is under way. -/
inductive Plugin.Builds (x : Plugin) (g : Nat) : Prop
  | worker {ch} (h : x.shared.slim.worker = .building ch g)
  | slot {r} (h : x.shared.slim.slot = some (.ready r)) (hg : r.generation = g)
  | queue {r} (h : r ∈ x.queue) (hg : r.generation = g)
  | pushed {r} (h : x.shared.slim.drain = .lowering (some r)) (hg : r.generation = g)

/-- A request of the generation `g` is raised. -/
def Plugin.Asks (x : Plugin) (g : Nat) : Prop := x.shared.slim.Asks g

/-- The flag is up until it is lowered. -/
def SlimmableShared.Lowers (t : SlimmableShared) : Prop :=
  ∀ pushed, t.drain = .lowering pushed → t.needsRebuild = true

/-- A step that asks for nothing, and builds what is asked for. -/
structure BuildsOn (x y : Plugin) : Prop where
  generation : y.shared.slim.requestedGeneration = x.shared.slim.requestedGeneration
  asked : y.shared.slim.needsRebuild = true → x.shared.slim.needsRebuild = true
  lowers : x.shared.slim.Lowers → y.shared.slim.Lowers
  builds : ∀ g, y.Builds g → x.Builds g ∨ x.Asks g

/-- A step that takes rebuilds off the queue at most. -/
theorem BuildsOn.of_republished {x y : Plugin} (h : x.shared.Republished y.shared)
    (hq : ∀ r ∈ y.queue, r ∈ x.queue) : BuildsOn x y where
  generation := by rw [h]
  asked hf := by rwa [h] at hf
  lowers hl pushed hd := by
    rw [h] at hd ⊢
    exact hl pushed hd
  builds g hg := by
    cases hg with
    | worker hg =>
      rw [h] at hg
      exact .inl (.worker hg)
    | slot hs hg =>
      rw [h] at hs
      exact .inl (.slot hs hg)
    | queue hr hg => exact .inl (.queue (hq _ hr) hg)
    | pushed hd hg =>
      rw [h] at hd
      exact .inl (.pushed hd hg)

section
variable (E : Engine)

/-- What is under way after a move of the drain was under way before, or was pushed by it. -/
theorem Plugin.Builds.drained {x : Plugin} {t : SlimmableShared} {g : Nat}
    (h : ({ x with shared := { x.shared with slim := t } } : Plugin).Builds g)
    {pushed : Option SlimmableRebuild} (hworker : t.worker = x.shared.slim.worker)
    (hslot : t.slot = x.shared.slim.slot ∨ t.slot = none)
    (hring : t.ring = x.shared.slim.ring ++ pushed.toList)
    (hdrain : ∀ r, t.drain = .lowering (some r) → pushed = some r) :
    x.Builds g ∨ ∃ r, pushed = some r ∧ r.generation = g := by
  cases h with
  | worker h => exact .inl (.worker (hworker.symm.trans h))
  | slot h hg =>
    obtain hs | hs := hslot
    · exact .inl (.slot (hs.symm.trans h) hg)
    · cases hs.symm.trans h
  | @queue q h hg =>
    have h : q ∈ (x.proc.bind (·.slim.deferred)).toList ++ t.ring := h
    rw [hring, ← List.append_assoc, List.mem_append] at h
    obtain h | h := h
    · exact .inl (.queue h hg)
    · exact .inr ⟨q, Option.mem_toList.1 h, hg⟩
  | pushed h hg => exact .inr ⟨_, hdrain _ h, hg⟩

/-- An operation of slimming on the main thread. -/
theorem Slims.buildsOn {x : Plugin} {a : MainAction} {t : SlimmableShared}
    (h : Slims x.shared a t) : BuildsOn x { x with shared := { x.shared with slim := t } } := by
  have hready : ∀ {ch g : Nat} {sliced resized : Bool} {r : SlimmableRebuild},
      buildSlimmable x.shared ch g sliced resized = .ready r → r.generation = g := by
    intro ch g sliced resized r h
    obtain ⟨-, -, w, -, rfl⟩ := buildSlimmable_ready h
    rfl
  have hnone : x.shared.slim.ring = x.shared.slim.ring ++ (none : Option SlimmableRebuild).toList :=
    (List.append_nil _).symm
  cases h with
  | idle a => exact .of_republished rfl fun _ => id
  | @polled w b hw =>
    refine ⟨rfl, id, id, fun g h => ?_⟩
    cases h with
    | @worker ch h =>
      obtain hw | ⟨hf, hw⟩ := hw
      · exact .inl (.worker (hw.symm.trans h))
      · cases hw.symm.trans h
        exact .inr ⟨hf, rfl⟩
    | slot h hg => exact .inl (.slot h hg)
    | queue h hg => exact .inl (.queue h hg)
    | pushed h hg => exact .inl (.pushed h hg)
  | @built ch g sliced resized hw =>
    refine ⟨rfl, id, id, fun g' h => ?_⟩
    cases h with
    | worker h => cases h
    | slot h hg => exact .inl (.worker (hg ▸ hready (Option.some.inj h) ▸ hw))
    | queue h hg => exact .inl (.queue h hg)
    | pushed h hg => exact .inl (.pushed h hg)
  | @drained r hf hd hs =>
    refine ⟨rfl, id, fun _ _ _ => hf, fun g h => .inl ?_⟩
    obtain h | ⟨r', hr, hg⟩ := h.drained rfl (.inr rfl) rfl fun _ h => RebuildDrain.lowering.inj h
    · exact h
    · obtain rfl := Option.some.inj hr
      exact .slot hs hg
  | dropped hf hd =>
    refine ⟨rfl, id, fun _ _ _ => hf, fun g h => .inl ?_⟩
    exact (h.drained rfl (.inr rfl) hnone fun _ h => RebuildDrain.lowering.inj h).resolve_right
      (by simp)
  | @inlined r sliced resized hf hd hb =>
    refine ⟨rfl, id, fun _ _ _ => hf, fun g h => ?_⟩
    obtain h | ⟨r', hr, hg⟩ := h.drained rfl (.inl rfl) rfl fun _ h => RebuildDrain.lowering.inj h
    · exact .inl h
    · obtain rfl := Option.some.inj hr
      exact .inr ⟨hf, (hready hb).symm.trans hg⟩
  | refused hf hd =>
    refine ⟨rfl, id, fun _ _ _ => hf, fun g h => .inl ?_⟩
    exact (h.drained rfl (.inl rfl) hnone fun _ h => RebuildDrain.lowering.inj h).resolve_right
      (by simp)
  | lowered hd =>
    refine ⟨rfl, fun h => (by cases h), fun _ _ h => (by cases h), fun g h => .inl ?_⟩
    exact (h.drained rfl (.inl rfl) hnone fun _ h => by cases h).resolve_right (by simp)

theorem buildsOn_main (x : Plugin) (a : MainAction) :
    BuildsOn x { x with shared := mainStep E x.shared a } := by
  by_cases hslim : a.isSlimmable = true
  · obtain ⟨t, ht, he⟩ := mainStep_slims E x.shared hslim
    rw [he]
    exact ht.buildsOn
  · have hr := mainStep_slim E x.shared (Bool.not_eq_true _ ▸ hslim)
    refine .of_republished hr fun e he => ?_
    unfold Plugin.queue at he ⊢
    dsimp only at he
    rw [hr] at he
    exact he

theorem buildsOn_audio {x : Plugin} {p : Processor} {a : AudioAction} {r : Shared × Processor}
    (hp : x.proc = some p) (h : audioStep E x.shared p a = some r)
    (ha : ∀ ch, a ≠ .signalSlimmableRebuild ch) : BuildsOn x ⟨r.1, some r.2⟩ := by
  have hqueue : ∀ e : SlimmableRebuild,
      e ∈ p.slim.deferred.toList ++ x.shared.slim.ring → e ∈ x.queue := by
    intro e he
    unfold Plugin.queue
    rw [hp]
    exact he
  by_cases hs : a.isSlimmable = true
  · cases a <;> simp only [AudioAction.isSlimmable, Bool.false_eq_true] at hs
    case slimmable m =>
      simp only [audioStep] at h
      split_ifs at h
      cases slimmableMove_spec h with
      | @take q rest hd hr =>
        refine ⟨rfl, id, id, fun g hg => ?_⟩
        cases hg with
        | worker h => exact .inl (.worker h)
        | slot h hg => exact .inl (.slot h hg)
        | @queue e he hg =>
          refine .inl (.queue (hqueue e ?_) hg)
          rw [hd, hr]
          exact he
        | pushed h hg => exact .inl (.pushed h hg)
      | install hd hg =>
        exact .of_republished rfl fun e he => hqueue e (List.mem_append_right _ he)
      | discard hd hg =>
        exact .of_republished rfl fun e he => hqueue e (List.mem_append_right _ he)
    case signalSlimmableRebuild ch => exact absurd rfl (ha ch)
  · obtain ⟨hslim, hdef⟩ := audioStep_slim E h (Bool.not_eq_true _ ▸ hs)
    refine .of_republished ?_ fun e he => hqueue e ?_
    · unfold Shared.Republished
      rw [hslim]
    · rw [← hslim, ← hdef]
      exact he

theorem activate_republished {s : Shared} {cfg : AudioConfig} {faults : ActivateCall → Bool}
    {r : Shared × Option Processor} (h : Activates E s cfg faults r) : s.Republished r.1 := by
  unfold Shared.Republished
  obtain hs | ⟨restore, swap, -, hs⟩ := h.slim
  · rw [hs]
  · have := publishStaged_republished s restore
    unfold Shared.Republished at this
    rw [hs, this]

theorem buildsOn_activate (x : Plugin) (cfg : AudioConfig)
    (faults : ActivateCall → Bool) :
    BuildsOn x ⟨(x.shared.activate E cfg faults).1, (x.shared.activate E cfg faults).2⟩ := by
  have hspec := activate_spec E x.shared cfg faults
  have hslim := activate_republished E hspec
  have hdef : ∀ q, (x.shared.activate E cfg faults).2 = some q → q.slim.deferred = none := by
    generalize x.shared.activate E cfg faults = r at hspec
    cases hspec with
    | ok hprep hf =>
      rintro _ ⟨⟩
      rfl
    | _ => rintro _ ⟨⟩
  generalize x.shared.activate E cfg faults = r at hslim hdef
  refine .of_republished hslim fun e he => ?_
  obtain he | he := List.mem_append.1 he
  · obtain ⟨q, hq, he⟩ := Option.bind_eq_some_iff.1 (Option.mem_toList.1 he)
    rw [hdef q hq] at he
    cases he
  · dsimp only at he
    rw [hslim] at he
    exact List.mem_append_right _ he

theorem buildsOn_deactivate {x : Plugin} (p : Processor) :
    BuildsOn x ⟨deactivate x.shared p, none⟩ := by
  have hslim := deactivate_slim x.shared p
  refine .of_republished ?_ fun e he => ?_
  · unfold Shared.Republished
    rw [hslim]
  · unfold Plugin.queue at he
    dsimp only at he
    rw [hslim] at he
    exact List.mem_append_right _ he

/-! ## The invariant -/

/-- A generation that is not loaded again, whose rebuilds are those that are asked for. -/
structure Current (x : Plugin) (g : Nat) : Prop where
  spent : Spent x.shared.modelGeneration x.tickets g
  requested : x.Builds g → x.shared.slim.requestedGeneration = g

def Plugin.keptGeneration (x : Plugin) : Nat :=
  (x.shared.deactivatedDsp.map (·.modelGeneration)).getD 0

def Plugin.keptModel (x : Plugin) : Option StaticModel := x.shared.deactivatedDsp.bind (·.modelL)

structure LevelInv (x : Plugin) : Prop where
  numbered : Numbered x
  carried : uncutCarriage.Holds x
  asked : x.shared.slim.needsRebuild = true → x.shared.slim.requestedGeneration ≠ 0
  lowers : x.shared.slim.Lowers
  requested : Spent x.shared.modelGeneration x.tickets x.shared.slim.requestedGeneration
  built : ∀ g, x.Builds g → g ≠ 0 ∧ Spent x.shared.modelGeneration x.tickets g
  running : ∀ p, x.proc = some p → Current x p.modelGeneration ∧
    Heads x.shared.slim x.queue p.modelGeneration p.slim.level.requested p.modelL
  kept : x.proc = none → Current x x.keptGeneration

/-- The rebuild the flag is lowered for is the answer to the request. -/
def SlimmableShared.Answers (t : SlimmableShared) : Prop :=
  match t.drain with
  | .idle => True
  | .lowering none => False
  | .lowering (some r) => r.generation = t.requestedGeneration ∧ r.model.channels = some t.requestedCh

/-- The flag is lowered on no request for the model that runs but the one that was answered, the
controller asks only for a model that was loaded, and an activation takes over only a model that is
not asked for, and that the queue leaves whole. -/
def KeepsLevel (x : Plugin) : Action → Prop
  | .main .lowerSlimmableFlag => ∀ p, x.proc = some p →
    x.Asks p.modelGeneration → x.shared.slim.Answers
  | .audio (.signalSlimmableRebuild _) => ∀ p, x.proc = some p → p.modelGeneration ≠ 0
  | .activate cfg faults => (x.shared.activate E cfg faults).2.isSome = true →
    stagedModel x.shared.stagedRestore x.shared.stagedSwap = none →
      ¬x.Asks x.keptGeneration ∧ AtLevel none (modelAfter x.keptGeneration x.queue x.keptModel)
  | _ => True

/-! ## Steps -/

section
variable {x y : Plugin} {a : Action}

theorem current_zero (hn : Numbered x) (hb : ∀ g, x.Builds g → g ≠ 0) : Current x 0 where
  spent := hn.tickets.spent_zero
  requested h := absurd rfl (hb 0 h)

theorem LevelInv.generation_built (hx : LevelInv x) (hb : BuildsOn x y) {g : Nat}
    (hg : y.Builds g) : g ≠ 0 ∧ Spent x.shared.modelGeneration x.tickets g := by
  obtain hg | ⟨hf, hg⟩ := hb.builds g hg
  · exact hx.built g hg
  · exact hg ▸ ⟨hx.asked hf, hx.requested⟩

/-- A step that builds what is asked for keeps what is asked for and built in order. -/
theorem LevelInv.carry (hx : LevelInv x) (h : step E x a = some y) (hb : BuildsOn x y)
    (hrunning : ∀ p, y.proc = some p → Current y p.modelGeneration ∧
      Heads y.shared.slim y.queue p.modelGeneration p.slim.level.requested p.modelL)
    (hkept : y.proc = none → Current y y.keptGeneration) : LevelInv y where
  numbered := numbered_step E hx.numbered h
  carried := Carriage.holds_step E hx.carried h
  asked hf := hb.generation ▸ hx.asked (hb.asked hf)
  lowers := hb.lowers hx.lowers
  requested := hb.generation ▸ hx.requested.moves (step_renumbered E h).1
  built _ hg :=
    have h' := hx.generation_built hb hg
    ⟨h'.1, h'.2.moves (step_renumbered E h).1⟩
  running := hrunning
  kept := hkept

theorem Current.step {g : Nat} (hg : Current x g) (h : step E x a = some y) (hb : BuildsOn x y) :
    Current y g where
  spent := hg.spent.moves (step_renumbered E h).1
  requested hy := by
    rw [hb.generation]
    obtain hy | ⟨-, hy⟩ := hb.builds g hy
    · exact hg.requested hy
    · exact hy

/-- A model that was carried until now is not built for. -/
theorem LevelInv.arrives (hx : LevelInv x) {m : LoadModelPayload} {q : List SlimmableRebuild}
    {requested : Option Nat} (hb : BuildsOn x y) (hq : ∀ r ∈ q, r ∈ y.queue)
    (hc : m.generation ∈ x.tickets)
    (hs : Spent y.shared.modelGeneration y.tickets m.generation) (hm : Uncut m.modelL)
    (hreq : (m.modelL.bind (·.channels)).isSome = true → requested = none) :
    Current y m.generation ∧ Heads y.shared.slim q m.generation requested m.modelL := by
  have hno : ∀ {g}, Spent x.shared.modelGeneration x.tickets g → g ≠ m.generation := by
    rintro g hg rfl
    have := List.count_pos_iff.2 hc
    have := hg.count
    omega
  have hbuilt : ¬y.Builds m.generation := fun h => hno (hx.generation_built hb h).2 rfl
  refine ⟨⟨hs, fun h => absurd h hbuilt⟩, .still ?_ ?_ ?_ ?_⟩
  · rintro ⟨-, ha⟩
    exact hno hx.requested (hb.generation ▸ ha)
  · exact fun r hr hg => hbuilt (.queue (hq r hr) hg)
  · exact fun r hr hg => hbuilt (.pushed hr hg)
  · intro n full hn hf
    have hch := hm n hn
    rw [hf] at hch
    rw [hreq (by rw [hn, Option.bind_some, hch]; rfl), hch]
    rfl

/-- An operation of slimming brings the model that runs where it was headed. -/
theorem Slims.heads {a : MainAction} {t : SlimmableShared} {p : Processor}
    (h : Slims x.shared a t) (hG : KeepsLevel E x (.main a)) (hp : x.proc = some p)
    (hcur : Current x p.modelGeneration) {d : List SlimmableRebuild} {requested : Option Nat}
    {m : Option StaticModel}
    (hh : Heads x.shared.slim (d ++ x.shared.slim.ring) p.modelGeneration requested m) :
    Heads t (d ++ t.ring) p.modelGeneration requested m := by
  cases h with
  | idle a => exact hh
  | polled hw => exact ⟨hh.asked, hh.settled, hh.pushed⟩
  | built hw => exact ⟨hh.asked, hh.settled, hh.pushed⟩
  | @drained r hf hd hs =>
    show Heads _ (d ++ (x.shared.slim.ring ++ [r])) _ _ _
    rw [← List.append_assoc]
    exact hh.push .rfl rfl rfl fun hg => ⟨hf, hcur.requested (.slot hs hg)⟩
  | dropped hf hd => exact hh.drop .rfl rfl rfl
  | @inlined r sliced resized hf hd hb =>
    show Heads _ (d ++ (x.shared.slim.ring ++ [r])) _ _ _
    rw [← List.append_assoc]
    obtain ⟨-, -, w, -, rfl⟩ := buildSlimmable_ready hb
    exact hh.push .rfl rfl rfl fun hg => ⟨hf, hg⟩
  | refused hf hd => exact hh.drop .rfl rfl rfl
  | @lowered pushed hd =>
    refine hh.lower (fun ha => ?_) rfl rfl
    have hans := hG p hp ha
    unfold SlimmableShared.Answers at hans
    rw [hd] at hans
    cases pushed with
    | none => exact hans.elim
    | some r => exact ⟨r, hd, hans.1.trans ha.2, hans.2⟩

theorem level_main {a : MainAction} (hx : LevelInv x) (hG : KeepsLevel E x (.main a)) :
    LevelInv { x with shared := mainStep E x.shared a } := by
  have hstep : step E x (.main a) = some { x with shared := mainStep E x.shared a } := rfl
  have hb := buildsOn_main E x a
  have hframe := mainStep_frame E x.shared a
  refine hx.carry E hstep hb (fun p hp => ?_) fun hp => ?_
  · have hp : x.proc = some p := hp
    obtain ⟨hcur, hh⟩ := hx.running p hp
    refine ⟨hcur.step E hstep hb, ?_⟩
    simp only [Plugin.queue, hp] at hh ⊢
    by_cases hslim : a.isSlimmable = true
    · obtain ⟨t, ht, he⟩ := mainStep_slims E x.shared hslim
      rw [he]
      exact ht.heads E hG hp hcur hh
    · have hr := mainStep_slim E x.shared (Bool.not_eq_true _ ▸ hslim)
      unfold Shared.Republished at hr
      rw [hr]
      exact ⟨hh.asked, hh.settled, hh.pushed⟩
  · have hk := (hx.kept hp).step E hstep hb
    unfold Plugin.keptGeneration at hk ⊢
    show Current _ (((mainStep E x.shared a).deactivatedDsp.map _).getD 0)
    rw [hframe.deactivatedDsp]
    exact hk

/-- The audio thread asks for channels. -/
theorem level_signal {p : Processor} {ch : Nat} (hx : LevelInv x) (hp : x.proc = some p)
    (hp0 : p.modelGeneration ≠ 0)
    (h : step E x (.audio (.signalSlimmableRebuild ch)) =
      some ⟨(signalSlimmableRebuild x.shared p ch).1, some (signalSlimmableRebuild x.shared p ch).2⟩) :
    LevelInv ⟨(signalSlimmableRebuild x.shared p ch).1,
      some (signalSlimmableRebuild x.shared p ch).2⟩ := by
  have hmoves := (step_renumbered E h).1
  have hqueue : Plugin.queue ⟨(signalSlimmableRebuild x.shared p ch).1,
      some (signalSlimmableRebuild x.shared p ch).2⟩ = x.queue := by
    unfold Plugin.queue
    rw [hp]
    rfl
  have hbuilds : ∀ g, Plugin.Builds ⟨(signalSlimmableRebuild x.shared p ch).1,
      some (signalSlimmableRebuild x.shared p ch).2⟩ g → x.Builds g := by
    intro g hg
    cases hg with
    | worker h => exact .worker h
    | slot h hg => exact .slot h hg
    | queue h hg => exact .queue (hqueue ▸ h) hg
    | pushed h hg => exact .pushed h hg
  obtain ⟨hcur, hh⟩ := hx.running p hp
  exact
    { numbered := numbered_step E hx.numbered h
      carried := Carriage.holds_step E hx.carried h
      asked := fun _ => hp0
      lowers := fun _ _ => rfl
      requested := hcur.spent.moves hmoves
      built := fun g hg => (hx.built g (hbuilds g hg)).imp_right (·.moves hmoves)
      running := by
        rintro _ ⟨⟩
        rw [hqueue]
        exact ⟨⟨hcur.spent.moves hmoves, fun _ => rfl⟩, fun _ => rfl,
          fun hno => absurd ⟨rfl, rfl⟩ hno, hh.pushed⟩
      kept := fun h => by cases h }

theorem level_slimmable {p : Processor} {m : SlimmableMove} {r : Shared × Processor}
    (hx : LevelInv x) (hp : x.proc = some p) (h : slimmableMove x.shared p m = some r)
    (hs : step E x (.audio (.slimmable m)) = some ⟨r.1, some r.2⟩)
    (hb : BuildsOn x ⟨r.1, some r.2⟩) : LevelInv ⟨r.1, some r.2⟩ := by
  obtain ⟨hcur, hh⟩ := hx.running p hp
  have hcur := hcur.step E hs hb
  simp only [Plugin.queue, hp, Option.bind_some] at hh
  refine hx.carry E hs hb (fun q hq => ?_) fun hq => (by cases hq)
  obtain rfl := Option.some.inj hq
  cases slimmableMove_spec h with
  | take hd hr =>
    rw [hd, hr] at hh
    exact ⟨hcur, hh.asked, hh.settled, hh.pushed⟩
  | install hd hg =>
    rw [hd] at hh
    exact ⟨hcur, hh.install hg⟩
  | discard hd hg =>
    rw [hd] at hh
    exact ⟨hcur, hh.discard hg⟩

/-- The controller starts over, with a request to come if it asked for another count. -/
theorem level_reset {p : Processor} (hx : LevelInv x) (hp : x.proc = some p)
    (hs : step E x (.audio .reset) = some ⟨x.shared, some (resetProcessor p)⟩)
    (hb : BuildsOn x ⟨x.shared, some (resetProcessor p)⟩) :
    LevelInv ⟨x.shared, some (resetProcessor p)⟩ := by
  refine hx.carry E hs hb (fun q hq => ?_) fun hq => (by cases hq)
  obtain rfl := Option.some.inj hq
  obtain ⟨hcur, hh⟩ := hx.running p hp
  simp only [Plugin.queue, hp] at hh
  exact ⟨hcur.step E hs hb, hh⟩

/-- The other operations of the audio thread. -/
theorem level_commands {p : Processor} {a : AudioAction} {r : Shared × Processor}
    (hx : LevelInv x) (hp : x.proc = some p) (h : audioStep E x.shared p a = some r)
    (hs : step E x (.audio a) = some ⟨r.1, some r.2⟩) (ha : a.isSlimmable = false)
    (hreset : a ≠ .reset) (hb : BuildsOn x ⟨r.1, some r.2⟩) : LevelInv ⟨r.1, some r.2⟩ := by
  obtain ⟨hslim, hdef⟩ := audioStep_slim E h ha
  refine hx.carry E hs hb (fun q hq => ?_) fun hq => (by cases hq)
  obtain rfl := Option.some.inj hq
  obtain ⟨hcur, hh⟩ := hx.running p hp
  have hqueue : Plugin.queue ⟨r.1, some r.2⟩ = x.queue := by
    simp only [Plugin.queue, hp, Option.bind_some]
    rw [hslim, hdef]
  refine audioStep_chain_invariant E
    (I := fun c => Current ⟨r.1, some r.2⟩ c.modelGeneration ∧
      Heads r.1.slim (Plugin.queue ⟨r.1, some r.2⟩) c.modelGeneration c.level.requested c.modelL) h
    ⟨hcur.step E hs hb, by rw [hslim, hqueue]; exact hh⟩ fun c hc op hop => ?_
  cases op with
  | command d =>
    show Current ⟨r.1, some r.2⟩ (c.install E _ d).modelGeneration ∧ Heads r.1.slim _
      (c.install E _ d).modelGeneration (c.install E _ d).level.requested (c.install E _ d).modelL
    obtain ⟨m, hm, hl, -, hg, -⟩ | ⟨hm, hl, -, hg, -⟩ := c.install_model E x.shared.sampleRate d
    · obtain ⟨n, hn, hlevel⟩ | ⟨hn, -⟩ := c.install_level E x.shared.sampleRate d
      · obtain rfl := Option.some.inj (hm.symm.trans hn)
        have hinst := mem_installing hop hm
        have hcarried : m.generation ∈ x.tickets := by
          have hcount := audioStep_carried E h m.generation
          have hpos := List.count_pos_iff.2 hinst
          refine List.count_pos_iff.1 ?_
          simp only [Plugin.tickets, Plugin.carried, hp, Option.map_some, Option.getD_some,
            List.count_append] at hcount ⊢
          omega
        rw [hl, hg, hlevel]
        exact hx.arrives hb (fun _ => id) hcarried (hx.numbered.installed E hp hs hinst)
          ((hx.carried.proc p hp).ops hop m hm).1 fun hch => by rw [SlimLevel.install, if_pos hch]
      · rw [hn] at hm
        cases hm
    · obtain ⟨n, hn, -⟩ | ⟨-, hlevel⟩ := c.install_level E x.shared.sampleRate d
      · rw [hn] at hm
        cases hm
      · rw [hl, hg, hlevel]
        exact hc
  | slimmable q =>
    obtain ⟨rfl, -⟩ := audioOps_slimmable hop
    cases ha
  | request ch =>
    obtain rfl := audioOps_controller.1 ch hop
    cases ha
  | reset => exact absurd (audioOps_controller.2 hop) hreset

theorem level_audio {a : AudioAction} (hx : LevelInv x) (hG : KeepsLevel E x (.audio a))
    (h : step E x (.audio a) = some y) : LevelInv y := by
  have hs := h
  obtain ⟨p, hp, h⟩ := Option.bind_eq_some_iff.1 h
  obtain ⟨r, hr, rfl⟩ := Option.map_eq_some_iff.1 h
  by_cases ha : a.isSlimmable = true
  · cases a <;> simp only [AudioAction.isSlimmable, Bool.false_eq_true] at ha
    case slimmable m =>
      have hb := buildsOn_audio E hp hr fun _ h => by cases h
      simp only [audioStep] at hr
      split_ifs at hr
      exact level_slimmable E hx hp hr hs hb
    case signalSlimmableRebuild ch =>
      simp only [audioStep] at hr
      split_ifs at hr
      obtain rfl := Option.some.inj hr
      exact level_signal E hx hp (hG p hp) hs
  · have hb := buildsOn_audio E hp hr fun ch h => ha (h ▸ rfl)
    by_cases hreset : a = .reset
    · subst hreset
      simp only [audioStep] at hr
      split_ifs at hr
      obtain rfl := Option.some.inj hr
      exact level_reset E hx hp hs hb
    · exact level_commands E hx hp hr hs (Bool.not_eq_true _ ▸ ha) hreset hb

/-! ## The lifecycle -/

theorem stagedModel_mem {s : Shared} {m : LoadModelPayload}
    (h : stagedModel s.stagedRestore s.stagedSwap = some m) :
    m.generation ∈ s.stagedGenerations := by
  unfold Shared.stagedGenerations
  unfold stagedModel at h
  cases hs : s.stagedRestore with
  | none =>
    rw [hs] at h
    have h : s.stagedSwap.bind (·.model) = some m := h
    refine List.mem_append_right _ ?_
    rw [h]
    exact List.mem_singleton.2 rfl
  | some r =>
    rw [hs] at h
    have h : r.txn.model = some m := h
    refine List.mem_append_left _ ?_
    rw [Option.bind_some, h]
    exact List.mem_singleton.2 rfl

/-- An activation uses up the models that were staged. -/
theorem staged_spent {cfg : AudioConfig} {faults : ActivateCall → Bool} (hx : Numbered x)
    (hproc : x.proc = none) {r : Shared × Option Processor}
    (h : Activates E x.shared cfg faults r) (hok : r.2.isSome = true) {g : Nat}
    (hg : g ∈ x.shared.stagedGenerations) :
    g ∈ x.tickets ∧ Spent r.1.modelGeneration (Plugin.tickets ⟨r.1, r.2⟩) g := by
  have hcount := h.carried E g
  rw [if_pos hok] at hcount
  have hpos := List.count_pos_iff.2 hg
  obtain ⟨hm, hw⟩ := h.numbers
  have hmem : g ∈ x.shared.carried := List.count_pos_iff.1 (by omega)
  refine ⟨List.mem_append_right _ (List.mem_append_left _ hmem), ?_⟩
  refine hx.tickets.spent hm.ge ?_
  simp only [Plugin.tickets, Plugin.carried, hproc, hw, Option.map_none, Option.getD_none,
    List.append_nil, List.count_append] at hcount ⊢
  omega

/-- An activation starts with a staged model, or with the one that was kept. -/
theorem level_assembled {cfg : AudioConfig} {faults : ActivateCall → Bool}
    {restore : Option StagedRestore} {swap : Option StagedSwap} {pipe : Pipeline} {b : Assembly}
    (hx : LevelInv x) (hprep : Prepared E x.shared cfg faults restore swap pipe b)
    (hproc : x.proc = none) (hstep : step E x a = some y) (hb : BuildsOn x y)
    (hq : y.queue = x.queue) (hr : x.shared.Republished y.shared)
    (hG : stagedModel x.shared.stagedRestore x.shared.stagedSwap = none →
      ¬x.Asks x.keptGeneration ∧ AtLevel none (modelAfter x.keptGeneration x.queue x.keptModel))
    (hs : ∀ g ∈ x.shared.stagedGenerations, g ∈ x.tickets ∧
      Spent y.shared.modelGeneration y.tickets g) :
    Current y b.modelGeneration ∧ Heads y.shared.slim y.queue b.modelGeneration none b.modelL := by
  obtain ⟨-, -, hm, hk⟩ := assemble_spec hprep.assembled
  have hgen := stagedModel_generation hprep.adapted
  cases hst : stagedModel restore swap with
  | some m =>
    obtain ⟨hl, -, hg, -⟩ := hm m hst
    rw [hst] at hgen
    obtain ⟨n, hn, hng⟩ := Option.map_eq_some_iff.1 hgen.symm
    have hng : n.generation = m.generation := hng
    obtain ⟨hcarried, hspent⟩ := hs m.generation (hng ▸ stagedModel_mem hn)
    rw [hl, hg]
    exact hx.arrives hb (fun _ => id) hcarried hspent
      (Carriage.stagedModel_payload (hx.carried.shared.adaptStaged hprep.adapted) hst).1 fun _ => rfl
  | none =>
    have hk := hk hst
    rw [hst] at hgen
    obtain ⟨hno, hlevel⟩ := hG (Option.map_eq_none_iff.1 hgen.symm)
    have hcur := hx.kept hproc
    rw [hk.modelL, hk.modelGeneration, hq]
    unfold Shared.Republished at hr
    rw [hr]
    refine ⟨hcur.step E hstep hb, fun ha => absurd ha hno, fun _ => hlevel, fun r hd hg => ?_⟩
    -- the flag is up for a rebuild of the kept model only if that is asked for
    exact absurd ⟨hx.lowers _ hd, hcur.requested (.pushed hd hg)⟩ hno

theorem level_activate {cfg : AudioConfig} {faults : ActivateCall → Bool} (hx : LevelInv x)
    (hG : KeepsLevel E x (.activate cfg faults))
    (h : step E x (.activate cfg faults) = some y) : LevelInv y := by
  have hstep := h
  simp only [step] at h
  split_ifs at h with hproc
  obtain rfl := Option.some.inj h
  have hproc : x.proc = none := by simpa using hproc
  have hb := buildsOn_activate E x cfg faults
  have hspec := activate_spec E x.shared cfg faults
  have hrep := activate_republished E hspec
  have hG : (x.shared.activate E cfg faults).2.isSome = true →
      stagedModel x.shared.stagedRestore x.shared.stagedSwap = none →
        ¬x.Asks x.keptGeneration ∧
          AtLevel none (modelAfter x.keptGeneration x.queue x.keptModel) := hG
  generalize x.shared.activate E cfg faults = r at hG hstep hb hspec hrep ⊢
  have hzero : Current ⟨r.1, r.2⟩ 0 :=
    current_zero (numbered_step E hx.numbered hstep) fun g hg => (hx.generation_built hb hg).1
  refine hx.carry E hstep hb (fun p hp => ?_) fun _ => ?_
  · have hp : r.2 = some p := hp
    have hok : r.2.isSome = true := hp ▸ rfl
    have hstaged : ∀ g ∈ x.shared.stagedGenerations, g ∈ x.tickets ∧
        Spent r.1.modelGeneration (Plugin.tickets ⟨r.1, r.2⟩) g := fun g hg =>
      staged_spent E hx.numbered hproc hspec hok hg
    cases hspec with
    | @ok restore swap pipe b t hprep hf =>
      obtain rfl := Option.some.inj hp
      refine level_assembled E hx hprep hproc hstep hb ?_ hrep (hG hok) hstaged
      unfold Shared.Republished at hrep
      simp only [Plugin.queue, hproc] at hrep ⊢
      rw [hrep]
      rfl
    | _ => cases hp
  · have hkept := (hx.kept hproc).step E hstep hb
    unfold Plugin.keptGeneration at hkept ⊢
    show Current _ ((r.1.deactivatedDsp.map _).getD 0)
    obtain he | he := activates_deactivated E hspec <;> rw [he]
    · exact hkept
    · exact hzero

theorem level_deactivate {p : Processor} (hx : LevelInv x) (hp : x.proc = some p)
    (h : step E x .deactivate = some ⟨deactivate x.shared p, none⟩) :
    LevelInv ⟨deactivate x.shared p, none⟩ := by
  have hb := buildsOn_deactivate (x := x) p
  refine hx.carry E h hb (fun q hq => by cases hq) fun _ => ?_
  have hkept : Plugin.keptGeneration ⟨deactivate x.shared p, none⟩ = p.modelGeneration := by
    unfold Plugin.keptGeneration deactivate
    cases p.deferred <;> rfl
  rw [hkept]
  exact (hx.running p hp).1.step E h hb

theorem level_step (hx : LevelInv x) (hG : KeepsLevel E x a) (h : step E x a = some y) :
    LevelInv y := by
  cases a with
  | main a =>
    obtain rfl := Option.some.inj h
    exact level_main E hx hG
  | audio a => exact level_audio E hx hG h
  | activate cfg faults => exact level_activate E hx hG h
  | deactivate =>
    have hstep := h
    simp only [step] at h
    split at h
    · split_ifs at h
      obtain rfl := Option.some.inj h
      exact level_deactivate E hx ‹_› hstep
    · cases h

theorem level_init : LevelInv (.init E.toParamEngine) where
  numbered := numbered_init E
  carried := Carriage.holds_init E
  asked h := by cases h
  lowers _ h := by cases h
  requested := (numbered_init E).tickets.spent_zero
  built g h := by
    cases h with
    | worker h => cases h
    | slot h => cases h
    | queue h => cases h
    | pushed h => cases h
  running _ h := by cases h
  kept _ :=
    { spent := (numbered_init E).tickets.spent_zero
      requested := fun _ => rfl }

/-! ## Runs -/

/-- No request is raised or to come, and no rebuild is on its way to the audio thread. -/
def Plugin.Settled (x : Plugin) : Prop :=
  x.shared.slim.needsRebuild = false ∧ x.queue = [] ∧ ∀ p ∈ x.proc, p.slim.level.Asked p.modelL

/-- In a run that keeps the level, a WaveNet that runs with nothing under way has the channels the
adaptive controller believes in. -/
theorem level_agrees {as : List Action} {z : Plugin} {p : Processor}
    (h : run (step E) (.init E.toParamEngine) as = some z)
    (hG : Guarded (step E) (KeepsLevel E) (.init E.toParamEngine) as) (hp : z.proc = some p)
    (hs : z.Settled) : AtLevel p.slim.level.believed p.modelL := by
  have hz : LevelInv z := run_invariant (fun _ _ _ hI hG h => level_step E hI hG h)
    (level_init E) hG h
  obtain ⟨-, hh⟩ := hz.running p hp
  obtain ⟨hf, hq, hasked⟩ := hs
  rw [hq] at hh
  refine (hasked p hp).atLevel (hh.settled fun ha => ?_)
  rw [ha.1] at hf
  cases hf

end

end

/-! ## Runs on fixed inputs -/

instance (t : SlimmableShared) (g : Nat) : Decidable (t.Asks g) :=
  inferInstanceAs (Decidable (t.needsRebuild = true ∧ t.requestedGeneration = g))

instance (count : Option Nat) (m : Option StaticModel) : Decidable (AtLevel count m) :=
  decidable_of_iff (∀ n ∈ m, ∀ full ∈ n.fullChannels, n.channels = some (count.getD full))
    ⟨fun h n full hn hf => h n hn full hf, fun h n hn full hf => h n full hn hf⟩

instance (l : SlimLevel) (m : Option StaticModel) : Decidable (l.Asked m) :=
  decidable_of_iff
    (∀ n ∈ m, ∀ full ∈ n.fullChannels, l.requested.getD full = l.believed.getD full)
    ⟨fun h n full hn hf => h n hn full hf, fun h n hn full hf => h n full hn hf⟩

instance (t : SlimmableShared) : Decidable t.Answers :=
  match h : t.drain with
  | .idle => isTrue (by simp only [SlimmableShared.Answers, h])
  | .lowering none => isFalse (by simp [SlimmableShared.Answers, h])
  | .lowering (some r) => decidable_of_iff (r.generation = t.requestedGeneration ∧
      r.model.channels = some t.requestedCh) (by simp only [SlimmableShared.Answers, h])

instance (x : Plugin) (g : Nat) : Decidable (x.Asks g) :=
  inferInstanceAs (Decidable (x.shared.slim.Asks g))

instance (x : Plugin) : Decidable x.Settled :=
  inferInstanceAs (Decidable (x.shared.slim.needsRebuild = false ∧ x.queue = [] ∧
    ∀ p ∈ x.proc, p.slim.level.Asked p.modelL))

instance (E : Engine) (x : Plugin) : ∀ a, Decidable (KeepsLevel E x a)
  | .main .lowerSlimmableFlag => inferInstanceAs (Decidable (∀ p ∈ x.proc,
      x.Asks p.modelGeneration → x.shared.slim.Answers))
  | .audio (.signalSlimmableRebuild _) =>
    inferInstanceAs (Decidable (∀ p ∈ x.proc, p.modelGeneration ≠ 0))
  | .activate cfg faults =>
    inferInstanceAs (Decidable ((x.shared.activate E cfg faults).2.isSome = true →
      stagedModel x.shared.stagedRestore x.shared.stagedSwap = none →
        ¬x.Asks x.keptGeneration ∧
          AtLevel none (modelAfter x.keptGeneration x.queue x.keptModel)))
  | .main (.publishSlimmable ..) | .main (.loadModel ..) | .main (.clearModel ..)
  | .main (.acceptModelRequest ..) | .main .dispatchModelLoad | .main (.dispatchModelLoadSync ..)
  | .main (.finishModelLoad ..) | .main (.pollModelLoaderResult ..) | .main (.flushPendingModel ..)
  | .main (.handlePendingIr ..) | .main .clearIr | .main (.restore ..) | .main .flushPendingRestore
  | .main (.flush ..) | .main .flushInFlightParams | .main .handleOversampleRebuild
  | .main .snapshotParams | .main (.guiStore ..) | .main (.guiAnnounce ..)
  | .main (.setRenderMode ..) | .main .pollSlimmable | .main .drainSlimmableRebuild
  | .main (.handleSlimmableRebuildInline ..) | .audio (.beginEvents _) | .audio (.drain _)
  | .audio .endEvents | .audio (.hostEvents _) | .audio (.flushInner ..) | .audio (.slimmable _)
  | .audio .reset | .deactivate => isTrue trivial

/-- The model that runs is cut to 8 channels, with the operations `as` after it. -/
def refLevelRun (as : List Action) : List Action :=
  refWideInstalled ++ refCut 8 ++ [.audio (.slimmable .install), .audio .endEvents] ++ as

/-- The controller starts over, and has the model whole again. -/
def refLevelReset : List Action :=
  refLevelRun (.audio .reset :: refCut 16 ++ [.audio (.slimmable .install), .audio .endEvents])

theorem level_agrees_slimmed : ∃ p, (refRun refLevelReset).proc = some p ∧
    p.slim.level.believed = some 16 ∧ AtLevel p.slim.level.believed p.modelL := by
  refine ⟨refProc refLevelReset (by decide +kernel), refProc_eq _, by decide +kernel, ?_⟩
  exact level_agrees refEngine (@run_refRun refLevelReset (by decide +kernel)) (by decide +kernel)
    (refProc_eq _) (by decide +kernel)

/-- A reactivation starts a new controller on the slimmed model. -/
theorem level_reactivated_slimmed :
    ¬∀ (E : Engine) (as : List Action) (z : Plugin) (p : Processor),
      run (step E) (.init E.toParamEngine) as = some z → z.proc = some p → z.Settled →
      AtLevel p.slim.level.believed p.modelL := by
  intro h
  have hlevel := h refEngine _ _ _
    (@run_refRun (refLevelRun [.deactivate, refActivate]) (by decide +kernel))
    (refProc_eq (by decide +kernel)) (by decide +kernel)
  exact absurd hlevel (by decide +kernel)

end NamPlug
