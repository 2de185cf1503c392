import NamPlug.Plugin.Proof.Acknowledge

/-!
# The sequence of the commands

A push gives its command a number, and the audio thread acknowledges numbers by counting what it
resolves. `Tagged` carries the numbers along with the commands. `sequence_conserved`: no number is
lost or counted twice, and one that is acknowledged belongs to no command that is queued or parked
as long as a drain parks only the command it took off the ring last (`ParksLast`).
-/

namespace NamPlug

open Machine

/-! ## Numbered commands -/

/-- An instance with the numbers of the commands in the ring, of the parked one and of the candidate
of a drain. -/
structure Tagged where
  plugin : Plugin
  ring : List Nat
  deferred : Option Nat
  candidate : Option Nat

/-- The numbers the pushes of a step were given. -/
def pushedSeqs (s t : Shared) : List Nat :=
  List.range' (s.cmdNextSeq + 1) (t.cmdNextSeq - s.cmdNextSeq)

namespace Tagged

def init (E : Engine) : Tagged := ⟨.init E.toParamEngine, [], none, none⟩

def drained (x : Tagged) : DrainMove → Tagged
  | .installDeferred => { x with deferred := none }
  | .discardDeferred => { x with deferred := none }
  | .applyParams => { x with ring := x.ring.tail }
  | .popCandidate => { x with ring := x.ring.tail, candidate := x.ring.head? }
  | .supersede => { x with ring := x.ring.tail, candidate := x.ring.head? }
  | .installCandidate => { x with candidate := none }

/-- The numbers after a step to `y`. -/
def after (x : Tagged) (y : Plugin) : Action → Tagged
  | .main _ => { x with plugin := y, ring := x.ring ++ pushedSeqs x.plugin.shared y.shared }
  | .audio (.drain m) => { x.drained m with plugin := y }
  | .audio .endEvents =>
    -- a candidate that was not installed is parked
    { x with plugin := y, deferred := x.candidate.or x.deferred, candidate := none }
  | .audio _ => { x with plugin := y }
  | .activate _ _ =>
    -- a rollback takes every command off the ring
    if y.shared.ring.isEmpty then ⟨y, [], none, none⟩
    else ⟨y, x.ring ++ pushedSeqs x.plugin.shared y.shared, none, none⟩
  | .deactivate => ⟨y, x.ring, none, none⟩

end Tagged

def tagStep (E : Engine) (x : Tagged) (a : Action) : Option Tagged :=
  (step E x.plugin a).map (x.after · a)

section
variable (E : Engine)

theorem after_plugin (x : Tagged) (y : Plugin) (a : Action) : (x.after y a).plugin = y := by
  cases a with
  | main a => rfl
  | audio a => cases a <;> rfl
  | activate cfg faults =>
    unfold Tagged.after
    dsimp only
    split <;> rfl
  | deactivate => rfl

/-- The numbers change nothing in what an instance does. -/
theorem run_tagStep (x : Tagged) (as : List Action) :
    (run (tagStep E) x as).map (·.plugin) = run (step E) x.plugin as := by
  induction as generalizing x with
  | nil => rfl
  | cons a as ih =>
    simp only [run, tagStep]
    cases h : step E x.plugin a with
    | none => rfl
    | some y =>
      show (run (tagStep E) (x.after y a) as).map (·.plugin) = run (step E) y as
      rw [ih, after_plugin]

end

namespace Tagged

/-- No callback is in progress. -/
def Idle (x : Tagged) : Prop := ∀ p, x.plugin.proc = some p → p.inCallback = false

/-- The acknowledgement covers no command that is queued or parked. -/
def Uncovered (x : Tagged) : Prop :=
  ∀ n ∈ x.ring ++ x.deferred.toList, x.plugin.shared.cmdLastAck < n

/-- The command that `n` numbers was the last to leave the ring. -/
def IsLast (x : Tagged) (n : Nat) : Prop :=
  n + x.plugin.shared.ring.length = x.plugin.shared.cmdNextSeq

end Tagged

/-- A drain that ends with a candidate ends with the last command that left the ring. -/
def ParksLast (x : Tagged) : Action → Prop
  | .audio .endEvents => ∀ n ∈ x.candidate, x.IsLast n
  | _ => True

instance (x : Tagged) (n : Nat) : Decidable (x.IsLast n) := by
  unfold Tagged.IsLast
  infer_instance

instance (x : Tagged) (a : Action) : Decidable (ParksLast x a) :=
  match a with
  | .audio .endEvents => inferInstanceAs (Decidable (∀ n ∈ x.candidate, x.IsLast n))
  | .main _ => isTrue trivial
  | .activate _ _ => isTrue trivial
  | .deactivate => isTrue trivial
  | .audio (.beginEvents _) => isTrue trivial
  | .audio (.drain _) => isTrue trivial
  | .audio (.hostEvents _) => isTrue trivial
  | .audio (.flushInner _ _) => isTrue trivial
  | .audio (.slimmable _) => isTrue trivial
  | .audio (.signalSlimmableRebuild _) => isTrue trivial
  | .audio .reset => isTrue trivial

/-! ## The invariant -/

structure TagInv (x : Tagged) : Prop where
  counts : PluginCounts x.plugin.shared x.plugin.proc
  ring : x.ring = List.range' (x.plugin.shared.cmdNextSeq - x.plugin.shared.ring.length + 1)
    x.plugin.shared.ring.length
  deferred : x.deferred.isSome = (x.plugin.proc.bind (·.deferred)).isSome
  candidate : x.candidate.isSome = (x.plugin.proc.bind (·.candidate)).isSome
  le : ∀ n, x.deferred = some n ∨ x.candidate = some n →
    n + x.plugin.shared.ring.length ≤ x.plugin.shared.cmdNextSeq

/-- The numbers of the ring after a push. -/
theorem Pushes.seqs {s t : Shared} (h : Pushes s t) (hle : s.ring.length ≤ s.cmdNextSeq) :
    List.range' (s.cmdNextSeq - s.ring.length + 1) s.ring.length ++ pushedSeqs s t =
      List.range' (t.cmdNextSeq - t.ring.length + 1) t.ring.length := by
  obtain ⟨ps, hr, hn⟩ := h.sent
  have hstart : s.cmdNextSeq + 1 = s.cmdNextSeq - s.ring.length + 1 + s.ring.length := by omega
  have hcount : t.cmdNextSeq - s.cmdNextSeq = ps.length := by omega
  have hbase : t.cmdNextSeq - t.ring.length = s.cmdNextSeq - s.ring.length := by
    rw [hr, hn, List.length_append]
    omega
  unfold pushedSeqs
  rw [hcount, hstart, List.range'_append_1, hbase, hr, List.length_append]

theorem Pushes.room {s t : Shared} (h : Pushes s t) {n : Nat} :
    n + t.ring.length = t.cmdNextSeq ↔ n + s.ring.length = s.cmdNextSeq := by
  obtain ⟨ps, hr, hn⟩ := h.sent
  rw [hr, hn, List.length_append]
  omega

theorem Pushes.le {s t : Shared} (h : Pushes s t) {n : Nat}
    (hle : n + s.ring.length ≤ s.cmdNextSeq) : n + t.ring.length ≤ t.cmdNextSeq := by
  obtain ⟨ps, hr, hn⟩ := h.sent
  rw [hr, hn, List.length_append]
  omega

theorem TagInv.length_le {x : Tagged} (h : TagInv x) :
    x.plugin.shared.ring.length ≤ x.plugin.shared.cmdNextSeq := by
  have := h.counts.le
  omega

theorem TagInv.init (E : Engine) : TagInv (.init E) :=
  ⟨rfl, rfl, rfl, rfl, fun n h => by obtain h | h := h <;> cases h⟩

/-- With no callback in progress, nothing acknowledged is queued or parked if what is parked was the
last to leave the ring, and only then. -/
theorem TagInv.uncovered_iff {x : Tagged} (h : TagInv x) (hidle : x.Idle) :
    x.Uncovered ↔ ∀ n ∈ x.deferred, x.IsLast n := by
  have hack := h.counts
  have hring : ∀ n ∈ x.ring, x.plugin.shared.cmdLastAck < n := by
    intro n hn
    rw [h.ring, List.mem_range'_1] at hn
    have := hack.le
    omega
  have hdef : ∀ n, x.deferred = some n →
      x.plugin.shared.cmdLastAck + 1 + x.plugin.shared.ring.length =
        x.plugin.shared.cmdNextSeq := by
    intro n hn
    have hsome := h.deferred
    rw [hn] at hsome
    cases hp : x.plugin.proc with
    | none =>
      rw [hp] at hsome
      cases hsome
    | some p =>
      rw [hp] at hsome hack
      have hack : Counts x.plugin.shared p := hack
      obtain ⟨d, hd⟩ := Option.isSome_iff_exists.1 hsome.symm
      have hd : p.deferred = some d := hd
      obtain ⟨hcand, hres⟩ := hack.idle (hidle p hp)
      have := hack.ack
      rw [hd, hcand, hres] at this
      simp at this
      omega
  unfold Tagged.Uncovered Tagged.IsLast
  constructor
  · intro hun n hn
    have hlt := hun n (List.mem_append_right _ (Option.mem_toList.2 hn))
    have := hdef n hn
    have := h.le n (.inl hn)
    omega
  · intro hlast n hn
    obtain hn | hn := List.mem_append.1 hn
    · exact hring n hn
    · have hn := Option.mem_toList.1 hn
      have := hlast n hn
      have := hdef n hn
      omega

/-! ## A step -/

theorem TagInv.pushes {x : Tagged} {y : Plugin} (h : TagInv x) (k : Pushes x.plugin.shared y.shared)
    (hp : y.proc = x.plugin.proc) :
    TagInv { x with plugin := y, ring := x.ring ++ pushedSeqs x.plugin.shared y.shared } where
  counts := by
    show PluginCounts y.shared y.proc
    rw [hp]
    exact h.counts.pushes k
  ring := by
    show x.ring ++ pushedSeqs x.plugin.shared y.shared = _
    rw [h.ring]
    exact k.seqs h.length_le
  deferred := by
    show x.deferred.isSome = (y.proc.bind (·.deferred)).isSome
    rw [hp]
    exact h.deferred
  candidate := by
    show x.candidate.isSome = (y.proc.bind (·.candidate)).isSome
    rw [hp]
    exact h.candidate
  le n hn := k.le (h.le n hn)

/-- A step that leaves the ring and its numbers alone. -/
theorem TagInv.same {x y : Tagged} (h : TagInv x)
    (hc : PluginCounts y.plugin.shared y.plugin.proc)
    (hs : y.plugin.shared.ring = x.plugin.shared.ring)
    (hn : y.plugin.shared.cmdNextSeq = x.plugin.shared.cmdNextSeq) (hring : y.ring = x.ring)
    (hd : y.deferred.isSome = (y.plugin.proc.bind (·.deferred)).isSome)
    (hcand : y.candidate.isSome = (y.plugin.proc.bind (·.candidate)).isSome)
    (hle : ∀ n, y.deferred = some n ∨ y.candidate = some n →
      x.deferred = some n ∨ x.candidate = some n) : TagInv y where
  counts := hc
  ring := by rw [hring, h.ring, hs, hn]
  deferred := hd
  candidate := hcand
  le n h' := by
    rw [hs, hn]
    exact h.le n (hle n h')

/-- A command leaves the ring and becomes the candidate, or is applied. -/
theorem TagInv.popped {x y : Tagged} (h : TagInv x)
    (hc : PluginCounts y.plugin.shared y.plugin.proc) {c : ClapParamPayload}
    {rest : List ClapParamPayload} (hs : x.plugin.shared.ring = c :: rest)
    (hy : y.plugin.shared.ring = rest)
    (hn : y.plugin.shared.cmdNextSeq = x.plugin.shared.cmdNextSeq) (hring : y.ring = x.ring.tail)
    (hd : y.deferred = none ∧ (y.plugin.proc.bind (·.deferred)) = none)
    (hcand : y.candidate.isSome = (y.plugin.proc.bind (·.candidate)).isSome)
    (hle : ∀ n, y.candidate = some n → x.candidate = some n ∨ x.ring.head? = some n) :
    TagInv y where
  counts := hc
  ring := by
    have hlen := h.length_le
    rw [hs, List.length_cons] at hlen
    rw [hring, h.ring, hs, hy, hn, List.length_cons, List.range'_succ, List.tail_cons]
    congr 1
    omega
  deferred := by
    rw [hd.1, hd.2]
    rfl
  candidate := hcand
  le n h' := by
    have hlen := h.length_le
    have hmax := h.le n
    have hhead := h.ring
    rw [hs, List.length_cons] at hlen hmax hhead
    rw [hy, hn]
    obtain h' | h' := h'
    · rw [hd.1] at h'
      cases h'
    obtain h' | h' := hle n h'
    · have := hmax (.inr h')
      omega
    · rw [hhead, List.range'_succ, List.head?_cons] at h'
      have := Option.some.inj h'
      omega

section
variable (E : Engine)

theorem TagInv.drain {x : Tagged} {p : Processor} {m : DrainMove} {r : Shared × Processor}
    (h : TagInv x) (hp : x.plugin.proc = some p) (hc : PluginCounts r.1 (some r.2))
    (k : Drains E x.plugin.shared p m r) :
    TagInv { x.drained m with plugin := ⟨r.1, some r.2⟩ } := by
  have hd := h.deferred
  have hcand := h.candidate
  rw [hp] at hd hcand
  have hcounts : Counts x.plugin.shared p := by
    have := h.counts
    rwa [hp] at this
  have hnone : p.deferred = none → x.deferred = none := fun h0 => by
    simpa [h0] using hd
  have hinstall : ∀ (t : Shared) (q : Processor) (c : ClapParamPayload),
      (install E t q c).1.ring = t.ring ∧ (install E t q c).1.cmdNextSeq = t.cmdNextSeq ∧
        (install E t q c).2.deferred = q.deferred ∧ (install E t q c).2.candidate = q.candidate := by
    intro t q c
    have hf := applyStructural_frame E t { q with resolved := q.resolved + 1 } c
    unfold install
    generalize applyStructural E t { q with resolved := q.resolved + 1 } c = r at *
    rw [hf.shared, hf.proc]
    exact ⟨rfl, rfl, rfl, rfl⟩
  cases k with
  | @installDeferred d hdef =>
    obtain ⟨hr, hn, hd', hc'⟩ := hinstall x.plugin.shared p.unpark d
    refine h.same hc hr hn rfl ?_ ?_ fun n hn => ?_
    · show _ = (install E x.plugin.shared p.unpark d).2.deferred.isSome
      rw [hd']
      rfl
    · show x.candidate.isSome = (install E x.plugin.shared p.unpark d).2.candidate.isSome
      rw [hc']
      exact hcand
    · exact .inr (hn.resolve_left fun h => by cases h)
  | discardDeferred hdef hr hs =>
    refine h.same hc rfl rfl rfl rfl hcand fun n hn => ?_
    exact .inr (hn.resolve_left fun h => by cases h)
  | @applyParams q rest hdef hs =>
    obtain ⟨hr, hn, hd', hc'⟩ := hinstall (x.plugin.shared.popped rest) (p.pop p.candidate)
      (.params q)
    refine h.popped hc hs hr hn rfl ⟨hnone hdef, ?_⟩ ?_ fun n hn => .inl hn
    · show (install E (x.plugin.shared.popped rest) (p.pop p.candidate) (.params q)).2.deferred = _
      rw [hd']
      exact hdef
    · show x.candidate.isSome = (install E (x.plugin.shared.popped rest) (p.pop p.candidate)
        (.params q)).2.candidate.isSome
      rw [hc']
      exact hcand
  | @popCandidate c rest hdef hnc hs hst =>
    refine h.popped hc hs rfl rfl rfl ⟨hnone hdef, hdef⟩ ?_ fun n hn => .inr hn
    show x.ring.head?.isSome = true
    rw [h.ring, hs, List.length_cons, List.range'_succ]
    rfl
  | @supersede d c rest hdef hnc hs hst =>
    refine h.popped hc hs rfl rfl rfl ⟨hnone hdef, hdef⟩ ?_ fun n hn => .inr hn
    show x.ring.head?.isSome = true
    rw [h.ring, hs, List.length_cons, List.range'_succ]
    rfl
  | @installCandidate c hdef hnc =>
    obtain ⟨hr, hn, hd', hc'⟩ := hinstall x.plugin.shared { p with candidate := none } c
    refine h.same hc hr hn rfl ?_ ?_ fun n hn => ?_
    · show x.deferred.isSome =
        (install E x.plugin.shared { p with candidate := none } c).2.deferred.isSome
      rw [hd']
      exact hd
    · show _ = (install E x.plugin.shared { p with candidate := none } c).2.candidate.isSome
      rw [hc']
      rfl
    · exact .inl (hn.resolve_right fun h => by cases h)

/-- What the end of a callback does to the command path. -/
theorem endEvents_commands (s : Shared) (p : Processor) :
    (endEvents E s p).1.ring = s.ring ∧ (endEvents E s p).1.cmdNextSeq = s.cmdNextSeq ∧
      (endEvents E s p).1.cmdLastAck = s.cmdLastAck + p.resolved ∧
      (endEvents E s p).2.deferred = p.candidate.or p.deferred ∧
      (endEvents E s p).2.candidate = none ∧ (endEvents E s p).2.inCallback = false := by
  obtain ⟨r, hframe, heq⟩ := endEvents_frame E s p
  rw [heq, hframe.shared, hframe.proc]
  refine ⟨rfl, rfl, ?_, ?_, ?_, rfl⟩ <;>
    cases hc : p.candidate <;> simp [endDrain, Shared.over, Processor.over, hc]

/-- The operations of the audio thread outside a drain move no command. -/
theorem audioStep_commands {s : Shared} {p : Processor} {a : AudioAction} {r : Shared × Processor}
    (hm : ∀ m, a ≠ .drain m) (he : a ≠ .endEvents) (hr : audioStep E s p a = some r) :
    r.1.ring = s.ring ∧ r.1.cmdNextSeq = s.cmdNextSeq ∧ r.1.cmdLastAck = s.cmdLastAck ∧
      r.2.deferred = p.deferred ∧ r.2.candidate = p.candidate := by
  by_cases ha : a.isCommand = false
  · have k := audioStep_frame E ha hr
    rw [k.shared, k.proc]
    exact ⟨rfl, rfl, rfl, rfl, rfl⟩
  cases a <;> simp only [AudioAction.isCommand, not_true_eq_false] at ha
  case beginEvents room =>
    simp only [audioStep] at hr
    split_ifs at hr
    obtain rfl := Option.some.inj hr
    have k := replayRecovered_frame E { s with ui := (writeGuiEvents s.ui room).ui }
      { p with inCallback := true }
    unfold beginEvents
    dsimp only
    rw [k.shared, k.proc]
    exact ⟨rfl, rfl, rfl, rfl, rfl⟩
  case drain m => exact absurd rfl (hm m)
  case endEvents => exact absurd rfl he

/-- Then the numbers stay. -/
theorem after_same {x : Tagged} {a : AudioAction} (hm : ∀ m, a ≠ .drain m) (he : a ≠ .endEvents)
    (y : Plugin) : x.after y (.audio a) = { x with plugin := y } := by
  cases a with
  | drain m => exact absurd rfl (hm m)
  | endEvents => exact absurd rfl he
  | _ => rfl

theorem TagInv.audio {x : Tagged} {p : Processor} {a : AudioAction} {r : Shared × Processor}
    (h : TagInv x) (hp : x.plugin.proc = some p) (hr : audioStep E x.plugin.shared p a = some r) :
    TagInv (x.after ⟨r.1, some r.2⟩ (.audio a)) := by
  have hcounts : Counts x.plugin.shared p := by
    have := h.counts
    rwa [hp] at this
  have hc : PluginCounts r.1 (some r.2) := hcounts.audio E hr
  have hd := h.deferred
  have hcand := h.candidate
  rw [hp] at hd hcand
  by_cases hm : ∀ m, a ≠ .drain m
  · by_cases he : a = .endEvents
    · subst he
      simp only [audioStep] at hr
      split_ifs at hr
      obtain rfl := Option.some.inj hr
      obtain ⟨hring, hn, -, hdef, hc0, -⟩ := endEvents_commands E x.plugin.shared p
      refine h.same hc hring hn rfl ?_ ?_ fun n hn => ?_
      · show (x.candidate.or x.deferred).isSome = (endEvents E x.plugin.shared p).2.deferred.isSome
        rw [hdef, Option.isSome_or, Option.isSome_or, hd, hcand]
        rfl
      · show false = (endEvents E x.plugin.shared p).2.candidate.isSome
        rw [hc0]
        rfl
      · obtain hn | hn := hn
        · obtain hn | ⟨-, hn⟩ := Option.or_eq_some_iff.1 hn
          · exact .inr hn
          · exact .inl hn
        · cases hn
    · obtain ⟨hring, hn, -, hdef, hcan⟩ := audioStep_commands E hm he hr
      rw [after_same hm he]
      refine h.same hc hring hn rfl ?_ ?_ fun n hn => hn
      · show x.deferred.isSome = r.2.deferred.isSome
        rw [hdef]
        exact hd
      · show x.candidate.isSome = r.2.candidate.isSome
        rw [hcan]
        exact hcand
  · push Not at hm
    obtain ⟨m, rfl⟩ := hm
    simp only [audioStep] at hr
    split_ifs at hr with hin
    exact h.drain E hp hc (drainMove_spec E hr)

/-- An activation empties the ring or adds to it, and starts with nothing parked. -/
theorem Activates.pushes {s : Shared} {cfg : AudioConfig} {faults : ActivateCall → Bool}
    {r : Shared × Option Processor} (k : Activates E s cfg faults r) :
    (r.1.ring = [] ∨ Pushes s r.1) ∧
      r.2.bind (·.deferred) = none ∧ r.2.bind (·.candidate) = none := by
  cases k with
  | noConsumer => exact ⟨.inr (pushes_of_eq rfl rfl rfl), rfl, rfl⟩
  | early => exact ⟨.inl rfl, rfl, rfl⟩
  | adapt => exact ⟨.inl rfl, rfl, rfl⟩
  | flush => exact ⟨.inl rfl, rfl, rfl⟩
  | @ok restore swap pipe a t hprep hf =>
    have hspec := flushPendingModel_spec (s.published E cfg restore a) fun c => faults (.flush c)
    rw [hf] at hspec
    have hpushes := (sends_published E s cfg restore a).pushes.trans hspec.sends.pushes
    refine ⟨.inr (hpushes.trans ?_), rfl, rfl⟩
    exact pushes_of_eq rfl rfl rfl

theorem TagInv.step {x y : Tagged} {a : Action} (h : TagInv x) (hy : tagStep E x a = some y) :
    TagInv y := by
  obtain ⟨u, hu, rfl⟩ := Option.map_eq_some_iff.1 hy
  have hc : PluginCounts u.shared u.proc := h.counts.step E hu
  cases a with
  | main a =>
    obtain rfl := Option.some.inj hu
    exact h.pushes (mainStep_pushes E x.plugin.shared a) rfl
  | audio a =>
    obtain ⟨p, hp, hu⟩ := Option.bind_eq_some_iff.1 hu
    obtain ⟨r, hr, rfl⟩ := Option.map_eq_some_iff.1 hu
    exact h.audio E hp hr
  | activate cfg faults =>
    simp only [NamPlug.step] at hu
    split_ifs at hu with hp
    obtain rfl := Option.some.inj hu
    obtain ⟨hsent, hd, hcand⟩ := (activate_spec E x.plugin.shared cfg faults).pushes
    unfold Tagged.after
    dsimp only at hc hsent ⊢
    split
    · rename_i hr
      refine ⟨hc, ?_, ?_, ?_, fun n hn => by obtain hn | hn := hn <;> cases hn⟩
      · dsimp only
        rw [List.isEmpty_iff.1 hr]
        rfl
      · dsimp only
        rw [hd]
        rfl
      · dsimp only
        rw [hcand]
        rfl
    · rename_i hr
      have k := hsent.resolve_left fun h => hr (List.isEmpty_iff.2 h)
      refine ⟨hc, ?_, ?_, ?_, fun n hn => by obtain hn | hn := hn <;> cases hn⟩
      · dsimp only
        rw [h.ring]
        exact k.seqs h.length_le
      · dsimp only
        rw [hd]
        rfl
      · dsimp only
        rw [hcand]
        rfl
  | deactivate =>
    simp only [NamPlug.step] at hu
    split at hu
    · split_ifs at hu
      obtain rfl := Option.some.inj hu
      rename_i p hp hin
      refine h.same hc ?_ ?_ rfl rfl rfl fun n hn => by obtain hn | hn := hn <;> cases hn
      · show (deactivate x.plugin.shared p).ring = _
        cases hd : p.deferred <;> simp [deactivate, hd]
      · show (deactivate x.plugin.shared p).cmdNextSeq = _
        cases hd : p.deferred <;> simp [deactivate, hd]
    · cases hu

/-- What is parked was the last to leave the ring, if it was when it was parked. -/
theorem TagInv.parked {x y : Tagged} {a : Action} (h : TagInv x)
    (hlast : ∀ n ∈ x.deferred, x.IsLast n) (hG : ParksLast x a) (hy : tagStep E x a = some y) :
    ∀ n ∈ y.deferred, y.IsLast n := by
  obtain ⟨u, hu, rfl⟩ := Option.map_eq_some_iff.1 hy
  intro n hn
  cases a with
  | main a =>
    obtain rfl := Option.some.inj hu
    exact (mainStep_pushes E x.plugin.shared a).room.2 (hlast n hn)
  | audio a =>
    obtain ⟨p, hp, hu⟩ := Option.bind_eq_some_iff.1 hu
    obtain ⟨r, hr, rfl⟩ := Option.map_eq_some_iff.1 hu
    by_cases hm : ∀ m, a ≠ .drain m
    · by_cases he : a = .endEvents
      · subst he
        simp only [audioStep] at hr
        split_ifs at hr
        obtain rfl := Option.some.inj hr
        obtain ⟨hring, hnext, -⟩ := endEvents_commands E x.plugin.shared p
        have hn' : x.IsLast n := by
          obtain hn | ⟨-, hn⟩ := Option.or_eq_some_iff.1 hn
          · exact hG n hn
          · exact hlast n hn
        show n + (endEvents E x.plugin.shared p).1.ring.length =
          (endEvents E x.plugin.shared p).1.cmdNextSeq
        rw [hring, hnext]
        exact hn'
      · obtain ⟨hring, hnext, -⟩ := audioStep_commands E hm he hr
        rw [after_same hm he] at hn ⊢
        show n + r.1.ring.length = r.1.cmdNextSeq
        rw [hring, hnext]
        exact hlast n hn
    · push Not at hm
      obtain ⟨m, rfl⟩ := hm
      simp only [audioStep] at hr
      split_ifs at hr with hin
      -- a drain moves no other command while one is parked
      have hnone : p.deferred = none → x.deferred = none := fun h0 => by
        have hd := h.deferred
        rw [hp] at hd
        simpa [h0] using hd
      have hafter : (x.drained m).deferred = none := by
        cases drainMove_spec E hr with
        | installDeferred hd => rfl
        | discardDeferred hd hr hs => rfl
        | applyParams hd hr => exact hnone hd
        | popCandidate hd hc hr hs => exact hnone hd
        | supersede hd hc hr hs => exact hnone hd
        | installCandidate hd hc => exact hnone hd
      have hn : n ∈ (x.drained m).deferred := hn
      rw [hafter] at hn
      cases hn
  | activate cfg faults =>
    unfold Tagged.after at hn
    dsimp only at hn
    split at hn <;> cases hn
  | deactivate => cases hn

/-! ## Acknowledgements -/

theorem Drains.ack {s : Shared} {p : Processor} {m : DrainMove} {r : Shared × Processor}
    (k : Drains E s p m r) : r.1.cmdLastAck = s.cmdLastAck := by
  have hinstall : ∀ (t : Shared) (q : Processor) (c : ClapParamPayload),
      (install E t q c).1.cmdLastAck = t.cmdLastAck := by
    intro t q c
    unfold install
    rw [(applyStructural_frame E t { q with resolved := q.resolved + 1 } c).shared]
    rfl
  cases k with
  | installDeferred hd => exact hinstall _ _ _
  | discardDeferred hd hr hs => rfl
  | applyParams hd hr => exact hinstall _ _ _
  | popCandidate hd hc hr hs => rfl
  | supersede hd hc hr hs => rfl
  | installCandidate hd hc => exact hinstall _ _ _

theorem audioStep_ack {s : Shared} {p : Processor} {a : AudioAction} {r : Shared × Processor}
    (hr : audioStep E s p a = some r) : s.cmdLastAck ≤ r.1.cmdLastAck := by
  by_cases hm : ∀ m, a ≠ .drain m
  · by_cases he : a = .endEvents
    · subst he
      simp only [audioStep] at hr
      split_ifs at hr
      obtain rfl := Option.some.inj hr
      have := (endEvents_commands E s p).2.2.1
      omega
    · have := (audioStep_commands E hm he hr).2.2.1
      omega
  · push Not at hm
    obtain ⟨m, rfl⟩ := hm
    simp only [audioStep] at hr
    split_ifs at hr
    exact Nat.le_of_eq (drainMove_spec E hr).ack.symm

theorem Activates.ack {s : Shared} {cfg : AudioConfig} {faults : ActivateCall → Bool}
    {r : Shared × Option Processor} (k : Activates E s cfg faults r) :
    s.cmdLastAck ≤ r.1.cmdLastAck := by
  have hflush : ∀ (restore : Option StagedRestore) (a : Assembly) (r : Shared × Bool),
      (s.published E cfg restore a).flushPendingModel (fun c => faults (.flush c)) = r →
      r.1.cmdLastAck = s.cmdLastAck := by
    rintro restore a _ rfl
    have hspec := flushPendingModel_spec (s.published E cfg restore a) fun c => faults (.flush c)
    exact hspec.sends.cmdLastAck.trans (sends_published E s cfg restore a).cmdLastAck
  cases k with
  | noConsumer => exact Nat.le_refl _
  | early => exact Nat.le_add_right _ _
  | adapt => exact Nat.le_add_right _ _
  | flush hprep hf => exact Nat.le_trans (Nat.le_of_eq (hflush _ _ _ hf).symm) (Nat.le_add_right _ _)
  | ok hprep hf => exact Nat.le_of_eq (hflush _ _ _ hf).symm

/-- The acknowledgement does not go back. -/
theorem PluginCounts.ack_le {x y : Plugin} {a : Action} (h : PluginCounts x.shared x.proc)
    (hy : NamPlug.step E x a = some y) : x.shared.cmdLastAck ≤ y.shared.cmdLastAck := by
  cases a with
  | main a =>
    obtain rfl := Option.some.inj hy
    exact Nat.le_of_eq (mainStep_pushes E x.shared a).cmdLastAck.symm
  | audio a =>
    obtain ⟨p, hp, hy⟩ := Option.bind_eq_some_iff.1 hy
    obtain ⟨r, hr, rfl⟩ := Option.map_eq_some_iff.1 hy
    exact audioStep_ack E hr
  | activate cfg faults =>
    simp only [NamPlug.step] at hy
    split_ifs at hy
    obtain rfl := Option.some.inj hy
    exact (activate_spec E x.shared cfg faults).ack
  | deactivate =>
    simp only [NamPlug.step] at hy
    split at hy
    · rename_i p hp
      split_ifs at hy with hin
      obtain rfl := Option.some.inj hy
      rw [hp] at h
      have hc : Counts x.shared p := h
      obtain ⟨hcand, hres⟩ := hc.idle (by simpa using hin)
      have hack := hc.ack
      have hseq := hc.seq
      rw [hcand, hres] at hack
      cases hd : p.deferred with
      | none => simp [deactivate, hd]
      | some d =>
        rw [hd] at hack hseq
        simp [deactivate, hd] at hack hseq ⊢
        omega
    · cases hy

/-! ## Runs -/

theorem ack_mono {x y : Tagged} {bs : List Action} (h : TagInv x)
    (hy : run (tagStep E) x bs = some y) :
    x.plugin.shared.cmdLastAck ≤ y.plugin.shared.cmdLastAck := by
  refine run_relation (I := TagInv) (G := fun _ _ => True)
    (R := fun x y : Tagged => x.plugin.shared.cmdLastAck ≤ y.plugin.shared.cmdLastAck)
    (fun _ => Nat.le_refl _) (fun _ _ _ => Nat.le_trans) (fun s a t hI _ ht => ⟨hI.step E ht, ?_⟩)
    h (.of_forall (fun _ _ => trivial) _ _) hy
  obtain ⟨u, hu, rfl⟩ := Option.map_eq_some_iff.1 ht
  rw [after_plugin]
  exact hI.counts.ack_le E hu

/-- With no callback in progress, every push is acknowledged, in the ring or parked. -/
theorem TagInv.conserved {x : Tagged} (h : TagInv x) (hidle : x.Idle) :
    x.plugin.shared.cmdNextSeq = x.plugin.shared.cmdLastAck + x.plugin.shared.ring.length +
      (x.plugin.proc.bind (·.deferred)).toList.length := by
  have hcounts := h.counts
  cases hp : x.plugin.proc with
  | none =>
    rw [hp] at hcounts
    exact hcounts.symm
  | some p =>
    rw [hp] at hcounts
    have hcounts : Counts x.plugin.shared p := hcounts
    obtain ⟨hcand, hres⟩ := hcounts.idle (hidle p hp)
    have hack := hcounts.ack
    rw [hcand, hres] at hack
    show _ = _ + _ + p.deferred.toList.length
    simp at hack
    omega

/-- The end of a callback leaves it idle, and a candidate parked. -/
theorem endEvents_tagged {x y : Tagged} (hy : tagStep E x (.audio .endEvents) = some y) :
    y.Idle ∧ y.deferred = x.candidate.or x.deferred ∧ ∀ n, y.IsLast n ↔ x.IsLast n := by
  obtain ⟨u, hu, rfl⟩ := Option.map_eq_some_iff.1 hy
  obtain ⟨p, hp, hu⟩ := Option.bind_eq_some_iff.1 hu
  obtain ⟨r, hr, rfl⟩ := Option.map_eq_some_iff.1 hu
  simp only [audioStep] at hr
  split_ifs at hr
  obtain rfl := Option.some.inj hr
  obtain ⟨hring, hnext, -, -, -, hin⟩ := endEvents_commands E x.plugin.shared p
  refine ⟨fun q hq => ?_, rfl, fun n => ?_⟩
  · obtain rfl := Option.some.inj hq
    exact hin
  · show n + (endEvents E x.plugin.shared p).1.ring.length =
      (endEvents E x.plugin.shared p).1.cmdNextSeq ↔ _
    rw [hring, hnext]
    rfl

/-- A candidate that is parked was the last to leave the ring, if the acknowledgement does not cover
it. -/
theorem TagInv.parksLast {x : Tagged} {a : Action} (h : TagInv x)
    (hstep : ∀ y, tagStep E x a = some y → y.Idle → y.Uncovered) : ParksLast x a := by
  unfold ParksLast
  split
  · intro n hn
    have hn : x.candidate = some n := hn
    have hcand := h.candidate
    rw [hn] at hcand
    obtain ⟨c, hc⟩ := Option.isSome_iff_exists.1 hcand.symm
    obtain ⟨p, hp, hc⟩ := Option.bind_eq_some_iff.1 hc
    have hcounts := h.counts
    rw [hp] at hcounts
    have hcounts : Counts x.plugin.shared p := hcounts
    have hin : p.inCallback = true := by
      by_contra hin
      rw [(hcounts.idle (by simpa using hin)).1] at hc
      cases hc
    have hsome : NamPlug.step E x.plugin (.audio .endEvents) =
        some ⟨(endEvents E x.plugin.shared p).1, some (endEvents E x.plugin.shared p).2⟩ := by
      simp only [NamPlug.step, hp, Option.bind_some, audioStep, hin, if_true, Option.map_some]
    have hy : tagStep E x (.audio .endEvents) = some (x.after _ (.audio .endEvents)) :=
      Option.map_eq_some_iff.2 ⟨_, hsome, rfl⟩
    obtain ⟨hidle, hdef, hlast⟩ := endEvents_tagged E hy
    have hun := ((h.step E hy).uncovered_iff hidle).1 (hstep _ hy hidle)
    refine (hlast n).1 (hun n ?_)
    rw [hdef, hn]
    rfl
  · trivial

/-- A run whose idle states acknowledge nothing that is queued or parked is one whose drains park
the last command that left the ring. -/
theorem TagInv.uncovered_run {x : Tagged} {as : List Action} (h : TagInv x)
    (hlast : ∀ n ∈ x.deferred, x.IsLast n) :
    (∀ bs y, bs <+: as → run (tagStep E) x bs = some y → y.Idle → y.Uncovered) ↔
      Guarded (tagStep E) ParksLast x as := by
  induction as generalizing x with
  | nil =>
    refine ⟨fun _ => trivial, fun _ bs y hbs hy hidle => ?_⟩
    obtain rfl := List.prefix_nil.1 hbs
    obtain rfl := Option.some.inj hy
    exact (h.uncovered_iff hidle).2 hlast
  | cons a as ih =>
    constructor
    · intro hall
      have hstep : ∀ t, tagStep E x a = some t → t.Idle → t.Uncovered := fun t ht =>
        hall [a] t ⟨as, rfl⟩ (run_cons.2 ⟨t, ht, rfl⟩)
      have hG := h.parksLast E hstep
      refine ⟨hG, fun t ht => (ih (h.step E ht) (h.parked E hlast hG ht)).1 fun bs y hbs hy => ?_⟩
      exact hall (a :: bs) y (List.cons_prefix_cons.2 ⟨rfl, hbs⟩) (run_cons.2 ⟨t, ht, hy⟩)
    · intro hG bs y hbs hy hidle
      cases bs with
      | nil =>
        obtain rfl := Option.some.inj hy
        exact (h.uncovered_iff hidle).2 hlast
      | cons b bs =>
        obtain ⟨rfl, hpre⟩ := List.cons_prefix_cons.1 hbs
        obtain ⟨t, ht, hy⟩ := run_cons.1 hy
        exact (ih (h.step E ht) (h.parked E hlast hG.1 ht)).2 (hG.2 t ht) bs y hpre hy hidle

/-- In every run: every push is acknowledged, in the ring or parked where no callback is in progress;
the acknowledgement does not go back; and in no such state it covers a command that is queued or
parked, if every drain parks the last command that left the ring, and only then. -/
theorem sequence_conserved {as : List Action} {x : Tagged}
    (h : run (tagStep E) (.init E) as = some x) :
    (x.Idle → x.plugin.shared.cmdNextSeq = x.plugin.shared.cmdLastAck +
      x.plugin.shared.ring.length + (x.plugin.proc.bind (·.deferred)).toList.length) ∧
    (∀ bs y, run (tagStep E) x bs = some y →
      x.plugin.shared.cmdLastAck ≤ y.plugin.shared.cmdLastAck) ∧
    ((∀ bs y, bs <+: as → run (tagStep E) (.init E) bs = some y → y.Idle → y.Uncovered) ↔
      Guarded (tagStep E) ParksLast (.init E) as) := by
  have hinv : TagInv x := run_always (I := TagInv) (fun _ _ _ h ht => h.step E ht) (.init E) h
  exact ⟨hinv.conserved, fun bs y => ack_mono E hinv,
    (TagInv.init E).uncovered_run E fun n hn => by cases hn⟩

end

/-! ## Runs of the reference engine -/

/-- A callback installs the second impulse response and parks the preset, which is the last command
of the ring. -/
def refParking : List Action :=
  refMixedTraffic.dropLast ++ refMixedCallback ++ [.audio .endEvents]

theorem sequence_conserved_parking :
    ∃ x, run (tagStep refEngine) (.init refEngine) refParking = some x ∧ x.deferred = some 3 ∧
      x.plugin.shared.cmdNextSeq = 2 + 0 + 1 ∧ x.Uncovered := by
  have hsome : (run (tagStep refEngine) (.init refEngine) refParking).map
      (fun x => (x.deferred, x.plugin.shared.cmdLastAck, x.plugin.shared.ring.length)) =
        some (some 3, 2, 0) := by decide +kernel
  have hproc : (run (tagStep refEngine) (.init refEngine) refParking).map
      (fun x => x.plugin.proc.map fun p => (p.inCallback, p.deferred.isSome)) =
        some (some (false, true)) := by decide +kernel
  obtain ⟨x, hx, hval⟩ := Option.map_eq_some_iff.1 hsome
  rw [hx] at hproc
  simp only [Prod.mk.injEq] at hval
  simp only [Option.map_some, Option.some.injEq, Option.map_eq_some_iff] at hproc
  obtain ⟨p, hp, hval'⟩ := hproc
  simp only [Prod.mk.injEq] at hval'
  obtain ⟨d, hd⟩ := Option.isSome_iff_exists.1 hval'.2
  have hidle : x.Idle := fun q hq => by
    obtain rfl := Option.some.inj (hp.symm.trans hq)
    exact hval'.1
  obtain ⟨hconserved, -, hguard⟩ := sequence_conserved refEngine hx
  refine ⟨x, hx, hval.1, ?_, ?_⟩
  · rw [hconserved hidle, hval.2.1, hval.2.2, hp, Option.bind_some, hd]
    rfl
  · exact hguard.2 (by decide +kernel) refParking x (List.prefix_refl _) hx hidle

/-- With parameters behind it, the parked preset is covered by the acknowledgement. -/
theorem parked_acknowledged :
    (run (tagStep refEngine) (.init refEngine) (refMixedTraffic ++ refMixedCallback ++
      [.audio (.drain .applyParams), .audio .endEvents])).map
        (fun x => (x.deferred, x.plugin.shared.cmdLastAck, x.plugin.proc.map (·.inCallback))) =
      some (some 3, 3, some false) := by decide +kernel

end NamPlug
