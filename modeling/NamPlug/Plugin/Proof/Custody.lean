import Mathlib.Data.List.Count
import Mathlib.Data.List.ReduceOption
import NamPlug.Lib.Run
import NamPlug.Plugin.Custody

/-!
# The audio thread keeps every box

`Hands r r'`: from `r` to `r'` the audio thread retired what left its payloads and its chain, each
box once, and nothing else (`audioStep_hands`). Under it the garbage collection keeps what it is
given (`retire_spec`, `sweep_spec`), and over it a box that was put into the audio thread's hands is
in one place at a time in every run (`boxes_conserved`).
-/

namespace NamPlug.Boxed

/-! ## The garbage collection -/

/-- What was retired, by where it is now. -/
def Gc.items (g : Gc) : List GcItem := g.channel ++ g.parked ++ g.overflow ++ g.freed

/-- The garbage collection is in order: what was retired is in one place, and the parking lot is
empty where it is not marked. -/
structure Gc.Ok (g : Gc) : Prop where
  kept : g.retired.Perm g.items
  clean : g.parkingLotDirty = false → g.parked = []

theorem Gc.ok_init : Gc.init.Ok where
  kept := .refl _
  clean := fun _ => rfl

@[simp] theorem Gc.turn_parkingLot (g : Gc) : g.turn.parkingLot = g.parkingLot := by
  unfold Gc.turn
  split <;> rfl

@[simp] theorem Gc.turn_parkingLotDirty (g : Gc) :
    g.turn.parkingLotDirty = g.parkingLotDirty := by
  unfold Gc.turn
  split <;> rfl

@[simp] theorem Gc.turn_overflow (g : Gc) : g.turn.overflow = g.overflow := by
  unfold Gc.turn
  split <;> rfl

@[simp] theorem Gc.turn_retired (g : Gc) : g.turn.retired = g.retired := by
  unfold Gc.turn
  split <;> rfl

theorem Gc.turn_parked (g : Gc) : g.turn.parked = g.parked :=
  congrArg List.reduceOption g.turn_parkingLot

/-- The main thread frees from the channel, and nothing else. -/
theorem Gc.collect_count (g : Gc) (n : Nat) (i : GcItem) :
    (g.collect n).channel.count i + (g.collect n).freed.count i =
      g.channel.count i + g.freed.count i := by
  have h := congrArg (List.count i) (List.take_append_drop n g.channel)
  simp only [Gc.collect, List.count_append] at h ⊢
  omega

theorem Gc.turn_count (g : Gc) (i : GcItem) :
    g.turn.channel.count i + g.turn.freed.count i = g.channel.count i + g.freed.count i := by
  unfold Gc.turn
  split
  · rfl
  · exact Gc.collect_count { g with turns := _ } _ i

/-- A free slot is filled. -/
theorem reduceOption_set {α : Type} (i : α) {lot : List (Option α)} {k : Nat}
    (h : lot[k]? = some none) : (lot.set k (some i)).reduceOption.Perm (i :: lot.reduceOption) := by
  induction lot generalizing k with
  | nil => cases h
  | cons slot lot ih =>
    cases k with
    | zero =>
      obtain rfl := Option.some.inj h
      exact .refl _
    | succ k =>
      have hset := ih (by simpa using h)
      cases slot with
      | none => simpa [List.reduceOption_cons_of_none] using hset
      | some j =>
        simp only [List.set_cons_succ, List.reduceOption_cons_of_some]
        exact (hset.cons j).trans (.swap i j _)

theorem Gc.turn_items (g : Gc) : g.turn.items.Perm g.items := by
  refine List.perm_iff_count.2 fun j => ?_
  have hj := g.turn_count j
  simp only [Gc.items, Gc.parked, Gc.turn_parkingLot, Gc.turn_overflow, List.count_append]
  omega

/-- An item is stored once. -/
theorem Stored.items {g g' : Gc} {i : GcItem} (h : Stored g i g') : g'.items.Perm (i :: g.items) := by
  refine List.perm_iff_count.2 fun j => ?_
  cases h with
  | channel h =>
    simp only [Gc.items, Gc.parked, List.count_append, List.count_cons, List.count_nil]
    omega
  | parkingLot k h hk =>
    have hset := List.perm_iff_count.1 (reduceOption_set i hk) j
    simp only [Gc.items, Gc.parked, List.count_append, List.count_cons] at hset ⊢
    omega
  | overflow h hn =>
    simp only [Gc.items, Gc.parked, List.count_append, List.count_cons, List.count_nil]
    omega

/-- A parked item is marked. -/
theorem Stored.frame {g g' : Gc} {i : GcItem} (h : Stored g i g') :
    g'.retired = g.retired ∧
      (g'.parkingLotDirty = false → g.parkingLotDirty = false ∧ g'.parked = g.parked) := by
  cases h with
  | channel h => exact ⟨rfl, fun hd => ⟨hd, rfl⟩⟩
  | parkingLot k h hk => exact ⟨rfl, fun hd => by cases hd⟩
  | overflow h hn => exact ⟨rfl, fun hd => ⟨hd, rfl⟩⟩

section
variable (G : GcSink)

theorem Gc.retire_spec (g : Gc) (i : GcItem) :
    (g.retire G i).retired = g.retired ++ [i] ∧ (g.Ok → (g.retire G i).Ok) := by
  have hitems := (G.stored g i).items.trans (g.turn_items.cons i)
  obtain ⟨hr, hd⟩ := (G.stored g i).frame
  rw [Gc.turn_retired] at hr
  refine ⟨congrArg (· ++ [i]) hr, fun hg => ⟨?_, fun hf => ?_⟩⟩
  · have hlog : (g.retire G i).retired.Perm (i :: g.retired) := by
      rw [Gc.retire, hr]
      exact List.perm_append_singleton i g.retired
    exact hlog.trans ((hg.kept.cons i).trans hitems.symm)
  · obtain ⟨hclean, hparked⟩ := hd hf
    rw [Gc.turn_parkingLotDirty] at hclean
    rw [Gc.turn_parked] at hparked
    exact hparked.trans (hg.clean hclean)

theorem Gc.retireAll_spec (g : Gc) (is : List GcItem) :
    (g.retireAll G is).retired = g.retired ++ is ∧ (g.Ok → (g.retireAll G is).Ok) := by
  induction is generalizing g with
  | nil => exact ⟨(List.append_nil _).symm, id⟩
  | cons i is ih =>
    obtain ⟨hr, hok⟩ := g.retire_spec G i
    obtain ⟨hrs, hoks⟩ := ih (g.retire G i)
    refine ⟨?_, fun hg => hoks (hok hg)⟩
    rw [Gc.retireAll, List.foldl_cons]
    refine hrs.trans ?_
    rw [hr, List.append_assoc, List.singleton_append]

end

/-! ### The sweep of the parking lot -/

theorem Gc.push_spec {g g' : Gc} {i : GcItem} {b : Bool} (h : g.push i = (g', b)) :
    g'.overflow = g.overflow ∧ g'.retired = g.retired ∧ g'.parkingLot = g.parkingLot ∧
      g'.parkingLotDirty = g.parkingLotDirty ∧
      ∀ j, g'.channel.count j + g'.freed.count j =
        g.channel.count j + g.freed.count j + if b = true ∧ i = j then 1 else 0 := by
  unfold Gc.push at h
  split at h
  · cases h
    refine ⟨g.turn_overflow, g.turn_retired, g.turn_parkingLot, g.turn_parkingLotDirty, ?_⟩
    intro j
    have hj := g.turn_count j
    simp only [List.count_append, List.count_cons, List.count_nil, beq_iff_eq, true_and]
    omega
  · cases h
    refine ⟨g.turn_overflow, g.turn_retired, g.turn_parkingLot, g.turn_parkingLotDirty, ?_⟩
    intro j
    simpa using g.turn_count j

/-- What the sweep takes out of the slots goes into the channel. -/
theorem Gc.sweep_spec (g : Gc) (slots : List (Option GcItem)) :
    (g.sweep slots).1.overflow = g.overflow ∧ (g.sweep slots).1.retired = g.retired ∧
      (g.sweep slots).1.parkingLotDirty = g.parkingLotDirty ∧
      ((g.sweep slots).2.2 = false → (g.sweep slots).2.1.reduceOption = []) ∧
      ∀ j, (g.sweep slots).1.channel.count j + (g.sweep slots).1.freed.count j +
          (g.sweep slots).2.1.reduceOption.count j =
        g.channel.count j + g.freed.count j + slots.reduceOption.count j := by
  induction slots generalizing g with
  | nil => exact ⟨rfl, rfl, rfl, fun _ => rfl, fun _ => rfl⟩
  | cons slot slots ih =>
    cases slot with
    | none => exact ih g
    | some i =>
      rcases hp : g.push i with ⟨g', b⟩
      obtain ⟨ho, hr, -, hd, hc⟩ := Gc.push_spec hp
      cases b with
      | true =>
        obtain ⟨iho, ihr, ihd, ihn, ihc⟩ := ih g'
        simp only [Gc.sweep, hp, List.reduceOption_cons_of_none, List.reduceOption_cons_of_some]
        refine ⟨iho.trans ho, ihr.trans hr, ihd.trans hd, ihn, fun j => ?_⟩
        have h1 := ihc j
        have h2 := hc j
        simp only [true_and] at h2
        rw [List.count_cons]
        simp only [beq_iff_eq]
        omega
      | false =>
        simp only [Gc.sweep, hp, List.reduceOption_cons_of_some, Bool.true_eq_false,
          IsEmpty.forall_iff, true_and]
        refine ⟨ho, hr, hd, fun j => ?_⟩
        have h2 := hc j
        simp only [Bool.false_eq_true, false_and, if_false, Nat.add_zero] at h2
        omega

/-- `drain_parking_lot` keeps the garbage collection in order. -/
theorem Gc.drainParkingLot_spec (g : Gc) :
    g.drainParkingLot.retired = g.retired ∧ (g.Ok → g.drainParkingLot.Ok) := by
  obtain ⟨ho, hr, hd, hn, hc⟩ := g.sweep_spec g.parkingLot
  have hkept : ∀ b, g.Ok → g.retired.Perm
      (Gc.items { (g.sweep g.parkingLot).1 with
        parkingLot := (g.sweep g.parkingLot).2.1, parkingLotDirty := b }) := by
    intro b hg
    refine List.perm_iff_count.2 fun j => ?_
    have hkept := List.perm_iff_count.1 hg.kept j
    have hj := hc j
    simp only [Gc.items, Gc.parked, List.count_append, ho] at hkept ⊢
    omega
  unfold Gc.drainParkingLot
  split
  case isTrue hdirty =>
    dsimp only
    cases hb : (g.sweep g.parkingLot).2.2 with
    | true =>
      refine ⟨hr, fun hg => ⟨?_, fun hf => ?_⟩⟩
      · have := hkept (g.sweep g.parkingLot).1.parkingLotDirty hg
        rwa [← hr] at this
      · rw [hdirty] at hd
        exact absurd (hd.symm.trans hf) (by decide)
    | false =>
      refine ⟨hr, fun hg => ⟨?_, fun _ => hn hb⟩⟩
      have := hkept false hg
      rwa [← hr] at this
  case isFalse => exact ⟨rfl, id⟩

/-! ## What the audio thread hands over -/

/-- The boxes of the payloads that are queued, to be replayed or parked. -/
def payloads (r : Shared × Processor) : List GcItem :=
  commandItems r.1.ring ++ commandItems r.1.recoveredCommands ++ rebuildItems r.1.slimRing ++
    r.2.held

/-- One step of the audio thread: what leaves the payloads and the chain is retired. -/
structure Hands (r r' : Shared × Processor) : Prop where
  issued : r'.1.issued = r.1.issued
  sampleRate : r'.1.sampleRate = r.1.sampleRate
  conserved : ∃ is, r'.1.gc.retired = r.1.gc.retired ++ is ∧
    (payloads r ++ r.2.installed).Perm (payloads r' ++ r'.2.installed ++ is)
  ok : r.1.gc.Ok → r'.1.gc.Ok

theorem Hands.refl (r : Shared × Processor) : Hands r r where
  issued := rfl
  sampleRate := rfl
  conserved := ⟨[], (List.append_nil _).symm, by rw [List.append_nil]⟩
  ok := id

theorem Hands.trans {r r' r'' : Shared × Processor} (h : Hands r r') (k : Hands r' r'') :
    Hands r r'' where
  issued := k.issued.trans h.issued
  sampleRate := k.sampleRate.trans h.sampleRate
  conserved := by
    obtain ⟨is, hr, hp⟩ := h.conserved
    obtain ⟨js, kr, kp⟩ := k.conserved
    refine ⟨is ++ js, by rw [kr, hr, List.append_assoc], List.perm_iff_count.2 fun i => ?_⟩
    have h1 := List.perm_iff_count.1 hp i
    have h2 := List.perm_iff_count.1 kp i
    simp only [List.count_append] at h1 h2 ⊢
    omega
  ok := k.ok ∘ h.ok

/-- Boxes that only move from one payload to another are not retired. -/
theorem Hands.moved {r r' : Shared × Processor} (hg : r'.1.gc = r.1.gc)
    (hi : r'.1.issued = r.1.issued) (hs : r'.1.sampleRate = r.1.sampleRate)
    (hp : ∀ i, (payloads r).count i + r.2.installed.count i =
      (payloads r').count i + r'.2.installed.count i) : Hands r r' where
  issued := hi
  sampleRate := hs
  conserved := by
    refine ⟨[], by rw [hg, List.append_nil], List.perm_iff_count.2 fun i => ?_⟩
    simp only [List.count_append, List.count_nil]
    exact hp i
  ok := by
    rw [hg]
    exact id

/-- `p` with the chain of `q`. -/
def Processor.over (p q : Processor) : Processor :=
  { p with
    modelL := q.modelL
    modelR := q.modelR
    modelGeneration := q.modelGeneration
    cabsimPair := q.cabsimPair
    resampler := q.resampler
    stream := q.stream
    osL := q.osL
    osR := q.osR }

theorem Processor.over_held (p q : Processor) : (p.over q).held = p.held := rfl

section
variable (G : GcSink)

theorem Shared.retireAll_append (s : Shared) (is js : List GcItem) :
    s.retireAll G (is ++ js) = (s.retireAll G is).retireAll G js := by
  simp only [Shared.retireAll, Gc.retireAll, List.foldl_append]

/-- The chain takes in the boxes `given`, and the boxes that are in its way are retired. -/
structure Takes (s : Shared) (p : Processor) (given : List GcItem) (r : Shared × Processor) :
    Prop where
  proc : r.2 = p.over r.2
  shared : ∃ is, r.1 = s.retireAll G is ∧
    ∀ i, given.count i + p.installed.count i = r.2.installed.count i + is.count i

variable {G}

theorem Takes.none (s : Shared) (p : Processor) : Takes G s p [] (s, p) where
  proc := rfl
  shared := ⟨[], rfl, fun i => by simp⟩

theorem Takes.trans {s : Shared} {p : Processor} {is js : List GcItem} {r r' : Shared × Processor}
    (h : Takes G s p is r) (k : Takes G r.1 r.2 js r') : Takes G s p (is ++ js) r' where
  proc := by
    rw [k.proc, h.proc]
    rfl
  shared := by
    obtain ⟨out, hs, hc⟩ := h.shared
    obtain ⟨out', ks, kc⟩ := k.shared
    refine ⟨out ++ out', by rw [ks, hs, Shared.retireAll_append], fun i => ?_⟩
    have h1 := hc i
    have h2 := kc i
    simp only [List.count_append] at h1 h2 ⊢
    omega

/-- A payload that was taken off its place goes into the chain or is retired. -/
theorem Takes.hands {s t : Shared} {p q : Processor} {is : List GcItem} {r : Shared × Processor}
    (h : Takes G t q is r) (hg : t.gc = s.gc) (hi : t.issued = s.issued)
    (hs : t.sampleRate = s.sampleRate) (hq : q.installed = p.installed)
    (hp : ∀ i, (payloads (s, p)).count i = (payloads (t, q)).count i + is.count i) :
    Hands (s, p) r := by
  obtain ⟨out, hr, hc⟩ := h.shared
  have hpay : payloads r = payloads (t, q) := by
    have hheld : r.2.held = q.held := by rw [h.proc, Processor.over_held]
    simp only [payloads, hr, hheld]
    rfl
  have hgc : r.1.gc = s.gc.retireAll G out := by rw [hr, Shared.retireAll, hg]
  refine ⟨by rw [hr]; exact hi, by rw [hr]; exact hs, ?_, hgc ▸ (s.gc.retireAll_spec G out).2⟩
  refine ⟨out, hgc ▸ (s.gc.retireAll_spec G out).1, List.perm_iff_count.2 fun i => ?_⟩
  have h1 := hc i
  have h2 := hp i
  rw [hq] at h1
  simp only [List.count_append, hpay] at h1 ⊢
  omega

theorem retire_eq_retireAll (s : Shared) (i : GcItem) : s.retire G i = s.retireAll G [i] := rfl

/-! ### Installing -/

theorem coldLoadModel_takes (s : Shared) (p : Processor) (m : LoadModelPayload) :
    Takes G s p m.items (coldLoadModel G s p m) where
  proc := rfl
  shared := by
    refine ⟨modelItems p.modelL ++ modelItems p.modelR ++ [.resampler p.resampler] ++
      [.streaming p.stream], ?_, fun i => ?_⟩
    · simp only [coldLoadModel, retire_eq_retireAll, Shared.retireAll_append]
    · simp only [LoadModelPayload.items, Processor.installed, coldLoadModel, List.count_append,
        List.count_cons, List.count_nil]
      omega

theorem coldLoadCabsim_takes (s : Shared) (p : Processor) (pair : Option (Box CabSimPair)) :
    Takes G s p (pairItems pair) (coldLoadCabsim G s p pair) := by
  unfold coldLoadCabsim
  split
  · exact ⟨rfl, pairItems pair, rfl, fun i => Nat.add_comm _ _⟩
  · refine ⟨rfl, pairItems p.cabsimPair, rfl, fun i => ?_⟩
    simp only [Processor.installed, List.count_append]
    omega

theorem coldLoadOs_takes (s : Shared) (p : Processor) (osL osR : Box OversampleEngine) :
    Takes G s p [.oversample osL, .oversample osR] (coldLoadOs G s p osL osR) where
  proc := rfl
  shared := by
    refine ⟨[.oversample p.osL] ++ [.oversample p.osR], ?_, fun i => ?_⟩
    · simp only [coldLoadOs, retire_eq_retireAll, Shared.retireAll_append]
    · simp only [Processor.installed, coldLoadOs, List.count_append, List.count_cons,
        List.count_nil]
      omega

/-- Every box of a command goes into the chain or is retired. -/
theorem applyStructural_takes (s : Shared) (p : Processor) (c : ClapParamPayload) :
    Takes G s p c.items (applyStructural G s p c) := by
  cases c with
  | params q => exact .none s p
  | loadModel m => exact coldLoadModel_takes s p m
  | loadCabIr pair => exact coldLoadCabsim_takes s p pair
  | setOversample osL osR => exact coldLoadOs_takes s p osL osR
  | restoreTxn txn =>
    obtain ⟨generation, model, ir, params⟩ := txn
    have hm : Takes G s p (model.elim [] LoadModelPayload.items)
        (model.elim (s, p) (coldLoadModel G s p)) := by
      cases model with
      | none => exact .none s p
      | some m => exact coldLoadModel_takes s p m
    have hi : ∀ r : Shared × Processor, Takes G r.1 r.2 (ir.elim [] pairItems)
        (ir.elim r (coldLoadCabsim G r.1 r.2)) := by
      intro r
      cases ir with
      | none => exact .none _ _
      | some pair => exact coldLoadCabsim_takes _ _ pair
    have htakes := hm.trans (hi _)
    cases model <;> cases ir <;> exact htakes

/-- A superseded command is retired, every box of it, unless it is a restore. -/
theorem discardStructuralPayload_retires (s : Shared) {c : ClapParamPayload}
    (h : c.unbox.coalesceKey.isSome = true) :
    discardStructuralPayload G s c = s.retireAll G c.items := by
  cases c with
  | params q => rfl
  | loadModel m =>
    simp only [discardStructuralPayload, retire_eq_retireAll, ← Shared.retireAll_append]
    simp only [ClapParamPayload.items, LoadModelPayload.items, List.append_assoc,
      List.cons_append, List.nil_append]
  | loadCabIr pair => rfl
  | setOversample osL osR => rfl
  | restoreTxn txn => cases h

theorem discardStructuralPayload_takes (s : Shared) (p : Processor) {c : ClapParamPayload}
    (h : c.unbox.coalesceKey.isSome = true) :
    Takes G s p c.items (discardStructuralPayload G s c, p) where
  proc := rfl
  shared := ⟨c.items, discardStructuralPayload_retires s h, fun _ => Nat.add_comm _ _⟩

end

/-! ### The steps -/

@[simp] theorem commandItems_nil : commandItems [] = [] := rfl

@[simp] theorem commandItems_cons (c : ClapParamPayload) (cs : List ClapParamPayload) :
    commandItems (c :: cs) = c.items ++ commandItems cs := List.flatMap_cons

@[simp] theorem commandItems_append (cs ds : List ClapParamPayload) :
    commandItems (cs ++ ds) = commandItems cs ++ commandItems ds := List.flatMap_append

@[simp] theorem rebuildItems_nil : rebuildItems [] = [] := rfl

@[simp] theorem rebuildItems_cons (r : SlimmableRebuild) (rs : List SlimmableRebuild) :
    rebuildItems (r :: rs) = r.items ++ rebuildItems rs := List.flatMap_cons

@[simp] theorem rebuildItems_append (rs ts : List SlimmableRebuild) :
    rebuildItems (rs ++ ts) = rebuildItems rs ++ rebuildItems ts := List.flatMap_append

theorem supersedes_coalesces {c d : NamPlug.ClapParamPayload} (h : c.supersedes d = true) :
    d.coalesceKey.isSome = true := (Bool.and_eq_true_iff.1 h).1

/-- A drain holds a parked command or a candidate, not both. -/
def Processor.OneHeld (p : Processor) : Prop := p.deferred = none ∨ p.candidate = none

section
variable {G : GcSink}

/-- A drain holds at most one command after a move too. -/
theorem Takes.oneHeld {s : Shared} {p : Processor} {is : List GcItem} {r : Shared × Processor}
    (h : Takes G s p is r) (hp : p.OneHeld) : r.2.OneHeld := by
  rw [h.proc]
  exact hp

theorem drainMove_hands {s : Shared} {p : Processor} {m : DrainMove} {r : Shared × Processor}
    (h : drainMove G s p m = some r) : Hands (s, p) r ∧ (p.OneHeld → r.2.OneHeld) := by
  cases m with
  | installDeferred =>
    simp only [drainMove] at h
    split at h
    case h_1 d hd =>
      split_ifs at h
      obtain rfl := Option.some.inj h
      have ht := applyStructural_takes (G := G) s { p with deferred := none } d
      refine ⟨ht.hands rfl rfl rfl rfl fun i => ?_, fun _ => ht.oneHeld (.inl rfl)⟩
      simp only [payloads, Processor.held, hd, Option.toList, commandItems_cons, commandItems_nil,
        List.count_append, List.count_nil]
      omega
    case h_2 => cases h
  | discardDeferred =>
    simp only [drainMove] at h
    split at h
    case h_1 d hd =>
      split_ifs at h with hsup
      obtain rfl := Option.some.inj h
      obtain ⟨c, -, hc⟩ := (Option.any_eq_true _ _).1 hsup
      have ht := discardStructuralPayload_takes (G := G) s { p with deferred := none }
        (supersedes_coalesces hc)
      refine ⟨ht.hands rfl rfl rfl rfl fun i => ?_, fun _ => .inl rfl⟩
      simp only [payloads, Processor.held, hd, Option.toList, commandItems_cons, commandItems_nil,
        List.count_append, List.count_nil]
      omega
    case h_2 => cases h
  | applyParams =>
    simp only [drainMove] at h
    split at h
    case h_1 q rest hd hr =>
      obtain rfl := Option.some.inj h
      have ht := applyStructural_takes (G := G) { s with ring := rest } p (.params q)
      refine ⟨ht.hands rfl rfl rfl rfl fun i => ?_, ht.oneHeld⟩
      simp only [payloads, hr, commandItems_cons, List.count_append]
      omega
    case h_2 => cases h
  | popCandidate =>
    simp only [drainMove] at h
    split at h
    case h_1 c rest hd hc hr =>
      split_ifs at h
      obtain rfl := Option.some.inj h
      refine ⟨.moved rfl rfl rfl fun i => ?_, fun _ => .inl hd⟩
      simp only [payloads, Processor.held, Processor.installed, hc, hr, Option.toList,
        commandItems_cons, commandItems_nil, List.count_append, List.count_nil]
      omega
    case h_2 => cases h
  | supersede =>
    simp only [drainMove] at h
    split at h
    case h_1 c d rest hd hc hr =>
      split_ifs at h with hsup
      obtain rfl := Option.some.inj h
      have ht := discardStructuralPayload_takes (G := G) { s with ring := rest }
        { p with candidate := some d } (supersedes_coalesces hsup)
      refine ⟨ht.hands rfl rfl rfl rfl fun i => ?_, fun _ => .inl hd⟩
      simp only [payloads, Processor.held, hc, hr, Option.toList, commandItems_cons,
        commandItems_nil, List.count_append, List.count_nil]
      omega
    case h_2 => cases h
  | installCandidate =>
    simp only [drainMove] at h
    split at h
    case h_1 c hd hc =>
      obtain rfl := Option.some.inj h
      have ht := applyStructural_takes (G := G) s { p with candidate := none } c
      refine ⟨ht.hands rfl rfl rfl rfl fun i => ?_, fun _ => ht.oneHeld (.inl hd)⟩
      simp only [payloads, Processor.held, hc, Option.toList, commandItems_cons, commandItems_nil,
        List.count_append, List.count_nil]
      omega
    case h_2 => cases h

theorem slimmableMove_hands {s : Shared} {p : Processor} {m : SlimmableMove}
    {r : Shared × Processor} (h : slimmableMove G s p m = some r) :
    Hands (s, p) r ∧ (p.OneHeld → r.2.OneHeld) := by
  cases m with
  | take =>
    simp only [slimmableMove] at h
    split at h
    case h_1 t rest hd hr =>
      obtain rfl := Option.some.inj h
      refine ⟨.moved rfl rfl rfl fun i => ?_, id⟩
      simp only [payloads, Processor.held, Processor.installed, hd, hr, Option.toList,
        rebuildItems_cons, rebuildItems_nil, List.count_append, List.count_nil]
      omega
    case h_2 => cases h
  | install =>
    simp only [slimmableMove] at h
    split at h
    case h_1 t hd =>
      split_ifs at h
      obtain rfl := Option.some.inj h
      have ht : Takes G s { p with slimDeferred := none } t.items
          (s.retireAll G (modelItems p.modelL),
            { p with modelL := some t.model, slimDeferred := none }) := by
        refine ⟨rfl, modelItems p.modelL, rfl, fun i => ?_⟩
        simp only [Processor.installed, SlimmableRebuild.items, modelItems, Option.map_some,
          Option.toList, List.count_append]
        omega
      refine ⟨ht.hands rfl rfl rfl rfl fun i => ?_, id⟩
      simp only [payloads, Processor.held, hd, Option.toList, rebuildItems_cons, rebuildItems_nil,
        List.count_append, List.count_nil]
      omega
    case h_2 => cases h
  | discard =>
    simp only [slimmableMove] at h
    split at h
    case h_1 t hd =>
      split_ifs at h
      obtain rfl := Option.some.inj h
      have ht : Takes G s { p with slimDeferred := none } t.items
          (s.retire G (.model t.model), { p with slimDeferred := none }) :=
        ⟨rfl, t.items, rfl, fun _ => Nat.add_comm _ _⟩
      refine ⟨ht.hands rfl rfl rfl rfl fun i => ?_, id⟩
      simp only [payloads, Processor.held, hd, Option.toList, rebuildItems_cons, rebuildItems_nil,
        List.count_append, List.count_nil]
      omega
    case h_2 => cases h

/-- The recovered commands are installed one after the other. -/
theorem replayRecovered_takes (s : Shared) (p : Processor) :
    Takes G s { p with recoveredCommands := [] } (commandItems p.recoveredCommands)
      (replayRecovered G s p) := by
  have hall : ∀ (cs : List ClapParamPayload) (r : Shared × Processor),
      Takes G r.1 r.2 (commandItems cs)
        (cs.foldl (fun r c => applyStructural G r.1 r.2 c) r) := by
    intro cs
    induction cs with
    | nil => exact fun r => .none r.1 r.2
    | cons c cs ih => exact fun r => (applyStructural_takes r.1 r.2 c).trans (ih _)
  exact hall p.recoveredCommands (s, { p with recoveredCommands := [] })

theorem beginEvents_hands (s : Shared) (p : Processor) :
    Hands (s, p) (beginEvents G s p) ∧ (p.OneHeld → (beginEvents G s p).2.OneHeld) := by
  have ht := replayRecovered_takes (G := G) s { p with inCallback := true }
  have hreplay : Hands (s, p) (replayRecovered G s { p with inCallback := true }) := by
    refine ht.hands rfl rfl rfl rfl fun i => ?_
    simp only [payloads, Processor.held, commandItems_nil, List.count_append, List.count_nil]
    omega
  refine ⟨hreplay.trans ?_, ht.oneHeld⟩
  obtain ⟨hr, hok⟩ := (replayRecovered G s { p with inCallback := true }).1.gc.drainParkingLot_spec
  exact ⟨rfl, rfl, ⟨[], by rw [List.append_nil]; exact hr, by rw [List.append_nil]; exact .refl _⟩,
    hok⟩

theorem endEvents_hands (s : Shared) {p : Processor} (hp : p.OneHeld) :
    Hands (s, p) (endEvents s p) ∧ (endEvents s p).2.OneHeld := by
  cases hc : p.candidate with
  | none =>
    simp only [endEvents, hc]
    refine ⟨.moved rfl rfl rfl fun i => ?_, .inr rfl⟩
    simp only [payloads, Processor.held, Processor.installed, hc]
  | some c =>
    have hd : p.deferred = none := by
      rcases hp with hd | hcn
      · exact hd
      · rw [hc] at hcn
        cases hcn
    simp only [endEvents, hc]
    refine ⟨.moved rfl rfl rfl fun i => ?_, .inr rfl⟩
    simp only [payloads, Processor.held, Processor.installed, hc, hd, Option.toList,
      commandItems_cons, commandItems_nil, List.count_append, List.count_nil]
    omega

/-- A step of the audio thread retires what it takes away, each box once. -/
theorem audioStep_hands {s : Shared} {p : Processor} {a : AudioAction} {r : Shared × Processor}
    (hp : p.OneHeld) (h : audioStep G s p a = some r) : Hands (s, p) r ∧ r.2.OneHeld := by
  cases a with
  | beginEvents room =>
    simp only [audioStep] at h
    split_ifs at h
    obtain rfl := Option.some.inj h
    exact (beginEvents_hands s p).imp_right fun k => k hp
  | drain m =>
    simp only [audioStep] at h
    split_ifs at h
    exact (drainMove_hands h).imp_right fun k => k hp
  | endEvents =>
    simp only [audioStep] at h
    split_ifs at h
    obtain rfl := Option.some.inj h
    exact endEvents_hands s hp
  | slimmable m =>
    simp only [audioStep] at h
    split_ifs at h
    exact (slimmableMove_hands h).imp_right fun k => k hp
  | hostEvents es | flushInner room es | signalSlimmableRebuild ch | reset =>
    simp only [audioStep] at h
    split_ifs at h
    obtain rfl := Option.some.inj h
    exact ⟨.refl _, hp⟩

end

/-! ## Runs -/

/-- What holds in every state: the boxes that were issued are all different, each is in a payload,
in the chain or retired, and the garbage collection is in order. -/
structure Kept (x : Plugin) : Prop where
  distinct : (x.shared.issued.map GcItem.id).Nodup
  accounted : x.shared.issued.Perm (x.payloads ++ x.installed ++ x.shared.gc.retired)
  ok : x.shared.gc.Ok
  oneHeld : ∀ p, x.proc = some p → p.OneHeld

theorem kept_init : Kept .init where
  distinct := .nil
  accounted := .refl _
  ok := Gc.ok_init
  oneHeld := fun p h => by cases h

/-- The main thread takes boxes back that are not retired. -/
theorem Kept.takeBack {x y : Plugin} (hx : Kept x) (is : List GcItem)
    (hi : y.shared.issued = x.shared.issued.diff is)
    (hr : y.shared.gc.retired = x.shared.gc.retired)
    (hc : ∀ i, x.payloads.count i + x.installed.count i =
      y.payloads.count i + y.installed.count i + is.count i)
    (hok : y.shared.gc.Ok) (hone : ∀ p, y.proc = some p → p.OneHeld) : Kept y where
  distinct := by
    rw [hi]
    exact hx.distinct.sublist ((List.diff_sublist _ _).map _)
  accounted := by
    refine List.perm_iff_count.2 fun i => ?_
    have h1 := List.perm_iff_count.1 hx.accounted i
    have h2 := hc i
    rw [hi, hr]
    simp only [List.count_diff, List.count_append] at h1 ⊢
    omega
  ok := hok
  oneHeld := hone

/-- The main thread issues boxes no one has. -/
theorem Kept.issue {x y : Plugin} (hx : Kept x) {is : List GcItem} (hf : x.shared.fresh is)
    (hi : y.shared.issued = x.shared.issued ++ is) (hg : y.shared.gc = x.shared.gc)
    (hc : ∀ i, y.payloads.count i + y.installed.count i =
      x.payloads.count i + x.installed.count i + is.count i)
    (hone : ∀ p, y.proc = some p → p.OneHeld) : Kept y where
  distinct := by
    rw [hi]
    exact hf
  accounted := by
    refine List.perm_iff_count.2 fun i => ?_
    have h1 := List.perm_iff_count.1 hx.accounted i
    have h2 := hc i
    rw [hi, hg]
    simp only [List.count_append] at h1 ⊢
    omega
  ok := hg ▸ hx.ok
  oneHeld := hone

theorem Gc.Ok.drainFinal {g : Gc} (h : g.Ok) : g.drainFinal.Ok where
  kept := by
    refine List.perm_iff_count.2 fun i => ?_
    have hk := List.perm_iff_count.1 h.kept i
    simp only [Gc.items, Gc.drainFinal, List.count_append, List.count_nil] at hk ⊢
    have hlot : (Gc.parked { g with
        channel := [], overflow := []
        parkingLot := List.replicate PARKING_LOT_SLOTS none
        parkingLotDirty := false
        freed := g.freed ++ g.channel ++ g.overflow ++ g.parked }) = [] := rfl
    simp only [hlot, List.count_nil]
    omega
  clean := fun _ => rfl

/-- The commands a failed activation drains are those that wait and those that go back. -/
theorem commandItems_filter (cs : List ClapParamPayload) (i : GcItem) :
    (commandItems cs).count i = (commandItems (cs.filter (!·.isLoadModel))).count i +
      (commandItems (cs.filter (·.isLoadModel))).count i := by
  induction cs with
  | nil => rfl
  | cons c cs ih =>
    cases hc : c.isLoadModel <;>
      simp only [List.filter_cons, hc, commandItems_cons, List.count_append, Bool.not_true,
        Bool.not_false, if_true, Bool.false_eq_true, if_false] <;> omega

section
variable (G : GcSink)

/-- A step of the audio thread, seen from the whole plugin. -/
theorem step_audio {x y : Plugin} {turns : List Nat} {a : AudioAction}
    (h : step G x (.audio turns a) = some y) :
    ∃ p q, x.proc = some p ∧ y.proc = some q ∧
      audioStep G { x.shared with gc := { x.shared.gc with turns } } p a = some (y.shared, q) := by
  simp only [step, Option.bind_eq_some_iff, Option.map_eq_some_iff] at h
  obtain ⟨p, hp, r, hr, rfl⟩ := h
  exact ⟨p, r.2, hp, rfl, hr⟩

/-- What a step of the audio thread takes out of the payloads and the chain is retired. -/
theorem step_audio_hands {x y : Plugin} {turns : List Nat} {a : AudioAction} (hx : Kept x)
    (h : step G x (.audio turns a) = some y) :
    Kept y ∧ y.shared.issued = x.shared.issued ∧
      ∃ is, y.shared.gc.retired = x.shared.gc.retired ++ is ∧
        (x.payloads ++ x.installed).Perm (y.payloads ++ y.installed ++ is) := by
  obtain ⟨p, q, hp, hq, hs⟩ := step_audio G h
  obtain ⟨hands, hone⟩ := audioStep_hands (hx.oneHeld p hp) hs
  have hpay : ∀ {z : Plugin} {u : Processor}, z.proc = some u →
      z.payloads = payloads (z.shared, u) ∧ z.installed = u.installed := by
    intro z u hz
    rw [Plugin.payloads, Plugin.installed, hz]
    exact ⟨rfl, rfl⟩
  have hissued : y.shared.issued = x.shared.issued := hands.issued
  obtain ⟨is, hr, hc⟩ := hands.conserved
  have hmoved : (x.payloads ++ x.installed).Perm (y.payloads ++ y.installed ++ is) := by
    rw [(hpay hp).1, (hpay hp).2, (hpay hq).1, (hpay hq).2]
    exact hc
  refine ⟨⟨hissued ▸ hx.distinct, ?_, hands.ok ⟨hx.ok.kept, hx.ok.clean⟩, fun u hu => ?_⟩, hissued,
    is, hr, hmoved⟩
  · rw [hissued, hr]
    refine hx.accounted.trans ((hmoved.append_right _).trans ?_)
    exact List.perm_iff_count.2 fun i => by
      simp only [List.count_append]
      omega
  · obtain rfl := Option.some.inj (hq.symm.trans hu)
    exact hone

theorem step_kept {x y : Plugin} {a : Action} (hx : Kept x) (h : step G x a = some y) :
    Kept y := by
  cases a with
  | audio turns a => exact (step_audio_hands G hx h).1
  | send c =>
    simp only [step] at h
    split_ifs at h with hg
    obtain rfl := Option.some.inj h
    refine hx.issue hg.2 rfl rfl (fun i => ?_) hx.oneHeld
    simp only [Plugin.payloads, Plugin.installed, commandItems_append, commandItems_cons,
      commandItems_nil, List.count_append, List.count_nil]
    omega
  | sendSlimmable r =>
    simp only [step] at h
    split_ifs at h with hg
    obtain rfl := Option.some.inj h
    refine hx.issue hg.2 rfl rfl (fun i => ?_) hx.oneHeld
    simp only [Plugin.payloads, Plugin.installed, rebuildItems_append, rebuildItems_cons,
      rebuildItems_nil, List.count_append, List.count_nil]
    omega
  | collect n =>
    obtain rfl := Option.some.inj h
    refine ⟨hx.distinct, hx.accounted, ⟨?_, hx.ok.clean⟩, hx.oneHeld⟩
    refine hx.ok.kept.trans (List.perm_iff_count.2 fun i => ?_)
    have hc := x.shared.gc.collect_count n i
    simp only [Gc.items, Gc.parked, Gc.collect, List.count_append] at hc ⊢
    omega
  | collectOverflow =>
    obtain rfl := Option.some.inj h
    refine ⟨hx.distinct, hx.accounted, ⟨?_, hx.ok.clean⟩, hx.oneHeld⟩
    refine hx.ok.kept.trans (List.perm_iff_count.2 fun i => ?_)
    simp only [Gc.items, Gc.parked, List.count_append, List.count_nil]
    omega
  | activate p sampleRate =>
    simp only [step] at h
    split_ifs at h with hg
    obtain rfl := Option.some.inj h
    refine hx.issue hg.2 rfl rfl (fun i => ?_) fun q hq => ?_
    · simp only [Plugin.payloads, Plugin.installed, hg.1, Processor.held, Processor.installed,
        Option.toList, commandItems_nil, rebuildItems_nil, List.count_append, List.count_nil]
      omega
    · obtain rfl := Option.some.inj hq
      exact .inl rfl
  | failActivation =>
    simp only [step] at h
    split_ifs at h with hg
    obtain rfl := Option.some.inj h
    refine hx.takeBack _ rfl rfl (fun i => ?_) hx.ok fun q hq => by cases hq
    have hf := commandItems_filter x.shared.ring i
    simp only [Plugin.payloads, Plugin.installed, Shared.recover, hg, commandItems_append,
      commandItems_nil, List.count_append, List.count_nil]
    omega
  | deactivate =>
    simp only [step] at h
    split at h
    case h_1 p hp =>
      split_ifs at h
      obtain rfl := Option.some.inj h
      refine hx.takeBack (p.installed ++ p.held) rfl rfl (fun i => ?_) hx.ok.drainFinal
        fun q hq => by cases hq
      simp only [Plugin.payloads, Plugin.installed, hp, List.count_append, List.count_nil]
      omega
    case h_2 => cases h

theorem run_kept {x : Plugin} {as : List Action} (h : Machine.run (step G) .init as = some x) :
    Kept x :=
  Machine.run_always (fun _ _ _ hx hs => step_kept G hx hs) kept_init h

/-- The boxes that were put into the audio thread's hands are all different, and each is in one
place: a queued or parked payload, the installed chain, the channel, the parking lot, the overflow,
or freed by the main thread, which takes it from there. A step of the audio thread retires what
leaves the payloads and the chain, each box once, and an unmarked parking lot is empty. -/
theorem boxes_conserved {as : List Action} {x : Plugin}
    (h : Machine.run (step G) .init as = some x) :
    (x.shared.issued.map GcItem.id).Nodup ∧
    x.shared.issued.Perm (x.payloads ++ x.installed ++ (x.shared.gc.channel ++
      x.shared.gc.parked ++ x.shared.gc.overflow ++ x.shared.gc.freed)) ∧
    x.shared.gc.retired.Perm (x.shared.gc.channel ++ x.shared.gc.parked ++
      x.shared.gc.overflow ++ x.shared.gc.freed) ∧
    (∀ turns a y, step G x (.audio turns a) = some y →
      y.shared.issued = x.shared.issued ∧
      ∃ is, y.shared.gc.retired = x.shared.gc.retired ++ is ∧
        (x.payloads ++ x.installed).Perm (y.payloads ++ y.installed ++ is)) ∧
    (x.shared.gc.parkingLotDirty = false → x.shared.gc.parked = []) := by
  have hx := run_kept G h
  refine ⟨hx.distinct, ?_, hx.ok.kept, fun turns a y hy => ?_, hx.ok.clean⟩
  · exact hx.accounted.trans (hx.ok.kept.append_left _)
  · exact (step_audio_hands G hx hy).2

end

/-! ## A run -/

/-- The sink that looks for the first free slot. -/
def GcSink.first : GcSink where
  store g i :=
    if g.turn.channel.length < GC_CAPACITY then
      { g.turn with channel := g.turn.channel ++ [i] }
    else if none ∈ g.turn.parkingLot then
      { g.turn with
        parkingLot := g.turn.parkingLot.set (g.turn.parkingLot.idxOf none) (some i)
        parkingLotDirty := true }
    else { g.turn with overflow := g.turn.overflow ++ [i] }
  stored g i := by
    split_ifs with h hn
    · exact .channel h
    · exact .parkingLot _ h (List.getElem?_idxOf hn)
    · exact .overflow h hn

/-- A callback that installs one command. -/
def refCallback (turns : List Nat) : List Action :=
  [.audio turns (.beginEvents 0), .audio [] (.drain .popCandidate),
    .audio [] (.drain .installCandidate), .audio [] .endEvents]

def refProcessor : Processor where
  modelL := none
  modelR := none
  modelGeneration := 0
  cabsimPair := none
  resampler := ⟨0, ⟨48000, 48000⟩⟩
  stream := ⟨1, ⟨48000, 48000, 64⟩⟩
  osL := ⟨2, ⟨.off⟩⟩
  osR := ⟨3, ⟨.off⟩⟩
  recoveredCommands := []
  deferred := none
  candidate := none
  slimDeferred := none
  inCallback := false

/-- Oversamplers until the channel is full, and a callback after the main thread took one item. -/
def refActions : List Action :=
  .activate refProcessor 48000 ::
    ((List.range 17).flatMap fun k =>
      .send (.setOversample ⟨4 + 2 * k, ⟨.off⟩⟩ ⟨5 + 2 * k, ⟨.off⟩⟩) :: refCallback []) ++
    [.audio [1] (.beginEvents 0)]

/-- The channel is full, one of the two items that were parked went out, and one is left. -/
theorem run_refActions : (Machine.run (step .first) .init refActions).map (fun x =>
    (x.shared.gc.channel.length, x.shared.gc.parked.length, x.shared.gc.freed.length,
      x.shared.gc.parkingLotDirty)) = some (32, 1, 1, true) := by decide +kernel

theorem boxes_conserved_full : ∃ x, Machine.run (step .first) .init refActions = some x ∧
    x.shared.issued.Perm (x.payloads ++ x.installed ++ (x.shared.gc.channel ++
      x.shared.gc.parked ++ x.shared.gc.overflow ++ x.shared.gc.freed)) := by
  obtain ⟨x, hx, -⟩ := Option.map_eq_some_iff.1 run_refActions
  exact ⟨x, hx, (boxes_conserved .first hx).2.1⟩

end NamPlug.Boxed
