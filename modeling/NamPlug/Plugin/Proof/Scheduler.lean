import NamPlug.Params.Proof.Sanitize
import NamPlug.Plugin.Scheduler

/-!
# The producer is a snapshot queue

`producer_lossless`: a sequence of calls, whatever pushes find room, returns what the snapshot queue
returns and puts the payloads it accepts in the ring, the `k`-th with sequence number `k`.

* `Waiting`: the buffer holds a snapshot, or nothing.
* `Waiting.takeSnapshot`: a snapshot is put together again from the slots, none of its fields from
  the defaults.
* `Shared.tryPushCommand_queue`: the producer of `Plugin/State.lean` is that queue too.
-/

namespace NamPlug

open Binary32

variable {F64 : Type} {W : WideFloat F64} {E : ParamEngine}

/-! ## The buffer -/

theorem CoalesceBuffer.set_of_lt (b : CoalesceBuffer F64) {i : Nat} (h : i < PARAM_COUNT)
    (v : F64) : b.set i v =
      ⟨Function.update b.slots ⟨i, h⟩ (some v), b.dirtyMask ||| 1#16 <<< i⟩ := dif_pos h

/-- The values of consecutive slots set. -/
def CoalesceBuffer.setFrom (b : CoalesceBuffer F64) : Nat → List F64 → CoalesceBuffer F64
  | _, [] => b
  | i, v :: vs => (b.set i v).setFrom (i + 1) vs

theorem CoalesceBuffer.setFrom_slots (b : CoalesceBuffer F64) {k : Nat} {vs : List F64}
    (hk : k + vs.length ≤ PARAM_COUNT) (j : Fin PARAM_COUNT) :
    (b.setFrom k vs).slots j =
      if k ≤ j.val ∧ j.val < k + vs.length then vs[j.val - k]? else b.slots j := by
  induction vs generalizing b k with
  | nil => simp [setFrom]
  | cons v vs ih =>
    rw [List.length_cons] at hk
    rw [setFrom, ih _ (by omega), set_of_lt b (by omega)]
    simp only [List.length_cons]
    rcases Nat.lt_trichotomy j.val k with hj | hj | hj
    · have hne : j ≠ ⟨k, by omega⟩ := fun h => by simp [h] at hj
      rw [if_neg (by omega), if_neg (by omega), Function.update_of_ne hne]
    · have heq : j = ⟨k, by omega⟩ := Fin.ext hj
      rw [if_neg (by omega), if_pos (by omega), heq, Function.update_self]
      simp
    · have hne : j ≠ ⟨k, by omega⟩ := fun h => by simp [h] at hj
      have hsub : j.val - k = j.val - (k + 1) + 1 := by omega
      by_cases hlt : j.val < k + 1 + vs.length
      · rw [if_pos (by omega), if_pos (by omega), hsub, List.getElem?_cons_succ]
      · rw [if_neg (by omega), if_neg (by omega), Function.update_of_ne hne]

/-- The slots a snapshot is kept in. -/
def snapshotSlots (W : WideFloat F64) (p : RtProcessingParams) : List F64 :=
  [W.widen p.inputGainDb, W.widen p.outputGainDb, W.widen p.gateThresholdDb,
    W.ofNat (if p.bypass then 1 else 0), W.ofNat p.adaptiveCompute.code,
    W.ofNat p.slimOverride.code, W.ofNat p.oversample.code, W.ofNat p.activationPrecision.code]

theorem restoreSnapshot_eq (b : CoalesceBuffer F64) (p : RtProcessingParams) :
    b.restoreSnapshot W p = b.setFrom 0 (snapshotSlots W p) := rfl

/-- All eight slots hold the snapshot and are dirty, or none is dirty. -/
def Waiting (W : WideFloat F64) (b : CoalesceBuffer F64) : Option RtProcessingParams → Prop
  | none => b.dirtyMask = 0#16
  | some p => b.dirtyMask = 0xFF#16 ∧
      ∀ i : Fin PARAM_COUNT, i.val < 8 → b.slots i = (snapshotSlots W p)[i.val]?

theorem Waiting.mask {b : CoalesceBuffer F64} {o : Option RtProcessingParams}
    (hb : Waiting W b o) : b.dirtyMask = if o.isSome then 0xFF#16 else 0#16 := by
  cases o with
  | none => exact hb
  | some p => exact hb.1

theorem Waiting.restoreSnapshot {b : CoalesceBuffer F64} {o : Option RtProcessingParams}
    (hb : Waiting W b o) (p : RtProcessingParams) : Waiting W (b.restoreSnapshot W p) (some p) := by
  constructor
  · have hmask := hb.mask
    simp only [restoreSnapshot_eq, snapshotSlots, CoalesceBuffer.setFrom]
    rw [CoalesceBuffer.set_of_lt _ (by decide), CoalesceBuffer.set_of_lt _ (by decide),
      CoalesceBuffer.set_of_lt _ (by decide), CoalesceBuffer.set_of_lt _ (by decide),
      CoalesceBuffer.set_of_lt _ (by decide), CoalesceBuffer.set_of_lt _ (by decide),
      CoalesceBuffer.set_of_lt _ (by decide), CoalesceBuffer.set_of_lt _ (by decide)]
    simp only [hmask]
    cases o.isSome <;> decide
  · intro i hi
    rw [restoreSnapshot_eq, CoalesceBuffer.setFrom_slots _ (by simp [snapshotSlots, PARAM_COUNT]),
      if_pos ⟨Nat.zero_le _, by simpa [snapshotSlots] using hi⟩, Nat.sub_zero]

/-- A slot of a buffer that waits is taken. -/
theorem Waiting.taken {b : CoalesceBuffer F64} {p : RtProcessingParams}
    (hb : Waiting W b (some p)) (i : Fin PARAM_COUNT) (hi : i.val < 8) :
    b.taken i = (snapshotSlots W p)[i.val]? := by
  have hbit : ∀ j : Fin PARAM_COUNT, j.val < 8 → 0xFF#16 &&& (1#16 <<< j.val) ≠ 0#16 := by decide
  rw [CoalesceBuffer.taken, hb.1, if_pos (hbit i hi), hb.2 i hi]

/-- The snapshot that waits is taken, all of its fields from the slots. -/
theorem Waiting.takeSnapshot {b : CoalesceBuffer F64} {o : Option RtProcessingParams}
    (hb : Waiting W b o) :
    (b.takeSnapshot W E).1 = o ∧ Waiting W (b.takeSnapshot W E).2 none := by
  cases o with
  | none =>
    have hclean : b.dirtyMask = 0#16 := hb
    rw [CoalesceBuffer.takeSnapshot, if_pos hclean]
    exact ⟨rfl, hb⟩
  | some p =>
    have hdirty : b.dirtyMask ≠ 0#16 := by rw [hb.1]; decide
    rw [CoalesceBuffer.takeSnapshot, if_neg hdirty]
    refine ⟨congrArg some ?_, rfl⟩
    have hbypass : W.nonzero (W.ofNat (if p.bypass then 1 else 0)) = p.bypass := by
      cases p.bypass
      · exact W.nonzero_ofNat 0 (by decide)
      · exact W.nonzero_ofNat 1 (by decide)
    have h0 : b.taken 0 = some (W.widen p.inputGainDb) := hb.taken 0 (by decide)
    have h1 : b.taken 1 = some (W.widen p.outputGainDb) := hb.taken 1 (by decide)
    have h2 : b.taken 2 = some (W.widen p.gateThresholdDb) := hb.taken 2 (by decide)
    have h3 : b.taken 3 = some (W.ofNat (if p.bypass then 1 else 0)) := hb.taken 3 (by decide)
    have h4 : b.taken 4 = some (W.ofNat p.adaptiveCompute.code) := hb.taken 4 (by decide)
    have h5 : b.taken 5 = some (W.ofNat p.slimOverride.code) := hb.taken 5 (by decide)
    have h6 : b.taken 6 = some (W.ofNat p.oversample.code) := hb.taken 6 (by decide)
    have h7 : b.taken 7 = some (W.ofNat p.activationPrecision.code) := hb.taken 7 (by decide)
    simp only [h0, h1, h2, h3, h4, h5, h6, h7, Option.map_some, Option.getD_some,
      Function.comp_apply, W.narrow_widen, hbypass,
      W.narrow_ofNat _ (AdaptiveComputeMode.code_le _),
      W.narrow_ofNat _ (SlimOverride.code_le _), W.narrow_ofNat _ (OversampleFactor.code_le _),
      W.narrow_ofNat _ (Nat.le_succ_of_le (ActivationPrecision.code_le _)), E.adaptive_code, E.slim_code,
      E.oversample_code, E.activation_code]

/-! ## The producer -/

/-- The producer holds what the queue holds. -/
structure CommandProducer.Refines (W : WideFloat F64) (x : CommandProducer F64)
    (q : SnapshotQueue) : Prop where
  waiting : Waiting W x.coalescing q.latest
  accepted : x.tx = q.accepted.zipIdx.map fun e => ⟨e.2 + 1, e.1⟩
  nextSeq : x.nextSeq = q.accepted.length

namespace CommandProducer

variable {x : CommandProducer F64} {q : SnapshotQueue}

theorem refines_new : (new : CommandProducer F64).Refines W .empty := ⟨rfl, rfl, rfl⟩

theorem Refines.push (hx : x.Refines W q) (payload : ClapParamPayload) :
    (x.push payload).1.Refines W (q.accept payload) ∧
      (x.push payload).2 = (q.accept payload).accepted.length := by
  have hlen : (q.accept payload).accepted.length = q.accepted.length + 1 := by
    simp [SnapshotQueue.accept]
  refine ⟨⟨hx.waiting, ?_, ?_⟩, ?_⟩
  · simp [CommandProducer.push, SnapshotQueue.accept, hx.accepted, hx.nextSeq, List.zipIdx_append]
  · rw [hlen, ← hx.nextSeq]
    rfl
  · rw [hlen, ← hx.nextSeq]
    rfl

theorem Refines.pushParams (hx : x.Refines W q) (p : RtProcessingParams) :
    (x.pushParams W p).1.Refines W { q with latest := some p } ∧
      (x.pushParams W p).2 = q.latest.isNone := by
  refine ⟨⟨hx.waiting.restoreSnapshot p, hx.accepted, hx.nextSeq⟩, ?_⟩
  have hmask := hx.waiting.mask
  simp only [CommandProducer.pushParams, hmask]
  cases q.latest
  · rfl
  · rfl

/-- A flush delivers what waits, or keeps it. -/
theorem Refines.forceFlush (hx : x.Refines W q) (room : Bool) :
    (x.forceFlush W E room).1.Refines W (q.deliver room).1 ∧
      (x.forceFlush W E room).2 = if (q.deliver room).2 then
        some (if q.latest.isSome then (q.deliver room).1.accepted.length else 0) else none := by
  obtain ⟨htake, hwait⟩ := hx.waiting.takeSnapshot (E := E)
  generalize hs : x.coalescing.takeSnapshot W E = s at htake hwait
  obtain ⟨o, b⟩ := s
  obtain ⟨latest, accepted⟩ := q
  obtain rfl : o = latest := htake
  simp only [CommandProducer.forceFlush, SnapshotQueue.deliver, hs]
  cases o with
  | none => exact ⟨⟨hwait, hx.accepted, hx.nextSeq⟩, rfl⟩
  | some p =>
    cases room with
    | true =>
      have hx' : Refines W { x with coalescing := b } ⟨none, accepted⟩ :=
        ⟨hwait, hx.accepted, hx.nextSeq⟩
      obtain ⟨hpush, hseq⟩ := hx'.push (.params p)
      exact ⟨hpush, congrArg some hseq⟩
    | false => exact ⟨⟨hwait.restoreSnapshot p, hx.accepted, hx.nextSeq⟩, rfl⟩

theorem Refines.tryPushCommand (hx : x.Refines W q) (cmd : ClapParamPayload)
    (flushRoom room : Bool) :
    (x.tryPushCommand W E cmd flushRoom room).1.Refines W
        (q.call (.tryPushCommand cmd flushRoom room)).1 ∧
      (x.tryPushCommand W E cmd flushRoom room).2 =
        (q.call (.tryPushCommand cmd flushRoom room)).2 := by
  obtain ⟨hflush, hseq⟩ := hx.forceFlush (E := E) flushRoom
  simp only [CommandProducer.tryPushCommand, SnapshotQueue.call]
  generalize x.forceFlush W E flushRoom = r at hflush hseq
  generalize q.deliver flushRoom = s at hflush hseq
  obtain ⟨x, o⟩ := r
  obtain ⟨q', delivered⟩ := s
  cases delivered with
  | false =>
    obtain rfl : o = none := hseq
    exact ⟨hflush, rfl⟩
  | true =>
    obtain rfl := hseq
    obtain ⟨hpush, hnum⟩ := Refines.push hflush cmd
    cases room with
    | false => exact ⟨hflush, rfl⟩
    | true =>
      refine ⟨hpush, ?_⟩
      simp only [if_true, hnum]
      simp [SnapshotQueue.accept]

/-- One call does what it does to the queue. -/
theorem Refines.call (hx : x.Refines W q) (c : SendCall) :
    (x.call W E c).1.Refines W (q.call c).1 ∧ (x.call W E c).2 = (q.call c).2 := by
  cases c with
  | pushParams p =>
    obtain ⟨hpush, hnew⟩ := hx.pushParams p
    exact ⟨hpush, congrArg SendResult.batch hnew⟩
  | forceFlush room =>
    obtain ⟨hflush, hseq⟩ := hx.forceFlush (E := E) room
    simp only [CommandProducer.call, SnapshotQueue.call]
    generalize x.forceFlush W E room = r at hflush hseq
    generalize q.deliver room = s at hflush hseq
    obtain ⟨x, o⟩ := r
    obtain ⟨q', delivered⟩ := s
    obtain rfl := hseq
    cases delivered with
    | false => exact ⟨hflush, rfl⟩
    | true => exact ⟨hflush, rfl⟩
  | tryPushCommand cmd flushRoom room => exact hx.tryPushCommand cmd flushRoom room

theorem Refines.calls (hx : x.Refines W q) (cs : List SendCall) :
    (x.calls W E cs).1.Refines W (q.calls cs).1 ∧ (x.calls W E cs).2 = (q.calls cs).2 := by
  induction cs generalizing x q with
  | nil => exact ⟨hx, rfl⟩
  | cons c cs ih =>
    obtain ⟨hc, hr⟩ := hx.call (E := E) c
    obtain ⟨hcs, hrs⟩ := ih hc
    refine ⟨hcs, ?_⟩
    simp only [CommandProducer.calls, SnapshotQueue.calls, hr, hrs]

end CommandProducer

/-! ## What the queue promises -/

namespace SnapshotQueue

variable {q : SnapshotQueue}

/-- A call that finds the ring full hands its command back. It left all as it was, or the snapshot
that waited was delivered and the command found no room behind it. -/
theorem call_full (q : SnapshotQueue) (c : SendCall)
    (h : (q.call c).2 = .full ∨ ∃ cmd, (q.call c).2 = .refused cmd) :
    (∀ cmd, (q.call c).2 = .refused cmd → ∃ f r, c = .tryPushCommand cmd f r) ∧
      ((q.call c).1 = q ∨ ∃ p, q.latest = some p ∧
        (q.call c).1 = ⟨none, q.accepted ++ [.params p]⟩) := by
  obtain ⟨latest, accepted⟩ := q
  cases c with
  | pushParams p => rcases h with h | ⟨cmd, h⟩ <;> cases h
  | forceFlush room =>
    cases latest with
    | none => rcases h with h | ⟨cmd, h⟩ <;> cases h
    | some p =>
      cases room with
      | true => rcases h with h | ⟨cmd, h⟩ <;> cases h
      | false => exact ⟨fun cmd h => (by cases h), .inl rfl⟩
  | tryPushCommand cmd flushRoom room =>
    have hback {r : SendResult} (hr : r = .refused cmd) :
        ∀ c, r = .refused c → ∃ f g, SendCall.tryPushCommand cmd flushRoom room =
          .tryPushCommand c f g := by
      rintro c rfl
      cases hr
      exact ⟨_, _, rfl⟩
    cases latest with
    | none =>
      cases room with
      | true => rcases h with h | ⟨cmd, h⟩ <;> cases h
      | false => exact ⟨hback rfl, .inl rfl⟩
    | some p =>
      cases flushRoom with
      | false => exact ⟨hback rfl, .inl rfl⟩
      | true =>
        cases room with
        | true => rcases h with h | ⟨cmd, h⟩ <;> cases h
        | false => exact ⟨hback rfl, .inr ⟨p, rfl, rfl⟩⟩

/-- A snapshot that waits goes out with the next call that succeeds, before its command. -/
theorem call_ok {p : RtProcessingParams} (hp : q.latest = some p) {c : SendCall} {seq : Nat}
    (h : (q.call c).2 = .ok seq) :
    ∃ rest, (q.call c).1.accepted = q.accepted ++ .params p :: rest := by
  obtain ⟨latest, accepted⟩ := q
  obtain rfl : latest = some p := hp
  cases c with
  | pushParams p => cases h
  | forceFlush room =>
    cases room with
    | true => exact ⟨[], rfl⟩
    | false => cases h
  | tryPushCommand cmd flushRoom room =>
    cases flushRoom with
    | false => cases h
    | true =>
      cases room with
      | true => exact ⟨[cmd], List.append_assoc ..⟩
      | false => cases h

end SnapshotQueue

/-- The payloads in the ring. -/
def CommandProducer.payloads (x : CommandProducer F64) : List ClapParamPayload :=
  x.tx.map (·.payload)

/-- What a producer promises of a sequence of calls, and of any call after it. -/
structure ProducerKept (W : WideFloat F64) (E : ParamEngine) (cs : List SendCall) : Prop where
  results : (CommandProducer.new.calls W E cs).2 = (SnapshotQueue.empty.calls cs).2
  payloads : (CommandProducer.new.calls W E cs).1.payloads = (SnapshotQueue.empty.calls cs).1.accepted
  numbered : (CommandProducer.new.calls W E cs).1.tx.map (·.seq) =
    List.range' 1 (CommandProducer.new.calls W E cs).1.tx.length
  /-- A call that finds the ring full hands its command back and has put at most the snapshot that
  waited into the ring. -/
  full : ∀ c, let x := (CommandProducer.new.calls W E cs).1
    let q := (SnapshotQueue.empty.calls cs).1
    (x.call W E c).2 = .full ∨ (∃ cmd, (x.call W E c).2 = .refused cmd) →
      (∀ cmd, (x.call W E c).2 = .refused cmd → ∃ f r, c = .tryPushCommand cmd f r) ∧
        ((x.call W E c).1.payloads = x.payloads ∧ (q.call c).1.latest = q.latest ∨
          ∃ p, q.latest = some p ∧ (x.call W E c).1.payloads = x.payloads ++ [.params p] ∧
            (q.call c).1.latest = none)
  /-- A snapshot that waits goes out with the next call that succeeds. -/
  next : ∀ c seq p, let x := (CommandProducer.new.calls W E cs).1
    (SnapshotQueue.empty.calls cs).1.latest = some p → (x.call W E c).2 = .ok seq →
      ∃ rest, (x.call W E c).1.payloads = x.payloads ++ .params p :: rest

theorem CommandProducer.Refines.payloads {x : CommandProducer F64} {q : SnapshotQueue}
    (hx : x.Refines W q) : x.payloads = q.accepted := by
  rw [CommandProducer.payloads, hx.accepted, List.map_map]
  exact List.zipIdx_map_fst ..

/-- Whatever pushes find room, a producer does to its ring what the snapshot queue does, with the
`k`-th payload numbered `k`, and loses neither a snapshot nor a command. -/
theorem producer_lossless (W : WideFloat F64) (E : ParamEngine) (cs : List SendCall) :
    ProducerKept W E cs := by
  obtain ⟨hx, hresults⟩ := CommandProducer.refines_new.calls (W := W) (E := E) cs
  generalize hxs : CommandProducer.new.calls W E cs = x at hx hresults
  generalize hqs : SnapshotQueue.empty.calls cs = q at hx hresults
  constructor <;> simp only [hxs, hqs]
  · exact hresults
  · exact hx.payloads
  · have hsnd : q.1.accepted.zipIdx.map (fun e => e.2 + 1) =
        (q.1.accepted.zipIdx.map Prod.snd).map (1 + ·) := by
      rw [List.map_map]
      exact List.map_congr_left fun e _ => Nat.add_comm ..
    rw [hx.accepted, List.map_map, List.length_map, List.length_zipIdx]
    exact hsnd.trans (by rw [List.zipIdx_map_snd, List.map_add_range'])
  · intro c hfull
    obtain ⟨hc, hr⟩ := hx.call (E := E) c
    rw [hr] at hfull ⊢
    obtain ⟨hback, hkept⟩ := q.1.call_full c hfull
    refine ⟨hback, ?_⟩
    rw [hc.payloads, hx.payloads]
    rcases hkept with hq | ⟨p, hp, hq⟩
    · exact .inl ⟨by rw [hq], by rw [hq]⟩
    · exact .inr ⟨p, hp, by rw [hq], by rw [hq]⟩
  · intro c seq p hp hok
    obtain ⟨hc, hr⟩ := hx.call (E := E) c
    rw [hr] at hok
    rw [hc.payloads, hx.payloads]
    exact SnapshotQueue.call_ok hp hok

/-- Where all `f64` are those of an `f32`. -/
def exactWide : WideFloat F32 where
  widen v := v
  narrow v := v
  ofNat := Binary32.ofNat
  nonzero v := v != f0
  narrow_widen _ := rfl
  narrow_ofNat _ _ := rfl
  nonzero_ofNat n hn := by
    rcases Nat.le_succ_iff.1 hn with h | rfl
    · rcases Nat.le_one_iff_eq_zero_or_eq_one.1 h with rfl | rfl <;> decide +kernel
    · decide +kernel

/-- A snapshot goes out although the command behind it is refused. -/
example : (CommandProducer.new.calls exactWide refParamEngine
    [.pushParams refParams, .tryPushCommand (.loadCabIr none) true false,
      .tryPushCommand (.loadCabIr none) true true]).2 =
      [.batch true, .refused (.loadCabIr none), .ok 2] := by decide +kernel

/-! ## The queue in the plugin -/

/-- What the plugin's producer holds, and what its ring does. -/
def Shared.queue (s : Shared) : SnapshotQueue := ⟨s.coalescing, s.ring⟩

/-- The ring has a free slot. -/
def Shared.hasRoom (s : Shared) : Bool := decide (s.ring.length < CMD_QUEUE_CAPACITY)

theorem Shared.pushParams_queue (s : Shared) (p : RtProcessingParams) :
    (s.pushParams p).queue = (s.queue.call (.pushParams p)).1 := rfl

/-- The plugin's flush is the queue's. -/
theorem Shared.forceFlush_queue (s : Shared) :
    s.forceFlush.1.queue = (s.queue.deliver s.hasRoom).1 ∧
      s.forceFlush.2 = (s.queue.deliver s.hasRoom).2 := by
  unfold Shared.forceFlush Shared.queue SnapshotQueue.deliver Shared.hasRoom Shared.ringPush
  cases hc : s.coalescing with
  | none => simp [hc]
  | some p =>
    by_cases hroom : s.ring.length < CMD_QUEUE_CAPACITY
    · simp [hroom, SnapshotQueue.accept]
    · simp [hroom, hc]

/-- A command of the plugin is one of the queue, with the room there is before and after the flush. -/
theorem Shared.tryPushCommand_queue (s : Shared) (cmd : ClapParamPayload) :
    let c := SendCall.tryPushCommand cmd s.hasRoom s.forceFlush.1.hasRoom
    (s.tryPushCommand cmd).1.queue = (s.queue.call c).1 ∧
      ((s.tryPushCommand cmd).2 = false ↔ (s.queue.call c).2 = .refused cmd) := by
  obtain ⟨hq, hd⟩ := s.forceFlush_queue
  intro c
  simp only [Shared.tryPushCommand, SnapshotQueue.call, c]
  generalize s.forceFlush = r at hq hd
  generalize s.queue.deliver s.hasRoom = d at hq hd
  obtain ⟨s', b⟩ := r
  obtain ⟨q, b'⟩ := d
  obtain rfl : s'.queue = q := hq
  obtain rfl : b = b' := hd
  cases b with
  | false => simp
  | true =>
    unfold Shared.ringPush Shared.hasRoom
    by_cases hroom : s'.ring.length < CMD_QUEUE_CAPACITY
    · simp [hroom, SnapshotQueue.accept, Shared.queue]
    · simp [hroom]

end NamPlug
