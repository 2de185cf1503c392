import NamPlug.Dsp.DryDelay

/-!
# The dry delay line and its reference

`dry_delay_refines`: a block puts out the left input and, in mono, the same on the right; in dual
the right input since the last mono block, the left input before its end. How a stretch of blocks of
one kind is cut makes no difference.

* `Holds`: what the rings hold after a sequence of calls. While the latch is set the right ring is
  stale, and the left one holds what a dual block will put out on the right.
-/

namespace NamPlug

open Delay

variable {α : Type}

theorem length_left (b : DryBlock α) : b.left.length = b.len := by
  simp only [DryBlock.left, List.length_take, DryBlock.len]
  omega

theorem length_right (b : DryBlock α) : b.right.length = b.len := by
  simp only [DryBlock.right, List.length_take, DryBlock.len]
  omega

theorem leftInput_append (as bs : List (DryBlock α)) :
    leftInput (as ++ bs) = leftInput as ++ leftInput bs := List.flatMap_append

theorem rightInput_append (as bs : List (DryBlock α)) :
    rightInput (as ++ bs) = rightInput as ++ rightInput bs := List.flatMap_append

theorem leftInput_concat (bs : List (DryBlock α)) (b : DryBlock α) :
    leftInput (bs ++ [b]) = leftInput bs ++ b.left := by
  rw [leftInput_append]
  simp [leftInput]

theorem rightInput_concat (bs : List (DryBlock α)) (b : DryBlock α) :
    rightInput (bs ++ [b]) = rightInput bs ++ b.right := by
  rw [rightInput_append]
  simp [rightInput]

theorem length_rightInput (bs : List (DryBlock α)) :
    (rightInput bs).length = (leftInput bs).length := by
  simp only [rightInput, leftInput, List.length_flatMap, length_left, length_right]

theorem lastMonoEnd_fold (bs : List (DryBlock α)) :
    bs.foldl (fun (s : Nat × Nat) b =>
      (s.1 + b.len, if b.processMono then s.1 + b.len else s.2)) (0, 0) =
      ((leftInput bs).length, lastMonoEnd bs) := by
  refine Prod.ext ?_ rfl
  induction bs using List.reverseRecOn with
  | nil => rfl
  | append_singleton bs b ih =>
    rw [List.foldl_append, leftInput_concat, List.length_append, length_left]
    simp only [List.foldl_cons, List.foldl_nil, ih]

theorem lastMonoEnd_concat (bs : List (DryBlock α)) (b : DryBlock α) :
    lastMonoEnd (bs ++ [b]) =
      if b.processMono then (leftInput (bs ++ [b])).length else lastMonoEnd bs := by
  rw [lastMonoEnd, List.foldl_append, lastMonoEnd_fold, leftInput_concat, List.length_append,
    length_left]
  rfl

theorem lastMonoEnd_le (bs : List (DryBlock α)) : lastMonoEnd bs ≤ (leftInput bs).length := by
  induction bs using List.reverseRecOn with
  | nil => exact Nat.le_refl _
  | append_singleton bs b ih =>
    rw [lastMonoEnd_concat]
    split
    · exact Nat.le_refl _
    · rw [leftInput_concat, List.length_append]
      omega

/-- After a mono block the signal is the left input. -/
theorem bridgedInput_mono {bs : List (DryBlock α)} {b : DryBlock α} (hb : b.processMono = true) :
    bridgedInput (bs ++ [b]) = leftInput (bs ++ [b]) := by
  rw [bridgedInput, lastMonoEnd_concat, if_pos hb, List.take_length,
    List.drop_eq_nil_of_le (Nat.le_of_eq (length_rightInput _)), List.append_nil]

theorem bridgedInput_dual {bs : List (DryBlock α)} {b : DryBlock α} (hb : b.processMono = false) :
    bridgedInput (bs ++ [b]) = bridgedInput bs ++ b.right := by
  have hle := lastMonoEnd_le bs
  have hright := length_rightInput bs
  rw [bridgedInput, lastMonoEnd_concat, if_neg (by simp [hb]), leftInput_concat, rightInput_concat,
    List.take_append_of_le_length hle, List.drop_append_of_le_length (by omega),
    ← List.append_assoc, ← bridgedInput]

theorem length_bridgedInput (bs : List (DryBlock α)) :
    (bridgedInput bs).length = (leftInput bs).length := by
  have hle := lastMonoEnd_le bs
  have hright := length_rightInput bs
  simp only [bridgedInput, List.length_append, List.length_take, List.length_drop]
  omega

/-! ## What the rings hold -/

/-- The line after a sequence of calls. -/
structure DryRings.Holds (z : α) (capacity d : Nat) (bs : List (DryBlock α)) (x : DryRings α) :
    Prop where
  left : x.lineL = .after z capacity d (leftInput bs)
  right : x.lastMono = false → x.lineR = .after z capacity d (bridgedInput bs)
  mirrored : x.lastMono = true → bridgedInput bs = leftInput bs

namespace DryRings

variable {z : α} {capacity d : Nat} {bs : List (DryBlock α)} {x : DryRings α}

theorem holds_new (z : α) (capacity d : Nat) : (new z capacity d).Holds z capacity d [] :=
  ⟨(Ring.after_nil ..).symm, fun _ => (Ring.after_nil ..).symm, fun h => absurd h (by simp [new])⟩

/-- A mono block feeds the left ring alone. -/
theorem Holds.mono (hd : d ≤ capacity) (hx : x.Holds z capacity d bs) {b : DryBlock α}
    (hb : b.processMono = true) :
    x.processBlock b =
      ((delayedBlock d z (leftInput (bs ++ [b])) (leftInput bs).length b.len ++ b.outL.drop b.len,
        delayedBlock d z (leftInput (bs ++ [b])) (leftInput bs).length b.len ++ b.outR.drop b.len),
        { x with
          lineL := .after z capacity d (leftInput (bs ++ [b]))
          lastMono := true }) := by
  rw [processBlock, if_pos hb, hx.left, Ring.process_after hd, length_left, leftInput_concat]
  rfl

/-- A dual block feeds both, the right one with what a mono stretch left it to bridge. -/
theorem Holds.dual (hd : d ≤ capacity) (hx : x.Holds z capacity d bs) {b : DryBlock α}
    (hb : b.processMono = false) :
    x.processBlock b =
      ((delayedBlock d z (leftInput (bs ++ [b])) (leftInput bs).length b.len ++ b.outL.drop b.len,
        delayedBlock d z (bridgedInput (bs ++ [b])) (leftInput bs).length b.len ++
          b.outR.drop b.len),
        { lineL := .after z capacity d (leftInput (bs ++ [b]))
          lineR := .after z capacity d (bridgedInput (bs ++ [b]))
          lastMono := false }) := by
  have hright : (if x.lastMono then x.mirrorLHistoryIntoR else x).lineR =
      .after z capacity d (bridgedInput bs) := by
    split
    · rename_i h
      rw [hx.mirrored h]
      exact hx.left
    · rename_i h
      exact hx.right (Bool.eq_false_iff.2 h)
  have hleft : (if x.lastMono then x.mirrorLHistoryIntoR else x).lineL =
      .after z capacity d (leftInput bs) := by
    split <;> exact hx.left
  rw [processBlock, if_neg (by simp [hb])]
  simp only [hleft, hright, Ring.process_after hd, length_left, length_right, leftInput_concat,
    bridgedInput_dual hb, delayedBlock, length_bridgedInput]

theorem Holds.processBlock (hd : d ≤ capacity) (hx : x.Holds z capacity d bs) (b : DryBlock α) :
    (x.processBlock b).2.Holds z capacity d (bs ++ [b]) := by
  cases hb : b.processMono with
  | true =>
    rw [hx.mono hd hb]
    exact ⟨rfl, fun h => absurd h (by simp), fun _ => bridgedInput_mono hb⟩
  | false =>
    rw [hx.dual hd hb]
    exact ⟨rfl, fun _ => rfl, fun h => absurd h (by simp)⟩

theorem Holds.afterBlocks (hd : d ≤ capacity) (hx : x.Holds z capacity d bs)
    (cs : List (DryBlock α)) : (x.afterBlocks cs).Holds z capacity d (bs ++ cs) := by
  induction cs generalizing x bs with
  | nil => simpa [DryRings.afterBlocks] using hx
  | cons c cs ih =>
    have := ih (hx.processBlock hd c)
    rwa [List.append_assoc, List.singleton_append] at this

end DryRings

/-! ## Stretches of one kind -/

theorem length_delayedBlock (d : Nat) (z : α) (signal : List α) (T n : Nat) :
    (delayedBlock d z signal T n).length = n := by simp [delayedBlock]

theorem delayedBlock_add (d : Nat) (z : α) (signal : List α) (T m n : Nat) :
    delayedBlock d z signal T (m + n) =
      delayedBlock d z signal T m ++ delayedBlock d z signal (T + m) n := by
  simp only [delayedBlock, List.range_add, List.map_append, List.map_map, Function.comp_def,
    Nat.add_assoc]

/-- Later samples of the signal do not matter. -/
theorem delayedBlock_append (d : Nat) (z : α) {signal : List α} (more : List α) {T n : Nat}
    (h : T + n ≤ signal.length) :
    delayedBlock d z (signal ++ more) T n = delayedBlock d z signal T n := by
  refine List.map_congr_left fun i hi => ?_
  have hi := List.mem_range.1 hi
  unfold delayed
  split
  · rfl
  · simp only [List.getD_eq_getElem?_getD]
    rw [List.getElem?_append_left (by omega)]

namespace DryRings

variable {z : α} {capacity d : Nat} {bs : List (DryBlock α)} {x : DryRings α}

theorem rendered_cons (x : DryRings α) (b : DryBlock α) (bs : List (DryBlock α)) :
    x.rendered (b :: bs) =
      ((x.processBlock b).1.1.take b.len ++ ((x.processBlock b).2.rendered bs).1,
        (x.processBlock b).1.2.take b.len ++ ((x.processBlock b).2.rendered bs).2) := rfl

theorem afterBlocks_cons (x : DryRings α) (b : DryBlock α) (bs : List (DryBlock α)) :
    x.afterBlocks (b :: bs) = (x.processBlock b).2.afterBlocks bs := rfl

/-- What the slices of a block hold up to its length. -/
theorem take_delayedBlock (signal rest : List α) (T n : Nat) :
    (delayedBlock d z signal T n ++ rest).take n = delayedBlock d z signal T n := by
  rw [List.take_append_of_le_length (by rw [length_delayedBlock]), List.take_of_length_le]
  rw [length_delayedBlock]

/-- The left side puts out the left input, whatever the blocks are. -/
theorem Holds.rendered_left (hd : d ≤ capacity) (hx : x.Holds z capacity d bs)
    (cs : List (DryBlock α)) :
    (x.rendered cs).1 = delayedBlock d z (leftInput bs ++ leftInput cs) (leftInput bs).length
      (leftInput cs).length := by
  induction cs generalizing x bs with
  | nil => rfl
  | cons c cs ih =>
    have hblock : (x.processBlock c).1.1.take c.len =
        delayedBlock d z (leftInput (bs ++ [c])) (leftInput bs).length c.len := by
      cases hc : c.processMono with
      | true => rw [hx.mono hd hc, take_delayedBlock]
      | false => rw [hx.dual hd hc, take_delayedBlock]
    have hsplit : leftInput (c :: cs) = c.left ++ leftInput cs := rfl
    have hearly : delayedBlock d z (leftInput bs ++ c.left ++ leftInput cs) (leftInput bs).length
        c.len = delayedBlock d z (leftInput bs ++ c.left) (leftInput bs).length c.len :=
      delayedBlock_append d z _ (by rw [List.length_append, length_left])
    rw [rendered_cons, ih (hx.processBlock hd c), hblock, hsplit, List.length_append, length_left,
      delayedBlock_add, leftInput_concat, List.length_append, length_left, ← List.append_assoc,
      hearly]

/-- In mono the right side mirrors the left one. -/
theorem Holds.rendered_mono (hd : d ≤ capacity) (hx : x.Holds z capacity d bs)
    {cs : List (DryBlock α)} (hcs : ∀ c ∈ cs, c.processMono = true) :
    (x.rendered cs).2 = (x.rendered cs).1 := by
  induction cs generalizing x bs with
  | nil => rfl
  | cons c cs ih =>
    rw [rendered_cons, ih (hx.processBlock hd c) fun b hb => hcs b (List.mem_cons_of_mem c hb),
      hx.mono hd (hcs c List.mem_cons_self), take_delayedBlock, take_delayedBlock]

theorem bridgedInput_append {cs : List (DryBlock α)} (hcs : ∀ c ∈ cs, c.processMono = false) :
    bridgedInput (bs ++ cs) = bridgedInput bs ++ rightInput cs := by
  induction cs generalizing bs with
  | nil => simp [rightInput]
  | cons c cs ih =>
    have : bridgedInput (bs ++ [c] ++ cs) = bridgedInput (bs ++ [c]) ++ rightInput cs :=
      ih fun b hb => hcs b (List.mem_cons_of_mem c hb)
    rw [List.append_assoc, List.singleton_append, bridgedInput_dual (hcs c List.mem_cons_self),
      List.append_assoc] at this
    exact this

/-- In dual the right side puts out what the mono blocks before left to bridge, and then the right
input. -/
theorem Holds.rendered_dual (hd : d ≤ capacity) (hx : x.Holds z capacity d bs)
    {cs : List (DryBlock α)} (hcs : ∀ c ∈ cs, c.processMono = false) :
    (x.rendered cs).2 = delayedBlock d z (bridgedInput bs ++ rightInput cs) (leftInput bs).length
      (leftInput cs).length := by
  induction cs generalizing x bs with
  | nil => rfl
  | cons c cs ih =>
    have hc := hcs c List.mem_cons_self
    have hcs := fun b hb => hcs b (List.mem_cons_of_mem c hb)
    have hleft : leftInput (c :: cs) = c.left ++ leftInput cs := rfl
    have hright : rightInput (c :: cs) = c.right ++ rightInput cs := rfl
    have hearly : delayedBlock d z (bridgedInput bs ++ c.right ++ rightInput cs)
        (leftInput bs).length c.len =
          delayedBlock d z (bridgedInput bs ++ c.right) (leftInput bs).length c.len :=
      delayedBlock_append d z _ (by rw [List.length_append, length_bridgedInput, length_right])
    have hblock : (x.processBlock c).1.2.take c.len =
        delayedBlock d z (bridgedInput (bs ++ [c])) (leftInput bs).length c.len := by
      rw [hx.dual hd hc, take_delayedBlock]
    rw [rendered_cons, ih (hx.processBlock hd c) hcs, hblock, hleft, hright,
      List.length_append, length_left, delayedBlock_add, bridgedInput_dual hc, leftInput_concat,
      List.length_append, length_left, ← List.append_assoc, hearly]

/-- A stretch of one kind leaves the latch at that kind, and a mono stretch the right ring as it
was. -/
theorem afterBlocks_kind (x : DryRings α) {cs : List (DryBlock α)} {mono : Bool}
    (hcs : ∀ c ∈ cs, c.processMono = mono) :
    (cs ≠ [] → (x.afterBlocks cs).lastMono = mono) ∧
      (mono = true → (x.afterBlocks cs).lineR = x.lineR) := by
  induction cs generalizing x with
  | nil => exact ⟨fun h => absurd rfl h, fun _ => rfl⟩
  | cons c cs ih =>
    have hc := hcs c List.mem_cons_self
    obtain ⟨hlast, hright⟩ := ih (x.processBlock c).2 fun b hb => hcs b (List.mem_cons_of_mem c hb)
    have hkind : (x.processBlock c).2.lastMono = mono := by
      rw [processBlock, hc]
      cases mono <;> rfl
    rw [afterBlocks_cons]
    refine ⟨fun _ => ?_, fun hm => ?_⟩
    · cases cs with
      | nil => exact hkind
      | cons _ _ => exact hlast (by simp)
    · rw [hright hm, processBlock, hc, if_pos hm]

/-- How a stretch of one kind is cut into blocks makes no difference. -/
theorem Holds.recut (hd : d ≤ capacity) (hx : x.Holds z capacity d bs) {cs cs' : List (DryBlock α)}
    {mono : Bool} (hcs : ∀ c ∈ cs ++ cs', c.processMono = mono) (hne : cs ≠ []) (hne' : cs' ≠ [])
    (hleft : leftInput cs = leftInput cs') (hright : rightInput cs = rightInput cs') :
    x.rendered cs = x.rendered cs' ∧ x.afterBlocks cs = x.afterBlocks cs' := by
  have h1 := fun c hc => hcs c (List.mem_append_left _ hc)
  have h2 := fun c hc => hcs c (List.mem_append_right _ hc)
  have hl : (x.rendered cs).1 = (x.rendered cs').1 := by
    rw [hx.rendered_left hd, hx.rendered_left hd, hleft]
  obtain ⟨hk1, hr1⟩ := afterBlocks_kind x h1
  obtain ⟨hk2, hr2⟩ := afterBlocks_kind x h2
  have hs1 := hx.afterBlocks hd cs
  have hs2 := hx.afterBlocks hd cs'
  have hL : (x.afterBlocks cs).lineL = (x.afterBlocks cs').lineL := by
    rw [hs1.left, hs2.left, leftInput_append, leftInput_append, hleft]
  have hlast : (x.afterBlocks cs).lastMono = (x.afterBlocks cs').lastMono :=
    (hk1 hne).trans (hk2 hne').symm
  cases mono with
  | true =>
    refine ⟨Prod.ext hl ?_, ?_⟩
    · rw [hx.rendered_mono hd h1, hx.rendered_mono hd h2, hl]
    · exact DryRings.ext hL ((hr1 rfl).trans (hr2 rfl).symm) hlast
  | false =>
    refine ⟨Prod.ext hl ?_, DryRings.ext hL ?_ hlast⟩
    · rw [hx.rendered_dual hd h1, hx.rendered_dual hd h2, hleft, hright]
    · rw [hs1.right (hk1 hne), hs2.right (hk2 hne'), bridgedInput_append h1, bridgedInput_append h2,
        hright]

end DryRings

/-- Every block of a sequence of calls puts out, after a delay of `d`, the left input on the left;
on the right the same in mono, and in dual the right input since the last mono block and the left
input up to its end. Where a stretch of blocks of one kind is cut makes no difference to what is put
out, nor to the line after it. -/
theorem dry_delay_refines (z : α) {capacity d : Nat} (hd : d ≤ capacity) (bs : List (DryBlock α)) :
    let x := (DryRings.new z capacity d).afterBlocks bs
    let T := (leftInput bs).length
    (∀ b : DryBlock α,
      (x.processBlock b).1.1 =
          delayedBlock d z (leftInput (bs ++ [b])) T b.len ++ b.outL.drop b.len ∧
        (x.processBlock b).1.2 =
          (if b.processMono then delayedBlock d z (leftInput (bs ++ [b])) T b.len
            else delayedBlock d z (bridgedInput (bs ++ [b])) T b.len) ++ b.outR.drop b.len) ∧
      ∀ (mono : Bool) (cs cs' : List (DryBlock α)), (∀ c ∈ cs ++ cs', c.processMono = mono) →
        cs ≠ [] → cs' ≠ [] → leftInput cs = leftInput cs' → rightInput cs = rightInput cs' →
        x.rendered cs = x.rendered cs' ∧ x.afterBlocks cs = x.afterBlocks cs' := by
  intro x T
  have hx : x.Holds z capacity d bs := by
    simpa using (DryRings.holds_new z capacity d).afterBlocks hd bs
  refine ⟨fun b => ?_, fun mono cs cs' hcs hne hne' => hx.recut hd hcs hne hne'⟩
  cases hb : b.processMono with
  | true =>
    rw [hx.mono hd hb]
    exact ⟨rfl, rfl⟩
  | false =>
    rw [hx.dual hd hb]
    exact ⟨rfl, rfl⟩

/-- A dual block of two samples, a mono and a dual one, at a delay of two: the right side puts out
the left input until the mono block ends. -/
theorem dry_delay_refines_bridged :
    (2 ≤ 3) ∧
      (((DryRings.new 0 3 2).afterBlocks
        [⟨[1, 2], [11, 12], [0, 0], [0, 0], 2, false⟩, ⟨[3], [3], [0], [0], 1, true⟩]).processBlock
        ⟨[4, 5, 6], [14, 15, 16], [0, 0, 0], [0, 0, 0], 3, false⟩).1 =
      ([2, 3, 4], [2, 3, 14]) := by
  have h := (dry_delay_refines 0 (show 2 ≤ 3 by decide)
    [⟨[1, 2], [11, 12], [0, 0], [0, 0], 2, false⟩, ⟨[3], [3], [0], [0], 1, true⟩]).1
    ⟨[4, 5, 6], [14, 15, 16], [0, 0, 0], [0, 0, 0], 3, false⟩
  exact ⟨by decide, Prod.ext (h.1.trans (by decide)) (h.2.trans (by decide))⟩

end NamPlug
