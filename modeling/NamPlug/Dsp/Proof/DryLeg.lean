import NamPlug.Dsp.DryLeg
import NamPlug.Dsp.Proof.DryDelay

/-!
# The dry legs render the same

Both legs render a port pair as `renderPort` does: the signals of its channels through the dry delay
line at once, the result sanitized into the outputs. How a leg cuts the pair, in slices of the block
size and chunks of the engine's limit, makes no difference (`DryRings.feed_append`,
`sanitizeInto_append`). What is left is the mono selection, which the bypass leg forces where
the host deactivated the right channel and the containment leg does not: `dry_leg_agrees_iff`.
-/

namespace NamPlug

open Delay

variable {α : Type}

/-! ## The line, fed at once -/

namespace DryRings

/-- Both rings hold as much as they can. -/
structure Full (x : DryRings α) : Prop where
  left : x.lineL.Full
  right : x.lineR.Full

/-- `processBlock` on inputs of one length. -/
def feed (mono : Bool) (ls rs : List α) (x : DryRings α) : (List α × List α) × DryRings α :=
  if mono then
    let l := x.lineL.process ls
    ((l.1, l.1), { x with lineL := l.2, lastMono := true })
  else
    let x := if x.lastMono then x.mirrorLHistoryIntoR else x
    let l := x.lineL.process ls
    let r := x.lineR.process rs
    ((l.1, r.1), { lineL := l.2, lineR := r.2, lastMono := false })

theorem Full.mirrored {x : DryRings α} (h : x.Full) :
    (if x.lastMono then x.mirrorLHistoryIntoR else x).Full := by
  split
  · exact ⟨h.left, h.left⟩
  · exact h

theorem Full.feed {x : DryRings α} (h : x.Full) (mono : Bool) (ls rs : List α) :
    (x.feed mono ls rs).2.Full := by
  cases mono with
  | true => exact ⟨h.left.process ls, h.right⟩
  | false => exact ⟨h.mirrored.left.process ls, h.mirrored.right.process rs⟩

theorem Full.length_feed {x : DryRings α} (h : x.Full) (mono : Bool) {ls rs : List α}
    (hlen : rs.length = ls.length) :
    (x.feed mono ls rs).1.1.length = ls.length ∧ (x.feed mono ls rs).1.2.length = ls.length := by
  cases mono with
  | true => exact ⟨h.left.length_process ls, h.left.length_process ls⟩
  | false =>
    exact ⟨h.mirrored.left.length_process ls, (h.mirrored.right.length_process rs).trans hlen⟩

/-- In mono the right input does not matter, and the right output is the left one. -/
theorem feed_mono (ls rs rs' : List α) (x : DryRings α) :
    x.feed true ls rs = x.feed true ls rs' ∧ (x.feed true ls rs).1.2 = (x.feed true ls rs).1.1 :=
  ⟨rfl, rfl⟩

/-- The line is fed one block as it is fed its parts. -/
theorem Full.feed_append {x : DryRings α} (h : x.Full) (mono : Bool) (ls ls' rs rs' : List α) :
    x.feed mono (ls ++ ls') (rs ++ rs') =
      (((x.feed mono ls rs).1.1 ++ ((x.feed mono ls rs).2.feed mono ls' rs').1.1,
          (x.feed mono ls rs).1.2 ++ ((x.feed mono ls rs).2.feed mono ls' rs').1.2),
        ((x.feed mono ls rs).2.feed mono ls' rs').2) := by
  cases mono with
  | true =>
    unfold DryRings.feed
    simp only [if_true, h.left.process_append]
  | false =>
    unfold DryRings.feed
    simp only [Bool.false_eq_true, if_false, h.mirrored.left.process_append,
      h.mirrored.right.process_append]

/-- The mono latch after a block. -/
theorem lastMono_feed (mono : Bool) (ls rs : List α) (x : DryRings α) :
    (x.feed mono ls rs).2.lastMono = mono := by cases mono <;> rfl

theorem processBlock_eq_feed (x : DryRings α) (b : DryBlock α) (hl : b.inL.length = b.n)
    (hr : b.inR.length = b.n) (hol : b.outL.length = b.n) (hor : b.outR.length = b.n) :
    x.processBlock b = x.feed b.processMono b.inL b.inR := by
  have hlen : b.len = b.n := by
    unfold DryBlock.len
    omega
  have hleft : b.left = b.inL := by
    unfold DryBlock.left
    rw [hlen, ← hl, List.take_length]
  have hright : b.right = b.inR := by
    unfold DryBlock.right
    rw [hlen, ← hr, List.take_length]
  have hdl : b.outL.drop b.len = [] := by rw [hlen, ← hol, List.drop_length]
  have hdr : b.outR.drop b.len = [] := by rw [hlen, ← hor, List.drop_length]
  unfold processBlock feed
  simp only [hleft, hright, hdl, hdr, List.append_nil]

end DryRings

namespace DryLeg

/-! ## Buffers -/

theorem take_overwrite (buf xs : List α) : (overwrite buf xs).take xs.length = xs := by
  unfold overwrite
  exact List.take_left

theorem length_overwrite {buf xs : List α} (h : xs.length ≤ buf.length) :
    (overwrite buf xs).length = buf.length := by
  unfold overwrite
  rw [List.length_append, List.length_drop]
  omega

section
variable (cfg : LegConfig α)

theorem length_sanitizeInto (src : List α) (off : Nat) (o : List α) :
    (sanitizeInto cfg src off o).length = o.length := by
  unfold sanitizeInto writeAt
  simp only [List.length_append, List.length_take, List.length_map, List.length_drop]
  omega

/-- A sample of an output: new where the source reaches. -/
theorem getElem?_sanitizeInto (src : List α) (off : Nat) (o : List α) (i : Nat) :
    (sanitizeInto cfg src off o)[i]? =
      if off ≤ i ∧ i < off + src.length ∧ i < o.length then (src[i - off]?).map cfg.sanitize
      else o[i]? := by
  unfold sanitizeInto writeAt
  simp only [List.length_map, List.length_take]
  split_ifs with h
  · rw [List.append_assoc, List.getElem?_append_right (by rw [List.length_take]; omega),
      List.getElem?_append_left (by simp only [List.length_map, List.length_take]; omega),
      List.getElem?_map, List.getElem?_take, List.length_take, Nat.min_eq_left (by omega),
      if_pos (by omega)]
  · by_cases hlo : i < off
    · rw [List.append_assoc]
      by_cases ho : i < o.length
      · rw [List.getElem?_append_left (by rw [List.length_take]; omega), List.getElem?_take,
          if_pos hlo]
      · rw [List.getElem?_eq_none (by
          simp only [List.length_append, List.length_take, List.length_map, List.length_drop]
          omega), List.getElem?_eq_none (by omega)]
    · by_cases ho : i < o.length
      · rw [List.getElem?_append_right (by
          simp only [List.length_append, List.length_take, List.length_map]; omega),
          List.getElem?_drop]
        congr 1
        simp only [List.length_append, List.length_take, List.length_map]
        omega
      · rw [List.getElem?_eq_none (by
          simp only [List.length_append, List.length_take, List.length_map, List.length_drop]
          omega), List.getElem?_eq_none (by omega)]

/-- An output is written at once as it is in parts. -/
theorem sanitizeInto_append (a b : List α) (off : Nat) (o : List α) :
    sanitizeInto cfg b (off + a.length) (sanitizeInto cfg a off o) =
      sanitizeInto cfg (a ++ b) off o := by
  refine List.ext_getElem? fun i => ?_
  simp only [getElem?_sanitizeInto, length_sanitizeInto, List.length_append]
  split_ifs <;> first | rfl | omega | skip
  · rw [List.getElem?_append_right (by omega)]
    congr 2
    omega
  · rw [List.getElem?_append_left (by omega)]

/-! ## Sub-blocks -/

/-- The dry delay line is full and every buffer takes a block. -/
structure LegState.Sound (st : LegState α) : Prop where
  line : st.dryDelay.Full
  hostL : cfg.maxFrames ≤ st.bufHostL.length
  hostR : cfg.maxFrames ≤ st.bufHostR.length
  dryL : cfg.maxFrames ≤ st.bufXfadeDryL.length
  dryR : cfg.maxFrames ≤ st.bufXfadeDryR.length

/-- `st'` is `st` with the line at `d`; what the crossfade buffers hold is of no matter. -/
structure Fed (st : LegState α) (d : DryRings α) (st' : LegState α) : Prop where
  same : st' = { st with
    dryDelay := d
    bufXfadeDryL := st'.bufXfadeDryL
    bufXfadeDryR := st'.bufXfadeDryR }
  dryL : st'.bufXfadeDryL.length = st.bufXfadeDryL.length
  dryR : st'.bufXfadeDryR.length = st.bufXfadeDryR.length

variable {cfg}

theorem Fed.line {st st' : LegState α} {d : DryRings α} (h : Fed st d st') : st'.dryDelay = d := by
  rw [h.same]

theorem Fed.trans {a b c : LegState α} {d e : DryRings α} (h : Fed a d b) (k : Fed b e c) :
    Fed a e c := by
  refine ⟨?_, k.dryL.trans h.dryL, k.dryR.trans h.dryR⟩
  rw [k.same, h.same]

theorem Fed.sound {st st' : LegState α} {d : DryRings α} (h : Fed st d st') (hst : st.Sound cfg)
    (hd : d.Full) : st'.Sound cfg := by
  obtain ⟨hsame, hl, hr⟩ := h
  have h1 : st'.bufHostL = st.bufHostL := by rw [hsame]
  have h2 : st'.bufHostR = st.bufHostR := by rw [hsame]
  have h3 : st'.dryDelay = d := by rw [hsame]
  exact ⟨by rw [h3]; exact hd, by rw [h1]; exact hst.hostL, by rw [h2]; exact hst.hostR,
    by rw [hl]; exact hst.dryL, by rw [hr]; exact hst.dryR⟩

variable (cfg)

/-- Both outputs, written from an offset on. -/
def Outs.write (outs : Outs α) (o : List α × List α) (off : Nat) : Outs α :=
  ⟨outs.outL.map (sanitizeInto cfg o.1 off), outs.outR.map (sanitizeInto cfg o.2 off)⟩

theorem Outs.write_write (outs : Outs α) (a b : List α × List α) (off : Nat)
    (h : a.2.length = a.1.length) :
    (outs.write cfg a off).write cfg b (off + a.1.length) =
      outs.write cfg (a.1 ++ b.1, a.2 ++ b.2) off := by
  unfold Outs.write
  have hr := sanitizeInto_append cfg a.2 b.2 off
  rw [h] at hr
  simp only [Option.map_map, Function.comp_def, sanitizeInto_append, hr]

/-- What the line gives out for a part of the host buffers. -/
def LegState.fed (st : LegState α) (offset n : Nat) (mono : Bool) :
    (List α × List α) × DryRings α :=
  st.dryDelay.feed mono ((st.bufHostL.drop offset).take n) ((st.bufHostR.drop offset).take n)

variable {cfg}

theorem LegState.Sound.length_part {st : LegState α} (h : st.Sound cfg) {offset n : Nat}
    (hn : offset + n ≤ cfg.maxFrames) : ((st.bufHostL.drop offset).take n).length = n ∧
      ((st.bufHostR.drop offset).take n).length = n := by
  have h1 := h.hostL
  have h2 := h.hostR
  simp only [List.length_take, List.length_drop]
  omega

theorem LegState.Sound.length_fed {st : LegState α} (h : st.Sound cfg) (offset n : Nat)
    (hn : offset + n ≤ cfg.maxFrames) (mono : Bool) : (st.fed offset n mono).1.1.length = n ∧
      (st.fed offset n mono).1.2.length = n := by
  obtain ⟨hl, hr⟩ := h.length_part hn
  obtain ⟨h1, h2⟩ := h.line.length_feed mono (hr.trans hl.symm)
  exact ⟨h1.trans hl, h2.trans hl⟩

theorem feedDry_fed {st : LegState α} (h : st.Sound cfg) (offset n : Nat)
    (hn : offset + n ≤ cfg.maxFrames) (mono : Bool) :
    Fed st (st.fed offset n mono).2 (st.feedDry offset n mono) ∧
      (st.feedDry offset n mono).bufXfadeDryL.take n = (st.fed offset n mono).1.1 ∧
      (st.feedDry offset n mono).bufXfadeDryR.take n = (st.fed offset n mono).1.2 := by
  obtain ⟨hl, hr⟩ := h.length_part hn
  have h3 := h.dryL
  have h4 := h.dryR
  have hol : (st.bufXfadeDryL.take n).length = n := by rw [List.length_take]; omega
  have hor : (st.bufXfadeDryR.take n).length = n := by rw [List.length_take]; omega
  obtain ⟨hfl, hfr⟩ := h.length_fed offset n hn mono
  have heq := DryRings.processBlock_eq_feed st.dryDelay ⟨(st.bufHostL.drop offset).take n,
    (st.bufHostR.drop offset).take n, st.bufXfadeDryL.take n, st.bufXfadeDryR.take n, n, mono⟩
    hl hr hol hor
  change _ = st.fed offset n mono at heq
  unfold LegState.feedDry
  rw [heq]
  refine ⟨⟨rfl, length_overwrite (by omega), length_overwrite (by omega)⟩, ?_, ?_⟩
  · have := take_overwrite st.bufXfadeDryL (st.fed offset n mono).1.1
    rwa [hfl] at this
  · have := take_overwrite st.bufXfadeDryR (st.fed offset n mono).1.2
    rwa [hfr] at this

/-- The dry output is both outputs of the line: in mono they are the same. -/
theorem copyDelayedDryToOutput_eq {st : LegState α} {offset n : Nat} (mono : Bool)
    (outs : Outs α) (off : Nat) :
    copyDelayedDryToOutput cfg outs (st.fed offset n mono).1.1 (st.fed offset n mono).1.2 off mono =
      outs.write cfg (st.fed offset n mono).1 off := by
  cases mono <;> rfl

/-- The two legs of a fully bypassed processor. -/
structure LegState.Bypassed (st : LegState α) : Prop where
  bypass : st.bypass = true
  idle : st.xfade.active = false
  target : st.xfade.target = true

theorem Fed.bypassed {st st' : LegState α} {d : DryRings α} (h : Fed st d st')
    (hb : st.Bypassed) : st'.Bypassed := by
  rw [h.same]
  exact ⟨hb.bypass, hb.idle, hb.target⟩

theorem processChunk_bypass {st : LegState α} (h : st.Sound cfg) (hb : st.Bypassed)
    (wet : Pipeline α) (offset n : Nat) (hn : offset + n ≤ cfg.maxFrames) (mono : Bool)
    (outs : Outs α) (off : Nat) :
    processChunk cfg wet offset n outs off true mono st =
      (n, outs.write cfg (st.fed offset n mono).1 off, st.feedDry offset n mono) := by
  obtain ⟨hfed, hl, hr⟩ := feedDry_fed h offset n hn mono
  have hidle : (st.feedDry offset n mono).xfade.active = false := (hfed.bypassed hb).idle
  unfold processChunk
  simp only [hidle, Bool.false_eq_true, if_false, if_true, hl, hr, copyDelayedDryToOutput_eq]

/-- Two neighbouring parts of the host buffers. -/
theorem fed_add {st st₁ : LegState α} (h : st.Sound cfg) {offset m : Nat} (n : Nat) {mono : Bool}
    (h₁ : Fed st (st.fed offset m mono).2 st₁) :
    st.fed offset (m + n) mono =
      (((st.fed offset m mono).1.1 ++ (st₁.fed (offset + m) n mono).1.1,
          (st.fed offset m mono).1.2 ++ (st₁.fed (offset + m) n mono).1.2),
        (st₁.fed (offset + m) n mono).2) := by
  have hl : st₁.bufHostL = st.bufHostL := by rw [h₁.same]
  have hr : st₁.bufHostR = st.bufHostR := by rw [h₁.same]
  have hnext : st₁.fed (offset + m) n mono = (st.fed offset m mono).2.feed mono
      ((st.bufHostL.drop (offset + m)).take n) ((st.bufHostR.drop (offset + m)).take n) := by
    unfold LegState.fed
    rw [hl, hr, h₁.line]
    rfl
  rw [hnext]
  unfold LegState.fed
  rw [List.take_add, List.take_add, List.drop_drop, List.drop_drop]
  exact h.line.feed_append mono _ _ _ _

/-- However a sub-block is cut, it is written as a whole. -/
theorem processSubBlockChunked_bypass (wet : Pipeline α) (mono : Bool) :
    ∀ (fuel offset off n : Nat) (outs : Outs α) (st : LegState α), n ≤ fuel → 0 < n →
      offset + n ≤ cfg.maxFrames → st.Sound cfg → st.Bypassed →
      ∃ st', processSubBlockChunked cfg wet true mono fuel offset off n outs st =
          (n, outs.write cfg (st.fed offset n mono).1 off, st') ∧
        Fed st (st.fed offset n mono).2 st' := by
  intro fuel
  induction fuel with
  | zero =>
    intro offset off n outs st hn hpos
    omega
  | succ fuel ih =>
    intro offset off n outs st hn hpos hroom hst hb
    have hlimit := cfg.maxResampBuf_pos
    generalize hchunk : min n cfg.maxResampBuf = chunk
    have hle : chunk ≤ n := by omega
    obtain ⟨hfed, -, -⟩ := feedDry_fed hst offset chunk (by omega) mono
    have hone := processChunk_bypass hst hb wet offset chunk (by omega) mono outs
      off
    unfold processSubBlockChunked
    rw [if_pos hpos]
    dsimp only
    rw [hchunk, hone]
    dsimp only
    obtain rfl | hlt := Nat.eq_or_lt_of_le hle
    · have hrest : processSubBlockChunked cfg wet true mono fuel (offset + chunk) (off + chunk)
          (chunk - chunk) (outs.write cfg (st.fed offset chunk mono).1 off)
          (st.feedDry offset chunk mono) =
          (0, outs.write cfg (st.fed offset chunk mono).1 off, st.feedDry offset chunk mono) := by
        rw [Nat.sub_self]
        cases fuel <;> rfl
      rw [hrest]
      exact ⟨_, rfl, hfed⟩
    · have hd : (st.fed offset chunk mono).2.Full := hst.line.feed mono _ _
      obtain ⟨st', hrest, hfed'⟩ := ih (offset + chunk) (off + chunk) (n - chunk)
        (outs.write cfg (st.fed offset chunk mono).1 off) (st.feedDry offset chunk mono) (by omega)
        (by omega) (by omega) (hfed.sound hst hd) (hfed.bypassed hb)
      have hadd := fed_add hst (n - chunk) hfed
      rw [Nat.add_sub_cancel' hle] at hadd
      obtain ⟨h1, h2⟩ := hst.length_fed offset chunk (by omega) mono
      have hwrite := Outs.write_write cfg outs (st.fed offset chunk mono).1
        ((st.feedDry offset chunk mono).fed (offset + chunk) (n - chunk) mono).1 off
        (h2.trans h1.symm)
      rw [h1] at hwrite
      refine ⟨st', ?_, ?_⟩
      · rw [hrest, hadd, hwrite]
        dsimp only
        rw [Nat.add_sub_cancel' hle]
      · rw [hadd]
        exact hfed.trans hfed'

/-- Nothing is left to trigger. -/
theorem LegState.Bypassed.trigger {st : LegState α} (hb : st.Bypassed) :
    { st with xfade := st.xfade.trigger st.bypass } = st := by
  have hx : st.xfade.trigger st.bypass = st.xfade := if_pos (hb.target.trans hb.bypass.symm)
  rw [hx]

/-- A slice on the bypass leg. -/
theorem processWetSubBlocks_bypass (wet : Pipeline α) {n : Nat} {outs : Outs α} {st : LegState α}
    (hpos : 0 < n) (hn : n ≤ cfg.maxFrames) (hst : st.Sound cfg) (hb : st.Bypassed) :
    ∃ st', processWetSubBlocks cfg wet n outs st =
        (outs.write cfg (st.fed 0 n st.processMono).1 0, st') ∧
      Fed st (st.fed 0 n st.processMono).2 st' := by
  unfold processWetSubBlocks processSubBlock
  rw [if_pos hpos, hb.bypass]
  dsimp only
  split
  · obtain ⟨st', heq, hfed⟩ := processSubBlockChunked_bypass wet st.processMono n 0 0 n outs st
      (Nat.le_refl _) hpos (by omega) hst hb
    rw [heq]
    exact ⟨st', congrArg (Prod.mk _) (hfed.bypassed hb).trigger, hfed⟩
  · rw [processChunk_bypass hst hb wet 0 n (by omega) st.processMono outs 0]
    obtain ⟨hfed, -, -⟩ := feedDry_fed hst 0 n (by omega) st.processMono
    exact ⟨_, congrArg (Prod.mk _) (hfed.bypassed hb).trigger, hfed⟩

/-! ## Channels -/

variable (cfg)

/-- The `n` samples a channel puts in from `start` on: an inactive input port is silent. -/
def signal (active : Bool) (pair : Option (ChannelPair α)) (start n : Nat) : List α :=
  if active then copyChannelInput cfg pair start n else List.replicate n cfg.zero

/-- A channel once `src` is written to its output from `start` on. -/
def ChannelPair.render (src : List α) (start : Nat) (c : ChannelPair α) : ChannelPair α :=
  match c.output with
  | some o => c.setOutput (sanitizeInto cfg src start o)
  | none => c

def renderPair (active : Bool) (src : List α) (start : Nat) (pair : Option (ChannelPair α)) :
    Option (ChannelPair α) :=
  if active then pair.map (ChannelPair.render cfg src start) else pair

theorem ChannelPair.output_setOutput {c : ChannelPair α} {o : List α} (x : List α)
    (h : c.output = some o) : (c.setOutput x).output = some x := by
  cases c <;> first | rfl | cases h

theorem ChannelPair.setOutput_self {c : ChannelPair α} {o : List α} (h : c.output = some o) :
    c.setOutput o = c := by
  cases c <;> cases h <;> rfl

theorem ChannelPair.setOutput_setOutput (c : ChannelPair α) (x y : List α) :
    (c.setOutput x).setOutput y = c.setOutput y := by cases c <;> rfl

theorem ChannelPair.render_render (a b : List α) (start : Nat) (c : ChannelPair α) :
    (c.render cfg a start).render cfg b (start + a.length) = c.render cfg (a ++ b) start := by
  cases ho : c.output with
  | none =>
    have hsame : ∀ src s, c.render cfg src s = c := fun src s => by
      unfold ChannelPair.render
      rw [ho]
    rw [hsame, hsame, hsame]
  | some o =>
    have hset : ∀ src s, c.render cfg src s = c.setOutput (sanitizeInto cfg src s o) :=
      fun src s => by
        unfold ChannelPair.render
        rw [ho]
    rw [hset, hset]
    unfold ChannelPair.render
    rw [ChannelPair.output_setOutput _ ho]
    dsimp only
    rw [ChannelPair.setOutput_setOutput, sanitizeInto_append]

theorem renderPair_renderPair (active : Bool) (a b : List α) (start : Nat)
    (pair : Option (ChannelPair α)) :
    renderPair cfg active b (start + a.length) (renderPair cfg active a start pair) =
      renderPair cfg active (a ++ b) start pair := by
  unfold renderPair
  cases active with
  | false => rfl
  | true =>
    simp only [if_true, Option.map_map, Function.comp_def, ChannelPair.render_render]

/-- A channel's input, sample by sample. -/
theorem copyChannelInput_eq (pair : Option (ChannelPair α)) (start n : Nat) :
    copyChannelInput cfg pair start n = (List.range n).map fun k =>
      ((pair.bind ChannelPair.input).getD []).getD (start + k) cfg.zero := by
  unfold copyChannelInput
  refine List.ext_getElem? fun k => ?_
  cases pair.bind ChannelPair.input with
  | none =>
    simp only [Option.getD_none, List.getElem?_replicate, List.getElem?_map, List.getD_nil]
    by_cases hk : k < n
    · rw [if_pos hk, List.getElem?_range hk]
      rfl
    · rw [if_neg hk, List.getElem?_eq_none (by simpa using hk)]
      rfl
  | some i =>
    dsimp only
    rw [Option.getD_some, List.getElem?_map]
    by_cases hk : k < n
    · rw [List.getElem?_range hk, Option.map_some, List.getD_eq_getElem?_getD]
      by_cases hi : start + k < i.length
      · rw [List.getElem?_append_left (by
            simp only [List.length_take, List.length_drop]; omega), List.getElem?_take,
          if_pos (by omega), List.getElem?_drop, List.getElem?_eq_getElem hi]
        rfl
      · rw [List.getElem?_append_right (by
            simp only [List.length_take, List.length_drop]; omega), List.getElem?_replicate,
          if_pos (by simp only [List.length_take, List.length_drop]; omega),
          List.getElem?_eq_none (by omega)]
        rfl
    · rw [List.getElem?_eq_none (by
          simp only [List.length_append, List.length_take, List.length_drop,
            List.length_replicate]; omega), List.getElem?_eq_none (by simpa using hk)]
      rfl

theorem length_copyChannelInput (pair : Option (ChannelPair α)) (start n : Nat) :
    (copyChannelInput cfg pair start n).length = n := by
  rw [copyChannelInput_eq, List.length_map, List.length_range]

theorem copyChannelInput_add (pair : Option (ChannelPair α)) (start m n : Nat) :
    copyChannelInput cfg pair start (m + n) =
      copyChannelInput cfg pair start m ++ copyChannelInput cfg pair (start + m) n := by
  simp only [copyChannelInput_eq, List.range_add, List.map_append, List.map_map,
    Function.comp_def, Nat.add_assoc]

/-- In place or not, what is written does not reach what is still to be read. -/
theorem copyChannelInput_renderPair (active : Bool) (src : List α) (start : Nat)
    (pair : Option (ChannelPair α)) {s : Nat} (n : Nat) (hs : start + src.length ≤ s) :
    copyChannelInput cfg (renderPair cfg active src start pair) s n =
      copyChannelInput cfg pair s n := by
  cases active with
  | false => rfl
  | true =>
    cases pair with
    | none => rfl
    | some c =>
      cases c with
      | inPlace io =>
        rw [copyChannelInput_eq, copyChannelInput_eq]
        refine List.map_congr_left fun k _ => ?_
        change (sanitizeInto cfg src start io).getD (s + k) cfg.zero = io.getD (s + k) cfg.zero
        rw [List.getD_eq_getElem?_getD, List.getD_eq_getElem?_getD, getElem?_sanitizeInto,
          if_neg (by omega)]
      | inputOutput i o => rfl
      | inputOnly i => rfl
      | outputOnly o => rfl

theorem length_signal (active : Bool) (pair : Option (ChannelPair α)) (start n : Nat) :
    (signal cfg active pair start n).length = n := by
  unfold signal
  split
  · exact length_copyChannelInput cfg pair start n
  · exact List.length_replicate

theorem signal_add (active : Bool) (pair : Option (ChannelPair α)) (start m n : Nat) :
    signal cfg active pair start (m + n) =
      signal cfg active pair start m ++ signal cfg active pair (start + m) n := by
  unfold signal
  split
  · exact copyChannelInput_add cfg pair start m n
  · exact List.replicate_add m n cfg.zero

theorem signal_renderPair (inActive active : Bool) (src : List α) (start : Nat)
    (pair : Option (ChannelPair α)) {s : Nat} (n : Nat) (hs : start + src.length ≤ s) :
    signal cfg inActive (renderPair cfg active src start pair) s n =
      signal cfg inActive pair s n := by
  unfold signal
  rw [copyChannelInput_renderPair cfg active src start pair n hs]

/-- A slice of an output, written and put back. -/
theorem putChannelOutput_slice (active : Bool) (src : List α) (start : Nat)
    (pair : Option (ChannelPair α)) :
    putChannelOutput pair start ((if active then getChannelOutput pair start src.length
        else none).map (sanitizeInto cfg src 0)) = renderPair cfg active src start pair := by
  cases active with
  | false => rfl
  | true =>
    cases pair with
    | none => rfl
    | some c =>
      unfold getChannelOutput renderPair ChannelPair.render
      simp only [if_true, Option.bind_some, Option.map_some]
      cases ho : c.output with
      | none => rfl
      | some o =>
        dsimp only
        split_ifs with hstart
        · have hslice : sanitizeInto cfg src 0
              ((o.take (min (start + src.length) o.length)).drop start) =
              (src.take (o.length - start)).map cfg.sanitize := by
            have hlen : ((o.take (min (start + src.length) o.length)).drop start).length =
                min src.length (o.length - start) := by
              rw [List.length_drop, List.length_take]
              omega
            unfold sanitizeInto writeAt
            rw [hlen, List.take_zero, List.nil_append, List.drop_eq_nil_of_le (by
              simp only [List.length_map, List.length_take, hlen]; omega), List.append_nil]
            congr 1
            rw [Nat.sub_zero, List.take_eq_take_iff]
            omega
          change some (c.setOutput (writeAt (c.output.getD []) start _)) = _
          rw [ho, hslice]
          rfl
        · have hsame : sanitizeInto cfg src start o = o := by
            refine List.ext_getElem? fun i => ?_
            rw [getElem?_sanitizeInto, if_neg (by omega)]
          rw [hsame, ChannelPair.setOutput_self ho]
          rfl

/-- A whole output, written and put back. -/
theorem putChannelOutput_whole (active : Bool) (src : List α) (pair : Option (ChannelPair α)) :
    putChannelOutput pair 0 ((if active then pair.bind ChannelPair.output
        else none).map (sanitizeInto cfg src 0)) = renderPair cfg active src 0 pair := by
  cases active with
  | false => rfl
  | true =>
    cases pair with
    | none => rfl
    | some c =>
      unfold renderPair ChannelPair.render
      simp only [if_true, Option.bind_some, Option.map_some]
      cases ho : c.output with
      | none => rfl
      | some o =>
        have hwhole : writeAt o 0 (sanitizeInto cfg src 0 o) = sanitizeInto cfg src 0 o := by
          have hlen := length_sanitizeInto cfg src 0 o
          unfold writeAt
          rw [List.take_zero, List.nil_append, List.drop_eq_nil_of_le (by omega),
            List.append_nil]
        change some (c.setOutput (writeAt (c.output.getD []) 0 _)) = _
        rw [ho, Option.getD_some, hwhole]

/-! ## Slices -/

/-- `st'` is `st` with the line at `d`; what the buffers hold is of no matter. -/
structure Kept (st : LegState α) (d : DryRings α) (st' : LegState α) : Prop where
  same : st' = { st with
    dryDelay := d
    bufHostL := st'.bufHostL
    bufHostR := st'.bufHostR
    bufXfadeDryL := st'.bufXfadeDryL
    bufXfadeDryR := st'.bufXfadeDryR }
  hostL : st'.bufHostL.length = st.bufHostL.length
  hostR : st'.bufHostR.length = st.bufHostR.length
  dryL : st'.bufXfadeDryL.length = st.bufXfadeDryL.length
  dryR : st'.bufXfadeDryR.length = st.bufXfadeDryR.length

variable {cfg}

theorem Fed.kept {st st' : LegState α} {d : DryRings α} (h : Fed st d st') : Kept st d st' := by
  refine ⟨?_, ?_, ?_, h.dryL, h.dryR⟩ <;> rw [h.same]

theorem Kept.trans {a b c : LegState α} {d e : DryRings α} (h : Kept a d b) (k : Kept b e c) :
    Kept a e c := by
  refine ⟨?_, k.hostL.trans h.hostL, k.hostR.trans h.hostR, k.dryL.trans h.dryL,
    k.dryR.trans h.dryR⟩
  rw [k.same, h.same]

theorem Kept.sound {st st' : LegState α} {d : DryRings α} (h : Kept st d st') (hst : st.Sound cfg)
    (hd : d.Full) : st'.Sound cfg := by
  have hline : st'.dryDelay = d := by rw [h.same]
  exact ⟨by rw [hline]; exact hd, by rw [h.hostL]; exact hst.hostL, by rw [h.hostR]; exact hst.hostR,
    by rw [h.dryL]; exact hst.dryL, by rw [h.dryR]; exact hst.dryR⟩

theorem Kept.bypassed {st st' : LegState α} {d : DryRings α} (h : Kept st d st')
    (hb : st.Bypassed) : st'.Bypassed := by
  rw [h.same]
  exact ⟨hb.bypass, hb.idle, hb.target⟩

theorem length_overwrite_block {buf xs : List α} {n : Nat} (hx : xs.length = n)
    (hn : n ≤ cfg.maxFrames) (hbuf : cfg.maxFrames ≤ buf.length) :
    (overwrite buf xs).length = buf.length ∧ (overwrite buf xs).take n = xs := by
  subst hx
  exact ⟨length_overwrite (hn.trans hbuf), take_overwrite buf xs⟩

variable (cfg)

/-- A slice of the input, staged in the host buffers. -/
def LegState.stage (st : LegState α) (pairL pairR : Option (ChannelPair α))
    (sliceStart sliceLen : Nat) : LegState α :=
  let st := { st with
    bufHostL := overwrite st.bufHostL (copyChannelInput cfg pairL sliceStart sliceLen) }
  let st := if st.processMono then st
    else { st with
      bufHostR := overwrite st.bufHostR (copyChannelInput cfg pairR sliceStart sliceLen) }
  st.gateInput cfg sliceLen

/-- The outputs of a slice. -/
def LegState.sliceOuts (st : LegState α) (pairL pairR : Option (ChannelPair α))
    (sliceStart sliceLen : Nat) : Outs α :=
  if st.portOutputActive then
    ⟨getChannelOutput pairL sliceStart sliceLen, getChannelOutput pairR sliceStart sliceLen⟩
  else ⟨none, none⟩

/-- The host buffers hold the signals of the channels, the right one where it is heard. -/
structure LegState.Staged (st : LegState α) (n : Nat) (l r : List α) : Prop where
  left : st.bufHostL.take n = l
  right : st.processMono = false → st.bufHostR.take n = r

variable {cfg}

theorem LegState.Staged.fed {st : LegState α} {n : Nat} {l r : List α} (h : st.Staged n l r) :
    st.fed 0 n st.processMono = st.dryDelay.feed st.processMono l r := by
  unfold LegState.fed
  rw [List.drop_zero, List.drop_zero, h.left]
  cases hmono : st.processMono with
  | true => exact (DryRings.feed_mono l _ _ st.dryDelay).1
  | false => rw [h.right hmono]

/-- Buffers that hold the channels hold the signals, once an inactive input is silenced. -/
theorem LegState.Staged.gateInput {st : LegState α} {n start : Nat}
    (pairL pairR : Option (ChannelPair α)) (hst : st.Sound cfg) (hn : n ≤ cfg.maxFrames)
    (h : st.Staged n (copyChannelInput cfg pairL start n) (copyChannelInput cfg pairR start n)) :
    (st.gateInput cfg n).Staged n (signal cfg st.portInputActive pairL start n)
        (signal cfg st.portInputActive pairR start n) ∧
      Kept st st.dryDelay (st.gateInput cfg n) := by
  obtain ⟨hl, htl⟩ := length_overwrite_block
    (List.length_replicate : (List.replicate n cfg.zero).length = n) hn
    hst.hostL
  obtain ⟨hr, htr⟩ := length_overwrite_block
    (List.length_replicate : (List.replicate n cfg.zero).length = n) hn
    hst.hostR
  unfold LegState.gateInput signal
  split_ifs
  · exact ⟨h, rfl, rfl, rfl, rfl, rfl⟩
  · exact ⟨⟨htl, fun _ => htr⟩, rfl, hl, hr, rfl, rfl⟩

theorem stage_staged {st : LegState α} (hst : st.Sound cfg) (pairL pairR : Option (ChannelPair α))
    (start : Nat) {n : Nat} (hn : n ≤ cfg.maxFrames) :
    (st.stage cfg pairL pairR start n).Staged n (signal cfg st.portInputActive pairL start n)
        (signal cfg st.portInputActive pairR start n) ∧
      Kept st st.dryDelay (st.stage cfg pairL pairR start n) := by
  obtain ⟨hl, htl⟩ := length_overwrite_block (length_copyChannelInput cfg pairL start n) hn hst.hostL
  obtain ⟨hr, htr⟩ := length_overwrite_block (length_copyChannelInput cfg pairR start n) hn hst.hostR
  unfold LegState.stage
  dsimp only
  by_cases hmono : st.processMono = true
  · rw [if_pos hmono]
    have hkept : Kept st st.dryDelay { st with
        bufHostL := overwrite st.bufHostL (copyChannelInput cfg pairL start n) } :=
      ⟨rfl, hl, rfl, rfl, rfl⟩
    obtain ⟨hstaged, hgate⟩ := LegState.Staged.gateInput pairL pairR
      (hkept.sound hst hst.line) hn ⟨htl, fun hm => absurd (hmono.symm.trans hm) (by decide)⟩
    exact ⟨hstaged, hkept.trans hgate⟩
  · rw [if_neg hmono]
    have hkept : Kept st st.dryDelay { st with
        bufHostL := overwrite st.bufHostL (copyChannelInput cfg pairL start n)
        bufHostR := overwrite st.bufHostR (copyChannelInput cfg pairR start n) } :=
      ⟨rfl, hl, hr, rfl, rfl⟩
    obtain ⟨hstaged, hgate⟩ := LegState.Staged.gateInput pairL pairR
      (hkept.sound hst hst.line) hn ⟨htl, fun _ => htr⟩
    exact ⟨hstaged, hkept.trans hgate⟩

/-- What a leg does with the outputs of a staged slice. -/
abbrev Body (α : Type) := Nat → Outs α → LegState α → Outs α × LegState α

variable (cfg)

/-- The leg writes what the line gives out for the host buffers. -/
def Renders (body : Body α) : Prop :=
  ∀ (n : Nat) (outs : Outs α) (st : LegState α), 0 < n → n ≤ cfg.maxFrames → st.Sound cfg →
    st.Bypassed → ∃ st', body n outs st = (outs.write cfg (st.fed 0 n st.processMono).1 0, st') ∧
      Fed st (st.fed 0 n st.processMono).2 st'

/-- The dry output of the containment leg. -/
def containedBody : Body α := fun n outs st =>
  let st := st.feedDry 0 n st.processMono
  (copyDelayedDryToOutput cfg outs (st.bufXfadeDryL.take n) (st.bufXfadeDryR.take n) 0
    st.processMono, st)

/-- The slice loop of a leg. -/
def slices (body : Body α) (total : Nat) : Nat → Nat → Option (ChannelPair α) →
    Option (ChannelPair α) → LegState α →
    (Option (ChannelPair α) × Option (ChannelPair α)) × LegState α
  | 0, _, pairL, pairR, st => ((pairL, pairR), st)
  | fuel + 1, sliceStart, pairL, pairR, st =>
    if sliceStart < total then
      let sliceLen := min (total - sliceStart) cfg.maxFrames
      let st := st.stage cfg pairL pairR sliceStart sliceLen
      let r := body sliceLen (st.sliceOuts pairL pairR sliceStart sliceLen) st
      slices body total fuel (sliceStart + sliceLen) (putChannelOutput pairL sliceStart r.1.outL)
        (putChannelOutput pairR sliceStart r.1.outR) r.2
    else ((pairL, pairR), st)

theorem containedSlices_eq_slices (total fuel : Nat) :
    containedSlices cfg total fuel = slices cfg (containedBody cfg) total fuel := by
  induction fuel with
  | zero => rfl
  | succ fuel ih =>
    funext start pairL pairR st
    unfold containedSlices slices
    rw [ih]
    rfl

theorem wetSlices_eq_slices (wet : Pipeline α) (total fuel : Nat) :
    wetSlices cfg wet total fuel = slices cfg (processWetSubBlocks cfg wet) total fuel := by
  induction fuel with
  | zero => rfl
  | succ fuel ih =>
    funext start pairL pairR st
    unfold wetSlices slices
    rw [ih]
    rfl

variable {cfg}

theorem renders_contained : Renders cfg (containedBody cfg) := by
  intro n outs st _ hn hst _
  obtain ⟨hfed, hl, hr⟩ := feedDry_fed hst 0 n (by omega) st.processMono
  have hmono : (st.feedDry 0 n st.processMono).processMono = st.processMono := by rw [hfed.same]
  refine ⟨st.feedDry 0 n st.processMono, ?_, hfed⟩
  unfold containedBody
  dsimp only
  rw [hl, hr, hmono, copyDelayedDryToOutput_eq]

theorem renders_wet (wet : Pipeline α) : Renders cfg (processWetSubBlocks cfg wet) :=
  fun _ _ _ hpos hn hst hb => processWetSubBlocks_bypass wet hpos hn hst hb

/-- One slice of a pair. -/
theorem Renders.slice {body : Body α} (hbody : Renders cfg body) {st : LegState α}
    (hst : st.Sound cfg) (hb : st.Bypassed) (pairL pairR : Option (ChannelPair α)) (start : Nat)
    {n : Nat} (hpos : 0 < n) (hn : n ≤ cfg.maxFrames) {o : (List α × List α) × DryRings α}
    (ho : o = st.dryDelay.feed st.processMono (signal cfg st.portInputActive pairL start n)
      (signal cfg st.portInputActive pairR start n)) :
    ∃ st', Kept st o.2 st' ∧
      (body n ((st.stage cfg pairL pairR start n).sliceOuts pairL pairR start n)
        (st.stage cfg pairL pairR start n)).2 = st' ∧
      putChannelOutput pairL start
        (body n ((st.stage cfg pairL pairR start n).sliceOuts pairL pairR start n)
          (st.stage cfg pairL pairR start n)).1.outL =
        renderPair cfg st.portOutputActive o.1.1 start pairL ∧
      putChannelOutput pairR start
        (body n ((st.stage cfg pairL pairR start n).sliceOuts pairL pairR start n)
          (st.stage cfg pairL pairR start n)).1.outR =
        renderPair cfg st.portOutputActive o.1.2 start pairR := by
  obtain ⟨hstaged, hkept⟩ := stage_staged hst pairL pairR start hn
  generalize st.stage cfg pairL pairR start n = st₁ at hstaged hkept ⊢
  have hsound := hkept.sound hst hst.line
  obtain ⟨st', hbodyEq, hfed⟩ := hbody n (st₁.sliceOuts pairL pairR start n) st₁ hpos hn hsound
    (hkept.bypassed hb)
  have hout : st₁.portOutputActive = st.portOutputActive := by rw [hkept.same]
  have hmono : st₁.processMono = st.processMono := by rw [hkept.same]
  have hline : st₁.dryDelay = st.dryDelay := by rw [hkept.same]
  have hfedEq : st₁.fed 0 n st₁.processMono = o := by
    rw [hstaged.fed, ho, hmono, hline]
  rw [hfedEq] at hbodyEq hfed
  obtain ⟨hl, hr⟩ := hsound.length_fed 0 n (by omega) st₁.processMono
  rw [hfedEq] at hl hr
  refine ⟨st', hkept.trans hfed.kept, by rw [hbodyEq], ?_, ?_⟩
  · have hput := putChannelOutput_slice cfg st.portOutputActive o.1.1 start pairL
    rw [hl] at hput
    rw [hbodyEq, ← hput]
    unfold LegState.sliceOuts Outs.write
    rw [hout]
    cases st.portOutputActive <;> rfl
  · have hput := putChannelOutput_slice cfg st.portOutputActive o.1.2 start pairR
    rw [hr] at hput
    rw [hbodyEq, ← hput]
    unfold LegState.sliceOuts Outs.write
    rw [hout]
    cases st.portOutputActive <;> rfl

/-- However a pair is cut in slices, it is rendered as a whole. -/
theorem Renders.slices {body : Body α} (hbody : Renders cfg body) (total : Nat) :
    ∀ (fuel start : Nat) (pairL pairR : Option (ChannelPair α)) (st : LegState α)
      (o : (List α × List α) × DryRings α), total - start ≤ fuel → start < total → st.Sound cfg →
      st.Bypassed →
      o = st.dryDelay.feed st.processMono
        (signal cfg st.portInputActive pairL start (total - start))
        (signal cfg st.portInputActive pairR start (total - start)) →
      ∃ st', DryLeg.slices cfg body total fuel start pairL pairR st =
          ((renderPair cfg st.portOutputActive o.1.1 start pairL,
            renderPair cfg st.portOutputActive o.1.2 start pairR), st') ∧ Kept st o.2 st' := by
  intro fuel
  induction fuel with
  | zero =>
    intro start pairL pairR st o hfuel hstart
    omega
  | succ fuel ih =>
    intro start pairL pairR st o hfuel hstart hst hb ho
    have hframes := cfg.maxFrames_pos
    generalize hlen : min (total - start) cfg.maxFrames = n
    obtain ⟨hpos, hn, hle⟩ : 0 < n ∧ n ≤ cfg.maxFrames ∧ n ≤ total - start := by omega
    obtain ⟨st₁, hkept, heq, hL, hR⟩ := hbody.slice hst hb pairL pairR start hpos hn rfl
    unfold DryLeg.slices
    rw [if_pos hstart]
    dsimp only
    rw [hlen, heq, hL, hR]
    obtain heqn | hlt := Nat.eq_or_lt_of_le hle
    · -- the last slice
      subst heqn
      rw [← ho]
      rw [← ho] at hkept
      refine ⟨st₁, ?_, hkept⟩
      have hstop : ¬ start + (total - start) < total := by omega
      cases fuel with
      | zero => rfl
      | succ fuel => exact if_neg hstop
    · generalize ha : st.dryDelay.feed st.processMono (signal cfg st.portInputActive pairL start n)
        (signal cfg st.portInputActive pairR start n) = a at hkept
      have hd : a.2.Full := by rw [← ha]; exact hst.line.feed _ _ _
      obtain ⟨hal, har⟩ : a.1.1.length = n ∧ a.1.2.length = n := by
        rw [← ha]
        have h := hst.line.length_feed st.processMono
          ((length_signal cfg st.portInputActive pairR start n).trans
            (length_signal cfg st.portInputActive pairL start n).symm)
        rwa [length_signal] at h
      have hsum : n + (total - (start + n)) = total - start := by omega
      have hsplit : o = ((a.1.1 ++ (a.2.feed st.processMono
          (signal cfg st.portInputActive pairL (start + n) (total - (start + n)))
          (signal cfg st.portInputActive pairR (start + n) (total - (start + n)))).1.1,
          a.1.2 ++ (a.2.feed st.processMono
          (signal cfg st.portInputActive pairL (start + n) (total - (start + n)))
          (signal cfg st.portInputActive pairR (start + n) (total - (start + n)))).1.2),
          (a.2.feed st.processMono
          (signal cfg st.portInputActive pairL (start + n) (total - (start + n)))
          (signal cfg st.portInputActive pairR (start + n) (total - (start + n)))).2) := by
        rw [ho, ← hsum, signal_add, signal_add, hst.line.feed_append, ha]
      generalize hb' : a.2.feed st.processMono
        (signal cfg st.portInputActive pairL (start + n) (total - (start + n)))
        (signal cfg st.portInputActive pairR (start + n) (total - (start + n))) = b at hsplit
      have hin : st₁.portInputActive = st.portInputActive := by rw [hkept.same]
      have hout : st₁.portOutputActive = st.portOutputActive := by rw [hkept.same]
      have hmono : st₁.processMono = st.processMono := by rw [hkept.same]
      have hline : st₁.dryDelay = a.2 := by rw [hkept.same]
      obtain ⟨st', hrest, hkept'⟩ := ih (start + n)
        (renderPair cfg st.portOutputActive a.1.1 start pairL)
        (renderPair cfg st.portOutputActive a.1.2 start pairR) st₁ b (by omega) (by omega)
        (hkept.sound hst hd) (hkept.bypassed hb) (by
          rw [hin, hmono, hline, signal_renderPair cfg _ _ _ _ _ _ (by omega),
            signal_renderPair cfg _ _ _ _ _ _ (by omega), hb'])
      refine ⟨st', ?_, ?_⟩
      · have hl := renderPair_renderPair cfg st.portOutputActive a.1.1 b.1.1 start pairL
        have hr := renderPair_renderPair cfg st.portOutputActive a.1.2 b.1.2 start pairR
        rw [hal] at hl
        rw [har] at hr
        rw [hrest, hout, hl, hr, hsplit]
      · rw [hsplit]
        exact hkept.trans hkept'

/-! ## Ports -/

variable (cfg)

/-- The mono selection of a port, forced or not. -/
def monoOf (forced : Bool) (pairR : Option (ChannelPair α)) : Bool :=
  forced || (if cfg.dualMono then !hasRInput pairR else true)

/-- The dry rendering of a port pair. -/
def renderPort (inActive outActive forced : Bool) (port : PortPair α) (d : DryRings α) :
    Option (PortPair α × DryRings α) :=
  if port.frames = 0 then some (port, d)
  else
    match port.channels with
    | .error => none
    | .notF32 => some (port, d)
    | .f32 pairL pairR =>
      let r := d.feed (monoOf cfg forced pairR) (signal cfg inActive pairL 0 port.frames)
        (signal cfg inActive pairR 0 port.frames)
      let channels := .f32 (renderPair cfg outActive r.1.1 0 pairL)
        (renderPair cfg outActive r.1.2 0 pairR)
      some ({ port with channels }, r.2)

/-- The inputs of a port hold the frames of the block. -/
def PortPair.Sound (port : PortPair α) : Prop :=
  ∀ pairL pairR, port.channels = .f32 pairL pairR → ∀ pair ∈ [pairL, pairR], ∀ i,
    pair.bind ChannelPair.input = some i → port.frames ≤ i.length

/-- The state of a leg after a port: the mono flag is the port's. -/
def Steady (st st' : LegState α) : Prop :=
  Kept { st with processMono := st'.processMono } st'.dryDelay st' ∧ st'.dryDelay.Full

/-- The leg renders every port pair of a bypassed processor. -/
def RendersPort (st : LegState α) (forced : Bool)
    (body : PortPair α → LegState α → Option (PortPair α × LegState α)) : Prop :=
  ∀ port st₁, port.Sound → Steady st st₁ →
    match body port st₁ with
    | none => renderPort cfg st.portInputActive st.portOutputActive forced port st₁.dryDelay = none
    | some (port', st') =>
      renderPort cfg st.portInputActive st.portOutputActive forced port st₁.dryDelay =
        some (port', st'.dryDelay) ∧ Steady st st'

variable {cfg}

theorem copyChannelInput_whole {pair : Option (ChannelPair α)} {i : List α} {n : Nat}
    (hi : pair.bind ChannelPair.input = some i) (hlen : n ≤ i.length) :
    copyChannelInput cfg pair 0 n = i.take n := by
  unfold copyChannelInput
  rw [hi]
  dsimp only
  rw [Nat.sub_zero, Nat.min_eq_right hlen, Nat.sub_self, List.drop_zero, List.replicate_zero,
    List.append_nil]

/-- The host buffers after `extractChannels`. -/
theorem extract_staged {st : LegState α} (hst : st.Sound cfg) {pairL pairR : Option (ChannelPair α)}
    {n : Nat} (hn : n ≤ cfg.maxFrames)
    (hport : ∀ pair ∈ [pairL, pairR], ∀ i, pair.bind ChannelPair.input = some i → n ≤ i.length)
    (forced : Bool) :
    let st₁ := { (extractChannels cfg pairL pairR n st).1 with
      processMono := monoOf cfg forced pairR }
    st₁.Staged n (copyChannelInput cfg pairL 0 n) (copyChannelInput cfg pairR 0 n) ∧
      Kept { st with processMono := monoOf cfg forced pairR } st.dryDelay st₁ := by
  have hleft : (extractChannels cfg pairL pairR n st).1.bufHostL =
      overwrite st.bufHostL (copyChannelInput cfg pairL 0 n) := by
    unfold extractChannels
    dsimp only
    cases hi : pairL.bind ChannelPair.input with
    | none =>
      unfold copyChannelInput
      rw [hi]
    | some i => rw [copyChannelInput_whole hi (hport pairL (List.mem_cons_self ..) i hi)]
  obtain ⟨hl, htl⟩ := length_overwrite_block (length_copyChannelInput cfg pairL 0 n) hn hst.hostL
  obtain ⟨hr, htr⟩ := length_overwrite_block (length_copyChannelInput cfg pairR 0 n) hn hst.hostR
  have hright : (extractChannels cfg pairL pairR n st).1.bufHostR.length = st.bufHostR.length ∧
      (monoOf cfg forced pairR = false →
        (extractChannels cfg pairL pairR n st).1.bufHostR.take n =
          copyChannelInput cfg pairR 0 n) := by
    unfold extractChannels
    dsimp only
    cases hi : pairR.bind ChannelPair.input with
    | none =>
      have hmono : monoOf cfg forced pairR = true := by
        unfold monoOf hasRInput
        rw [hi]
        cases forced <;> cases cfg.dualMono <;> rfl
      exact ⟨rfl, fun h => absurd (hmono.symm.trans h) (by decide)⟩
    | some i =>
      rw [copyChannelInput_whole hi
        (hport pairR (List.mem_cons_of_mem _ (List.mem_cons_self ..)) i hi)] at hr htr ⊢
      exact ⟨hr, fun _ => htr⟩
  rw [← hleft] at hl htl
  exact ⟨⟨htl, hright.2⟩, rfl, hl, hright.1, rfl, rfl⟩

variable (cfg)

/-- A port pair on a leg: `body` renders its slices, `forced` selects mono whatever the port. -/
def legPort (body : Body α) (forced : Bool) (port : PortPair α) (st : LegState α) :
    Option (PortPair α × LegState α) :=
  if cfg.maxFrames < port.frames then
    match port.channels with
    | .error => none
    | .notF32 => some (port, st)
    | .f32 pairL pairR =>
      let st := { st with processMono := monoOf cfg forced pairR }
      let r := slices cfg body port.frames port.frames 0 pairL pairR st
      some ({ port with channels := .f32 r.1.1 r.1.2 }, r.2)
  else if port.frames = 0 then some (port, st)
  else
    match port.channels with
    | .error => none
    | .notF32 => some (port, st)
    | .f32 pairL pairR =>
      let e := extractChannels cfg pairL pairR port.frames st
      let st := LegState.gateInput cfg { e.1 with processMono := monoOf cfg forced pairR } port.frames
      let outs := if st.portOutputActive then e.2 else ⟨none, none⟩
      let r := body port.frames outs st
      let channels := .f32 (putChannelOutput pairL 0 r.1.outL) (putChannelOutput pairR 0 r.1.outR)
      some ({ port with channels }, r.2)

theorem containPortPair_eq (port : PortPair α) (st : LegState α) :
    containPortPair cfg port st = legPort cfg (containedBody cfg) false port st := by
  unfold containPortPair legPort
  simp only [containedSlices_eq_slices]
  rfl

variable {cfg}

/-- A deactivated right channel forces mono. -/
theorem forceMono_eq (st : LegState α) (pairR : Option (ChannelPair α))
    (hmono : st.processMono = monoOf cfg false pairR) :
    (if st.hostRDeactivated then { st with processMono := true } else st) =
      { st with processMono := monoOf cfg st.hostRDeactivated pairR } := by
  by_cases h : st.hostRDeactivated = true
  · rw [if_pos h]
    simp only [h]
    rfl
  · rw [Bool.not_eq_true] at h
    have hsame : monoOf cfg st.hostRDeactivated pairR = st.processMono := by rw [h, hmono]
    rw [if_neg (by rw [h]; decide), hsame]

theorem LegState.Bypassed.monoed {st : LegState α} (hb : st.Bypassed) (m : Bool) :
    ({ st with processMono := m } : LegState α).Bypassed := ⟨hb.bypass, hb.idle, hb.target⟩

theorem LegState.Bypassed.gateInput {st : LegState α} (hb : st.Bypassed) (n : Nat) :
    (st.gateInput cfg n).Bypassed := by
  unfold LegState.gateInput
  split
  · exact hb
  · exact ⟨hb.bypass, hb.idle, hb.target⟩

theorem LegState.Sound.monoed {st : LegState α} (hst : st.Sound cfg) (m : Bool) :
    ({ st with processMono := m } : LegState α).Sound cfg :=
  ⟨hst.line, hst.hostL, hst.hostR, hst.dryL, hst.dryR⟩

/-- What the bypass leg does to an extracted block before it renders it. -/
theorem forceMono_gate_trigger {β : Type} (k : LegState α → β) (e : LegState α)
    {pairR : Option (ChannelPair α)} (hmono : e.processMono = monoOf cfg false pairR)
    (hb : e.Bypassed) (n : Nat) :
    (let st := if e.hostRDeactivated then { e with processMono := true } else e
      let st := st.gateInput cfg n
      k { st with xfade := st.xfade.trigger st.bypass }) =
      k (LegState.gateInput cfg { e with processMono := monoOf cfg e.hostRDeactivated pairR } n) := by
  dsimp only
  rw [forceMono_eq e pairR hmono, ((hb.monoed _).gateInput n).trigger]

theorem processPortPair_eq (wet : Pipeline α) (port : PortPair α) {st : LegState α}
    (hb : st.Bypassed) : processPortPair cfg wet port st =
      legPort cfg (processWetSubBlocks cfg wet) st.hostRDeactivated port st := by
  unfold processPortPair legPort
  split
  · cases port.channels with
    | error => rfl
    | notF32 => rfl
    | f32 pairL pairR =>
      dsimp only
      have hforce := @forceMono_eq _ cfg
        { st with processMono := if cfg.dualMono then !hasRInput pairR else true } pairR rfl
      have htrigger := (hb.monoed (monoOf cfg st.hostRDeactivated pairR)).trigger
      dsimp only at hforce htrigger
      rw [hforce, wetSlices_eq_slices]
      dsimp only
      rw [htrigger]
  · split
    · rfl
    · cases port.channels with
      | error => rfl
      | notF32 => rfl
      | f32 pairL pairR =>
        exact forceMono_gate_trigger (fun st =>
          let outs := if st.portOutputActive then
            (extractChannels cfg pairL pairR port.frames st).2 else ⟨none, none⟩
          let r := processWetSubBlocks cfg wet port.frames outs st
          let channels :=
            .f32 (putChannelOutput pairL 0 r.1.outL) (putChannelOutput pairR 0 r.1.outR)
          some ({ port with channels }, r.2))
          (extractChannels cfg pairL pairR port.frames st).1 rfl
          ⟨hb.bypass, hb.idle, hb.target⟩ port.frames

theorem Steady.sound {st st' : LegState α} (h : Steady st st') (hst : st.Sound cfg) :
    st'.Sound cfg := h.1.sound (hst.monoed _) h.2

theorem Steady.bypassed {st st' : LegState α} (h : Steady st st') (hb : st.Bypassed) :
    st'.Bypassed := h.1.bypassed (hb.monoed _)

theorem Steady.port {st st₁ st' : LegState α} {d : DryRings α} {m : Bool} (h : Steady st st₁)
    (k : Kept { st₁ with processMono := m } d st') (hd : d.Full) : Steady st st' := by
  have hmono : st'.processMono = m := by rw [k.same]
  have hline : st'.dryDelay = d := by rw [k.same]
  refine ⟨⟨?_, k.hostL.trans h.1.hostL, k.hostR.trans h.1.hostR, k.dryL.trans h.1.dryL,
    k.dryR.trans h.1.dryR⟩, hline ▸ hd⟩
  rw [hmono, hline, k.same, h.1.same]

/-- A block that fits is rendered as a whole. -/
theorem Renders.whole {body : Body α} (hbody : Renders cfg body) {st : LegState α}
    (hst : st.Sound cfg) (hb : st.Bypassed) {pairL pairR : Option (ChannelPair α)} {n : Nat}
    (hpos : 0 < n) (hn : n ≤ cfg.maxFrames)
    (hport : ∀ pair ∈ [pairL, pairR], ∀ i, pair.bind ChannelPair.input = some i → n ≤ i.length)
    (forced : Bool) {o : (List α × List α) × DryRings α}
    (ho : o = st.dryDelay.feed (monoOf cfg forced pairR) (signal cfg st.portInputActive pairL 0 n)
      (signal cfg st.portInputActive pairR 0 n)) :
    let e := extractChannels cfg pairL pairR n st
    let st₁ := LegState.gateInput cfg { e.1 with processMono := monoOf cfg forced pairR } n
    let r := body n (if st₁.portOutputActive then e.2 else ⟨none, none⟩) st₁
    putChannelOutput pairL 0 r.1.outL = renderPair cfg st.portOutputActive o.1.1 0 pairL ∧
      putChannelOutput pairR 0 r.1.outR = renderPair cfg st.portOutputActive o.1.2 0 pairR ∧
      Kept { st with processMono := monoOf cfg forced pairR } o.2 r.2 := by
  obtain ⟨hcopied, hkept⟩ := extract_staged hst hn hport forced
  have houts : (extractChannels cfg pairL pairR n st).2 =
    ⟨pairL.bind ChannelPair.output, pairR.bind ChannelPair.output⟩ := rfl
  dsimp only at hcopied hkept ⊢
  rw [houts]
  obtain ⟨hstaged, hgate⟩ := LegState.Staged.gateInput pairL pairR
    (hkept.sound (hst.monoed _) hst.line) hn hcopied
  have hall := hkept.trans hgate
  dsimp only at hstaged hall ⊢
  generalize LegState.gateInput cfg _ n = st₁ at hstaged hall ⊢
  have hsound := hall.sound (hst.monoed _) hst.line
  have hout : st₁.portOutputActive = st.portOutputActive := by rw [hall.same]
  have hmono : st₁.processMono = monoOf cfg forced pairR := by rw [hall.same]
  have hline : st₁.dryDelay = st.dryDelay := by rw [hall.same]; rfl
  obtain ⟨st', heq, hfed⟩ := hbody n (if st₁.portOutputActive then
    ⟨pairL.bind ChannelPair.output, pairR.bind ChannelPair.output⟩ else ⟨none, none⟩) st₁ hpos hn
    hsound (hall.bypassed (hb.monoed _))
  have hfedEq : st₁.fed 0 n st₁.processMono = o := by
    rw [hstaged.fed, ho, hmono, hline]
    rfl
  rw [hfedEq] at heq hfed
  rw [heq, hout]
  refine ⟨?_, ?_, hall.trans hfed.kept⟩
  · rw [← putChannelOutput_whole]
    unfold Outs.write
    cases st.portOutputActive <;> rfl
  · rw [← putChannelOutput_whole]
    unfold Outs.write
    cases st.portOutputActive <;> rfl

theorem Renders.port {body : Body α} (hbody : Renders cfg body) {st : LegState α}
    (hst : st.Sound cfg) (hb : st.Bypassed) (forced : Bool) :
    RendersPort cfg st forced (legPort cfg body forced) := by
  intro port st₁ hport hsteady
  have hsound := hsteady.sound hst
  have hbypassed := hsteady.bypassed hb
  have hin : st.portInputActive = st₁.portInputActive := by rw [hsteady.1.same]
  have hout : st.portOutputActive = st₁.portOutputActive := by rw [hsteady.1.same]
  have hframes := cfg.maxFrames_pos
  unfold legPort renderPort
  rw [hin, hout]
  by_cases hzero : port.frames = 0
  · rw [if_neg (by omega), if_pos hzero, if_pos hzero]
    exact ⟨rfl, hsteady⟩
  rw [if_neg hzero, if_neg hzero]
  cases hchannels : port.channels with
  | error =>
    dsimp only
    rw [ite_self]
  | notF32 =>
    dsimp only
    rw [ite_self]
    exact ⟨rfl, hsteady⟩
  | f32 pairL pairR =>
    have hd := hsound.line.feed (monoOf cfg forced pairR)
      (signal cfg st₁.portInputActive pairL 0 port.frames)
      (signal cfg st₁.portInputActive pairR 0 port.frames)
    by_cases hover : cfg.maxFrames < port.frames
    · rw [if_pos hover]
      obtain ⟨st', heq, hkept⟩ := hbody.slices port.frames port.frames 0 pairL pairR
        { st₁ with processMono := monoOf cfg forced pairR } _ (Nat.sub_le _ _) (by omega)
        (hsound.monoed _) (hbypassed.monoed _) rfl
      dsimp only at heq hkept ⊢
      rw [heq]
      dsimp only
      have hline := congrArg LegState.dryDelay hkept.same
      dsimp only at hline
      rw [hline]
      exact ⟨rfl, hsteady.port hkept hd⟩
    · rw [if_neg hover]
      obtain ⟨hL, hR, hkept⟩ := hbody.whole hsound hbypassed (by omega) (by omega)
        (hport pairL pairR hchannels) forced rfl
      dsimp only at hL hR hkept ⊢
      rw [hL, hR]
      have hline := congrArg LegState.dryDelay hkept.same
      dsimp only at hline
      rw [hline]
      exact ⟨rfl, hsteady.port hkept hd⟩

/-! ## Blocks -/

theorem rendersPort_contained {st : LegState α} (hst : st.Sound cfg) (hb : st.Bypassed) :
    RendersPort cfg st false (containPortPair cfg) := by
  have hport := renders_contained.port hst hb false
  intro port st₁ hsound hsteady
  rw [containPortPair_eq]
  exact hport port st₁ hsound hsteady

theorem rendersPort_wet (wet : Pipeline α) {st : LegState α} (hst : st.Sound cfg)
    (hb : st.Bypassed) : RendersPort cfg st st.hostRDeactivated (processPortPair cfg wet) := by
  have hport := (renders_wet wet).port hst hb st.hostRDeactivated
  intro port st₁ hsound hsteady
  have hforced : st₁.hostRDeactivated = st.hostRDeactivated := by rw [hsteady.1.same]
  rw [processPortPair_eq wet port (hsteady.bypassed hb), hforced]
  exact hport port st₁ hsound hsteady

variable (cfg)

/-- The dry rendering of a block. -/
def renderPorts (inActive outActive forced : Bool) :
    List (PortPair α) → DryRings α → (List (PortPair α) × Bool) × DryRings α
  | [], d => (([], true), d)
  | p :: ps, d =>
    match renderPort cfg inActive outActive forced p d with
    | none => ((p :: ps, false), d)
    | some (p', d') =>
      let r := renderPorts inActive outActive forced ps d'
      ((p' :: r.1.1, r.1.2), r.2)

variable {cfg}

theorem RendersPort.ports {st : LegState α} {forced : Bool}
    {body : PortPair α → LegState α → Option (PortPair α × LegState α)}
    (hbody : RendersPort cfg st forced body) (audio : List (PortPair α)) :
    ∀ st₁, (∀ p ∈ audio, p.Sound) → Steady st st₁ →
      ((forPortPairs body audio st₁).1, (forPortPairs body audio st₁).2.dryDelay) =
        renderPorts cfg st.portInputActive st.portOutputActive forced audio st₁.dryDelay := by
  induction audio with
  | nil =>
    intro st₁ _ _
    rfl
  | cons p ps ih =>
    intro st₁ hports hsteady
    have hp := hbody p st₁ (hports p (List.mem_cons_self ..)) hsteady
    unfold forPortPairs renderPorts
    cases hrun : body p st₁ with
    | none =>
      rw [hrun] at hp
      dsimp only at hp ⊢
      rw [hp]
    | some r =>
      obtain ⟨p', st'⟩ := r
      rw [hrun] at hp
      obtain ⟨hrender, hsteady'⟩ := hp
      dsimp only
      rw [hrender]
      dsimp only
      rw [← ih st' (fun q hq => hports q (List.mem_cons_of_mem _ hq)) hsteady']

theorem LegState.Sound.steady {st : LegState α} (hst : st.Sound cfg) : Steady st st :=
  ⟨⟨rfl, rfl, rfl, rfl, rfl⟩, hst.line⟩

theorem processDryContainedBlock_eq {st : LegState α} (hst : st.Sound cfg) (hb : st.Bypassed)
    {audio : List (PortPair α)} (hports : ∀ p ∈ audio, p.Sound) :
    ((processDryContainedBlock cfg audio st).1,
      (processDryContainedBlock cfg audio st).2.dryDelay) =
      renderPorts cfg st.portInputActive st.portOutputActive false audio st.dryDelay :=
  (rendersPort_contained hst hb).ports audio st hports hst.steady

theorem processDspAudio_eq (wet : Pipeline α) {st : LegState α} (hst : st.Sound cfg)
    (hb : st.Bypassed) (hfinite : st.nonFiniteInput = false) {audio : List (PortPair α)}
    (hports : ∀ p ∈ audio, p.Sound) :
    ((processDspAudio cfg wet audio st).1, (processDspAudio cfg wet audio st).2.dryDelay) =
      renderPorts cfg st.portInputActive st.portOutputActive st.hostRDeactivated audio
        st.dryDelay := by
  unfold processDspAudio
  rw [if_neg (by rw [hfinite]; decide)]
  exact (rendersPort_wet wet hst hb).ports audio st hports hst.steady

variable (cfg)

/-- The two legs render a block the same and leave the same line. -/
def LegsAgree (wet : Pipeline α) (audio : List (PortPair α)) (st : LegState α) : Prop :=
  (processDryContainedBlock cfg audio st).1 = (processDspAudio cfg wet audio st).1 ∧
    (processDryContainedBlock cfg audio st).2.dryDelay =
      (processDspAudio cfg wet audio st).2.dryDelay

/-- A port that a dual-mono build renders in stereo. -/
def PortPair.Dual (port : PortPair α) : Prop :=
  cfg.dualMono = true ∧ port.frames ≠ 0 ∧
    ∃ pairL pairR, port.channels = .f32 pairL pairR ∧ hasRInput pairR = true

/-- The line holds nothing but silence. -/
def LegState.Silent (st : LegState α) : Prop :=
  ∀ x ∈ st.dryDelay.lineL.slots ++ st.dryDelay.lineR.slots, x = cfg.zero

/-- No port is rendered in stereo where the host deactivated the right channel; a line to be cleared
is silent. -/
def Agreeable (audio : List (PortPair α)) (st : LegState α) : Prop :=
  if st.nonFiniteInput then st.Silent cfg
  else st.hostRDeactivated = true → ∀ port ∈ audio, ¬ port.Dual cfg

variable {cfg}

theorem contained_line {st : LegState α} (hsilent : st.Silent cfg) :
    (st.containNonFinite cfg).dryDelay = st.dryDelay := by
  have hsame : ∀ slots : List α, (∀ x ∈ slots, x = cfg.zero) →
      List.replicate slots.length cfg.zero = slots := fun slots h =>
    (List.eq_replicate_iff.2 ⟨rfl, h⟩).symm
  have hl := hsame _ fun x hx => hsilent x (List.mem_append_left _ hx)
  have hr := hsame _ fun x hx => hsilent x (List.mem_append_right _ hx)
  unfold LegState.containNonFinite
  dsimp only
  rw [hl, hr]

theorem LegState.Sound.contained {st : LegState α} (h : st.Sound cfg) :
    (st.containNonFinite cfg).Sound cfg := by
  constructor
  · exact ⟨⟨List.length_replicate.trans h.line.left.slots⟩,
      ⟨List.length_replicate.trans h.line.right.slots⟩⟩
  · exact h.hostL.trans_eq List.length_replicate.symm
  · exact h.hostR.trans_eq List.length_replicate.symm
  · exact h.dryL.trans_eq List.length_replicate.symm
  · exact h.dryR.trans_eq List.length_replicate.symm

/-- Forced or not, a port that is not dual is rendered in mono. -/
theorem renderPort_forced (inActive outActive : Bool) {port : PortPair α} (d : DryRings α)
    (hport : ¬ port.Dual cfg) : renderPort cfg inActive outActive true port d =
      renderPort cfg inActive outActive false port d := by
  unfold renderPort
  split_ifs with hzero
  · rfl
  cases hchannels : port.channels with
  | error => rfl
  | notF32 => rfl
  | f32 pairL pairR =>
    have hmono : monoOf cfg true pairR = monoOf cfg false pairR := by
      unfold monoOf
      cases hdual : cfg.dualMono with
      | false => rfl
      | true =>
        have hr : hasRInput pairR = false :=
          Bool.eq_false_iff.2 fun hr => hport ⟨hdual, hzero, pairL, pairR, hchannels, hr⟩
        rw [hr]
        rfl
    dsimp only
    rw [hmono]

theorem renderPorts_forced (inActive outActive : Bool) (audio : List (PortPair α)) :
    ∀ d : DryRings α, (∀ port ∈ audio, ¬ port.Dual cfg) →
      renderPorts cfg inActive outActive true audio d =
        renderPorts cfg inActive outActive false audio d := by
  induction audio with
  | nil =>
    intro d _
    rfl
  | cons p ps ih =>
    intro d hports
    unfold renderPorts
    rw [renderPort_forced inActive outActive d (hports p (List.mem_cons_self ..))]
    simp only [ih _ fun q hq => hports q (List.mem_cons_of_mem _ hq)]

/-- A dual port leaves its mono selection in the line. -/
theorem renderPorts_dual (inActive outActive forced : Bool) {port : PortPair α} (d : DryRings α)
    (hport : port.Dual cfg) :
    (renderPorts cfg inActive outActive forced [port] d).2.lastMono = forced := by
  obtain ⟨hdual, hzero, pairL, pairR, hchannels, hr⟩ := hport
  have hmono : monoOf cfg forced pairR = forced := by
    unfold monoOf
    rw [hdual, hr]
    cases forced <;> rfl
  unfold renderPorts renderPort
  rw [if_neg hzero, hchannels]
  dsimp only
  rw [hmono]
  exact DryRings.lastMono_feed forced _ _ d

theorem legsAgree_iff_renderPorts (wet : Pipeline α) {st : LegState α} (hst : st.Sound cfg)
    (hb : st.Bypassed) (hfinite : st.nonFiniteInput = false) {audio : List (PortPair α)}
    (hports : ∀ p ∈ audio, p.Sound) : LegsAgree cfg wet audio st ↔
      renderPorts cfg st.portInputActive st.portOutputActive false audio st.dryDelay =
        renderPorts cfg st.portInputActive st.portOutputActive st.hostRDeactivated audio
          st.dryDelay := by
  rw [← processDryContainedBlock_eq hst hb hports,
    ← processDspAudio_eq wet hst hb hfinite hports, Prod.mk.injEq]
  rfl

/-- A fully bypassed processor renders a block on either leg the same where the condition holds, and
a block of at most one port pair only there. -/
theorem dry_leg_agrees_iff (wet : Pipeline α) (audio : List (PortPair α)) (st : LegState α)
    (hst : st.Sound cfg) (hb : st.Bypassed) (hports : ∀ p ∈ audio, p.Sound) :
    (Agreeable cfg audio st → LegsAgree cfg wet audio st) ∧
      (st.nonFiniteInput = false → audio.length ≤ 1 → LegsAgree cfg wet audio st →
        Agreeable cfg audio st) := by
  refine ⟨fun hagree => ?_, fun hfinite hone hagree => ?_⟩
  · unfold Agreeable at hagree
    split_ifs at hagree with hfinite
    · have hcontained := processDryContainedBlock_eq hst.contained ⟨hb.bypass, hb.idle, hb.target⟩ hports
      rw [contained_line hagree] at hcontained
      have hboth := (processDryContainedBlock_eq hst hb hports).trans hcontained.symm
      unfold LegsAgree processDspAudio
      rw [if_pos hfinite]
      exact Prod.mk.inj hboth
    · rw [Bool.not_eq_true] at hfinite
      rw [legsAgree_iff_renderPorts wet hst hb hfinite hports]
      cases hhost : st.hostRDeactivated with
      | false => rfl
      | true => exact (renderPorts_forced _ _ audio _ (hagree hhost)).symm
  · rw [legsAgree_iff_renderPorts wet hst hb hfinite hports] at hagree
    unfold Agreeable
    rw [if_neg (by rw [hfinite]; decide)]
    intro hhost port hmem hdual
    have hsingle : audio = [port] := by
      obtain ⟨p, rfl⟩ := List.length_eq_one_iff.1
        (Nat.le_antisymm hone (List.length_pos_of_mem hmem))
      rw [List.mem_singleton.1 hmem]
    rw [hhost, hsingle] at hagree
    have hlatch := congrArg (fun r => r.2.lastMono) hagree
    rw [renderPorts_dual _ _ _ _ hdual, renderPorts_dual _ _ _ _ hdual] at hlatch
    exact absurd hlatch (by decide)

end

/-! ## A stereo port -/

/-- A dual-mono build with blocks of four samples. -/
def dualConfig : LegConfig Int where
  dualMono := true
  maxResampBuf := 2
  maxFrames := 4
  zero := 0
  sanitize := id
  maxResampBuf_pos := by decide
  maxFrames_pos := by decide

/-- A bypassed processor with a delay of one sample. -/
def bypassedState (hostRDeactivated : Bool) : LegState Int where
  dryDelay := .new 0 2 1
  bufHostL := List.replicate 4 0
  bufHostR := List.replicate 4 0
  bufXfadeDryL := List.replicate 4 0
  bufXfadeDryR := List.replicate 4 0
  processMono := false
  bypass := true
  xfade := ⟨true, false, f0, f0, 0⟩
  nonFiniteInput := false
  portInputActive := true
  portOutputActive := true
  hostRDeactivated

/-- An oversize stereo port, in place on the left. -/
def stereoPort : PortPair Int where
  frames := 5
  channels := .f32 (some (.inPlace [1, 2, 3, 4, 5]))
    (some (.inputOutput [11, 12, 13, 14, 15] [0, 0, 0, 0, 0]))

/-- A pipeline the dry legs do not reach. -/
def unreachedWet : Pipeline Int := fun _ n _ _ outs st => (n, outs, st)

theorem bypassedState_sound (hostRDeactivated : Bool) :
    (bypassedState hostRDeactivated).Sound dualConfig ∧
      (bypassedState hostRDeactivated).Bypassed ∧ ∀ p ∈ [stereoPort], p.Sound := by
  refine ⟨⟨⟨⟨rfl⟩, ⟨rfl⟩⟩, Nat.le_refl 4, Nat.le_refl 4, Nat.le_refl 4, Nat.le_refl 4⟩,
    ⟨rfl, rfl, rfl⟩, ?_⟩
  intro p hp pairL pairR hchannels pair hpair i hi
  obtain rfl := List.mem_singleton.1 hp
  obtain ⟨rfl, rfl⟩ := Channels.f32.inj hchannels
  obtain rfl | rfl : pair = _ ∨ pair = _ := by simpa using hpair
  · obtain rfl := Option.some.inj hi
    decide
  · obtain rfl := Option.some.inj hi
    decide

/-- With both channels active the port is rendered in stereo on either leg. -/
theorem dry_leg_agrees_stereo :
    (processDspAudio dualConfig unreachedWet [stereoPort] (bypassedState false)).1.1 =
      [⟨5, .f32 (some (.inPlace [0, 1, 2, 3, 4]))
        (some (.inputOutput [11, 12, 13, 14, 15] [0, 11, 12, 13, 14]))⟩] ∧
      LegsAgree dualConfig unreachedWet [stereoPort] (bypassedState false) := by
  obtain ⟨hst, hb, hports⟩ := bypassedState_sound false
  refine ⟨by decide, (dry_leg_agrees_iff unreachedWet [stereoPort] (bypassedState false) hst hb
    hports).1 ?_⟩
  unfold Agreeable
  rw [if_neg (by decide)]
  exact fun h => absurd h (by decide)

/-- With the right channel deactivated the bypass leg puts the left input out on the right, the
containment leg still the right one. -/
theorem dry_leg_disagrees :
    ¬ ∀ (wet : Pipeline Int) (audio : List (PortPair Int)) (st : LegState Int),
      st.Sound dualConfig → st.Bypassed → st.nonFiniteInput = false → (∀ p ∈ audio, p.Sound) →
        LegsAgree dualConfig wet audio st := by
  intro h
  obtain ⟨hst, hb, hports⟩ := bypassedState_sound true
  have hagree := (h unreachedWet [stereoPort] (bypassedState true) hst hb rfl hports).1
  have hdry : (processDryContainedBlock dualConfig [stereoPort] (bypassedState true)).1.1 =
      [⟨5, .f32 (some (.inPlace [0, 1, 2, 3, 4]))
        (some (.inputOutput [11, 12, 13, 14, 15] [0, 11, 12, 13, 14]))⟩] := by decide
  have hbypassed : (processDspAudio dualConfig unreachedWet [stereoPort] (bypassedState true)).1.1 =
      [⟨5, .f32 (some (.inPlace [0, 1, 2, 3, 4]))
        (some (.inputOutput [11, 12, 13, 14, 15] [0, 1, 2, 3, 4]))⟩] := by decide
  rw [hagree, hbypassed] at hdry
  exact absurd hdry (by decide)

end DryLeg

end NamPlug
