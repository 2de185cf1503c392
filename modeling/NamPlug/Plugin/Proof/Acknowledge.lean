import NamPlug.Plugin.Proof.Counts

/-!
# Acknowledged restores

`published_applied`: the main thread publishes a restore only after the audio thread applied it, in
every run whose steps meet `AckGuard`. A command is acknowledged by its place in the sequence of
pushes (`Counts`), so that a restore in the ring is not acknowledged yet. The guard names the steps
that count a restore without applying it.
-/

namespace NamPlug

open Machine

/-! ## Published after applied -/

/-- Every restore in the log was applied before it was published. -/
def AckSound : List Event → Prop
  | [] => True
  | .published g :: es => .applied g ∈ es ∧ AckSound es
  | _ :: es => AckSound es

instance decidableAckSound : ∀ es, Decidable (AckSound es)
  | [] => isTrue trivial
  | e :: es =>
    have := decidableAckSound es
    match e with
    | .published g => inferInstanceAs (Decidable (.applied g ∈ es ∧ AckSound es))
    | .applied _ => this
    | .model _ _ => this
    | .ir _ => this
    | .params _ => this
    | .param _ _ => this

theorem AckSound.append {es log : List Event} (h : AckSound log)
    (he : ∀ g, .published g ∉ es) : AckSound (es ++ log) := by
  induction es with
  | nil => exact h
  | cons e es ih =>
    have ih := ih fun g hg => he g (List.mem_cons_of_mem _ hg)
    cases e with
    | published g => exact absurd (List.mem_cons_self) (he g)
    | _ => exact ih

theorem AckSound.split {newer older : List Event} {g : Nat}
    (h : AckSound (newer ++ .published g :: older)) : .applied g ∈ older := by
  induction newer with
  | nil => exact h.1
  | cons e es ih =>
    cases e with
    | published g' => exact ih h.2
    | _ => exact ih h

/-! ## The invariant -/

/-- The commands an activation recovered and the audio thread has not replayed. -/
def recovered (s : Shared) (o : Option Processor) : List ClapParamPayload :=
  s.recoveredCommands ++ o.elim [] (·.recoveredCommands)

/-- The commands off the ring and not installed. -/
def held (o : Option Processor) : List ClapParamPayload :=
  o.elim [] fun p => p.deferred.toList ++ p.candidate.toList

def ClapParamPayload.isRestore (c : ClapParamPayload) (g : Nat) : Bool :=
  c.restore?.any (·.generation = g)

/-- Where the transaction of a restore is that was sent and not published. -/
inductive Awaited (s : Shared) (o : Option Processor) (r : PendingRestore) : Prop where
  | applied (h : .applied r.generation ∈ s.log)
  | ring {c a b} (h : s.ring = a ++ c :: b) (hc : c.isRestore r.generation = true)
    (hn : r.seq + b.length = s.cmdNextSeq)
  | held {c} (h : c ∈ held o) (hc : c.isRestore r.generation = true) (hn : s.cmdLastAck < r.seq)
  | recovered {c} (h : c ∈ recovered s o) (hc : c.isRestore r.generation = true)

structure AckInv (s : Shared) (o : Option Processor) : Prop where
  counts : PluginCounts s o
  log : AckSound s.log
  txn : ∀ r t, s.pendingRestore = some r → r.txn = some t → t.generation = r.generation
  awaited : ∀ r, s.pendingRestore = some r → r.txn = none → Awaited s o r

/-! ### The main thread -/

theorem Awaited.sends {s s' : Shared} {o : Option Processor} {r : PendingRestore}
    (h : Awaited s o r) (k : Sends s s') : Awaited s' o r := by
  obtain ⟨ps, hr, hn⟩ := k.sent
  obtain ⟨es, hl, -⟩ := k.log
  cases h with
  | applied h => exact .applied (by rw [hl]; exact List.mem_append_right _ h)
  | @ring c a b h hc hn' =>
    refine .ring (a := a) (b := b ++ ps) (by rw [hr, h]; simp) hc ?_
    rw [hn, List.length_append]
    omega
  | held h hc hn' => exact .held h hc (by rw [k.cmdLastAck]; exact hn')
  | recovered h hc => exact .recovered (by simpa [NamPlug.recovered, k.recoveredCommands] using h) hc

theorem AckInv.sends {s s' : Shared} {o : Option Processor} (h : AckInv s o) (k : Sends s s') :
    AckInv s' o where
  counts := h.counts.pushes k.pushes
  log := by
    obtain ⟨es, hl, he⟩ := k.log
    rw [hl]
    exact h.log.append he
  txn r t hr := h.txn r t (k.pendingRestore ▸ hr)
  awaited r hr ht := (h.awaited r (k.pendingRestore ▸ hr) ht).sends k

/-- A pending restore replaced, once it is in the ring. -/
theorem AckInv.replace {s : Shared} {o : Option Processor} (h : AckInv s o) {r : PendingRestore}
    (htxn : ∀ t, r.txn = some t → t.generation = r.generation)
    (hr : r.txn = none → Awaited s o r) : AckInv { s with pendingRestore := some r } o where
  counts := h.counts.of_eq rfl rfl rfl
  log := h.log
  txn r' t hr' ht := by
    obtain rfl := Option.some.inj hr'
    exact htxn t ht
  awaited r' hr' ht := by
    obtain rfl := Option.some.inj hr'
    cases hr ht with
    | applied h => exact .applied h
    | ring h hc hn => exact .ring h hc hn
    | held h hc hn => exact .held h hc hn
    | recovered h hc => exact .recovered h hc

theorem AckInv.restores {s s' : Shared} {o : Option Processor} (h : AckInv s o)
    {v : ValidatedRestore} {mode : RestoreMode} (k : Restores s v mode s') : AckInv s' o := by
  cases k with
  | failed => exact h
  | staged hp =>
    refine (h.sends hp.sends).sends (Sends.trans ?_ (sends_noteRestore _ _))
    exact sends_of_eq rfl rfl rfl rfl rfl rfl
  | @sent t publish txn ps hp hf =>
    refine AckInv.sends ?_ (sends_noteRestore _ _)
    have hs : Sends s ({ t with stagedRestore := none, stagedSwap := none }.sent
        (ps ++ [ClapParamPayload.restoreTxn txn]) none) := hp.sends.trans ⟨⟨_, rfl, rfl⟩, rfl, rfl, rfl, [], rfl,
      by simp⟩
    refine (h.sends hs).replace (by simp) fun _ => ?_
    refine .ring (c := .restoreTxn txn) (a := t.ring ++ ps) (b := []) ?_ ?_ ?_
    · simp [Shared.sent]
    · simp [ClapParamPayload.isRestore, ClapParamPayload.restore?]
    · have hn : t.cmdNextSeq = s.cmdNextSeq := by rw [hp.state]
      simp [Shared.sent, hn]
  | @kept t publish txn ps c hp hf =>
    refine AckInv.sends ?_ (sends_noteRestore _ _)
    have hs : Sends s ({ t with stagedRestore := none, stagedSwap := none }.sent ps c) :=
      hp.sends.trans ⟨⟨_, rfl, rfl⟩, rfl, rfl, rfl, [], rfl, by simp⟩
    exact (h.sends hs).replace (by rintro _ ⟨⟩; rfl) (by simp)

/-- A publication, where the restore that waits is not among the recovered commands. -/
theorem AckInv.publishIfAcked {s : Shared} {o : Option Processor} (h : AckInv s o)
    (hg : ∀ r, s.pendingRestore = some r → r.txn = none → r.seq ≤ s.cmdLastAck →
      ∀ c ∈ recovered s o, c.isRestore r.generation = false)
    (ht : ∀ r, s.pendingRestore = some r → r.txn = none) : AckInv s.publishIfAcked o := by
  obtain hp | ⟨r, hr, h0, ha, hp⟩ := publishIfAcked_cases s <;> rw [hp]
  · exact h
  · have happ : .applied r.generation ∈ s.log := by
      cases h.awaited r hr (ht r hr) with
      | applied h => exact h
      | ring hring hc hn => exact absurd (ring_unacked h.counts hring hn) (by omega)
      | held hheld hc hn => exact absurd hn (by omega)
      | recovered hrec hc => rw [hg r hr (ht r hr) ha _ hrec] at hc; cases hc
    have heq := acknowledged_eq s r
    have hnone : (s.acknowledged r).pendingRestore = none := by rw [heq]
    have hlog : (s.acknowledged r).log = .published r.generation :: s.log := by rw [heq]
    refine ⟨h.counts.of_eq (by rw [heq]) (by rw [heq]) (by rw [heq]), ?_, ?_, ?_⟩
    · rw [hlog]
      exact ⟨happ, h.log⟩
    · intro r' t hr'
      rw [hnone] at hr'
      cases hr'
    · intro r' hr'
      rw [hnone] at hr'
      cases hr'

theorem AckInv.flushesRestore {s s' : Shared} {o : Option Processor} (h : AckInv s o)
    (hg : ∀ r, s.pendingRestore = some r → r.txn = none → r.seq ≤ s.cmdLastAck →
      ∀ c ∈ recovered s o, c.isRestore r.generation = false)
    (k : FlushesRestore s s') : AckInv s' o := by
  cases k with
  | idle hr => exact h
  | waiting hr ht =>
    refine h.publishIfAcked hg fun r' hr' => ?_
    obtain rfl := Option.some.inj (hr.symm.trans hr')
    exact ht
  | @sent r txn ps hr ht hf =>
    have hs := h.sends (sends_sent s (ps ++ [.restoreTxn txn]) none)
    have hgen := h.txn r txn hr ht
    have hnew : AckInv { s.sent (ps ++ [ClapParamPayload.restoreTxn txn]) none with
        pendingRestore := some { r with
          txn := none, seq := s.cmdNextSeq + (ps.length + 1) } } o := by
      refine hs.replace (by simp) fun _ => ?_
      refine .ring (c := .restoreTxn txn) (a := s.ring ++ ps) (b := []) ?_ ?_ ?_
      · simp [Shared.sent]
      · simp [ClapParamPayload.isRestore, ClapParamPayload.restore?, hgen]
      · simp [Shared.sent]
    have hle := h.counts.le
    refine hnew.publishIfAcked (fun r' hr' _ ha => ?_) fun r' hr' => ?_
    · -- what was just pushed is not acknowledged
      obtain rfl := Option.some.inj hr'
      simp only [Shared.sent] at ha
      omega
    · obtain rfl := Option.some.inj hr'
      rfl
  | kept hr ht hf => exact h.sends (sends_sent s _ _)

/-! ### The audio thread -/

theorem Awaited.frame {r r' : Shared × Processor} {w : PendingRestore}
    (h : Awaited r.1 (some r.2) w) (k : AudioFrame r r') {es : List Event}
    (hl : r'.1.log = es ++ r.1.log) : Awaited r'.1 (some r'.2) w := by
  obtain ⟨s, p⟩ := r
  obtain ⟨s', p'⟩ := r'
  have hs := k.shared
  have hp := k.proc
  dsimp only at *
  cases h with
  | applied h => exact .applied (by rw [hl]; exact List.mem_append_right _ h)
  | ring h hc hn => exact .ring (by rw [hs]; exact h) hc (by rw [hs]; exact hn)
  | held h hc hn => exact .held (by rw [hp]; exact h) hc (by rw [hs]; exact hn)
  | recovered h hc => exact .recovered (by rw [hs, hp]; exact h) hc

/-- Installing and applying leaves the command path alone. -/
theorem AckInv.frame {r r' : Shared × Processor} (h : AckInv r.1 (some r.2))
    (k : AudioFrame r r') {l : List Event} (hl : r'.1.log = l ++ r.1.log)
    (he : ∀ g, .published g ∉ l) : AckInv r'.1 (some r'.2) := by
  have hpend : r'.1.pendingRestore = r.1.pendingRestore := by rw [k.shared]; rfl
  exact ⟨Counts.frame h.counts k, hl ▸ h.log.append he, fun w t hw => h.txn w t (hpend ▸ hw),
    fun w hw ht => (h.awaited w (hpend ▸ hw) ht).frame k hl⟩

theorem AckInv.paramFrame {r r' : Shared × Processor} (h : AckInv r.1 (some r.2))
    (k : ParamFrame r r') : AckInv r'.1 (some r'.2) := by
  obtain ⟨es, hl, he⟩ := k.log
  refine h.frame k.toAudioFrame hl fun g hg => ?_
  obtain ⟨p, raw, hp⟩ := he _ hg
  cases hp

/-- Commands moved, none of them an awaited restore that is lost. -/
theorem AckInv.move {s t : Shared} {o u : Option Processor} (h : AckInv s o)
    (hc : PluginCounts t u) (hl : t.log = s.log) (hp : t.pendingRestore = s.pendingRestore)
    (ha : ∀ r, s.pendingRestore = some r → r.txn = none → Awaited s o r → Awaited t u r) :
    AckInv t u :=
  ⟨hc, hl ▸ h.log, fun r t hr => h.txn r t (hp ▸ hr),
    fun r hr ht => ha r (hp ▸ hr) ht (h.awaited r (hp ▸ hr) ht)⟩

theorem mem_held {p : Processor} {c : ClapParamPayload} :
    c ∈ held (some p) ↔ p.deferred = some c ∨ p.candidate = some c := by
  simp [held, Option.mem_toList]

theorem isRestore_iff {c : ClapParamPayload} {g : Nat} :
    c.isRestore g = true ↔ ∃ txn, c.restore? = some txn ∧ txn.generation = g := by
  unfold ClapParamPayload.isRestore
  cases c.restore? <;> simp

theorem isRestore_none {c : ClapParamPayload} (h : c.restore? = none) (g : Nat) :
    c.isRestore g = false := by simp [ClapParamPayload.isRestore, h]

section
variable (E : Engine)

/-- A command is taken off the command path and installed. -/
theorem AckInv.install {s t : Shared} {p q : Processor} {c : ClapParamPayload}
    (h : AckInv s (some p))
    (hc : Counts (applyStructural E t q c).1 (applyStructural E t q c).2) (hl : t.log = s.log)
    (hp : t.pendingRestore = s.pendingRestore)
    (ha : ∀ r, Awaited s (some p) r → Awaited t (some q) r ∨ c.isRestore r.generation = true) :
    AckInv (applyStructural E t q c).1 (some (applyStructural E t q c).2) := by
  have hframe := applyStructural_frame E t q c
  have hlog := applyStructural_log E t q c
  have hpend : (applyStructural E t q c).1.pendingRestore = s.pendingRestore := by
    rw [hframe.shared]
    exact hp
  refine ⟨hc, ?_, fun r t hr => h.txn r t (hpend ▸ hr), fun r hr ht => ?_⟩
  · rw [hlog, hl]
    refine h.log.append fun g hg => ?_
    cases hr : c.restore? <;> rw [hr] at hg <;> simp at hg
  · obtain haw | hres := ha r (h.awaited r (hpend ▸ hr) ht)
    · exact haw.frame hframe hlog
    · refine .applied ?_
      obtain ⟨txn, ht, hg⟩ := isRestore_iff.1 hres
      rw [hlog, ht, ← hg]
      exact List.mem_append_left _ (List.mem_singleton.2 rfl)

/-- The head of the ring leaves it, and is no restore. -/
theorem Awaited.popped {s : Shared} {p q : Processor} {r : PendingRestore}
    {h : ClapParamPayload} {rest : List ClapParamPayload} (hr : s.ring = h :: rest)
    (ha : Awaited s (some p) r) (hh : h.isRestore r.generation = true → s.cmdLastAck < r.seq →
      Awaited (s.popped rest) (some q) r)
    (hheld : ∀ c : ClapParamPayload, c ∈ NamPlug.held (some p) → c.isRestore r.generation = true →
      c ∈ NamPlug.held (some q))
    (hrec : q.recoveredCommands = p.recoveredCommands) (hc : PluginCounts s (some p)) :
    Awaited (s.popped rest) (some q) r := by
  cases ha with
  | applied ha => exact .applied ha
  | @ring c a b ha hres hn =>
    have hun := ring_unacked hc ha hn
    rw [hr] at ha
    cases a with
    | nil =>
      simp only [List.nil_append, List.cons.injEq] at ha
      obtain ⟨rfl, rfl⟩ := ha
      exact hh hres hun
    | cons x a =>
      simp only [List.cons_append, List.cons.injEq] at ha
      exact .ring ha.2 hres hn
  | held ha hres hn => exact .held (hheld _ ha hres) hres hn
  | recovered ha hres =>
    exact .recovered (by simpa [NamPlug.recovered, Shared.popped, hrec] using ha) hres

/-- One move of a drain. -/
theorem AckInv.drains {s : Shared} {p : Processor} {m : DrainMove} {r : Shared × Processor}
    (h : AckInv s (some p)) (hc : p.inCallback = true) (k : Drains E s p m r) :
    AckInv r.1 (some r.2) := by
  have hcounts : Counts s p := h.counts
  have hafter : PluginCounts r.1 (some r.2) := hcounts.drains E hc k
  cases k with
  | @installDeferred d hd =>
    have hcand := hcounts.noCandidate hd
    refine h.install E hafter rfl rfl fun w hw => ?_
    cases hw with
    | applied hw => exact .inl (.applied hw)
    | ring hw hres hn => exact .inl (.ring hw hres hn)
    | held hw hres hn =>
      obtain hw | hw := mem_held.1 hw
      · rw [hd] at hw
        obtain rfl := Option.some.inj hw
        exact .inr hres
      · rw [hcand] at hw; cases hw
    | recovered hw hres => exact .inl (.recovered hw hres)
  | @discardDeferred d x rest hd hr hs =>
    obtain ⟨-, -, -, hres, -⟩ := supersedes_spec hs
    have hcand := hcounts.noCandidate hd
    refine h.move hafter rfl rfl fun w _ _ hw => ?_
    cases hw with
    | applied hw => exact .applied hw
    | ring hw hres hn => exact .ring hw hres hn
    | held hw hcr hn =>
      obtain hw | hw := mem_held.1 hw
      · obtain rfl := Option.some.inj (hd.symm.trans hw)
        rw [isRestore_none hres] at hcr
        cases hcr
      · rw [hcand] at hw; cases hw
    | recovered hw hres => exact .recovered hw hres
  | @applyParams q rest hd hr =>
    refine h.install E hafter rfl rfl fun w hw => .inl ?_
    exact hw.popped hr (fun hq _ => by cases hq) (fun c hc _ => hc) rfl h.counts
  | @popCandidate x rest hd hcand hr hs =>
    refine h.move hafter rfl rfl fun w _ _ hw => ?_
    refine hw.popped hr (fun hx hn => ?_) (fun c hc _ => ?_) rfl h.counts
    · exact .held (mem_held.2 (.inr rfl)) hx hn
    · obtain hc | hc := mem_held.1 hc
      · rw [hd] at hc; cases hc
      · rw [hcand] at hc; cases hc
  | @supersede c x rest hd hcand hr hs =>
    obtain ⟨-, -, hx, hcr, -⟩ := supersedes_spec hs
    refine h.move hafter rfl rfl fun w _ _ hw => ?_
    refine hw.popped hr (fun hres _ => ?_) (fun d hc hres => ?_) rfl h.counts
    · rw [isRestore_none hx] at hres; cases hres
    · obtain hc | hc := mem_held.1 hc
      · rw [hd] at hc; cases hc
      · obtain rfl := Option.some.inj (hcand.symm.trans hc)
        rw [isRestore_none hcr] at hres
        cases hres
  | @installCandidate c hd hcand =>
    refine h.install E hafter rfl rfl fun w hw => ?_
    cases hw with
    | applied hw => exact .inl (.applied hw)
    | ring hw hres hn => exact .inl (.ring hw hres hn)
    | held hw hres hn =>
      obtain hw | hw := mem_held.1 hw
      · rw [hd] at hw; cases hw
      · obtain rfl := Option.some.inj (hcand.symm.trans hw)
        exact .inr hres
    | recovered hw hres => exact .inl (.recovered hw hres)

/-- The commands an activation recovered are replayed. -/
theorem AckInv.beginEvents {s : Shared} {p : Processor} (h : AckInv s (some p)) (room : Nat)
    (hc : p.inCallback = false) :
    AckInv (beginEvents E s p room).1 (some (beginEvents E s p room).2) := by
  have hcounts : Counts s p := h.counts
  have hafter := hcounts.beginEvents E room hc
  have hframe := replayRecovered_frame E { s with ui := (writeGuiEvents s.ui room).ui }
    { p with inCallback := true }
  obtain ⟨es, hl, he, happ⟩ := replayRecovered_log E
    { s with ui := (writeGuiEvents s.ui room).ui } { p with inCallback := true }
  unfold NamPlug.beginEvents at hafter ⊢
  dsimp only at hafter ⊢
  generalize replayRecovered E { s with ui := (writeGuiEvents s.ui room).ui }
    { p with inCallback := true } = r at *
  have hs := hframe.shared
  have hp := hframe.proc
  have hpend : r.1.pendingRestore = s.pendingRestore := by rw [hs]; rfl
  refine ⟨hafter, ?_, fun w t hw => h.txn w t (hpend ▸ hw), fun w hw ht => ?_⟩
  · rw [hl]
    refine h.log.append fun g hg => ?_
    obtain ⟨g', hg'⟩ := he _ hg
    cases hg'
  · cases h.awaited w (hpend ▸ hw) ht with
    | applied hw => exact .applied (by rw [hl]; exact List.mem_append_right _ hw)
    | ring hw hr hn => exact .ring (by rw [hs]; exact hw) hr (by rw [hs]; exact hn)
    | held hw hr hn => exact .held (by rw [hp]; exact hw) hr (by rw [hs]; exact hn)
    | @recovered c hw hr =>
      obtain hw | hw := List.mem_append.1 hw
      · exact .recovered (List.mem_append_left _ (by rw [hs]; exact hw)) hr
      · refine .applied ?_
        obtain ⟨txn, ht, hg⟩ := isRestore_iff.1 hr
        rw [hl, ← hg]
        exact List.mem_append_left _ (happ c hw txn ht)

/-- The end of a callback that does not acknowledge a parked restore. -/
theorem AckInv.endEvents {s : Shared} {p : Processor} (h : AckInv s (some p))
    (hg : ∀ r, s.pendingRestore = some r → r.txn = none → ∀ c ∈ held (some p),
      c.isRestore r.generation = true → s.cmdLastAck + p.resolved < r.seq) :
    AckInv (endEvents E s p).1 (some (endEvents E s p).2) := by
  have hcounts : Counts s p := h.counts
  have hend : AckInv (endDrain s p).1 (some (endDrain s p).2) := by
    refine h.move (u := some (endDrain s p).2) hcounts.endDrain rfl rfl fun r hr ht hw => ?_
    cases hw with
    | applied hw => exact .applied hw
    | ring hw hres hn => exact .ring hw hres hn
    | @held c hw hres hn =>
      have hack : (endDrain s p).1.cmdLastAck = s.cmdLastAck + p.resolved := by
        unfold endDrain
        cases p.candidate <;> rfl
      refine .held ?_ hres (hack ▸ hg r hr ht c hw hres)
      cases hcand : p.candidate with
      | none => simpa [held, endDrain, hcand] using hw
      | some d =>
        have hd := hcounts.noDeferred hcand
        simpa [held, endDrain, hcand, hd] using hw
    | recovered hw hres =>
      refine .recovered ?_ hres
      cases hcand : p.candidate <;> simpa [recovered, endDrain, hcand] using hw
  obtain ⟨r, hframe, heq⟩ := endEvents_frame E s p
  have hr := hend.paramFrame hframe
  have hafter := hcounts.endEvents E
  rw [heq] at hafter ⊢
  refine ⟨hafter, hr.log, hr.txn, fun w hw ht => ?_⟩
  cases hr.awaited w hw ht with
  | applied hw => exact .applied hw
  | ring hw hres hn => exact .ring hw hres hn
  | held hw hres hn => exact .held hw hres hn
  | recovered hw hres => exact .recovered hw hres

/-! ### The lifecycle -/

/-- A deactivation that does not drop an awaited restore. -/
theorem AckInv.deactivate {s : Shared} {p : Processor} (h : AckInv s (some p))
    (hc : p.inCallback = false)
    (hg : ∀ r, s.pendingRestore = some r → r.txn = none →
      ∀ c ∈ p.deferred.toList ++ p.recoveredCommands, c.isRestore r.generation = false) :
    AckInv (deactivate s p) none := by
  have hcounts : Counts s p := h.counts
  obtain ⟨hcand, hres⟩ := hcounts.idle hc
  refine h.move (hcounts.deactivate hc) ?_ ?_ fun r hr ht hw => ?_
  · cases hd : p.deferred <;> simp [NamPlug.deactivate, hd]
  · cases hd : p.deferred <;> simp [NamPlug.deactivate, hd]
  · have hg := hg r hr ht
    cases hw with
    | applied hw =>
      refine .applied ?_
      cases hd : p.deferred <;> simpa [NamPlug.deactivate, hd] using hw
    | @ring c a b hw hr hn =>
      refine .ring (c := c) (a := a) (b := b) ?_ hr ?_ <;> cases hd : p.deferred <;>
        simpa [NamPlug.deactivate, hd]
    | @held c hw hr hn =>
      obtain hw | hw := mem_held.1 hw
      · rw [hg c (by simp [hw])] at hr; cases hr
      · rw [hcand] at hw; cases hw
    | @recovered c hw hr =>
      obtain hw | hw := List.mem_append.1 hw
      · refine .recovered (c := c) ?_ hr
        cases hd : p.deferred <;> simpa [recovered, NamPlug.deactivate, hd] using hw
      · rw [hg c (List.mem_append_right _ hw)] at hr; cases hr

/-- The ring of a failed activation is recovered with its restores. -/
theorem AckInv.recoverRing {s t : Shared} (h : AckInv s none)
    (hr : t.ring = []) (hn : t.cmdNextSeq = s.cmdNextSeq)
    (ha : t.cmdLastAck = s.cmdLastAck + s.ring.length)
    (hc : t.recoveredCommands = s.ring.filter (!·.isLoadModel) ++ s.recoveredCommands)
    (hp : t.pendingRestore = s.pendingRestore) (hl : t.log = s.log) : AckInv t none := by
  refine h.move (h.counts.recoverRing hr hn ha) hl hp fun r _ _ hw => ?_
  cases hw with
  | applied hw => exact .applied (hl ▸ hw)
  | @ring c a b hw hres hn =>
    refine .recovered (c := c) ?_ hres
    simp only [recovered, hc, List.mem_append, List.mem_filter, hw]
    refine .inl (.inl ⟨by simp, ?_⟩)
    cases c <;> first | rfl | cases hres
  | held hw => cases hw
  | @recovered c hw hres =>
    refine .recovered (c := c) ?_ hres
    simp only [recovered, hc, List.mem_append] at hw ⊢
    exact hw.imp .inr id

theorem AckInv.activates {s : Shared} {cfg : AudioConfig} {faults : ActivateCall → Bool}
    {r : Shared × Option Processor} (h : AckInv s none) (k : Activates E s cfg faults r) :
    AckInv r.1 r.2 := by
  have hafter := h.counts.activates E k
  cases k with
  | noConsumer => exact h
  | early => exact h.recoverRing rfl rfl rfl rfl rfl rfl
  | adapt => exact h.recoverRing rfl rfl rfl rfl rfl rfl
  | @flush restore swap pipe a t hprep hf =>
    have ht := flushPendingModel_spec (s.published E cfg restore a) fun c => faults (.flush c)
    rw [hf] at ht
    exact ((h.sends (sends_published E s cfg restore a)).sends ht.sends).recoverRing rfl rfl rfl
      rfl rfl rfl
  | @ok restore swap pipe a t hprep hf =>
    have ht := flushPendingModel_spec (s.published E cfg restore a) fun c => faults (.flush c)
    rw [hf] at ht
    have h := (h.sends (sends_published E s cfg restore a)).sends ht.sends
    refine h.move hafter rfl rfl fun w _ _ hw => ?_
    cases hw with
    | applied hw => exact .applied hw
    | ring hw hres hn => exact .ring hw hres hn
    | held hw => cases hw
    | @recovered c hw hres =>
      refine .recovered (c := c) ?_ hres
      simpa [recovered, Assembly.processor] using hw

/-! ## The guard -/

/-- The restore the main thread sent and waits for. -/
def Shared.awaited (s : Shared) : Option PendingRestore := s.pendingRestore.filter (·.txn.isNone)

/-- The steps that keep the acknowledgement of the awaited restore from running ahead of it. -/
def AckGuard (x : Plugin) : Action → Prop
  | .main .flushPendingRestore =>
    -- not while the restore was acknowledged by a rollback and waits for its replay
    ∀ r ∈ x.shared.awaited, r.seq ≤ x.shared.cmdLastAck →
      ∀ c ∈ recovered x.shared x.proc, c.isRestore r.generation = false
  | .audio .endEvents =>
    -- the restore is not parked behind enough commands that were resolved out of order
    ∀ p ∈ x.proc, ∀ r ∈ x.shared.awaited, ∀ c ∈ held (some p), c.isRestore r.generation = true →
      x.shared.cmdLastAck + p.resolved < r.seq
  | .deactivate =>
    -- the restore is not dropped, parked or not replayed
    ∀ p ∈ x.proc, ∀ r ∈ x.shared.awaited, ∀ c ∈ p.deferred.toList ++ p.recoveredCommands,
      c.isRestore r.generation = false
  | _ => True

instance decidableAckGuard (x : Plugin) (a : Action) : Decidable (AckGuard x a) := by
  unfold AckGuard
  split <;> infer_instance

theorem mem_awaited {s : Shared} {r : PendingRestore} :
    r ∈ s.awaited ↔ s.pendingRestore = some r ∧ r.txn = none := by
  simp [Shared.awaited, Option.filter_eq_some_iff]

theorem AckInv.main {s : Shared} {o : Option Processor} (h : AckInv s o) (a : MainAction)
    (hg : AckGuard ⟨s, o⟩ (.main a)) : AckInv (mainStep E s a) o := by
  cases a with
  | restore v mode faults =>
    simp only [mainStep, Shared.commitRestore]
    split_ifs
    · exact h.sends (localCommit_sends s v mode)
    · exact h.restores (atomicCommit_spec E s v mode faults)
  | flushPendingRestore =>
    exact h.flushesRestore (fun r hr ht => hg r (mem_awaited.2 ⟨hr, ht⟩))
      (flushPendingRestore_spec s)
  | _ => exact h.sends (mainStep_sends E s rfl)

theorem AckInv.audio {s : Shared} {p : Processor} {a : AudioAction} {r : Shared × Processor}
    (h : AckInv s (some p)) (hg : AckGuard ⟨s, some p⟩ (.audio a))
    (hr : audioStep E s p a = some r) : AckInv r.1 (some r.2) := by
  cases a <;> simp only [audioStep] at hr
  case beginEvents room =>
    split_ifs at hr with hc
    obtain rfl := Option.some.inj hr
    exact h.beginEvents E room (by simpa using hc)
  case drain m =>
    split_ifs at hr with hc
    exact h.drains E hc (drainMove_spec E hr)
  case endEvents =>
    split_ifs at hr
    obtain rfl := Option.some.inj hr
    exact h.endEvents E fun r hr ht => hg p rfl r (mem_awaited.2 ⟨hr, ht⟩)
  case hostEvents es =>
    split_ifs at hr
    obtain rfl := Option.some.inj hr
    exact AckInv.paramFrame (r := (s, p)) h (hostEvents_frame E s p es)
  case flushInner room es =>
    split_ifs at hr
    obtain rfl := Option.some.inj hr
    exact AckInv.paramFrame (r := (s, p)) h (flushInner_frame E s p room es)
  case slimmable m =>
    split_ifs at hr
    obtain ⟨hf, hl⟩ := (slimmableMove_spec hr).frame
    exact AckInv.frame (r := (s, p)) (l := []) h hf hl (by simp)
  case signalSlimmableRebuild ch =>
    split_ifs at hr
    obtain rfl := Option.some.inj hr
    exact AckInv.frame (r := (s, p)) (l := []) h (signalSlimmableRebuild_frame s p ch) rfl (by simp)
  case reset =>
    split_ifs at hr
    obtain rfl := Option.some.inj hr
    exact AckInv.frame (r := (s, p)) (l := []) h (resetProcessor_frame s p) rfl (by simp)

theorem AckInv.step {x y : Plugin} {a : Action} (h : AckInv x.shared x.proc) (hg : AckGuard x a)
    (hy : step E x a = some y) : AckInv y.shared y.proc := by
  obtain ⟨s, o⟩ := x
  cases a with
  | main a =>
    obtain rfl := Option.some.inj hy
    exact h.main E a hg
  | audio a =>
    obtain ⟨p, hp, hy⟩ := Option.bind_eq_some_iff.1 hy
    obtain rfl : o = some p := hp
    obtain ⟨r, hr, rfl⟩ := Option.map_eq_some_iff.1 hy
    exact h.audio E hg hr
  | activate cfg faults =>
    simp only [NamPlug.step] at hy
    split_ifs at hy with hp
    obtain rfl := Option.some.inj hy
    obtain rfl : o = none := by simpa using hp
    exact h.activates E (activate_spec E s cfg faults)
  | deactivate =>
    cases o with
    | none => cases hy
    | some p =>
      simp only [NamPlug.step] at hy
      split_ifs at hy with hc
      obtain rfl := Option.some.inj hy
      exact h.deactivate (by simpa using hc) fun r hr ht => hg p rfl r (mem_awaited.2 ⟨hr, ht⟩)

theorem ackInv_init : AckInv (Shared.init E.toParamEngine) none :=
  ⟨rfl, trivial, fun r t h => (by cases h), fun r h => (by cases h)⟩

/-- In every run whose steps meet the guard, a restore was applied before it is published. -/
theorem published_applied {as : List Action} {x : Plugin}
    (hx : run (NamPlug.step E) (.init E.toParamEngine) as = some x)
    (hg : Guarded (NamPlug.step E) AckGuard (.init E.toParamEngine) as)
    {newer older : List Event} {g : Nat} (hl : x.shared.log = newer ++ .published g :: older) :
    .applied g ∈ older := by
  have h := run_invariant (I := fun x : Plugin => AckInv x.shared x.proc)
    (fun _ _ _ h hG hs => h.step E hG hs) (ackInv_init E) hg hx
  have hlog := h.log
  rw [hl] at hlog
  exact hlog.split

end

/-! ## Runs -/

/-- A preset with neither a model nor an impulse response. -/
def refPreset : ValidatedRestore := ⟨.initial refParamEngine, none, none, rfl⟩

/-- An input gain of 1 dB in a flush of the main thread. -/
def refGainFlush : Action := .main (.flush 0 [⟨0, natDatum 1⟩])

/-- Parameters, an impulse response, a preset and parameters again, in one ring. -/
def refMixedTraffic : List Action :=
  [.main (.handlePendingIr (refIr "first.wav") noFaults), refActivate, refGainFlush,
    .main (.handlePendingIr (refIr "second.wav") noFaults),
    .main (.restore refPreset .forPreset noFaults), refGainFlush]

/-- A callback that installs the impulse response and takes the preset off the ring. -/
def refMixedCallback : List Action :=
  [.audio (.beginEvents 0), .audio (.drain .applyParams), .audio (.drain .popCandidate),
    .audio (.drain .installCandidate), .audio (.drain .popCandidate)]

/-- A preset that is installed is published. -/
theorem published_applied_installed :
    .applied 1 ∈ (refRun (refMixedTraffic ++ refMixedCallback ++
      [.audio (.drain .installCandidate), .audio .endEvents, .main .flushPendingRestore])).shared.log
        ∧ (refRun (refMixedTraffic ++ refMixedCallback ++
      [.audio (.drain .installCandidate), .audio .endEvents,
        .main .flushPendingRestore])).shared.log.head? = some (.published 1) := by
  generalize has : refMixedTraffic ++ refMixedCallback ++
    [.audio (.drain .installCandidate), .audio .endEvents, .main .flushPendingRestore] = as
  have hhead : (refRun as).shared.log.head? = some (.published 1) := by subst has; decide +kernel
  obtain ⟨older, hl⟩ := List.head?_eq_some_iff.1 hhead
  have happ := published_applied refEngine (run_refRun (by subst has; decide +kernel))
    (by subst has; decide +kernel)
    (show (refRun as).shared.log = [] ++ Event.published 1 :: older from hl)
  exact ⟨hl ▸ List.mem_cons_of_mem _ happ, hhead⟩

/-- A preset that is parked is published too, once the parameters behind it are applied: three
commands are resolved, and the preset is the third. -/
theorem published_parked :
    run (NamPlug.step refEngine) (.init refParamEngine) (refMixedTraffic ++ refMixedCallback ++
      [.audio (.drain .applyParams), .audio .endEvents, .main .flushPendingRestore]) ≠ none ∧
    (refRun (refMixedTraffic ++ refMixedCallback ++
      [.audio (.drain .applyParams), .audio .endEvents,
        .main .flushPendingRestore])).shared.log.head? = some (.published 1) ∧
    .applied 1 ∉ (refRun (refMixedTraffic ++ refMixedCallback ++
      [.audio (.drain .applyParams), .audio .endEvents,
        .main .flushPendingRestore])).shared.log := by
  refine ⟨?_, ?_, ?_⟩ <;> decide +kernel

end NamPlug
