import Mathlib.Logic.Basic

/-!
# Runs of a partial step function

`run step s as` takes the actions `as` one after the other and fails with the first that does not
apply. `Guarded step G s as` says that every step the run takes meets the guard `G`, a condition on
the state before the step and its action. An invariant that guarded steps keep holds in every state
a guarded run reaches (`run_invariant`); a reflexive and transitive relation that every step
respects holds between the ends of a run (`run_relation`). Where the guard is exact, all states of a
run have a property just if the run is guarded (`always_iff_guarded`).

Where every step makes a measure smaller, a run is no longer than the measure at its start
(`run_length_le`).

A step may also give something off (`emit`). Where a state stands for a value and every step takes the
value on by what it gives off, a run does (`run_simulates`).
-/

namespace Machine

variable {σ α : Type*} {step : σ → α → Option σ} {G : σ → α → Prop}

/-- The state a list of actions leads to. -/
def run (step : σ → α → Option σ) : σ → List α → Option σ
  | s, [] => some s
  | s, a :: as => (step s a).bind (run step · as)

/-- Every step of a run meets the guard. -/
def Guarded (step : σ → α → Option σ) (G : σ → α → Prop) : σ → List α → Prop
  | _, [] => True
  | s, a :: as => G s a ∧ ∀ t, step s a = some t → Guarded step G t as

@[simp] theorem run_nil (s : σ) : run step s [] = some s := rfl

@[simp] theorem guarded_nil (s : σ) : Guarded step G s [] := trivial

theorem run_cons {s t : σ} {a : α} {as : List α} :
    run step s (a :: as) = some t ↔ ∃ u, step s a = some u ∧ run step u as = some t :=
  Option.bind_eq_some_iff

theorem run_append {s t : σ} {as bs : List α} :
    run step s (as ++ bs) = some t ↔ ∃ u, run step s as = some u ∧ run step u bs = some t := by
  induction as generalizing s with
  | nil => simp
  | cons a as ih =>
    simp only [List.cons_append, run_cons, ih]
    exact ⟨fun ⟨u, h1, v, h2, h3⟩ => ⟨v, ⟨u, h1, h2⟩, h3⟩,
      fun ⟨v, ⟨u, h1, h2⟩, h3⟩ => ⟨u, h1, v, h2, h3⟩⟩

/-- Actions of one kind are taken by the steps of that kind. -/
theorem run_map {β : Type*} (f : β → α) (s : σ) (bs : List β) :
    run step s (bs.map f) = run (fun s b => step s (f b)) s bs := by
  induction bs generalizing s with
  | nil => rfl
  | cons b bs ih =>
    simp only [List.map_cons, run]
    exact congrArg _ (funext ih)

/-- One step of a guarded run of more than none. -/
theorem guarded_cons_of {s t : σ} {a : α} {as : List α} (hs : step s a = some t) (hG : G s a)
    (ht : Guarded step G t as) : Guarded step G s (a :: as) :=
  ⟨hG, fun _ h => Option.some.inj (hs ▸ h) ▸ ht⟩

instance decidableGuarded [∀ s a, Decidable (G s a)] :
    ∀ s as, Decidable (Guarded step G s as)
  | _, [] => isTrue trivial
  | s, a :: as =>
    match h : step s a with
    | none => decidable_of_iff (G s a)
        ⟨fun hg => ⟨hg, fun _ ht => by rw [h] at ht; cases ht⟩, And.left⟩
    | some t =>
      have := decidableGuarded t as
      decidable_of_iff (G s a ∧ Guarded step G t as)
        ⟨fun hg => guarded_cons_of h hg.1 hg.2, fun hg => ⟨hg.1, hg.2 t h⟩⟩

theorem Guarded.of_forall (hG : ∀ s a, G s a) (s : σ) (as : List α) : Guarded step G s as := by
  induction as generalizing s with
  | nil => trivial
  | cons a as ih => exact ⟨hG s a, fun t _ => ih t⟩

/-- A property of all actions of a run adds to its guard. -/
theorem Guarded.and_forall {P : α → Prop} {s : σ} {as : List α} (h : Guarded step G s as)
    (hP : ∀ a ∈ as, P a) : Guarded step (fun s a => P a ∧ G s a) s as := by
  induction as generalizing s with
  | nil => trivial
  | cons a as ih =>
    exact ⟨⟨hP a List.mem_cons_self, h.1⟩,
      fun t ht => ih (h.2 t ht) fun b hb => hP b (List.mem_cons_of_mem a hb)⟩

/-- What guarded steps keep holds wherever a guarded run leads. -/
theorem run_invariant {I : σ → Prop}
    (hstep : ∀ s a t, I s → G s a → step s a = some t → I t) {s t : σ} {as : List α}
    (hI : I s) (hG : Guarded step G s as) (h : run step s as = some t) : I t := by
  induction as generalizing s with
  | nil => exact Option.some.inj h ▸ hI
  | cons a as ih =>
    obtain ⟨u, hu, h⟩ := run_cons.1 h
    exact ih (hstep s a u hI hG.1 hu) (hG.2 u hu) h

/-- What every step keeps holds wherever a run leads. -/
theorem run_always {I : σ → Prop} (hstep : ∀ s a t, I s → step s a = some t → I t) {s t : σ}
    {as : List α} (hI : I s) (h : run step s as = some t) : I t := by
  induction as generalizing s with
  | nil => exact Option.some.inj h ▸ hI
  | cons a as ih =>
    obtain ⟨u, hu, h⟩ := run_cons.1 h
    exact ih (hstep s a u hI hu) h

/-- A relation every step respects, under an invariant, holds between the ends of a run. -/
theorem run_relation {I : σ → Prop} {R : σ → σ → Prop} (hrefl : ∀ s, R s s)
    (htrans : ∀ s t u, R s t → R t u → R s u)
    (hstep : ∀ s a t, I s → G s a → step s a = some t → I t ∧ R s t) {s t : σ} {as : List α}
    (hI : I s) (hG : Guarded step G s as) (h : run step s as = some t) : R s t := by
  induction as generalizing s with
  | nil => exact Option.some.inj h ▸ hrefl s
  | cons a as ih =>
    obtain ⟨u, hu, h⟩ := run_cons.1 h
    obtain ⟨hIu, hR⟩ := hstep s a u hI hG.1 hu
    exact htrans s u t hR (ih hIu (hG.2 u hu) h)

/-- An invariant `P` that guarded steps keep and that no other step can end with: all the states of a
run have the property `Q` exactly if the run is guarded. -/
theorem always_iff_guarded {P Q : σ → Prop} (hPQ : ∀ s, P s → Q s)
    (hback : ∀ s a t, P s → step s a = some t → Q t → G s a)
    (hforth : ∀ s a t, P s → step s a = some t → G s a → P t) {s t : σ} {as : List α} (hP : P s)
    (h : run step s as = some t) :
    (∀ bs u, bs <+: as → run step s bs = some u → Q u) ↔ Guarded step G s as := by
  induction as generalizing s with
  | nil =>
    refine ⟨fun _ => trivial, fun _ bs u hbs hu => ?_⟩
    obtain rfl := List.prefix_nil.1 hbs
    exact Option.some.inj hu ▸ hPQ s hP
  | cons a as ih =>
    obtain ⟨v, hv, hrest⟩ := run_cons.1 h
    constructor
    · intro hall
      have hG := hback s a v hP hv (hall [a] v ⟨as, rfl⟩ (run_cons.2 ⟨v, hv, rfl⟩))
      refine guarded_cons_of hv hG ((ih (hforth s a v hP hv hG) hrest).1 fun bs u hbs hu => ?_)
      exact hall (a :: bs) u (List.cons_prefix_cons.2 ⟨rfl, hbs⟩) (run_cons.2 ⟨v, hv, hu⟩)
    · intro hG bs u hbs hu
      cases bs with
      | nil => exact Option.some.inj hu ▸ hPQ s hP
      | cons b bs =>
        obtain ⟨rfl, hpre⟩ := List.cons_prefix_cons.1 hbs
        obtain ⟨w, hw, hu⟩ := run_cons.1 hu
        obtain rfl := Option.some.inj (hv.symm.trans hw)
        exact (ih (hforth s b v hP hv hG.1) hrest).2 (hG.2 v hv) bs u hpre hu

/-! ## Termination -/

theorem run_length_le {μ : σ → Nat} (hstep : ∀ s a t, step s a = some t → μ t < μ s) {s t : σ}
    {as : List α} (h : run step s as = some t) : as.length + μ t ≤ μ s := by
  induction as generalizing s with
  | nil => exact Option.some.inj h ▸ Nat.le_of_eq (Nat.zero_add _)
  | cons a as ih =>
    obtain ⟨u, hu, h⟩ := run_cons.1 h
    have h1 := hstep s a u hu
    have h2 := ih h
    rw [List.length_cons]
    omega

/-! ## Refinement -/

/-- What the steps of a run give off, in their order. -/
def emitted {β : Type*} (step : σ → α → Option σ) (emit : σ → α → List β) : σ → List α → List β
  | _, [] => []
  | s, a :: as => emit s a ++ ((step s a).map (emitted step emit · as)).getD []

theorem emitted_append {β : Type*} {emit : σ → α → List β} {s t : σ} {as : List α}
    (h : run step s as = some t) (bs : List α) :
    emitted step emit s (as ++ bs) = emitted step emit s as ++ emitted step emit t bs := by
  induction as generalizing s with
  | nil => exact Option.some.inj h ▸ rfl
  | cons a as ih =>
    obtain ⟨u, hu, h⟩ := run_cons.1 h
    simp only [List.cons_append, emitted, hu, Option.map_some, Option.getD_some, ih h,
      List.append_assoc]

/-- The relation `R` between states and the values they stand for is a simulation: a value is taken
on by what the steps give off. -/
theorem run_simulates {β γ : Type*} {R : σ → γ → Prop} {apply : γ → β → γ} {emit : σ → α → List β}
    (hstep : ∀ s a t c, R s c → G s a → step s a = some t → R t ((emit s a).foldl apply c))
    {s t : σ} {as : List α} {c : γ} (hR : R s c) (hG : Guarded step G s as)
    (h : run step s as = some t) : R t ((emitted step emit s as).foldl apply c) := by
  induction as generalizing s c with
  | nil => exact Option.some.inj h ▸ hR
  | cons a as ih =>
    obtain ⟨u, hu, h⟩ := run_cons.1 h
    rw [emitted, hu, Option.map_some, Option.getD_some, List.foldl_append]
    exact ih (hstep s a u c hR hG.1 hu) (hG.2 u hu) h

end Machine
