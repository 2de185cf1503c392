import Mathlib.Tactic.Common

/-!
# Programs that look at a changing world

A program looks at the world one look at a time and stops with a result or an error. The world may
be another one at each look (`run`, over an evolution) or stay as it is (`still`); in a world that
stays the two agree (`run_const`). A run of a sequence is a run of its first part and one of the
rest (`run_bind_ok`), so facts about a run say which part looked when.
-/

universe u v w

inductive Probe (W : Type u) (ε : Type v) (α : Type w) where
  | done (r : Except ε α)
  | look (next : W → Probe W ε α)

namespace Probe

variable {W : Type u} {ε δ : Type v} {α β : Type w}

protected def bind : Probe W ε α → (α → Probe W ε β) → Probe W ε β
  | done (.ok a), f => f a
  | done (.error e), _ => done (.error e)
  | look next, f => look fun F => (next F).bind f

instance : Monad (Probe W ε) where
  pure a := done (.ok a)
  bind := Probe.bind

theorem map_id (p : Probe W ε α) : id <$> p = p := by
  induction p with
  | done r => cases r <;> rfl
  | look next ih => exact congrArg look (funext ih)

theorem assoc {γ : Type w} (p : Probe W ε α) (f : α → Probe W ε β) (g : β → Probe W ε γ) :
    p >>= f >>= g = p >>= fun a => f a >>= g := by
  induction p with
  | done r => cases r <;> rfl
  | look next ih => exact congrArg look (funext ih)

instance : LawfulMonad (Probe W ε) := .mk' _ map_id (fun _ _ => rfl) assoc

/-- Stop with an error. -/
def fail (e : ε) : Probe W ε α := done (.error e)

/-- One look. -/
def ask (f : W → Except ε α) : Probe W ε α := look fun F => done (f F)

/-- The result or the error, as a result. -/
def attempt : Probe W ε α → Probe W δ (Except ε α)
  | done r => done (.ok r)
  | look next => look fun F => (next F).attempt

def mapError (f : ε → δ) : Probe W ε α → Probe W δ α
  | done r => done (r.mapError f)
  | look next => look fun F => (next F).mapError f

/-! ## Runs -/

/-- What the program gives in an evolution of the world from a time on, and the time after its last
look. -/
def run (world : Nat → W) : Probe W ε α → Nat → Except ε α × Nat
  | done r, t => (r, t)
  | look next, t => (next (world t)).run world (t + 1)

/-- What the program gives in a world that stays as it is. -/
def still (F : W) : Probe W ε α → Except ε α
  | done r => r
  | look next => (next F).still F

/-- In a world that stays, the time plays no part. -/
theorem run_const (F : W) (p : Probe W ε α) (t : Nat) : (p.run (fun _ => F) t).1 = p.still F := by
  induction p generalizing t with
  | done r => rfl
  | look next ih => exact ih F (t + 1)

/-! ## What a run went through -/

variable {world : Nat → W} {t t' : Nat}

@[simp] theorem run_pure (a : α) :
    (pure a : Probe W ε α).run world t = (.ok a, t) := rfl

@[simp] theorem run_fail (e : ε) : (fail e : Probe W ε α).run world t = (.error e, t) := rfl

@[simp] theorem run_ask (f : W → Except ε α) :
    (ask f).run world t = (f (world t), t + 1) := rfl

theorem run_bind (p : Probe W ε α) (f : α → Probe W ε β) (t : Nat) :
    (p >>= f).run world t = match p.run world t with
      | (.ok a, t₁) => (f a).run world t₁
      | (.error e, t₁) => (.error e, t₁) := by
  induction p generalizing t with
  | done r => cases r <;> rfl
  | look next ih => exact ih (world t) (t + 1)

/-- A sequence that gives a result: its first part gave one, and the rest went on from there. -/
theorem run_bind_ok {p : Probe W ε α} {f : α → Probe W ε β} {b : β} :
    (p >>= f).run world t = (.ok b, t') ↔
      ∃ a t₁, p.run world t = (.ok a, t₁) ∧ (f a).run world t₁ = (.ok b, t') := by
  rw [run_bind]
  rcases p.run world t with ⟨_ | a, t₁⟩ <;> simp

@[simp] theorem run_attempt (p : Probe W ε α) (t : Nat) :
    (p.attempt : Probe W δ (Except ε α)).run world t =
      (.ok (p.run world t).1, (p.run world t).2) := by
  induction p generalizing t with
  | done r => rfl
  | look next ih => exact ih (world t) (t + 1)

@[simp] theorem run_mapError (f : ε → δ) (p : Probe W ε α) (t : Nat) :
    (p.mapError f).run world t = ((p.run world t).1.mapError f, (p.run world t).2) := by
  induction p generalizing t with
  | done r => rfl
  | look next ih => exact ih (world t) (t + 1)

theorem map_ok {f : α → β} {r : Except ε α} {b : β} :
    r.map f = .ok b ↔ ∃ a, r = .ok a ∧ f a = b := by
  cases r <;> simp [Except.map]

theorem bind_ok {f : α → Except ε β} {r : Except ε α} {b : β} :
    (r >>= f) = .ok b ↔ ∃ a, r = .ok a ∧ f a = .ok b := by
  cases r <;> simp [Bind.bind, Except.bind]

theorem mapError_ok {f : ε → δ} {r : Except ε α} {a : α} : r.mapError f = .ok a ↔ r = .ok a := by
  cases r <;> simp [Except.mapError]

@[simp] theorem run_pure_ok {a b : α} :
    (pure a : Probe W ε α).run world t = (.ok b, t') ↔ a = b ∧ t = t' := by
  rw [run_pure, Prod.mk.injEq, Except.ok.injEq]

@[simp] theorem run_fail_ok {e : ε} {a : α} :
    (fail e : Probe W ε α).run world t = (.ok a, t') ↔ False := by
  simp

theorem run_ask_ok {f : W → Except ε α} {a : α} :
    (ask f).run world t = (.ok a, t') ↔ f (world t) = .ok a ∧ t + 1 = t' := by
  rw [run_ask, Prod.mk.injEq]

theorem run_done_ok {r : Except ε α} {a : α} :
    (done r : Probe W ε α).run world t = (.ok a, t') ↔ r = .ok a ∧ t = t' := by
  rw [run, Prod.mk.injEq]

theorem run_mapError_ok {f : ε → δ} {p : Probe W ε α} {a : α} :
    (p.mapError f).run world t = (.ok a, t') ↔ p.run world t = (.ok a, t') := by
  rw [run_mapError, Prod.mk.injEq, mapError_ok, ← Prod.mk.injEq]

theorem run_attempt_ok {p : Probe W ε α} {r : Except ε α} :
    (p.attempt : Probe W δ (Except ε α)).run world t = (.ok r, t') ↔ p.run world t = (r, t') := by
  rw [run_attempt, Prod.mk.injEq, Except.ok.injEq, ← Prod.mk.injEq]

/-! ## A world that stays -/

theorem still_ok {F : W} {p : Probe W ε α} {a : α} :
    p.still F = .ok a ↔ ∃ t', p.run (fun _ => F) 0 = (.ok a, t') := by
  rw [← run_const F p 0]
  exact ⟨fun h => ⟨_, Prod.ext h rfl⟩, fun ⟨_, h⟩ => congrArg Prod.fst h⟩

variable {F : W}

@[simp] theorem still_pure (a : α) : (pure a : Probe W ε α).still F = .ok a := rfl

@[simp] theorem still_fail (e : ε) : (fail e : Probe W ε α).still F = .error e := rfl

@[simp] theorem still_ask (f : W → Except ε α) : (ask f).still F = f F := rfl

@[simp] theorem still_bind (p : Probe W ε α) (f : α → Probe W ε β) :
    (p >>= f).still F = (p.still F).bind fun a => (f a).still F := by
  induction p with
  | done r => cases r <;> rfl
  | look next ih => exact ih F

@[simp] theorem still_attempt (p : Probe W ε α) :
    (p.attempt : Probe W δ (Except ε α)).still F = .ok (p.still F) := by
  induction p with
  | done r => rfl
  | look next ih => exact ih F

@[simp] theorem still_mapError (f : ε → δ) (p : Probe W ε α) :
    (p.mapError f).still F = (p.still F).mapError f := by
  induction p with
  | done r => rfl
  | look next ih => exact ih F

end Probe
