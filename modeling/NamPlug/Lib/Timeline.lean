import Mathlib.Algebra.GroupWithZero.Nat
import Mathlib.Tactic.Common

/-!
# Tiled time

`Tiles a b l`: the spans `l` (start and length) cover `[a, b)` one after the other, none empty.
`Tiles.append` joins two tilings.

`prefixMax m ts` is the list of the running maxima of `ts` from `m` on (`prefixMax_getElem`,
`prefixMax_append`): the times at which a sequential consumer that never goes back in time gets to
the items of a list with the wanted times `ts`.
-/

namespace Timeline

/-! ## Tilings -/

/-- The spans `l` cover `[a, b)` in order. -/
def Tiles (a b : Nat) : List (Nat × Nat) → Prop
  | [] => a = b
  | s :: l => s.1 = a ∧ 0 < s.2 ∧ Tiles (a + s.2) b l

theorem Tiles.append {b c : Nat} {m : List (Nat × Nat)} (hm : Tiles b c m) :
    ∀ {a : Nat} {l : List (Nat × Nat)}, Tiles a b l → Tiles a c (l ++ m)
  | _, [], h => by cases h; exact hm
  | _, _ :: _, h => ⟨h.1, h.2.1, Tiles.append hm h.2.2⟩

theorem Tiles.single {a n : Nat} (h : 0 < n) : Tiles a (a + n) [(a, n)] := ⟨rfl, h, rfl⟩

theorem Tiles.le : ∀ {a b : Nat} {l : List (Nat × Nat)}, Tiles a b l → a ≤ b
  | _, _, [], h => Nat.le_of_eq h
  | _, _, _ :: _, h => Nat.le_trans (Nat.le_add_right _ _) h.2.2.le

theorem Tiles.mem_bounds {s : Nat × Nat} :
    ∀ {a b : Nat} {l : List (Nat × Nat)}, Tiles a b l → s ∈ l → a ≤ s.1 ∧ s.1 + s.2 ≤ b
  | _, _, _ :: _, ⟨h1, _, h3⟩, hs => by
    rcases List.mem_cons.1 hs with rfl | hs
    · exact ⟨by omega, h1 ▸ h3.le⟩
    · obtain ⟨ha, hb⟩ := h3.mem_bounds hs
      exact ⟨by omega, hb⟩

/-- The spans of a tiling add up to its length. -/
theorem Tiles.sum : ∀ {a b : Nat} {l : List (Nat × Nat)}, Tiles a b l →
    a + (l.map (·.2)).sum = b
  | _, _, [], h => by simpa [Tiles] using h
  | _, _, s :: l, ⟨_, _, h⟩ => by
    have := h.sum
    simp only [List.map_cons, List.sum_cons]
    omega

/-! ## Running maxima -/

/-- The running maxima of `ts`, starting from `m`. -/
def prefixMax (m : Nat) : List Nat → List Nat
  | [] => []
  | t :: ts => max m t :: prefixMax (max m t) ts

/-- The largest of `m` and `ts`. -/
def maxFrom (m : Nat) (ts : List Nat) : Nat := ts.foldl max m

@[simp] theorem maxFrom_nil (m : Nat) : maxFrom m [] = m := rfl

@[simp] theorem maxFrom_cons (m t : Nat) (ts : List Nat) :
    maxFrom m (t :: ts) = maxFrom (max m t) ts := rfl

theorem maxFrom_append (m : Nat) (ts us : List Nat) :
    maxFrom m (ts ++ us) = maxFrom (maxFrom m ts) us := List.foldl_append

theorem le_maxFrom : ∀ (ts : List Nat) (m : Nat), m ≤ maxFrom m ts
  | [], _ => Nat.le_refl _
  | t :: ts, m => Nat.le_trans (Nat.le_max_left m t) (le_maxFrom ts (max m t))

theorem maxFrom_le {ts : List Nat} {b : Nat} :
    ∀ {m : Nat}, m ≤ b → (∀ t ∈ ts, t ≤ b) → maxFrom m ts ≤ b := by
  induction ts with
  | nil =>
    intro m hm _
    exact hm
  | cons t ts ih =>
    intro m hm h
    exact ih (Nat.max_le.2 ⟨hm, h t (.head _)⟩) fun u hu => h u (.tail _ hu)

@[simp] theorem length_prefixMax : ∀ (ts : List Nat) (m : Nat), (prefixMax m ts).length = ts.length
  | [], _ => rfl
  | t :: ts, m => congrArg (· + 1) (length_prefixMax ts (max m t))

theorem prefixMax_append (us : List Nat) : ∀ (ts : List Nat) (m : Nat),
    prefixMax m (ts ++ us) = prefixMax m ts ++ prefixMax (maxFrom m ts) us
  | [], _ => rfl
  | t :: ts, m => congrArg (max m t :: ·) (prefixMax_append us ts (max m t))

theorem prefixMax_getElem? : ∀ (ts : List Nat) (m i : Nat),
    i < ts.length → (prefixMax m ts)[i]? = some (maxFrom m (ts.take (i + 1)))
  | t :: ts, m, 0, _ => rfl
  | t :: ts, m, i + 1, h => by
    have hi : i < ts.length := by simpa using h
    simpa [prefixMax] using prefixMax_getElem? ts (max m t) i hi

/-- Items in order of time are reached on time. -/
theorem prefixMax_of_sorted : ∀ {ts : List Nat} {m : Nat}, (m :: ts).Pairwise (· ≤ ·) →
    prefixMax m ts = ts
  | [], _, _ => rfl
  | t :: ts, m, h => by
    obtain ⟨h1, h2⟩ := List.pairwise_cons.1 h
    have ht : max m t = t := Nat.max_eq_right (h1 t (.head _))
    rw [prefixMax, ht, prefixMax_of_sorted h2]

/-- Up to its maximum, a running maximum is not cut off. -/
theorem prefixMax_min_of_le : ∀ {ts : List Nat} {m N : Nat}, maxFrom m ts ≤ N →
    (prefixMax m ts).map (min N) = prefixMax m ts
  | [], _, _, _ => rfl
  | t :: ts, m, N, h => by
    have ht : max m t ≤ N := Nat.le_trans (le_maxFrom ts _) h
    have hrest : (prefixMax (max m t) ts).map (min N) = prefixMax (max m t) ts :=
      prefixMax_min_of_le h
    rw [prefixMax, List.map_cons, Nat.min_eq_right ht, hrest]

/-- Once the running maximum is past `N` it is cut off there for good. -/
theorem prefixMax_min_of_ge : ∀ {ts : List Nat} {m N : Nat}, (∀ t ∈ ts.head?, N ≤ max m t) →
    (prefixMax m ts).map (min N) = List.replicate ts.length N
  | [], _, _, _ => rfl
  | t :: ts, m, N, h => by
    have ht : N ≤ max m t := h t rfl
    rw [prefixMax, List.map_cons, Nat.min_eq_left ht,
      prefixMax_min_of_ge fun u _ => Nat.le_trans ht (Nat.le_max_left _ _)]
    rfl

end Timeline
