import Mathlib.Data.List.Count

/-!
# Numbers from a counter

A counter hands out the numbers `1, 2, ...`, and a list holds those that are in use. `Sound n l`: what
is held was handed out, and held once. Steps that hold numbers on, drop them or take the next ones
(`Moves`) keep that (`Sound.moves`), and a number that is not held any more is never held again
(`Spent.moves`).
-/

namespace Ticket

/-- How often a number is handed out as the counter goes from `n` to `n'`. -/
def issued (n n' g : Nat) : Nat := if n < g ∧ g ≤ n' then 1 else 0

/-- Every number held was handed out, and is held once. -/
def Sound (n : Nat) (l : List Nat) : Prop := ∀ g, l.count g ≤ issued 0 n g

/-- What is held afterwards was held before, or handed out in between. -/
structure Moves (n : Nat) (l : List Nat) (n' : Nat) (l' : List Nat) : Prop where
  le : n ≤ n'
  count : ∀ g, l'.count g ≤ l.count g + issued n n' g

/-- A number that was handed out and is not held. -/
structure Spent (n : Nat) (l : List Nat) (g : Nat) : Prop where
  le : g ≤ n
  count : l.count g = 0

theorem issued_add {n n' n'' : Nat} (h : n ≤ n') (h' : n' ≤ n'') (g : Nat) :
    issued n n' g + issued n' n'' g = issued n n'' g := by
  unfold issued
  split_ifs <;> omega

theorem issued_le_one (n n' g : Nat) : issued n n' g ≤ 1 := by
  unfold issued
  split <;> omega

/-- The next number. -/
theorem issued_succ (n g : Nat) : issued n (n + 1) g = [n + 1].count g := by
  unfold issued
  by_cases h : n + 1 = g
  · subst h
    simp
  · rw [List.count_singleton, if_neg (by omega), if_neg (by simpa using h)]

theorem Sound.nil (n : Nat) : Sound n [] := fun g => by simp

theorem Sound.le_one {n : Nat} {l : List Nat} (h : Sound n l) (g : Nat) : l.count g ≤ 1 :=
  Nat.le_trans (h g) (issued_le_one 0 n g)

theorem Sound.bounds {n : Nat} {l : List Nat} (h : Sound n l) {g : Nat} (hg : g ∈ l) :
    0 < g ∧ g ≤ n := by
  have hpos := List.count_pos_iff.2 hg
  have := h g
  unfold issued at this
  split at this
  · assumption
  · omega

theorem Moves.refl (n : Nat) (l : List Nat) : Moves n l n l :=
  ⟨Nat.le_refl n, fun _ => Nat.le_add_right ..⟩

theorem Moves.trans {n n' n'' : Nat} {l l' l'' : List Nat} (h : Moves n l n' l')
    (k : Moves n' l' n'' l'') : Moves n l n'' l'' where
  le := Nat.le_trans h.le k.le
  count g := by
    have h1 := h.count g
    have h2 := k.count g
    have h3 := issued_add h.le k.le g
    omega

/-- Nothing is handed out. -/
theorem Moves.of_le {n : Nat} {l l' : List Nat} (h : ∀ g, l'.count g ≤ l.count g) :
    Moves n l n l' :=
  ⟨Nat.le_refl n, fun g => Nat.le_trans (h g) (Nat.le_add_right ..)⟩

/-- The next number is handed out. -/
theorem Moves.succ {n : Nat} {l l' : List Nat}
    (h : ∀ g, l'.count g ≤ l.count g + [n + 1].count g) : Moves n l (n + 1) l' :=
  ⟨Nat.le_succ n, fun g => by rw [issued_succ]; exact h g⟩

theorem Sound.moves {n n' : Nat} {l l' : List Nat} (h : Sound n l) (k : Moves n l n' l') :
    Sound n' l' := by
  intro g
  have h1 := h g
  have h2 := k.count g
  have h3 := issued_add (Nat.zero_le n) k.le g
  omega

theorem Spent.moves {n n' g : Nat} {l l' : List Nat} (h : Spent n l g) (k : Moves n l n' l') :
    Spent n' l' g where
  le := Nat.le_trans h.le k.le
  count := by
    have h1 := h.count
    have h2 := k.count g
    have h3 : issued n n' g = 0 := if_neg fun hg => absurd h.le (by omega)
    omega

/-- A number that was held and is let go is spent. -/
theorem Sound.spent {n n' g : Nat} {l l' : List Nat} (h : Sound n l) (hle : n ≤ n')
    (hg : l'.count g + 1 ≤ l.count g) : Spent n' l' g := by
  have h1 := h.le_one g
  have h2 := h.bounds (List.count_pos_iff.1 (by omega : 0 < l.count g))
  exact ⟨by omega, by omega⟩

/-- Zero is never handed out. -/
theorem Sound.spent_zero {n : Nat} {l : List Nat} (h : Sound n l) : Spent n l 0 :=
  ⟨Nat.zero_le n, Nat.le_zero.1 (h 0)⟩

/-- Entries of a list whose numbers are all held once are told apart by them. -/
theorem eq_of_filterMap {α : Type*} {f : α → Option Nat} {l : List α} {g : Nat}
    (h : (l.filterMap f).count g ≤ 1) {a b : α} (ha : a ∈ l) (hb : b ∈ l) (hfa : f a = some g)
    (hfb : f b = some g) : a = b := by
  induction l with
  | nil => cases ha
  | cons c l ih =>
    have hmem : ∀ x ∈ l, f x = some g → 0 < (l.filterMap f).count g := fun x hx hf =>
      List.count_pos_iff.2 (List.mem_filterMap.2 ⟨x, hx, hf⟩)
    rw [List.filterMap_cons] at h
    rcases List.mem_cons.1 ha with hac | hal
    · rcases List.mem_cons.1 hb with hbc | hbl
      · rw [hac, hbc]
      · have := hmem b hbl hfb
        simp only [← hac, hfa, List.count_cons_self] at h
        omega
    · rcases List.mem_cons.1 hb with hbc | hbl
      · have := hmem a hal hfa
        simp only [← hbc, hfb, List.count_cons_self] at h
        omega
      · refine ih ?_ hal hbl
        split at h
        · exact h
        · exact Nat.le_trans List.count_le_count_cons h

end Ticket
