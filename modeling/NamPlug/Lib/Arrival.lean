import Mathlib.Data.List.Pairwise
import Mathlib.Order.Basic

/-!
# Arrival of the newest value

A receiver has a value in place. Others come to it one after the other, and it takes each as it
comes: `line` is the value in place with the ones on the way, in the order of arrival. Still others
wait in `slots` and are not on the way yet. `InOrder line slots adopted`: no value on the way is
older than one before it, and none of the values adopted so far is newer than all that are left. So
an arrival never puts an older value in place (`InOrder.head_le`), and once nothing waits and nothing
is on the way the newest value that was adopted is in place (`InOrder.arrived`). Newer is greater.
-/

namespace Arrival

variable {α : Type*}

/-! ## Progress of a line -/

/-- `ys` is what is left of `xs` after values other than the last are gone. -/
structure Advances (xs ys : List α) : Prop where
  sublist : ys.Sublist xs
  last : ys.getLast? = xs.getLast?

theorem Advances.refl (xs : List α) : Advances xs xs := ⟨List.Sublist.refl xs, rfl⟩

theorem Advances.trans {xs ys zs : List α} (h : Advances xs ys) (k : Advances ys zs) :
    Advances xs zs := ⟨k.sublist.trans h.sublist, k.last.trans h.last⟩

/-- Values before others are gone. -/
theorem Advances.append_left (xs : List α) {ys zs : List α} (h : Advances ys zs) :
    Advances (xs ++ ys) (xs ++ zs) where
  sublist := (List.Sublist.refl xs).append h.sublist
  last := by rw [List.getLast?_append, List.getLast?_append, h.last]

theorem Advances.append_right {xs ys : List α} (h : Advances xs ys) (zs : List α) :
    Advances (xs ++ zs) (ys ++ zs) where
  sublist := h.sublist.append (List.Sublist.refl zs)
  last := by rw [List.getLast?_append, List.getLast?_append, h.last]

/-- The value in place gives way to the one that comes. -/
theorem Advances.arrive (a b : α) (l : List α) : Advances (a :: b :: l) (b :: l) :=
  ⟨List.sublist_cons_self a _, by rw [List.getLast?_cons_cons]⟩

/-- The values of `xs` come, one after the other. -/
theorem Advances.arrivals (a : α) (xs : List α) : Advances (a :: xs) [xs.getLastD a] := by
  induction xs generalizing a with
  | nil => exact .refl [a]
  | cons b xs ih =>
    rw [List.getLastD_cons]
    exact (Advances.arrive a b xs).trans (ih b)

variable [Preorder α]

/-! ## As new values elsewhere -/

/-- For every value of `xs` one of `ys` is as new. -/
def Covers (xs ys : List α) : Prop := ∀ x ∈ xs, ∃ y ∈ ys, x ≤ y

instance [DecidableLE α] (xs ys : List α) : Decidable (Covers xs ys) :=
  inferInstanceAs (Decidable (∀ x ∈ xs, ∃ y ∈ ys, x ≤ y))

theorem Covers.of_subset {xs ys : List α} (h : xs ⊆ ys) : Covers xs ys :=
  fun x hx => ⟨x, h hx, le_refl x⟩

theorem Covers.trans {xs ys zs : List α} (h : Covers xs ys) (k : Covers ys zs) :
    Covers xs zs := by
  intro x hx
  obtain ⟨y, hy, hxy⟩ := h x hx
  obtain ⟨z, hz, hyz⟩ := k y hy
  exact ⟨z, hz, le_trans hxy hyz⟩

theorem Covers.append {xs ys zs : List α} (h : Covers xs zs) (k : Covers ys zs) :
    Covers (xs ++ ys) zs := fun x hx => (List.mem_append.1 hx).elim (h x) (k x)

/-- One value is as new as all others. -/
theorem Covers.of_le {xs ys : List α} {g : α} (hg : g ∈ ys) (h : ∀ x ∈ xs, x ≤ g) :
    Covers xs ys := fun x hx => ⟨g, hg, h x hx⟩

/-- A line in order loses no newest value as it advances. -/
theorem Advances.covers {xs ys : List α} (h : Advances xs ys) (hs : xs.Pairwise (· ≤ ·)) :
    Covers xs ys := by
  intro x hx
  have hlast := List.getLast?_eq_some_getLast (List.ne_nil_of_mem hx)
  exact ⟨_, List.mem_of_getLast? (h.last.trans hlast), hs.rel_getLast hx⟩

/-! ## Values in order -/

structure InOrder (line slots adopted : List α) : Prop where
  sorted : line.Pairwise (· ≤ ·)
  covered : Covers adopted (line ++ slots)

section
variable {line line' slots slots' adopted : List α} {a b g : α}

/-- The line and the slots change, and for all that goes something as new stays. -/
theorem InOrder.change (h : InOrder line slots adopted) (hs : line'.Pairwise (· ≤ ·))
    (hc : Covers (line ++ slots) (line' ++ slots')) : InOrder line' slots' adopted :=
  ⟨hs, h.covered.trans hc⟩

theorem InOrder.advance (h : InOrder line slots adopted) (k : Advances line line') :
    InOrder line' slots adopted := by
  refine h.change (h.sorted.sublist k.sublist) ((k.covers h.sorted).trans ?_ |>.append ?_)
  · exact .of_subset (List.subset_append_left ..)
  · exact .of_subset (List.subset_append_right ..)

/-- Slots change. -/
theorem InOrder.reslot (h : InOrder line slots adopted) (hs : Covers slots (line ++ slots')) :
    InOrder line slots' adopted :=
  h.change h.sorted ((Covers.of_subset (List.subset_append_left ..)).append hs)

/-- A value is sent that is as new as all that is on the way. -/
theorem InOrder.send (h : InOrder line slots adopted) (hg : ∀ k ∈ line, k ≤ g)
    (hs : Covers slots (line ++ [g] ++ slots')) : InOrder (line ++ [g]) slots' adopted := by
  refine h.change (List.pairwise_append.2 ⟨h.sorted, List.pairwise_singleton .., ?_⟩)
    (Covers.append (.of_subset ?_) hs)
  · intro k hk b hb
    exact List.mem_singleton.1 hb ▸ hg k hk
  · exact fun k hk => List.mem_append_left _ (List.mem_append_left _ hk)

/-- A new value is adopted and sent, whatever becomes of the slots. -/
theorem InOrder.sendNewest (hs : line.Pairwise (· ≤ ·)) (hg : ∀ k ∈ line, k ≤ g)
    (ha : ∀ k ∈ adopted, k ≤ g) : InOrder (line ++ [g]) slots' (g :: adopted) := by
  have h : InOrder (line ++ [g]) ([] : List α) (g :: adopted) := by
    refine ⟨List.pairwise_append.2 ⟨hs, List.pairwise_singleton .., fun k hk b hb => ?_⟩, ?_⟩
    · exact List.mem_singleton.1 hb ▸ hg k hk
    · exact .of_le (by simp) (List.forall_mem_cons.2 ⟨le_refl g, ha⟩)
  exact h.reslot fun _ hk => absurd hk List.not_mem_nil

/-- A new value is adopted and waits. -/
theorem InOrder.keepNewest (hs : line.Pairwise (· ≤ ·)) (hg : g ∈ slots')
    (ha : ∀ k ∈ adopted, k ≤ g) : InOrder line slots' (g :: adopted) :=
  ⟨hs, .of_le (List.mem_append_right _ hg) (List.forall_mem_cons.2 ⟨le_refl g, ha⟩)⟩

/-- Another value is put in place, as new as the one before and no newer than what comes. -/
theorem InOrder.replace (h : InOrder (a :: line) slots adopted) (hab : a ≤ b)
    (hb : ∀ k ∈ line, b ≤ k) (hs : Covers slots (b :: line ++ slots')) :
    InOrder (b :: line) slots' adopted := by
  refine h.change (List.pairwise_cons.2 ⟨hb, (List.pairwise_cons.1 h.sorted).2⟩)
    (Covers.append ?_ hs)
  intro k hk
  obtain rfl | hk := List.mem_cons.1 hk
  · exact ⟨b, List.mem_append_left _ List.mem_cons_self, hab⟩
  · exact ⟨k, List.mem_append_left _ (List.mem_cons_of_mem b hk), le_refl k⟩

/-- The value in place is no newer than one that comes. -/
theorem InOrder.head_le (h : InOrder (a :: line) slots adopted) (hb : b ∈ a :: line) : a ≤ b := by
  obtain rfl | hb := List.mem_cons.1 hb
  · exact le_refl _
  · exact (List.pairwise_cons.1 h.sorted).1 b hb

/-- With nothing on the way and nothing that waits the newest value is in place. -/
theorem InOrder.arrived (h : InOrder [a] [] adopted) : ∀ k ∈ adopted, k ≤ a := by
  intro k hk
  obtain ⟨b, hb, hle⟩ := h.covered k hk
  exact List.mem_singleton.1 hb ▸ hle

end

end Arrival
