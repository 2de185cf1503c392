import Mathlib.Data.List.Basic
import Mathlib.Data.List.Range
import Mathlib.Data.List.Nodup

/-!
# Delay lines

A delay line of latency `L` is a queue of `L` samples: `feed` puts new samples in and takes as many
of the oldest ones out. A line may be fed only some of the samples of a signal. What it gives out
then is the signal `L` samples ago exactly when none of the `L` samples before was withheld
(`gated_eq_delayed`, `gated_pulse`).
-/

namespace Delay

variable {α : Type*}

/-- The samples a line gives out, and the line after it was fed. -/
def feed (line xs : List α) : List α × List α :=
  ((line ++ xs).take xs.length, (line ++ xs).drop xs.length)

/-- A signal `L` samples ago, `z` before its start. -/
def delayed (L : Nat) (z : α) (signal : Nat → α) (t : Nat) : α :=
  if t < L then z else signal (t - L)

/-! ## Fed samples -/

/-- Whether a line was fed sample `i`; `fed` has one flag for each sample so far. -/
def isFed (fed : List Bool) (i : Nat) : Bool := fed.getD i false

/-- The samples a line was fed. -/
def fedTimes (fed : List Bool) : List Nat := (List.range fed.length).filter (isFed fed)

/-- How many samples before `i` a line was fed. -/
def fedBefore (fed : List Bool) (i : Nat) : Nat := ((List.range i).filter (isFed fed)).length

theorem isFed_append_left {fed new : List Bool} {i : Nat} (h : i < fed.length) :
    isFed (fed ++ new) i = isFed fed i := by
  simp [isFed, List.getElem?_append_left h]

theorem isFed_append_right (fed new : List Bool) (i : Nat) :
    isFed (fed ++ new) (fed.length + i) = isFed new i := by
  simp [isFed, List.getElem?_append_right (Nat.le_add_right _ _)]

theorem lt_of_isFed {fed : List Bool} {i : Nat} (h : isFed fed i = true) : i < fed.length := by
  by_contra hc
  simp [isFed, List.getElem?_eq_none (Nat.not_lt.1 hc)] at h

theorem isFed_replicate {n i : Nat} (h : i < n) (b : Bool) : isFed (List.replicate n b) i = b := by
  simp [isFed, h]

theorem filter_range_append {fed new : List Bool} {i : Nat} (h : i ≤ fed.length) :
    (List.range i).filter (isFed (fed ++ new)) = (List.range i).filter (isFed fed) :=
  List.filter_congr fun _ hj =>
    isFed_append_left (Nat.lt_of_lt_of_le (List.mem_range.1 hj) h)

theorem fedBefore_append {fed new : List Bool} {i : Nat} (h : i ≤ fed.length) :
    fedBefore (fed ++ new) i = fedBefore fed i := by
  rw [fedBefore, filter_range_append h, fedBefore]

theorem length_fedTimes (fed : List Bool) : (fedTimes fed).length = fedBefore fed fed.length := rfl

theorem fedBefore_add (fed : List Bool) (i k : Nat) :
    fedBefore fed (i + k) =
      fedBefore fed i + ((List.range k).filter fun j => isFed fed (i + j)).length := by
  rw [fedBefore, List.range_add, List.filter_append, List.length_append, List.filter_map,
    List.length_map]
  rfl

theorem fedBefore_le (fed : List Bool) (i : Nat) : fedBefore fed i ≤ i := by
  refine Nat.le_trans (List.length_filter_le ..) ?_
  rw [List.length_range]

theorem fedTimes_append (fed new : List Bool) :
    fedTimes (fed ++ new) = fedTimes fed ++ (fedTimes new).map (fed.length + ·) := by
  rw [fedTimes, List.length_append, List.range_add, List.filter_append,
    filter_range_append (Nat.le_refl _), List.filter_map]
  congr 2
  exact List.filter_congr fun j _ => isFed_append_right fed new j

theorem fedTimes_replicate_true (n : Nat) : fedTimes (List.replicate n true) = List.range n := by
  rw [fedTimes, List.length_replicate, List.filter_eq_self]
  intro i hi
  exact isFed_replicate (List.mem_range.1 hi) true

theorem fedTimes_replicate_false (n : Nat) : fedTimes (List.replicate n false) = [] := by
  rw [fedTimes, List.length_replicate, List.filter_eq_nil_iff]
  intro i hi
  rw [isFed_replicate (List.mem_range.1 hi)]
  decide

/-- The sample that was fed after `fedBefore fed i` others is `i`. -/
theorem fedTimes_fedBefore {fed : List Bool} {i : Nat} (h : isFed fed i = true) :
    (fedTimes fed)[fedBefore fed i]? = some i := by
  obtain ⟨k, hk⟩ := Nat.exists_eq_add_of_lt (lt_of_isFed h)
  have hrange : List.range fed.length = List.range i ++ (i :: (List.range k).map (i + 1 + ·)) := by
    rw [hk, Nat.add_assoc, List.range_add, List.range_succ_eq_map]
    simp only [List.map_cons, List.map_map, Nat.add_zero]
    congr 2
    exact List.map_congr_left fun j _ => by simp only [Function.comp]; omega
  rw [fedTimes, hrange, List.filter_append, List.filter_cons_of_pos h, fedBefore]
  simp

theorem nodup_fedTimes (fed : List Bool) : (fedTimes fed).Nodup :=
  (List.nodup_range).filter _

/-- No other place holds it. -/
theorem eq_fedBefore {fed : List Bool} {i j : Nat} (h : (fedTimes fed)[j]? = some i) :
    isFed fed i = true ∧ j = fedBefore fed i := by
  have hmem : i ∈ fedTimes fed := List.mem_of_getElem? h
  have hfed : isFed fed i = true := (List.mem_filter.1 hmem).2
  refine ⟨hfed, ?_⟩
  have hi := fedTimes_fedBefore hfed
  obtain ⟨hj, -⟩ := List.getElem?_eq_some_iff.1 h
  exact (List.getElem?_inj hj (nodup_fedTimes fed)).1 (h.trans hi.symm)

/-! ## Gated lines -/

/-- The samples a line of latency `L` was fed, after its initial content. -/
def history (L : Nat) (z : α) (signal : Nat → α) (fed : List Bool) : List α :=
  List.replicate L z ++ (fedTimes fed).map signal

/-- The content of a line. -/
def line (L : Nat) (z : α) (signal : Nat → α) (fed : List Bool) : List α :=
  (history L z signal fed).drop (fedTimes fed).length

/-- What a line gives out for sample `i`, if it is fed it. -/
def gated (L : Nat) (z : α) (signal : Nat → α) (fed : List Bool) (i : Nat) : α :=
  (history L z signal fed).getD (fedBefore fed i) z

theorem line_nil (L : Nat) (z : α) (signal : Nat → α) :
    line L z signal [] = List.replicate L z := by
  simp [line, history, fedTimes]

theorem line_withheld (L : Nat) (z : α) (signal : Nat → α) (fed : List Bool) (n : Nat) :
    line L z signal (fed ++ List.replicate n false) = line L z signal fed := by
  simp [line, history, fedTimes_append, fedTimes_replicate_false]

/-- Later samples do not change what a line gave out. -/
theorem gated_append {L : Nat} {z : α} {signal : Nat → α} {fed : List Bool} (new : List Bool)
    {i : Nat} (h : isFed fed i = true) :
    gated L z signal (fed ++ new) i = gated L z signal fed i := by
  have hi := lt_of_isFed h
  obtain ⟨hlt, -⟩ := List.getElem?_eq_some_iff.1 (fedTimes_fedBefore h)
  rw [gated, gated, fedBefore_append (Nat.le_of_lt hi), history, fedTimes_append, List.map_append,
    ← List.append_assoc, List.getD_eq_getElem?_getD, List.getElem?_append_left, ← history,
    ← List.getD_eq_getElem?_getD]
  simp only [List.length_append, List.length_replicate, List.length_map]
  omega

/-- Feeding a line the next samples of the signal. -/
theorem feed_line (L : Nat) (z : α) (signal : Nat → α) (fed : List Bool) (n : Nat) :
    feed (line L z signal fed) ((List.range n).map fun i => signal (fed.length + i)) =
      ((List.range n).map fun i =>
          gated L z signal (fed ++ List.replicate n true) (fed.length + i),
        line L z signal (fed ++ List.replicate n true)) := by
  have hhist : history L z signal (fed ++ List.replicate n true) =
      history L z signal fed ++ (List.range n).map fun i => signal (fed.length + i) := by
    simp only [history, fedTimes_append, fedTimes_replicate_true, List.map_append, List.map_map,
      List.append_assoc]
    rfl
  have hlen : (fedTimes fed).length ≤ (history L z signal fed).length := by
    simp [history]
  have hdrop : line L z signal fed ++ (List.range n).map (fun i => signal (fed.length + i)) =
      (history L z signal (fed ++ List.replicate n true)).drop (fedTimes fed).length := by
    rw [hhist, line, List.drop_append_of_le_length hlen]
  have htimes : (fedTimes (fed ++ List.replicate n true)).length = (fedTimes fed).length + n := by
    simp [fedTimes_append, fedTimes_replicate_true]
  have hall : (history L z signal (fed ++ List.replicate n true)).length =
      L + (fedTimes fed).length + n := by
    simp [history, htimes, Nat.add_assoc]
  refine Prod.ext ?_ ?_
  · simp only [feed, List.length_map, List.length_range, hdrop]
    refine List.ext_getElem (by simp [hall]; omega) fun i h1 h2 => ?_
    have hi : i < n := by simpa using h2
    have hbefore : fedBefore (fed ++ List.replicate n true) (fed.length + i) =
        (fedTimes fed).length + i := by
      rw [fedBefore_add, fedBefore_append (Nat.le_refl _), ← length_fedTimes]
      congr 1
      rw [List.filter_eq_self.2, List.length_range]
      intro j hj
      rw [isFed_append_right]
      exact isFed_replicate (Nat.lt_trans (List.mem_range.1 hj) hi) true
    simp only [List.getElem_take, List.getElem_drop, List.getElem_map, List.getElem_range, gated,
      hbefore]
    rw [List.getD_eq_getElem?_getD, List.getElem?_eq_getElem (by rw [hall]; omega)]
    rfl
  · simp only [feed, List.length_map, List.length_range, hdrop, List.drop_drop]
    rw [line, htimes]

/-- A line that was fed all of the last `L` samples is the delayed signal. -/
theorem gated_eq_delayed {L : Nat} {z : α} {signal : Nat → α} {fed : List Bool} {i : Nat}
    (hi : isFed fed i = true) (h : L ≤ i → ∀ u, i - L ≤ u → u < i → isFed fed u = true) :
    gated L z signal fed i = delayed L z signal i := by
  unfold gated delayed history
  split
  · rename_i hlt
    have hb := fedBefore_le fed i
    rw [List.getD_eq_getElem?_getD, List.getElem?_append_left (by simp; omega)]
    simp [show fedBefore fed i < L by omega]
  · rename_i hle
    have hle := Nat.not_lt.1 hle
    have hcount : fedBefore fed i = fedBefore fed (i - L) + L := by
      have hadd := fedBefore_add fed (i - L) L
      rw [Nat.sub_add_cancel hle, List.filter_eq_self.2, List.length_range] at hadd
      · exact hadd
      · intro j hj
        have hj := List.mem_range.1 hj
        exact h hle _ (by omega) (by omega)
    have hfed : isFed fed (i - L) = true := by
      by_cases hL : L = 0
      · simpa [hL] using hi
      · exact h hle _ (Nat.le_refl _) (by omega)
    rw [List.getD_eq_getElem?_getD, hcount, List.getElem?_append_right (by simp)]
    simp [fedTimes_fedBefore hfed]

/-- A line some of the last `L` samples were withheld from misses a pulse `L` samples ago. -/
theorem gated_pulse {L : Nat} {z w : α} {fed : List Bool} {i u : Nat}
    (hL : L ≤ i) (hu : i - L ≤ u) (hui : u < i) (hwithheld : isFed fed u = false) :
    gated L z (fun j => if j = i - L then w else z) fed i = z := by
  unfold gated history
  rw [List.getD_eq_getElem?_getD]
  by_cases hb : fedBefore fed i < L
  · rw [List.getElem?_append_left (by simpa using hb)]
    simp [hb]
  · rw [List.getElem?_append_right (by simpa using hb), List.getElem?_map, List.length_replicate]
    cases hj : (fedTimes fed)[fedBefore fed i - L]? with
    | none => rfl
    | some j =>
      obtain ⟨hfed, hjb⟩ := eq_fedBefore hj
      have hne : j ≠ i - L := by
        rintro rfl
        -- fewer than `L` of the samples from `i - L` on were fed
        have hadd := fedBefore_add fed (i - L) L
        rw [Nat.sub_add_cancel hL] at hadd
        have hlt : ((List.range L).filter fun k => isFed fed (i - L + k)).length < L := by
          refine Nat.lt_of_lt_of_eq (List.length_filter_lt_length_iff_exists.2
            ⟨u - (i - L), by simp; omega, ?_⟩) List.length_range
          rw [show i - L + (u - (i - L)) = u by omega, hwithheld]
          decide
        omega
      simp [hne]

end Delay
