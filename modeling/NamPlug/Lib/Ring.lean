import NamPlug.Lib.Delay

/-!
# Delay rings

A ring keeps the last `capacity` samples it was fed, and gives out the signal it was fed `delay`
samples ago. What it gives out and what it holds are determined by all it was ever fed
(`process_after`), however that was cut into blocks.
-/

namespace Delay

variable {α : Type*}

/-- `slots` are the last `capacity` samples, the oldest first. -/
structure Ring (α : Type*) where
  capacity : Nat
  delay : Nat
  slots : List α
  deriving DecidableEq, Repr

namespace Ring

/-- An empty ring, primed with `z`. -/
def withCapacity (z : α) (capacity delay : Nat) : Ring α :=
  ⟨capacity, min delay capacity, List.replicate capacity z⟩

/-- A ring fed a block: what it gives out, and the ring after it. -/
def process (r : Ring α) (xs : List α) : List α × Ring α :=
  (((r.slots ++ xs).drop (r.capacity - r.delay)).take xs.length,
    { r with slots := (r.slots ++ xs).drop xs.length })

/-- A ring after all it was fed. -/
def after (z : α) (capacity delay : Nat) (xs : List α) : Ring α :=
  ⟨capacity, min delay capacity, (List.replicate capacity z ++ xs).drop xs.length⟩

theorem after_nil (z : α) (capacity delay : Nat) :
    after z capacity delay [] = withCapacity z capacity delay := by
  simp [after, withCapacity]

theorem process_after {capacity d : Nat} (hd : d ≤ capacity) (z : α) (xs ys : List α) :
    (after z capacity d xs).process ys =
      ((List.range ys.length).map fun i =>
          delayed d z (fun t => (xs ++ ys).getD t z) (xs.length + i),
        after z capacity d (xs ++ ys)) := by
  have hslots : (List.replicate capacity z ++ xs).drop xs.length ++ ys =
      (List.replicate capacity z ++ (xs ++ ys)).drop xs.length := by
    rw [← List.append_assoc]
    exact (List.drop_append_of_le_length (by simp)).symm
  refine Prod.ext ?_ ?_
  · simp only [process, after, hslots, Nat.min_eq_left hd]
    refine List.ext_getElem (by simp; omega) fun i h1 h2 => ?_
    have hi : i < ys.length := by simpa using h2
    simp only [List.getElem_take, List.getElem_drop, List.getElem_map, List.getElem_range, delayed]
    split
    · rw [List.getElem_append_left (by simp; omega), List.getElem_replicate]
    · rw [List.getElem_append_right (by simp; omega), List.getD_eq_getElem?_getD,
        List.getElem?_eq_getElem (by simp; omega), Option.getD_some]
      congr 1
      simp only [List.length_replicate]
      omega
  · simp only [process, after, hslots, List.drop_drop, List.length_append]

/-- A ring holds `capacity` samples. -/
structure Full (r : Ring α) : Prop where
  slots : r.slots.length = r.capacity

theorem Full.process {r : Ring α} (h : r.Full) (xs : List α) : (r.process xs).2.Full := by
  refine ⟨?_⟩
  simp only [Ring.process, List.length_drop, List.length_append]
  have := h.slots
  omega

theorem Full.length_process {r : Ring α} (h : r.Full) (xs : List α) :
    (r.process xs).1.length = xs.length := by
  simp only [Ring.process, List.length_take, List.length_drop, List.length_append]
  have := h.slots
  omega

/-- A full ring is fed one block as it is fed its parts. -/
theorem Full.process_append {r : Ring α} (h : r.Full) (xs ys : List α) :
    r.process (xs ++ ys) =
      ((r.process xs).1 ++ ((r.process xs).2.process ys).1, ((r.process xs).2.process ys).2) := by
  have hslots := h.slots
  have hrest : (r.slots ++ xs).drop xs.length ++ ys = (r.slots ++ (xs ++ ys)).drop xs.length := by
    rw [← List.append_assoc]
    exact (List.drop_append_of_le_length (by rw [List.length_append]; omega)).symm
  have hfirst : ((r.slots ++ (xs ++ ys)).drop (r.capacity - r.delay)).take xs.length =
      ((r.slots ++ xs).drop (r.capacity - r.delay)).take xs.length := by
    rw [← List.append_assoc, List.drop_append_of_le_length (by rw [List.length_append]; omega),
      List.take_append_of_le_length (by rw [List.length_drop, List.length_append]; omega)]
  refine Prod.ext ?_ ?_
  · simp only [Ring.process, hrest, ← hfirst, List.drop_drop, List.length_append]
    rw [List.take_add, List.drop_drop, Nat.add_comm xs.length]
  · simp only [Ring.process, hrest, List.drop_drop, List.length_append]

end Ring

end Delay
