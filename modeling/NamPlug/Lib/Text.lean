import Mathlib.Tactic.Common

/-!
# Text files

What reading a file gives, and the text of it: its lines, and a line without the white space around
it. A text written line by line has these lines (`lines_unlines`).
-/

namespace Text

/-- What reading a path to its end gives. -/
inductive Reading where
  | openError (e : String)
  | readError (e : String)
  | bytes (b : ByteArray)

/-- Unicode `White_Space`. -/
def isWhite (c : Char) : Bool :=
  let n := c.toNat
  (0x09 ≤ n && n ≤ 0x0D) || n == 0x20 || n == 0x85 || n == 0xA0 || n == 0x1680 ||
    (0x2000 ≤ n && n ≤ 0x200A) || n == 0x2028 || n == 0x2029 || n == 0x202F || n == 0x205F ||
    n == 0x3000

/-- `str::trim` -/
def trim (s : String) : String :=
  .ofList ((s.toList.dropWhile isWhite).reverse.dropWhile isWhite).reverse

/-- A line, read backwards, without the carriage return of its end. -/
def stripCr : List Char → List Char
  | '\r' :: cs => cs
  | cs => cs

/-- The lines of a text after `acc`, which is read backwards. -/
def linesFrom (acc : List Char) : List Char → List String
  | [] => if acc = [] then [] else [.ofList acc.reverse]
  | '\n' :: cs => .ofList (stripCr acc).reverse :: linesFrom [] cs
  | c :: cs => linesFrom (c :: acc) cs

/-- `str::lines` -/
def lines (s : String) : List String := linesFrom [] s.toList

/-! ## UTF-8 -/

theorem toUTF8_of_fromUTF8 {b : ByteArray} {s : String} (h : String.fromUTF8? b = some s) :
    b = s.toUTF8 := by
  unfold String.fromUTF8? at h
  split at h
  · obtain rfl := Option.some.inj h
    rfl
  · cases h

theorem fromUTF8_toUTF8 (s : String) : String.fromUTF8? s.toUTF8 = some s := dif_pos s.isValidUTF8

/-! ## Lines -/

theorem stripCr_of_ne {c : Char} (h : c ≠ '\r') (cs : List Char) : stripCr (c :: cs) = c :: cs := by
  unfold stripCr
  split
  · rename_i heq
    exact absurd (List.cons.inj heq).1 h
  · rfl

theorem linesFrom_line {cs rest : List Char} : ∀ {acc : List Char}, '\n' ∉ cs →
    linesFrom acc (cs ++ '\n' :: rest) =
      .ofList (stripCr (cs.reverse ++ acc)).reverse :: linesFrom [] rest := by
  induction cs with
  | nil =>
    intro acc _
    rfl
  | cons c cs ih =>
    intro acc hnl
    rw [List.mem_cons, not_or] at hnl
    have hstep : linesFrom acc (c :: (cs ++ '\n' :: rest)) =
        linesFrom (c :: acc) (cs ++ '\n' :: rest) := by
      rw [linesFrom.eq_3]
      exact fun h => hnl.1 h.symm
    rw [List.cons_append, hstep, ih hnl.2, List.reverse_cons, List.append_assoc,
      List.singleton_append]

/-- A text written line by line has these lines. -/
theorem lines_unlines {ls : List (List Char)}
    (h : ∀ l ∈ ls, '\n' ∉ l ∧ stripCr l.reverse = l.reverse) :
    lines (.ofList (ls.flatMap (· ++ ['\n']))) = ls.map .ofList := by
  unfold lines
  rw [String.toList_ofList]
  induction ls with
  | nil => rfl
  | cons l ls ih =>
    obtain ⟨⟨hnl, hcr⟩, hrest⟩ := List.forall_mem_cons.1 h
    rw [List.flatMap_cons, List.append_assoc, List.singleton_append, linesFrom_line hnl, ih hrest,
      List.append_nil, hcr, List.reverse_reverse, List.map_cons]

theorem trim_ofList {c d : Char} (body : List Char) (hc : isWhite c = false)
    (hd : isWhite d = false) :
    trim (.ofList (c :: (body ++ [d]))) = .ofList (c :: (body ++ [d])) := by
  unfold trim
  rw [String.toList_ofList, List.dropWhile_cons_of_neg (by simp [hc]), List.reverse_cons,
    List.reverse_append, List.reverse_singleton, List.singleton_append, List.cons_append,
    List.dropWhile_cons_of_neg (by simp [hd])]
  simp

end Text
