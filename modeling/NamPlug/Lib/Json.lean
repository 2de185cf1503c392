import Mathlib.Algebra.Group.Nat.Defs
import Mathlib.Tactic.Common

/-!
# JSON values

A parsed JSON document with the accessors of a dynamically typed reader: each gives nothing where the
value is of another kind. An object has each key once.
-/

inductive Json where
  | null
  | bool (b : Bool)
  /-- A number without sign, fraction or exponent. -/
  | posInt (n : Nat)
  /-- Any other number, as written. -/
  | number (text : String)
  | string (s : String)
  | array (xs : List Json)
  | object (fields : List (String × Json))
  deriving Repr

namespace Json

def get (v : Json) (key : String) : Option Json :=
  match v with
  | object fields => fields.lookup key
  | _ => none

def asString : Json → Option String
  | string s => some s
  | _ => none

def asBool : Json → Option Bool
  | bool b => some b
  | _ => none

/-- A number of 64 bits. -/
def asU64 : Json → Option Nat
  | posInt n => if n < 2 ^ 64 then some n else none
  | _ => none

def asArray : Json → Option (List Json)
  | array xs => some xs
  | _ => none

/-- A string field; the empty string where there is none. -/
def text (v : Json) (key : String) : String := ((v.get key).bind asString).getD ""

/-- A string field that is not empty. -/
def textField (v : Json) (key : String) : Option String :=
  ((v.get key).bind asString).filter fun s => !s.isEmpty

mutual

/-- A value that says nothing: null, false, zero, and whatever is empty or holds only such values in
a row. -/
def isVacant : Json → Bool
  | null => true
  | bool b => !b
  | posInt n => n == 0
  | number _ => false
  | string s => s.isEmpty
  | array xs => allVacant xs
  | object fields => fields.isEmpty

def allVacant : List Json → Bool
  | [] => true
  | x :: xs => x.isVacant && allVacant xs

end

theorem allVacant_iff (xs : List Json) : allVacant xs = true ↔ ∀ x ∈ xs, x.isVacant = true := by
  induction xs with
  | nil => simp [allVacant]
  | cons x xs ih => simp [allVacant, ih]

theorem textField_eq_some {v : Json} {key s : String} :
    v.textField key = some s ↔ v.get key = some (string s) ∧ s.isEmpty = false := by
  unfold textField
  rcases v.get key with _ | _ | _ | _ | _ | t | _ | _
  case some.string =>
    simp only [Option.bind_some, asString, Option.filter, Bool.not_eq_true', Option.some.injEq,
      string.injEq]
    constructor
    · intro h
      split at h
      · obtain rfl := Option.some.inj h
        exact ⟨rfl, by assumption⟩
      · cases h
    · rintro ⟨rfl, hs⟩
      rw [if_pos hs]
  all_goals simp [asString]

theorem textField_nonempty {v : Json} {key s : String} (h : v.textField key = some s) : s ≠ "" := by
  obtain ⟨-, hs⟩ := textField_eq_some.1 h
  rintro rfl
  cases hs

theorem textField_of_get {v : Json} {key s : String} (h : v.get key = some (string s))
    (hne : s ≠ "") : v.textField key = some s := textField_eq_some.2 ⟨h, by simpa using hne⟩

/-- A field read as text is the string itself, but for the empty one. -/
theorem get_of_text {v : Json} {key s : String} (h : v.text key = s) (hne : s ≠ "") :
    v.get key = some (string s) := by
  unfold text at h
  rcases hget : v.get key with _ | _ | _ | _ | _ | t | _ | _ <;> rw [hget] at h
  case some.string => exact congrArg (fun t => some (string t)) h
  all_goals exact absurd h.symm hne

end Json
