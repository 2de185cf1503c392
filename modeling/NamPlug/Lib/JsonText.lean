import NamPlug.Lib.Json
import Mathlib.Data.String.Basic

/-!
# JSON as text

A compact writer of JSON values, as one line without white space, and a reader of such lines. What is
written of a plain value reads back as that value (`read_write`), and is one line (`newline_not_mem`).
The members of an object are kept in the order of their keys.
-/

namespace Json

/-! ## Members -/

/-- The members with the key set: in its place among the keys, or in place of the value it had. -/
def insert (key : String) (x : Json) : List (String × Json) → List (String × Json)
  | [] => [(key, x)]
  | (k, y) :: rest =>
    if key < k then (key, x) :: (k, y) :: rest
    else if key = k then (key, x) :: rest
    else (k, y) :: insert key x rest

/-- The keys ascend, so each is there once. -/
def Ascending (fields : List (String × Json)) : Prop := (fields.map Prod.fst).Pairwise (· < ·)

theorem mem_insert {key : String} {x : Json} {p : String × Json} {fields : List (String × Json)}
    (h : p ∈ insert key x fields) : p = (key, x) ∨ p ∈ fields := by
  induction fields with
  | nil => exact .inl (List.mem_singleton.1 h)
  | cons q rest ih =>
    unfold insert at h
    split_ifs at h
    · simpa using h
    · rcases List.mem_cons.1 h with h | h
      · exact .inl h
      · exact .inr (List.mem_cons_of_mem _ h)
    · rcases List.mem_cons.1 h with h | h
      · exact .inr (by rw [h]; exact List.mem_cons_self)
      · exact (ih h).imp_right (List.mem_cons_of_mem _)

theorem ascending_cons {k : String} {y : Json} {rest : List (String × Json)} :
    Ascending ((k, y) :: rest) ↔ (∀ p ∈ rest, k < p.1) ∧ Ascending rest := by
  unfold Ascending
  rw [List.map_cons, List.pairwise_cons, List.forall_mem_map]

theorem ascending_insert {key : String} {x : Json} {fields : List (String × Json)}
    (h : Ascending fields) : Ascending (insert key x fields) := by
  induction fields with
  | nil => exact ascending_cons.2 ⟨by simp, h⟩
  | cons q rest ih =>
    obtain ⟨hq, hrest⟩ := ascending_cons.1 h
    unfold insert
    split_ifs with hlt heq
    · refine ascending_cons.2 ⟨fun p hp => ?_, h⟩
      rcases List.mem_cons.1 hp with rfl | hp
      · exact hlt
      · exact lt_trans hlt (hq p hp)
    · refine ascending_cons.2 ⟨?_, hrest⟩
      rw [heq]
      exact hq
    · refine ascending_cons.2 ⟨fun p hp => ?_, ih hrest⟩
      rcases mem_insert hp with rfl | hp
      · exact lt_of_le_of_ne (not_lt.1 hlt) fun h => heq h.symm
      · exact hq p hp

theorem lookup_insert {key k : String} {x : Json} {fields : List (String × Json)} :
    (insert key x fields).lookup k = if k = key then some x else fields.lookup k := by
  induction fields with
  | nil =>
    by_cases h : k = key
    · simp [insert, h]
    · have hne : (k == key) = false := by simpa using h
      rw [if_neg h, insert, List.lookup_cons, hne]
  | cons q rest ih =>
    obtain ⟨k', y⟩ := q
    unfold insert
    split_ifs with hlt hk heq hk hk
    · rw [List.lookup_cons, hk, beq_self_eq_true]
    · have hne : (k == key) = false := by simpa using hk
      rw [List.lookup_cons, hne]
    · rw [List.lookup_cons, hk, beq_self_eq_true]
    · have hne : (k == key) = false := by simpa using hk
      rw [List.lookup_cons, List.lookup_cons, hne, ← heq, hne]
    · have hne : (k == k') = false := by simpa [hk] using heq
      rw [List.lookup_cons, hne, ih, if_pos hk]
    · rw [List.lookup_cons, List.lookup_cons, ih, if_neg hk]

/-- The members, set one after another. -/
def ofMembers (ms : List (String × Json)) : List (String × Json) :=
  ms.foldl (fun fields p => insert p.1 p.2 fields) []

theorem insert_last {key : String} {x : Json} {fields : List (String × Json)}
    (h : ∀ p ∈ fields, p.1 < key) : insert key x fields = fields ++ [(key, x)] := by
  induction fields with
  | nil => rfl
  | cons q rest ih =>
    obtain ⟨hq, hrest⟩ := List.forall_mem_cons.1 h
    unfold insert
    rw [if_neg (lt_asymm hq), if_neg (ne_of_gt hq), ih hrest, List.cons_append]

/-- Members whose keys ascend are set as they are. -/
theorem ofMembers_ascending {fields : List (String × Json)} (h : Ascending fields) :
    ofMembers fields = fields := by
  have hfold : ∀ (todo done : List (String × Json)), Ascending (done ++ todo) →
      todo.foldl (fun fields p => insert p.1 p.2 fields) done = done ++ todo := by
    intro todo
    induction todo with
    | nil =>
      intro done _
      rw [List.append_nil]
      rfl
    | cons q todo ih =>
      intro done hasc
      have hlast : ∀ p ∈ done, p.1 < q.1 := by
        intro p hp
        unfold Ascending at hasc
        rw [List.map_append] at hasc
        exact (List.pairwise_append.1 hasc).2.2 p.1 (List.mem_map_of_mem hp) q.1 (by simp)
      have hassoc : done ++ q :: todo = done ++ [q] ++ todo := by simp
      rw [List.foldl_cons, insert_last hlast, hassoc]
      exact ih _ (hassoc ▸ hasc)
  exact hfold fields [] h

/-! ## Writing -/

def hexDigit (n : Nat) : Char := Nat.digitChar n

/-- A character within quotes. -/
def escape (c : Char) : List Char :=
  if c = '"' then ['\\', '"']
  else if c = '\\' then ['\\', '\\']
  else if c = '\n' then ['\\', 'n']
  else if c = '\r' then ['\\', 'r']
  else if c = '\t' then ['\\', 't']
  else if c = '\x08' then ['\\', 'b']
  else if c = '\x0c' then ['\\', 'f']
  else if c.toNat < 0x20 then
    ['\\', 'u', '0', '0', hexDigit (c.toNat / 16), hexDigit (c.toNat % 16)]
  else [c]

def quote (s : String) : List Char := '"' :: (s.toList.flatMap escape ++ ['"'])

mutual

def write : Json → List Char
  | null => ['n', 'u', 'l', 'l']
  | bool true => ['t', 'r', 'u', 'e']
  | bool false => ['f', 'a', 'l', 's', 'e']
  | posInt n => Nat.toDigits 10 n
  | number t => t.toList
  | string s => quote s
  | array [] => ['[', ']']
  | array (x :: xs) => '[' :: (write x ++ writeElements xs)
  | object [] => ['\x7b', '\x7d']
  | object ((k, x) :: ps) => '\x7b' :: (quote k ++ ':' :: (write x ++ writeMembers ps))

/-- What follows an element. -/
def writeElements : List Json → List Char
  | [] => [']']
  | x :: xs => ',' :: (write x ++ writeElements xs)

/-- What follows a member. -/
def writeMembers : List (String × Json) → List Char
  | [] => ['\x7d']
  | (k, x) :: ps => ',' :: (quote k ++ ':' :: (write x ++ writeMembers ps))

end

/-! ## Reading -/

/-- The digit of a character; no less than 16 for what is none. -/
def hexValue (c : Char) : Nat :=
  if '0' ≤ c ∧ c ≤ '9' then c.toNat - 48
  else if 'a' ≤ c ∧ c ≤ 'f' then c.toNat - 87
  else if 'A' ≤ c ∧ c ≤ 'F' then c.toNat - 55
  else 16

/-- The character of an escape of one letter. -/
def unescape : Char → Option Char
  | '"' => some '"'
  | '\\' => some '\\'
  | '/' => some '/'
  | 'n' => some '\n'
  | 'r' => some '\r'
  | 't' => some '\t'
  | 'b' => some '\x08'
  | 'f' => some '\x0c'
  | _ => none

/-- The characters up to the closing quote, and what follows it. -/
def readString : List Char → Option (List Char × List Char)
  | [] => none
  | '"' :: rest => some ([], rest)
  | '\\' :: 'u' :: a :: b :: c :: d :: rest =>
    if hexValue a < 16 ∧ hexValue b < 16 ∧ hexValue c < 16 ∧ hexValue d < 16 then
      (readString rest).map fun p =>
        (Char.ofNat (4096 * hexValue a + 256 * hexValue b + 16 * hexValue c + hexValue d) :: p.1, p.2)
    else none
  | '\\' :: e :: rest => (unescape e).bind fun c => (readString rest).map fun p => (c :: p.1, p.2)
  | ['\\'] => none
  | c :: rest => if c.toNat < 0x20 then none else (readString rest).map fun p => (c :: p.1, p.2)

/-- A number without sign, fraction or exponent, and what follows it. -/
def readNumber (cs : List Char) : Option (Json × List Char) :=
  let digits := cs.takeWhile Char.isDigit
  let n := Nat.ofDigitChars 10 digits 0
  if digits = [] then none
  else if n < 2 ^ 64 then some (posInt n, cs.dropWhile Char.isDigit)
  else some (number (.ofList digits), cs.dropWhile Char.isDigit)

mutual

/-- A value and what follows it, in at most so many steps. -/
def readValue : Nat → List Char → Option (Json × List Char)
  | 0, _ => none
  | fuel + 1, cs =>
    match cs with
    | 'n' :: 'u' :: 'l' :: 'l' :: rest => some (null, rest)
    | 't' :: 'r' :: 'u' :: 'e' :: rest => some (bool true, rest)
    | 'f' :: 'a' :: 'l' :: 's' :: 'e' :: rest => some (bool false, rest)
    | '"' :: rest => (readString rest).map fun p => (string (.ofList p.1), p.2)
    | '[' :: ']' :: rest => some (array [], rest)
    | '[' :: rest =>
      (readValue fuel rest).bind fun p =>
        (readElements fuel p.2).map fun q => (array (p.1 :: q.1), q.2)
    | '\x7b' :: '\x7d' :: rest => some (object [], rest)
    | '\x7b' :: rest =>
      (readMember fuel rest).bind fun p =>
        (readMembers fuel p.2).map fun q => (object (ofMembers (p.1 :: q.1)), q.2)
    | cs => readNumber cs

/-- The elements after the first. -/
def readElements : Nat → List Char → Option (List Json × List Char)
  | 0, _ => none
  | fuel + 1, cs =>
    match cs with
    | ']' :: rest => some ([], rest)
    | ',' :: rest =>
      (readValue fuel rest).bind fun p =>
        (readElements fuel p.2).map fun q => (p.1 :: q.1, q.2)
    | _ => none

/-- A key and its value. -/
def readMember : Nat → List Char → Option ((String × Json) × List Char)
  | 0, _ => none
  | fuel + 1, cs =>
    match cs with
    | '"' :: rest =>
      match readString rest with
      | some (k, ':' :: rest) => (readValue fuel rest).map fun p => ((.ofList k, p.1), p.2)
      | _ => none
    | _ => none

/-- The members after the first. -/
def readMembers : Nat → List Char → Option (List (String × Json) × List Char)
  | 0, _ => none
  | fuel + 1, cs =>
    match cs with
    | '\x7d' :: rest => some ([], rest)
    | ',' :: rest =>
      (readMember fuel rest).bind fun p =>
        (readMembers fuel p.2).map fun q => (p.1 :: q.1, q.2)
    | _ => none

end

/-- A value that is a whole line. -/
def read (cs : List Char) : Option Json :=
  match readValue cs.length cs with
  | some (v, []) => some v
  | _ => none

/-! ## The round trip -/

mutual

/-- A value without the numbers that are kept as written, whose objects have ascending keys. -/
def Plain : Json → Prop
  | posInt n => n < 2 ^ 64
  | number _ => False
  | array xs => AllPlain xs
  | object ps => Ascending ps ∧ PlainMembers ps
  | _ => True

def AllPlain : List Json → Prop
  | [] => True
  | x :: xs => x.Plain ∧ AllPlain xs

def PlainMembers : List (String × Json) → Prop
  | [] => True
  | (_, x) :: ps => x.Plain ∧ PlainMembers ps

end

theorem plainMembers_iff {ps : List (String × Json)} : PlainMembers ps ↔ ∀ p ∈ ps, p.2.Plain := by
  induction ps with
  | nil => simp [PlainMembers]
  | cons p ps ih => simp [PlainMembers, ih]

theorem plain_insert {key : String} {x : Json} {ps : List (String × Json)}
    (h : (object ps).Plain) (hx : x.Plain) : (object (insert key x ps)).Plain := by
  obtain ⟨hasc, hps⟩ := h
  refine ⟨ascending_insert hasc, plainMembers_iff.2 fun p hp => ?_⟩
  rcases mem_insert hp with rfl | hp
  · exact hx
  · exact plainMembers_iff.1 hps p hp

theorem hexValue_hexDigit : ∀ n < 16, hexValue (hexDigit n) = n := by decide

theorem readString_escape (c : Char) (rest : List Char) :
    readString (escape c ++ rest) = (readString rest).map fun p => (c :: p.1, p.2) := by
  unfold escape
  split_ifs with hq hb hn hr ht h8 h12 h20
  · subst hq
    simp [readString, unescape]
  · subst hb
    simp [readString, unescape]
  · subst hn
    simp [readString, unescape]
  · subst hr
    simp [readString, unescape]
  · subst ht
    simp [readString, unescape]
  · subst h8
    simp [readString, unescape]
  · subst h12
    simp [readString, unescape]
  · have hc : Char.ofNat (16 * (c.toNat / 16) + c.toNat % 16) = c := by
      rw [Nat.div_add_mod, Char.ofNat_toNat]
    have hhigh := hexValue_hexDigit (c.toNat / 16) (by omega)
    have hlow := hexValue_hexDigit (c.toNat % 16) (by omega)
    have hzero : hexValue '0' = 0 := by decide
    simp only [List.cons_append, List.nil_append, readString, hhigh, hlow, hzero]
    simp only [Nat.mul_zero, Nat.zero_add, hc]
    rw [if_pos (by omega)]
  · rw [List.singleton_append, readString.eq_def]
    split <;> simp_all

theorem readString_quoted (s rest : List Char) :
    readString (s.flatMap escape ++ '"' :: rest) = some (s, rest) := by
  induction s with
  | nil => simp [readString]
  | cons c s ih => rw [List.flatMap_cons, List.append_assoc, readString_escape, ih, Option.map_some]

/-- What follows a number is not a digit. -/
def NoDigit (rest : List Char) : Prop := ∀ c ∈ rest.head?, c.isDigit = false

theorem takeWhile_digits {digits rest : List Char} (h : ∀ c ∈ digits, c.isDigit = true)
    (hrest : NoDigit rest) : (digits ++ rest).takeWhile Char.isDigit = digits ∧
      (digits ++ rest).dropWhile Char.isDigit = rest := by
  rw [List.takeWhile_append_of_pos h, List.dropWhile_append_of_pos h]
  rcases rest with _ | ⟨c, rest⟩
  · simp
  · have hc := hrest c rfl
    simp [hc]

theorem readNumber_toDigits {n : Nat} {rest : List Char} (hn : n < 2 ^ 64) (hrest : NoDigit rest) :
    readNumber (Nat.toDigits 10 n ++ rest) = some (posInt n, rest) := by
  obtain ⟨htake, hdrop⟩ := takeWhile_digits
    (fun c (hc : c ∈ Nat.toDigits 10 n) => Nat.isDigit_of_mem_toDigits (by decide) (by decide) hc)
    hrest
  have hvalue : Nat.ofDigitChars 10 (Nat.toDigits 10 n) 0 = n :=
    Nat.ofDigitChars_toDigits (by decide) (by decide)
  unfold readNumber
  dsimp only
  rw [htake, hdrop, if_neg Nat.toDigits_ne_nil, hvalue, if_pos hn]

theorem noDigit_elements (xs : List Json) (rest : List Char) :
    NoDigit (writeElements xs ++ rest) := by
  cases xs <;> simp [NoDigit, writeElements]

theorem noDigit_members (ps : List (String × Json)) (rest : List Char) :
    NoDigit (writeMembers ps ++ rest) := by
  rcases ps with _ | ⟨⟨k, x⟩, ps⟩ <;> simp [NoDigit, writeMembers]

/-- A digit starts no value but a number. -/
theorem readValue_digits {fuel n : Nat} {rest : List Char} :
    readValue (fuel + 1) (Nat.toDigits 10 n ++ rest) = readNumber (Nat.toDigits 10 n ++ rest) := by
  rcases hdigits : Nat.toDigits 10 n with _ | ⟨d, ds⟩
  · exact absurd hdigits Nat.toDigits_ne_nil
  have hd : d.isDigit = true := Nat.isDigit_of_mem_toDigits (b := 10) (n := n) (by decide) (by decide)
    (by rw [hdigits]; exact List.mem_cons_self)
  rw [List.cons_append, readValue.eq_def]
  dsimp only
  split <;> first | rfl | (rename_i heq; obtain rfl := (List.cons.inj heq).1; exact absurd hd (by decide))

theorem readValue_bracket (fuel : Nat) (rest : List Char) : readValue fuel (']' :: rest) = none := by
  cases fuel <;> rfl

theorem readValue_array {fuel : Nat} {c : Char} {rest : List Char} (hc : c ≠ ']') :
    readValue (fuel + 1) ('[' :: c :: rest) = (readValue fuel (c :: rest)).bind fun p =>
      (readElements fuel p.2).map fun q => (array (p.1 :: q.1), q.2) := by
  simp [readValue, hc]

mutual

/-- What is written of a value reads back as it, whatever follows but a digit. -/
theorem readValue_write : ∀ (v : Json) {fuel : Nat} {rest : List Char}, v.Plain →
    (write v).length ≤ fuel → NoDigit rest → readValue fuel (write v ++ rest) = some (v, rest)
  | null, 0, _, _, hfuel, _ => by simp [write] at hfuel
  | null, fuel + 1, rest, _, _, _ => rfl
  | bool true, 0, _, _, hfuel, _ => by simp [write] at hfuel
  | bool true, fuel + 1, rest, _, _, _ => rfl
  | bool false, 0, _, _, hfuel, _ => by simp [write] at hfuel
  | bool false, fuel + 1, rest, _, _, _ => rfl
  | posInt n, 0, _, _, hfuel, _ => by
    have hpos := Nat.length_toDigits_pos (b := 10) (n := n)
    simp only [write] at hfuel
    omega
  | posInt n, fuel + 1, rest, hplain, _, hrest => by
    simp only [write]
    rw [readValue_digits]
    exact readNumber_toDigits hplain hrest
  | number _, _, _, hplain, _, _ => hplain.elim
  | string s, 0, _, _, hfuel, _ => by simp [write, quote] at hfuel
  | string s, fuel + 1, rest, _, _, _ => by
    simp only [write, quote, List.cons_append, List.append_assoc, List.nil_append, readValue,
      readString_quoted, Option.map_some, String.ofList_toList]
  | array [], 0, _, _, hfuel, _ => by simp [write] at hfuel
  | array [], fuel + 1, rest, _, _, _ => rfl
  | array (x :: xs), 0, _, _, hfuel, _ => by simp [write] at hfuel
  | array (x :: xs), fuel + 1, rest, hplain, hfuel, _ => by
    obtain ⟨hx, hxs⟩ := hplain
    simp only [write, List.length_cons, List.length_append] at hfuel
    have hvalue : readValue fuel (write x ++ (writeElements xs ++ rest)) =
        some (x, writeElements xs ++ rest) :=
      readValue_write x hx (by omega) (noDigit_elements xs rest)
    have hrest : readElements fuel (writeElements xs ++ rest) = some (xs, rest) :=
      readElements_write xs hxs (by omega)
    simp only [write, List.cons_append, List.append_assoc]
    rcases htext : write x ++ (writeElements xs ++ rest) with _ | ⟨c, text⟩
    · rw [htext] at hvalue
      cases fuel <;> simp [readValue, readNumber] at hvalue
    rw [htext] at hvalue
    have hc : c ≠ ']' := by
      rintro rfl
      rw [readValue_bracket] at hvalue
      cases hvalue
    rw [readValue_array hc, hvalue, Option.bind_some, hrest, Option.map_some]
  | object [], 0, _, _, hfuel, _ => by simp [write] at hfuel
  | object [], fuel + 1, rest, _, _, _ => rfl
  | object ((k, x) :: ps), 0, _, _, hfuel, _ => by simp [write] at hfuel
  | object ((k, x) :: ps), fuel + 1, rest, hplain, hfuel, _ => by
    obtain ⟨hasc, hx, hps⟩ := hplain
    simp only [write, List.length_cons, List.length_append] at hfuel
    have hmember : readMember fuel (quote k ++ ':' :: write x ++ (writeMembers ps ++ rest)) =
        some ((k, x), writeMembers ps ++ rest) :=
      readMember_write k x hx (by simp only [List.length_append, List.length_cons]; omega)
        (noDigit_members ps rest)
    have hrest : readMembers fuel (writeMembers ps ++ rest) = some (ps, rest) :=
      readMembers_write ps hps (by omega)
    have htext : write (object ((k, x) :: ps)) ++ rest =
        '\x7b' :: (quote k ++ ':' :: write x ++ (writeMembers ps ++ rest)) := by
      simp [write]
    rw [htext]
    have hstep : readValue (fuel + 1) ('\x7b' :: (quote k ++ ':' :: write x ++ (writeMembers ps ++ rest))) =
        (readMember fuel (quote k ++ ':' :: write x ++ (writeMembers ps ++ rest))).bind fun p =>
        (readMembers fuel p.2).map fun q => (object (ofMembers (p.1 :: q.1)), q.2) := rfl
    rw [hstep, hmember, Option.bind_some, hrest, Option.map_some, ofMembers_ascending hasc]

theorem readElements_write : ∀ (xs : List Json) {fuel : Nat} {rest : List Char}, AllPlain xs →
    (writeElements xs).length ≤ fuel →
      readElements fuel (writeElements xs ++ rest) = some (xs, rest)
  | [], 0, _, _, hfuel => by simp [writeElements] at hfuel
  | [], fuel + 1, rest, _, _ => rfl
  | x :: xs, 0, _, _, hfuel => by simp [writeElements] at hfuel
  | x :: xs, fuel + 1, rest, hplain, hfuel => by
    obtain ⟨hx, hxs⟩ := hplain
    simp only [writeElements, List.length_cons, List.length_append] at hfuel
    have hvalue : readValue fuel (write x ++ (writeElements xs ++ rest)) =
        some (x, writeElements xs ++ rest) :=
      readValue_write x hx (by omega) (noDigit_elements xs rest)
    have hrest : readElements fuel (writeElements xs ++ rest) = some (xs, rest) :=
      readElements_write xs hxs (by omega)
    simp only [writeElements, List.cons_append, List.append_assoc, readElements, hvalue, hrest,
      Option.bind_some, Option.map_some]

theorem readMember_write : ∀ (k : String) (x : Json) {fuel : Nat} {rest : List Char}, x.Plain →
    (quote k ++ ':' :: write x).length ≤ fuel → NoDigit rest →
      readMember fuel (quote k ++ ':' :: write x ++ rest) = some ((k, x), rest)
  | k, x, 0, _, _, hfuel, _ => by simp [quote] at hfuel
  | k, x, fuel + 1, rest, hx, hfuel, hrest => by
    simp only [quote, List.length_cons, List.length_append] at hfuel
    have hvalue : readValue fuel (write x ++ rest) = some (x, rest) :=
      readValue_write x hx (by omega) hrest
    simp only [quote, List.cons_append, List.append_assoc, List.nil_append, readMember,
      readString_quoted, hvalue, Option.map_some, String.ofList_toList]

theorem readMembers_write : ∀ (ps : List (String × Json)) {fuel : Nat} {rest : List Char},
    PlainMembers ps → (writeMembers ps).length ≤ fuel →
      readMembers fuel (writeMembers ps ++ rest) = some (ps, rest)
  | [], 0, _, _, hfuel => by simp [writeMembers] at hfuel
  | [], fuel + 1, rest, _, _ => rfl
  | (k, x) :: ps, 0, _, _, hfuel => by simp [writeMembers] at hfuel
  | (k, x) :: ps, fuel + 1, rest, hplain, hfuel => by
    obtain ⟨hx, hps⟩ := hplain
    simp only [writeMembers, List.length_cons, List.length_append] at hfuel
    have hmember : readMember fuel (quote k ++ ':' :: write x ++ (writeMembers ps ++ rest)) =
        some ((k, x), writeMembers ps ++ rest) :=
      readMember_write k x hx (by simp only [List.length_append, List.length_cons]; omega)
        (noDigit_members ps rest)
    have hrest : readMembers fuel (writeMembers ps ++ rest) = some (ps, rest) :=
      readMembers_write ps hps (by omega)
    have htext : writeMembers ((k, x) :: ps) ++ rest =
        ',' :: (quote k ++ ':' :: write x ++ (writeMembers ps ++ rest)) := by simp [writeMembers]
    rw [htext]
    simp only [readMembers, hmember, Option.bind_some, hrest, Option.map_some]

end

/-- What is written of a plain value reads back as that value. -/
theorem read_write {v : Json} (h : v.Plain) : read (write v) = some v := by
  have hread : readValue (write v).length (write v ++ []) = some (v, []) :=
    readValue_write v h (Nat.le_refl _) (by intro c hc; cases hc)
  rw [List.append_nil] at hread
  unfold read
  rw [hread]

/-! ## One line -/

theorem newline_escape (c : Char) : '\n' ∉ escape c := by
  unfold escape
  split_ifs with hq hb hn hr ht h8 h12 h20
  any_goals decide
  · have hdigit : ∀ n < 16, '\n' ≠ hexDigit n := by decide
    have hhigh := hdigit (c.toNat / 16) (by omega)
    have hlow := hdigit (c.toNat % 16) (by omega)
    simp [hhigh, hlow]
  · simpa [eq_comm] using hn

theorem newline_quote (s : String) : '\n' ∉ quote s := by
  simp [quote, newline_escape]

mutual

theorem newline_write : ∀ v : Json, v.Plain → '\n' ∉ write v
  | null, _ => by decide
  | bool true, _ => by decide
  | bool false, _ => by decide
  | posInt n, _ => fun h => absurd
    (Nat.isDigit_of_mem_toDigits (b := 10) (n := n) (by decide) (by decide) h) (by decide)
  | number _, h => h.elim
  | string s, _ => newline_quote s
  | array [], _ => by decide
  | array (x :: xs), h => by
    have hx := newline_write x h.1
    have hxs := newline_elements xs h.2
    simp [write, hx, hxs]
  | object [], _ => by decide
  | object ((k, x) :: ps), h => by
    have hx := newline_write x h.2.1
    have hps := newline_members ps h.2.2
    simp [write, newline_quote, hx, hps]

theorem newline_elements : ∀ xs : List Json, AllPlain xs → '\n' ∉ writeElements xs
  | [], _ => by decide
  | x :: xs, h => by
    have hx := newline_write x h.1
    have hxs := newline_elements xs h.2
    simp [writeElements, hx, hxs]

theorem newline_members : ∀ ps : List (String × Json), PlainMembers ps → '\n' ∉ writeMembers ps
  | [], _ => by decide
  | (k, x) :: ps, h => by
    have hx := newline_write x h.1
    have hps := newline_members ps h.2
    simp [writeMembers, newline_quote, hx, hps]

end

theorem writeMembers_brace (ps : List (String × Json)) :
    ∃ body, writeMembers ps = body ++ ['\x7d'] := by
  induction ps with
  | nil => exact ⟨[], rfl⟩
  | cons p ps ih =>
    obtain ⟨k, x⟩ := p
    obtain ⟨body, hbody⟩ := ih
    refine ⟨',' :: (quote k ++ ':' :: (write x ++ body)), ?_⟩
    simp [writeMembers, hbody]

/-- An object stands between braces. -/
theorem write_object (ps : List (String × Json)) :
    ∃ body, write (object ps) = '\x7b' :: (body ++ ['\x7d']) := by
  rcases ps with _ | ⟨⟨k, x⟩, ps⟩
  · exact ⟨[], rfl⟩
  · obtain ⟨body, hbody⟩ := writeMembers_brace ps
    exact ⟨quote k ++ ':' :: (write x ++ body), by simp [write, hbody]⟩

end Json
