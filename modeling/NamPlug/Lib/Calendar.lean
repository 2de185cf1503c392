import Mathlib.Tactic.Common
import Mathlib.Tactic.SplitIfs

/-!
# The Gregorian calendar

Dates of the proleptic Gregorian calendar, the day after a date, and the order of dates. Days are
counted in years that begin in March, whose last day is the leap day.
-/

structure Date where
  year : Int
  month : Nat
  day : Nat
  deriving DecidableEq, Repr

namespace Date

def isLeap (year : Int) : Bool := year % 4 == 0 && (year % 100 != 0 || year % 400 == 0)

def daysInMonth (year : Int) (month : Nat) : Nat :=
  if month = 2 then if isLeap year then 29 else 28
  else if month = 4 ∨ month = 6 ∨ month = 9 ∨ month = 11 then 30
  else 31

/-- The day after. -/
def next (d : Date) : Date :=
  if d.day < daysInMonth d.year d.month then ⟨d.year, d.month, d.day + 1⟩
  else if d.month < 12 then ⟨d.year, d.month + 1, 1⟩
  else ⟨d.year + 1, 1, 1⟩

def Before (a b : Date) : Prop :=
  a.year < b.year ∨
    a.year = b.year ∧ (a.month < b.month ∨ a.month = b.month ∧ a.day < b.day)

theorem before_next (d : Date) : d.Before d.next := by
  unfold next Before
  split_ifs with hday hmonth
  · right; simp
  · right; simp
  · left; exact Int.lt_succ d.year

theorem Before.trans {a b c : Date} (h : a.Before b) (h' : b.Before c) : a.Before c := by
  unfold Before at *
  omega

theorem Before.year_le {a b : Date} (h : a.Before b) : a.year ≤ b.year := by
  unfold Before at h
  omega

/-- Days that follow one another are in the order of their dates. -/
theorem before_of_next {f : Nat → Date} (h : ∀ n, f (n + 1) = (f n).next) {a b : Nat}
    (hab : a < b) : (f a).Before (f b) := by
  induction b with
  | zero => omega
  | succ b ih =>
    have hnext : (f b).Before (f (b + 1)) := by
      rw [h b]
      exact before_next (f b)
    rcases Nat.lt_succ_iff_lt_or_eq.1 hab with hlt | rfl
    · exact (ih hlt).trans hnext
    · exact hnext

theorem daysInMonth_of_ne {month : Nat} (h : month ≠ 2) (y y' : Int) :
    daysInMonth y month = daysInMonth y' month := by
  simp [daysInMonth, h]

theorem daysInMonth_common_le (y : Int) (month : Nat) :
    daysInMonth 1 month ≤ daysInMonth y month := by
  unfold daysInMonth
  split_ifs <;> simp_all [isLeap]

/-! ## Years from March on -/

/-- The date of a month and a day of the year that begins in March of `y`. -/
def inMarchYear (y : Int) (md : Nat × Nat) : Date :=
  ⟨if md.1 ≤ 2 then y + 1 else y, md.1, md.2⟩

/-- A day and the day after it, up to the 28th of February. -/
def Follows (a b : Nat × Nat) : Prop :=
  b.1 = a.1 ∧ b.2 = a.2 + 1 ∧ a.2 < daysInMonth 1 a.1 ∨
    a.1 ≠ 2 ∧ a.2 = daysInMonth 1 a.1 ∧ b.2 = 1 ∧
      (a.1 < 12 ∧ b.1 = a.1 + 1 ∧ (b.1 ≤ 2 ↔ a.1 ≤ 2) ∨ a.1 = 12 ∧ b.1 = 1)

instance (a b : Nat × Nat) : Decidable (Follows a b) :=
  inferInstanceAs (Decidable (_ ∨ _))

theorem Follows.next_inMarchYear {a b : Nat × Nat} (h : Follows a b) (y : Int) :
    (inMarchYear y a).next = inMarchYear y b := by
  obtain ⟨m, d⟩ := a
  obtain ⟨m', d'⟩ := b
  unfold inMarchYear next
  rcases h with ⟨hm, hd, hlt⟩ | ⟨hne, hlast, hd, hmonth⟩
  · have hle := daysInMonth_common_le (if m ≤ 2 then y + 1 else y) m
    simp only at hm hd hlt hle ⊢
    rw [if_pos (by omega), hm, hd]
  · have heq := daysInMonth_of_ne hne (if m ≤ 2 then y + 1 else y) 1
    simp only at hlast hd hmonth heq ⊢
    rw [if_neg (by omega)]
    rcases hmonth with ⟨hlt, rfl, hyear⟩ | ⟨rfl, rfl⟩
    · simp [hlt, hyear, hd]
    · simp [hd]

/-- The month and the day of a day of a year from March on. -/
def monthDay (doy : Nat) : Nat × Nat :=
  let mp := (5 * doy + 2) / 153
  (if mp < 10 then mp + 3 else mp - 9, doy - (153 * mp + 2) / 5 + 1)

theorem monthDay_follows : ∀ doy < 364, Follows (monthDay doy) (monthDay (doy + 1)) := by
  decide +kernel

theorem monthDay_le : ∀ doy < 366, (monthDay doy).1 ≤ 12 ∧ (monthDay doy).2 ≤ 31 := by
  decide +kernel

def marchYearLength (y : Int) : Nat := if isLeap (y + 1) then 366 else 365

/-- From one day of a year from March on to the next, and from the last to the first of March. -/
theorem next_inMarchYear (y : Int) {doy : Nat} (hdoy : doy < marchYearLength y) :
    (inMarchYear y (monthDay doy)).next =
      if doy + 1 < marchYearLength y then inMarchYear y (monthDay (doy + 1))
      else inMarchYear (y + 1) (monthDay 0) := by
  unfold marchYearLength at *
  rcases Nat.lt_or_ge doy 364 with hearly | hlate
  · rw [(monthDay_follows doy hearly).next_inMarchYear y, if_pos (by split_ifs <;> omega)]
  have hfirst : monthDay 0 = (3, 1) := rfl
  have h28 : monthDay 364 = (2, 28) := rfl
  have h29 : monthDay 365 = (2, 29) := rfl
  by_cases hleap : isLeap (y + 1)
  · rw [if_pos hleap] at hdoy ⊢
    obtain rfl | rfl : doy = 364 ∨ doy = 365 := by omega
    · simp [inMarchYear, next, daysInMonth, hleap, h28, h29]
    · simp [inMarchYear, next, daysInMonth, hleap, hfirst, h29]
  · rw [if_neg hleap] at hdoy ⊢
    obtain rfl : doy = 364 := by omega
    simp [inMarchYear, next, daysInMonth, hleap, hfirst, h28]

/-! ## Eras of 400 years -/

/-- The days of an era before its year `y`. -/
def yearStart (y : Nat) : Nat := 365 * y + y / 4 - y / 100 + y / 400

theorem yearStart_succ (era : Int) {y : Nat} (h : y ≤ 399) :
    yearStart (y + 1) = yearStart y + marchYearLength (y + era * 400) := by
  have hleap : isLeap (y + era * 400 + 1) = ((y + 1) % 4 == 0 &&
      ((y + 1) % 100 != 0 || (y + 1) % 400 == 0)) := by
    unfold isLeap
    congr 1
    · grind
    · grind
  unfold yearStart marchYearLength
  rw [hleap]
  split_ifs with h'
  · simp at h'
    omega
  · simp at h'
    omega

theorem marchYearLength_pos (y : Int) : 0 < marchYearLength y := by
  unfold marchYearLength
  split_ifs <;> simp

/-- A day by its era, its year of the era and its day of the year, from March on. -/
structure MarchDay where
  era : Int
  yoe : Nat
  doy : Nat
  yoe_le : yoe ≤ 399
  doy_lt : doy < marchYearLength (yoe + era * 400)

namespace MarchDay

/-- The days from the first of March of the year 0. -/
def number (d : MarchDay) : Int := d.era * 146097 + yearStart d.yoe + d.doy

def date (d : MarchDay) : Date := inMarchYear (d.yoe + d.era * 400) (monthDay d.doy)

def next (d : MarchDay) : MarchDay :=
  if h : d.doy + 1 < marchYearLength (d.yoe + d.era * 400) then
    ⟨d.era, d.yoe, d.doy + 1, d.yoe_le, h⟩
  else if h : d.yoe < 399 then ⟨d.era, d.yoe + 1, 0, h, marchYearLength_pos _⟩
  else ⟨d.era + 1, 0, 0, by decide, marchYearLength_pos _⟩

theorem number_next (d : MarchDay) : d.next.number = d.number + 1 := by
  have hsucc := yearStart_succ d.era d.yoe_le
  have hlt := d.doy_lt
  unfold next
  split_ifs with hdoy hyoe
  · simp only [number]
    omega
  · simp only [number]
    omega
  · have hlast : d.yoe = 399 := by have := d.yoe_le; omega
    have hend : yearStart (d.yoe + 1) = 146097 := by rw [hlast]; rfl
    have hstart : yearStart 0 = 0 := rfl
    simp only [number, hstart]
    omega

theorem date_next (d : MarchDay) : d.next.date = d.date.next := by
  have hnext := next_inMarchYear (d.yoe + d.era * 400) d.doy_lt
  unfold date
  rw [hnext]
  unfold next
  split_ifs with hdoy hyoe
  · rfl
  · simp only
    congr 1
    omega
  · have hlast : d.yoe = 399 := by have := d.yoe_le; omega
    simp only
    congr 1
    omega

/-- Where `n` falls among the years of an era. -/
theorem exists_yoe {n : Nat} :
    ∀ k, n < yearStart k → ∃ y < k, yearStart y ≤ n ∧ n < yearStart (y + 1)
  | 0, h => absurd h (Nat.not_lt_zero n)
  | k + 1, h => by
    rcases Nat.lt_or_ge n (yearStart k) with hlt | hge
    · obtain ⟨y, hy, hfrom, hto⟩ := exists_yoe k hlt
      exact ⟨y, Nat.lt_succ_of_lt hy, hfrom, hto⟩
    · exact ⟨k, Nat.lt_succ_self k, hge, h⟩

/-- Every number is that of a day. -/
theorem exists_number (z : Int) : ∃ d : MarchDay, d.number = z := by
  have hdoe : (z % 146097).toNat < yearStart 400 := by
    have hend : yearStart 400 = 146097 := rfl
    omega
  obtain ⟨y, hy, hfrom, hto⟩ := exists_yoe 400 hdoe
  have hsucc := yearStart_succ (z / 146097) (Nat.le_of_lt_succ hy)
  refine ⟨⟨z / 146097, y, (z % 146097).toNat - yearStart y, Nat.le_of_lt_succ hy, by omega⟩, ?_⟩
  simp only [number]
  omega

end MarchDay

end Date
