import NamPlug.Lib.Decimal
import NamPlug.Receipt.Clock

/-!
# The order of the timestamps

The two clocks write the same text, the dates are those of the calendar, and timestamps sort as text
in the order of the times they stand for.
-/

namespace NamPlug.Receipt

open Date Decimal

/-! ## Years of an era -/

/-- The days of an era up to `doe`, less the leap days. -/
def leapless (doe : Nat) : Nat := doe - doe / 1460 + doe / 36524 - doe / 146096

theorem leapless_mono_step {doe : Nat} (h : doe + 1 < 146097) :
    leapless doe ≤ leapless (doe + 1) := by
  unfold leapless
  omega

theorem leapless_mono {a b : Nat} (hab : a ≤ b) (hb : b < 146097) : leapless a ≤ leapless b := by
  induction b with
  | zero =>
    obtain rfl : a = 0 := by omega
    exact le_rfl
  | succ b ih =>
    rcases Nat.lt_or_ge b a with hlt | hge
    · obtain rfl : a = b + 1 := by omega
      exact le_rfl
    · exact (ih hge (by omega)).trans (leapless_mono_step hb)

theorem leapless_yearStart :
    ∀ y < 400, 365 * y ≤ leapless (yearStart y) ∧
      leapless (yearStart (y + 1) - 1) < 365 * (y + 1) ∧ yearStart (y + 1) ≤ 146097 := by
  decide +kernel

/-- The year of an era as the code has it. -/
theorem yoe_eq {y doe : Nat} (hy : y ≤ 399) (hfrom : yearStart y ≤ doe)
    (hto : doe < yearStart (y + 1)) : leapless doe / 365 = y := by
  obtain ⟨hstart, hend, hera⟩ := leapless_yearStart y (by omega)
  have hge := leapless_mono hfrom (by omega)
  have hle : leapless doe ≤ leapless (yearStart (y + 1) - 1) := leapless_mono (by omega) (by omega)
  omega

theorem tdiv_era (z : Int) : Int.tdiv (if z ≥ 0 then z else z - 146096) 146097 = z / 146097 := by
  split_ifs with hz
  · exact Int.tdiv_eq_ediv_of_nonneg hz
  · have hsign : Int.sign 146097 = 1 := rfl
    rw [Int.tdiv_eq_ediv, hsign]
    split_ifs <;> omega

/-! ## Dates -/

theorem civilFromDays_number (d : MarchDay) : civilFromDays (d.number - 719468) = d.date := by
  have hsucc := yearStart_succ d.era d.yoe_le
  have hdoy := d.doy_lt
  obtain ⟨-, -, hera⟩ := leapless_yearStart d.yoe (by have := d.yoe_le; omega)
  have hz : d.number - 719468 + 719468 = d.number := by omega
  have hdiv : d.number / 146097 = d.era := by
    unfold MarchDay.number
    omega
  have hdoe : (d.number - d.era * 146097).toNat = yearStart d.yoe + d.doy := by
    unfold MarchDay.number
    omega
  have hyoe := yoe_eq d.yoe_le (Nat.le_add_right (yearStart d.yoe) d.doy) (by omega)
  have hstart : yearStart d.yoe = 365 * d.yoe + d.yoe / 4 - d.yoe / 100 := by
    have hle := d.yoe_le
    unfold yearStart
    omega
  unfold leapless at hyoe
  unfold civilFromDays
  simp only [hz, tdiv_era, hdiv, hdoe, hyoe, ← hstart, Nat.add_sub_cancel_left]
  rfl

theorem exists_marchDay (days : Int) :
    ∃ d : MarchDay, d.number = days + 719468 ∧ civilFromDays days = d.date := by
  obtain ⟨d, hd⟩ := MarchDay.exists_number (days + 719468)
  have hdays : days = d.number - 719468 := by omega
  exact ⟨d, hd, by rw [hdays]; exact civilFromDays_number d⟩

theorem civilFromDays_succ (days : Int) : civilFromDays (days + 1) = (civilFromDays days).next := by
  obtain ⟨d, hd, hdate⟩ := exists_marchDay days
  have hnext : days + 1 = d.next.number - 719468 := by
    rw [MarchDay.number_next]
    omega
  rw [hdate, hnext, civilFromDays_number, MarchDay.date_next]

theorem civilFromDays_zero : civilFromDays 0 = ⟨1970, 1, 1⟩ := by
  decide +kernel

theorem civilFromDays_before {a b : Nat} (hab : a < b) :
    (civilFromDays a).Before (civilFromDays b) :=
  before_of_next (f := fun n => civilFromDays n) (fun n => civilFromDays_succ n) hab

theorem civilFromDays_le (days : Int) :
    (civilFromDays days).month ≤ 12 ∧ (civilFromDays days).day ≤ 31 := by
  obtain ⟨d, -, hdate⟩ := exists_marchDay days
  have hdoy : d.doy < 366 := by
    have hlt := d.doy_lt
    unfold marchYearLength at hlt
    split_ifs at hlt <;> omega
  rw [hdate]
  exact monthDay_le d.doy hdoy

/-- The years that a timestamp writes with four digits. -/
theorem civilFromDays_year {days : Nat} (h : days < 2932897) :
    1970 ≤ (civilFromDays days).year ∧ (civilFromDays days).year ≤ 9999 := by
  have hlast : civilFromDays (2932896 : Nat) = ⟨9999, 12, 31⟩ := by decide +kernel
  constructor
  · rcases Nat.eq_zero_or_pos days with rfl | hpos
    · rw [Int.natCast_zero, civilFromDays_zero]
    · have hyear := (civilFromDays_before hpos).year_le
      rwa [Int.natCast_zero, civilFromDays_zero] at hyear
  · rcases Nat.lt_or_ge days 2932896 with hlt | hge
    · have hyear := (civilFromDays_before hlt).year_le
      rwa [hlast] at hyear
    · obtain rfl : days = 2932896 := by omega
      rw [hlast]

/-! ## Texts -/

theorem toList_padded {width n : Nat} (hwidth : 0 < width) (hn : n < 10 ^ width) :
    (padded width n).toList = digits width n := by
  unfold padded
  rw [String.toList_ofList, replicate_append_toDigits hwidth hn]

theorem toList_paddedInt {width : Nat} {n : Int} (hwidth : 0 < width) (hpos : 0 ≤ n)
    (hn : n < 10 ^ width) : (paddedInt width n).toList = digits width n.toNat := by
  obtain ⟨k, rfl⟩ := Int.eq_ofNat_of_zero_le hpos
  exact toList_padded hwidth (by exact_mod_cast hn)

def dateText (d : Date) : List Char :=
  digits 4 d.year.toNat ++ ('-' :: (digits 2 d.month ++ ('-' :: digits 2 d.day)))

def timeText (timeOfDay : Nat) : List Char :=
  digits 2 (timeOfDay / 3600) ++ (':' :: (digits 2 (timeOfDay % 3600 / 60) ++
    (':' :: digits 2 (timeOfDay % 60))))

theorem toList_formatIso8601 {secs : Nat} (h : secs < 253402300800) :
    (formatIso8601 secs).toList =
      dateText (civilFromDays (secs / 86400 : Nat)) ++
        ('T' :: (timeText (secs % 86400) ++ ['Z'])) := by
  have hdays : secs / 86400 < 2932897 := by omega
  obtain ⟨hfrom, hto⟩ := civilFromDays_year hdays
  obtain ⟨hmonth, hday⟩ := civilFromDays_le (secs / 86400 : Nat)
  unfold formatIso8601
  have hyear : (paddedInt 4 (civilFromDays (secs / 86400 : Nat)).year).toList =
      digits 4 (civilFromDays (secs / 86400 : Nat)).year.toNat :=
    toList_paddedInt (by decide) (by omega) (by omega)
  simp only [String.toList_append, hyear, toString, dateText, timeText]
  rw [toList_padded (by decide) (by omega), toList_padded (by decide) (by omega),
    toList_padded (by decide) (by omega), toList_padded (by decide) (by omega),
    toList_padded (by decide) (by omega)]
  simp

theorem dateText_lt {a b : Date} (h : a.Before b) (ha : 0 ≤ a.year) (hb : b.year ≤ 9999)
    (hmonth : b.month ≤ 12) (hday : b.day ≤ 31) : dateText a < dateText b := by
  unfold dateText
  rcases h with hyear | ⟨hyear, hm | ⟨hm, hd⟩⟩
  · exact append_lt_append (digits_lt (by omega) (by omega)) (by simp) _ _
  · rw [hyear]
    refine List.append_left_lt (List.cons_lt_cons_iff.2 (.inr ⟨rfl, ?_⟩))
    exact append_lt_append (digits_lt hm (by omega)) (by simp) _ _
  · rw [hyear, hm]
    refine List.append_left_lt (List.cons_lt_cons_iff.2 (.inr ⟨rfl, ?_⟩))
    refine List.append_left_lt (List.cons_lt_cons_iff.2 (.inr ⟨rfl, ?_⟩))
    exact digits_lt hd (by omega)

theorem timeText_lt {a b : Nat} (hab : a < b) (hb : b < 86400) : timeText a < timeText b := by
  unfold timeText
  rcases Nat.lt_or_ge (a / 3600) (b / 3600) with hlt | hge
  · exact append_lt_append (digits_lt hlt (by omega)) (by simp) _ _
  · have hhour : a / 3600 = b / 3600 := by omega
    rw [hhour]
    refine List.append_left_lt (List.cons_lt_cons_iff.2 (.inr ⟨rfl, ?_⟩))
    rcases Nat.lt_or_ge (a % 3600 / 60) (b % 3600 / 60) with hlt | hge
    · exact append_lt_append (digits_lt hlt (by omega)) (by simp) _ _
    · have hminute : a % 3600 / 60 = b % 3600 / 60 := by omega
      rw [hminute]
      refine List.append_left_lt (List.cons_lt_cons_iff.2 (.inr ⟨rfl, ?_⟩))
      exact digits_lt (by omega) (by omega)

theorem formatIso8601_lt {a b : Nat} (hab : a < b) (hb : b < 253402300800) :
    formatIso8601 a < formatIso8601 b := by
  rw [String.lt_iff, toList_formatIso8601 (by omega), toList_formatIso8601 hb]
  rcases Nat.lt_or_ge (a / 86400) (b / 86400) with hlt | hge
  · have hdays : b / 86400 < 2932897 := by omega
    obtain ⟨hfrom, -⟩ := civilFromDays_year (hlt.trans hdays)
    obtain ⟨-, hto⟩ := civilFromDays_year hdays
    obtain ⟨hmonth, hday⟩ := civilFromDays_le (b / 86400 : Nat)
    have hdate := dateText_lt (civilFromDays_before hlt) (by omega) hto hmonth hday
    exact append_lt_append hdate (by simp [dateText]) _ _
  · have hdays : a / 86400 = b / 86400 := by omega
    rw [hdays]
    refine List.append_left_lt (List.cons_lt_cons_iff.2 (.inr ⟨rfl, ?_⟩))
    exact append_lt_append (timeText_lt (by omega) (by omega)) (by simp [timeText]) _ _

/-! ## The release clock -/

theorem civilFromDays_natCast (days : Nat) :
    let z := days + 719468
    let doe := z - z / 146097 * 146097
    let yoe := (doe - doe / 1460 + doe / 36524 - doe / 146096) / 365
    let y := yoe + z / 146097 * 400
    let doy := doe - (365 * yoe + yoe / 4 - yoe / 100)
    let mp := (5 * doy + 2) / 153
    let m := if mp < 10 then mp + 3 else mp - 9
    civilFromDays days =
      ⟨((if m ≤ 2 then y + 1 else y : Nat) : Int), m, doy - (153 * mp + 2) / 5 + 1⟩ := by
  intro z doe yoe y doy mp m
  have hz : (days : Int) + 719468 = (z : Int) := by omega
  have hera : (z : Int) / 146097 = ((z / 146097 : Nat) : Int) := by omega
  have hdoe : ((z : Int) - ((z / 146097 : Nat) : Int) * 146097).toNat = doe := by omega
  unfold civilFromDays
  simp only [hz, tdiv_era, hera, hdoe]
  congr 1
  change (if m ≤ 2 then (y : Int) + 1 else y) = ((if m ≤ 2 then y + 1 else y : Nat) : Int)
  split_ifs <;> rfl

theorem formatIso8601_eq (secs : Nat) : formatIso8601 secs = iso8601 secs := by
  unfold formatIso8601 iso8601
  simp only [civilFromDays_natCast]
  rfl

/-! ## Main results -/

/-- The dates are those of the calendar, day after day, on either side of the epoch. -/
theorem civilFromDays_gregorian :
    civilFromDays 0 = ⟨1970, 1, 1⟩ ∧
      ∀ days, civilFromDays (days + 1) = (civilFromDays days).next :=
  ⟨civilFromDays_zero, civilFromDays_succ⟩

/-- Up to the year 9999, the timestamps of reports and of release receipts are the same texts, and
they sort as text in the order of time. -/
theorem timestamps_sorted {a b : Nat} (ha : a < 253402300800) (hb : b < 253402300800) :
    formatIso8601 a = iso8601 a ∧ (iso8601 a < iso8601 b ↔ a < b) := by
  refine ⟨formatIso8601_eq a, ?_⟩
  rw [← formatIso8601_eq, ← formatIso8601_eq]
  constructor
  · intro hlt
    rcases Nat.lt_trichotomy a b with h | rfl | h
    · exact h
    · exact absurd hlt (String.lt_irrefl _)
    · exact absurd (formatIso8601_lt h ha) (String.lt_asymm hlt)
  · intro h
    exact formatIso8601_lt h hb

/-- The last second of a leap day and the second after it. -/
theorem timestamps_sorted_leap_day :
    iso8601 951868799 = "2000-02-29T23:59:59Z" ∧ iso8601 951868799 < iso8601 951868800 :=
  ⟨by decide +kernel, (timestamps_sorted (by decide) (by decide)).2.2 (by decide)⟩

end NamPlug.Receipt
