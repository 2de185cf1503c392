import NamPlug.Lib.Calendar
import NamPlug.Receipt.Release

/-!
# The clock of the performance guard

The timestamps of the performance reports (`bin/nam_perf_guard.rs`), whose dates may lie on either
side of the epoch.
-/

namespace NamPlug.Receipt

/-- `civil_from_days`, with the division toward zero that the code has. -/
def civilFromDays (days : Int) : Date :=
  let z := days + 719468
  let era := Int.tdiv (if z ≥ 0 then z else z - 146096) 146097
  let doe := (z - era * 146097).toNat
  let yoe := (doe - doe / 1460 + doe / 36524 - doe / 146096) / 365
  let year := yoe + era * 400
  let doy := doe - (365 * yoe + yoe / 4 - yoe / 100)
  let mp := (5 * doy + 2) / 153
  let day := doy - (153 * mp + 2) / 5 + 1
  let month := if mp < 10 then mp + 3 else mp - 9
  ⟨if month ≤ 2 then year + 1 else year, month, day⟩

/-- A number with at least `width` characters, its sign among them. -/
def paddedInt (width : Nat) : Int → String
  | .ofNat n => padded width n
  | .negSucc n => "-" ++ padded (width - 1) (n + 1)

/-- `format_iso8601` -/
def formatIso8601 (secs : Nat) : String :=
  let days := secs / 86400
  let rem := secs % 86400
  let date := civilFromDays days
  let year := paddedInt 4 date.year
  let month := padded 2 date.month
  let day := padded 2 date.day
  let hours := padded 2 (rem / 3600)
  let minutes := padded 2 (rem % 3600 / 60)
  let seconds := padded 2 (rem % 60)
  s!"{year}-{month}-{day}T{hours}:{minutes}:{seconds}Z"

end NamPlug.Receipt
