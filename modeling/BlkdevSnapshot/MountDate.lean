import BlkdevSnapshot.CivilDate
import BlkdevSnapshot.MakeSnapshot

/-!
# The date of the first mount

The text that `__epoch_event_cb_count_mount` formats from the real-time clock.
`time64_to_tm` gives the UTC calendar date and time of day. The kernel keeps its
clock within 64-bit nanoseconds, so the year has four digits and nothing is cut.
-/
namespace BlkdevSnapshot
open CivilDate

/-- `KTIME_SEC_MAX`, the last second that the kernel's clock can show. -/
def ktimeSecMax : ℕ := 9223372036

/-- A reading of `ktime_get_real_ts64`, in seconds. -/
abbrev ClockSec := {t : ℕ // t ≤ ktimeSecMax}

/-- The fields of `struct tm` that the date uses. -/
structure Tm where
  tmYear : ℤ
  tmMon : ℕ
  tmMday : ℕ
  tmHour : ℕ
  tmMin : ℕ
  tmSec : ℕ
  deriving DecidableEq, Repr

/-- `time64_to_tm` with offset 0. -/
def time64ToTm (totalsecs : ℕ) : Tm :=
  let date := ofUnixDays (totalsecs / 86400)
  let rem := totalsecs % 86400
  ⟨(date.year : ℤ) - 1900, date.month - 1, date.day, rem / 3600, rem % 3600 / 60, rem % 60⟩

/-- `"-%04ld-%02d-%02d_%02d:%02d:%02d"` -/
def dateFmt (tm : Tm) : CStr :=
  '-' :: padDec 4 (tm.tmYear + 1900).toNat ++
  '-' :: padDec 2 (tm.tmMon + 1) ++
  '-' :: padDec 2 tm.tmMday ++
  '_' :: padDec 2 tm.tmHour ++
  ':' :: padDec 2 tm.tmMin ++
  ':' :: padDec 2 tm.tmSec

theorem mountTime_le : 5 ≤ ktimeSecMax := by decide

/-- A mount five seconds after the epoch of the clock. -/
def mountTime : ClockSec := ⟨5, mountTime_le⟩

/-- The `snprintf` of `first_mount_date`, into `MNT_FMT_DATE_LEN` bytes. -/
def firstMountDate (tv : ClockSec) : CStr := snprintf mntFmtDateLen (dateFmt (time64ToTm tv.val))

example : firstMountDate ⟨951868799, by decide⟩ = "-2000-02-29_23:59:59".toList := by decide

/-- The fields of a `struct tm` fit in the places of the format. -/
structure Tm.Fits (tm : Tm) : Prop where
  year : (tm.tmYear + 1900).toNat < 10 ^ 4
  mon : tm.tmMon + 1 < 10 ^ 2
  mday : tm.tmMday < 10 ^ 2
  hour : tm.tmHour < 10 ^ 2
  min : tm.tmMin < 10 ^ 2
  sec : tm.tmSec < 10 ^ 2

theorem time64ToTm_fits (tv : ClockSec) : (time64ToTm tv.val).Fits := by
  have htv := tv.property
  have hyear := ofUnixDays_year_le (tv.val / 86400)
  have hmon := ofUnixDays_month_le (tv.val / 86400)
  have hday := ofUnixDays_day_le (tv.val / 86400)
  simp only [ktimeSecMax] at htv
  constructor <;> simp only [time64ToTm] <;> omega

theorem dateFmt_length {tm : Tm} (h : tm.Fits) : (dateFmt tm).length = 20 := by
  simp [dateFmt, padDec_length h.year, padDec_length h.mon, padDec_length h.mday,
    padDec_length h.hour, padDec_length h.min, padDec_length h.sec]

theorem padDec_append_inj {w a b : ℕ} (ha : a < 10 ^ w) (hb : b < 10 ^ w) {s t : CStr}
    (h : padDec w a ++ s = padDec w b ++ t) : a = b ∧ s = t := by
  obtain ⟨hab, hst⟩ := List.append_inj h (by rw [padDec_length ha, padDec_length hb])
  exact ⟨padDec_injective w hab, hst⟩

theorem dateFmt_injective {a b : Tm} (ha : a.Fits) (hb : b.Fits) (h : dateFmt a = dateFmt b) :
    (a.tmYear + 1900).toNat = (b.tmYear + 1900).toNat ∧ a.tmMon = b.tmMon ∧
      a.tmMday = b.tmMday ∧ a.tmHour = b.tmHour ∧ a.tmMin = b.tmMin ∧ a.tmSec = b.tmSec := by
  simp only [dateFmt, List.append_assoc, List.cons_append, List.cons.injEq, true_and] at h
  obtain ⟨hyear, h⟩ := padDec_append_inj ha.year hb.year h
  simp only [List.cons.injEq, true_and] at h
  obtain ⟨hmon, h⟩ := padDec_append_inj ha.mon hb.mon h
  simp only [List.cons.injEq, true_and] at h
  obtain ⟨hmday, h⟩ := padDec_append_inj ha.mday hb.mday h
  simp only [List.cons.injEq, true_and] at h
  obtain ⟨hhour, h⟩ := padDec_append_inj ha.hour hb.hour h
  simp only [List.cons.injEq, true_and] at h
  obtain ⟨hmin, h⟩ := padDec_append_inj ha.min hb.min h
  simp only [List.cons.injEq, true_and] at h
  exact ⟨hyear, Nat.add_right_cancel hmon, hmday, hhour, hmin, padDec_injective 2 h⟩

/-- The broken-down time tells the second. -/
theorem time64ToTm_injective {a b : ℕ} (hday : (time64ToTm a).tmMday = (time64ToTm b).tmMday)
    (hmon : (time64ToTm a).tmMon = (time64ToTm b).tmMon)
    (hyear : ((time64ToTm a).tmYear + 1900).toNat = ((time64ToTm b).tmYear + 1900).toNat)
    (hhour : (time64ToTm a).tmHour = (time64ToTm b).tmHour)
    (hmin : (time64ToTm a).tmMin = (time64ToTm b).tmMin)
    (hsec : (time64ToTm a).tmSec = (time64ToTm b).tmSec) : a = b := by
  simp only [time64ToTm] at hday hmon hyear hhour hmin hsec
  have hpa := ofUnixDays_month_pos (a / 86400)
  have hpb := ofUnixDays_month_pos (b / 86400)
  have hdays : a / 86400 = b / 86400 := by
    apply ofUnixDays_injective
    rw [Date.mk.injEq]
    exact ⟨by omega, by omega, hday⟩
  omega

/-- The whole date is kept, and different seconds have different dates. -/
theorem firstMountDate_eq (tv : ClockSec) :
    firstMountDate tv = dateFmt (time64ToTm tv.val) := by
  apply List.take_of_length_le
  rw [dateFmt_length (time64ToTm_fits tv)]
  decide

theorem firstMountDate_length (tv : ClockSec) : (firstMountDate tv).length = 20 := by
  rw [firstMountDate_eq, dateFmt_length (time64ToTm_fits tv)]

theorem firstMountDate_injective : Function.Injective firstMountDate := by
  intro a b h
  rw [firstMountDate_eq, firstMountDate_eq] at h
  obtain ⟨hyear, hmon, hmday, hhour, hmin, hsec⟩ :=
    dateFmt_injective (time64ToTm_fits a) (time64ToTm_fits b) h
  exact Subtype.ext (time64ToTm_injective hmday hmon hyear hhour hmin hsec)

/-- The directory name is the base name followed by the date, never cut. -/
theorem subdirname_eq (devname : CStr) (tv : ClockSec) :
    subdirname devname (firstMountDate tv) = kbasename devname ++ firstMountDate tv := by
  apply List.take_of_length_le
  have hbase : (kbasename devname).length ≤ devname.length :=
    (List.rtakeWhile_suffix _ _).length_le
  rw [List.length_append, firstMountDate_length, mntFmtDateLen]
  omega

/-- Two names are equal exactly when base names and seconds are. -/
theorem subdirname_inj (dev dev' : CStr) (tv tv' : ClockSec) :
    subdirname dev (firstMountDate tv) = subdirname dev' (firstMountDate tv') ↔
      kbasename dev = kbasename dev' ∧ tv = tv' := by
  rw [subdirname_eq, subdirname_eq]
  constructor
  · intro h
    obtain ⟨hbase, hdate⟩ := List.append_inj' h
      (by rw [firstMountDate_length, firstMountDate_length])
    exact ⟨hbase, firstMountDate_injective hdate⟩
  · rintro ⟨hbase, rfl⟩
    rw [hbase]

end BlkdevSnapshot
