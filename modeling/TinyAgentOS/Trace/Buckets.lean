import Mathlib.Data.List.Lex
import Mathlib.Data.String.Basic
import TinyAgentOS.Registry.CanonicalId

/-!
# Hours and their names

The trace of an agent is kept in one bucket an hour, named `YYYY-MM-DDTHH` after the hour in
UTC.  Times are microseconds since the epoch; days are counted from the first one of year 1.

Main results:

- `bucketKey_mono`: names are ordered as times are, while the year has four digits.
- `strptime_bucketKey`: the start of an hour is read back from its name.
-/

namespace TinyAgentOS.Trace

open Registry

/-! ## The calendar -/

def isLeap (year : Nat) : Prop :=
  year % 4 = 0 ∧ (year % 100 ≠ 0 ∨ year % 400 = 0)

instance (year : Nat) : Decidable (isLeap year) := by
  unfold isLeap
  infer_instance

/-- The days before the first of January. -/
def daysBeforeYear (year : Nat) : Nat :=
  (year - 1) * 365 + (year - 1) / 4 - (year - 1) / 100 + (year - 1) / 400

/-- The days of the year before the first of a month. -/
def daysBeforeMonth (year month : Nat) : Nat :=
  [0, 0, 31, 59, 90, 120, 151, 181, 212, 243, 273, 304, 334].getD month 0 +
    if 2 < month ∧ isLeap year then 1 else 0

/-- The last year with fewer days before it. -/
def yearOf (day : Nat) : Nat :=
  Nat.findGreatest (fun year => daysBeforeYear year < day) 9999

/-- The last month with fewer days of the year before it. -/
def monthOf (year day : Nat) : Nat :=
  Nat.findGreatest (fun month => daysBeforeMonth year month < day) 12

/-- The day of the epoch. -/
def epochDay : Nat := 719163

def microsPerHour : Int := 3600000000

/-- The fields of a time that a name shows. -/
structure HourFields where
  year : Nat
  month : Nat
  day : Nat
  hour : Nat

/-- The day of a time, counted from the first of year 1. -/
def dayOf (t : Int) : Nat :=
  (t / microsPerHour / 24 + epochDay).toNat

def fieldsOf (day hour : Nat) : HourFields :=
  let year := yearOf day
  let month := monthOf year (day - daysBeforeYear year)
  ⟨year, month, day - daysBeforeYear year - daysBeforeMonth year month, hour⟩

/-- `datetime.fromtimestamp`, up to the hour. -/
def fromTimestamp (t : Int) : HourFields :=
  fieldsOf (dayOf t) (t / microsPerHour % 24).toNat

/-- `datetime.timestamp`. -/
def HourFields.timestamp (f : HourFields) : Int :=
  (((daysBeforeYear f.year + daysBeforeMonth f.year f.month + f.day : Nat) - epochDay : Int) * 24 +
    f.hour) * microsPerHour

/-- `strftime("%Y-%m-%dT%H")`. -/
def HourFields.text (f : HourFields) : List Char :=
  padded 4 f.year ++ '-' :: (padded 2 f.month ++ '-' :: (padded 2 f.day ++ 'T' :: padded 2 f.hour))

/-- `_bucket_key`. -/
def bucketKey (t : Int) : List Char :=
  (fromTimestamp t).text

def number (digits : List Char) : Nat :=
  digits.foldl (fun n c => 10 * n + (c.toNat - 48)) 0

/-- `datetime.strptime`, of a text that `strftime` could have made, as a timestamp. -/
def strptime (name : List Char) : Option Int :=
  let f : HourFields :=
    ⟨number (name.take 4), number ((name.drop 5).take 2), number ((name.drop 8).take 2),
      number ((name.drop 11).take 2)⟩
  if name = f.text then some f.timestamp else none

/-- A time in a year of four digits. -/
structure Instant where
  micros : Int
  four_digits : -30610224000000000 ≤ micros ∧ micros < 253402300800000000

/-! ## Days -/

section Days

variable {day : Nat}

/-- A day is after those of the years before its own. -/
theorem daysBeforeYear_yearOf_lt (hday : 0 < day) : daysBeforeYear (yearOf day) < day :=
  Nat.findGreatest_spec (P := fun year => daysBeforeYear year < day) (m := 1) (by norm_num) hday

/-- A day is among those of the years up to its own. -/
theorem le_daysBeforeYear_succ (hday : day ≤ 3652059) : day ≤ daysBeforeYear (yearOf day + 1) := by
  have hle : yearOf day ≤ 9999 := Nat.findGreatest_le 9999
  rcases Nat.lt_or_ge (yearOf day) 9999 with hlt | hge
  · exact not_lt.mp (Nat.findGreatest_is_greatest (P := fun year => daysBeforeYear year < day)
      (Nat.lt_succ_self _) hlt)
  · rw [le_antisymm hle hge]
    exact hday

/-- A year has 366 days at most. -/
theorem daysBeforeYear_succ_le (year : Nat) :
    daysBeforeYear (year + 1) ≤ daysBeforeYear year + 366 := by
  unfold daysBeforeYear
  cases year with
  | zero => norm_num
  | succ year =>
    simp only [Nat.add_sub_cancel, Nat.succ_div]
    have hcenturies : 400 ∣ year + 1 → 100 ∣ year + 1 := Dvd.dvd.trans (by norm_num)
    split <;> split <;> split <;> omega

/-- The day of the year. -/
theorem dayOfYear_le (hday : day ≤ 3652059) : day - daysBeforeYear (yearOf day) ≤ 366 := by
  have hnext := (le_daysBeforeYear_succ hday).trans (daysBeforeYear_succ_le (yearOf day))
  omega

/-- A day is after those of the months before its own. -/
theorem daysBeforeMonth_monthOf_lt (year : Nat) (hday : 0 < day) :
    daysBeforeMonth year (monthOf year day) < day :=
  Nat.findGreatest_spec (P := fun month => daysBeforeMonth year month < day) (m := 1)
    (by norm_num) (by simpa [daysBeforeMonth] using hday)

/-- The day of the month takes two digits. -/
theorem dayOfMonth_lt (year : Nat) (hday : 0 < day) (hle : day ≤ 366) :
    day - daysBeforeMonth year (monthOf year day) < 100 := by
  have htop : monthOf year day ≤ 12 := Nat.findGreatest_le 12
  have hnext : monthOf year day < 12 →
      day ≤ daysBeforeMonth year (monthOf year day + 1) := by
    intro hlt
    exact not_lt.mp (Nat.findGreatest_is_greatest
      (P := fun month => daysBeforeMonth year month < day) (Nat.lt_succ_self _) hlt)
  generalize monthOf year day = month at htop hnext
  have hleap : ∀ p : Prop, ∀ [Decidable p], (if p then 1 else 0) ≤ 1 := by
    intro p _
    split <;> omega
  have hthis := hleap (2 < month ∧ isLeap year)
  have hafter := hleap (2 < month + 1 ∧ isLeap year)
  unfold daysBeforeMonth at hnext ⊢
  generalize (if 2 < month ∧ isLeap year then 1 else 0) = leap at hthis ⊢
  generalize (if 2 < month + 1 ∧ isLeap year then 1 else 0) = leap' at hafter hnext
  interval_cases month <;> simp at hnext ⊢ <;> omega

end Days

/-! ## Names -/

/-- The number of one more digit. -/
theorem number_append (digits : List Char) (c : Char) :
    number (digits ++ [c]) = 10 * number digits + (c.toNat - 48) := by
  simp [number]

/-- The value of a written digit. -/
theorem digitChar_toNat : ∀ n < 10, (Nat.digitChar n).toNat - 48 = n := by
  decide

/-- A padded number reads back. -/
theorem number_padded {k n : Nat} (hn : n < 10 ^ k) : number (padded k n) = n := by
  induction k generalizing n with
  | zero =>
    have hzero : n = 0 := by simpa using hn
    rw [hzero]
    rfl
  | succ k ih =>
    have hquotient : n / 10 < 10 ^ k := by
      rw [pow_succ] at hn
      omega
    rw [padded, number_append, ih hquotient, digitChar_toNat _ (Nat.mod_lt n (by norm_num))]
    omega

/-- Endings do not change the order of texts of one length. -/
theorem append_lt_append {as bs : List Char} (hlength : as.length = bs.length) (h : as < bs)
    (cs ds : List Char) : as ++ cs < bs ++ ds := by
  induction as generalizing bs with
  | nil =>
    rw [List.eq_nil_of_length_eq_zero hlength.symm] at h
    exact absurd h (lt_irrefl _)
  | cons a as ih =>
    cases bs with
    | nil => contradiction
    | cons b bs =>
      rw [List.cons_lt_cons_iff] at h
      rw [List.cons_append, List.cons_append, List.cons_lt_cons_iff]
      exact h.imp_right fun hsame => ⟨hsame.1, ih (Nat.succ.inj hlength) hsame.2⟩

/-- The same text before keeps the order. -/
theorem append_le_append_left (as : List Char) {bs cs : List Char} (h : bs ≤ cs) :
    as ++ bs ≤ as ++ cs := by
  induction as with
  | nil => exact h
  | cons a as ih =>
    rw [List.cons_append, List.cons_append]
    exact List.cons_le_cons a ih

/-- Digits are ordered as they are written. -/
theorem digitChar_lt : ∀ m < 10, ∀ n < 10, m < n → Nat.digitChar m < Nat.digitChar n := by
  decide

/-- Padded numbers are ordered as numbers are. -/
theorem padded_lt {k m n : Nat} (hn : n < 10 ^ k) (h : m < n) : padded k m < padded k n := by
  induction k generalizing m n with
  | zero => omega
  | succ k ih =>
    rw [pow_succ] at hn
    rcases Nat.lt_or_ge (m / 10) (n / 10) with hlt | hge
    · exact append_lt_append (by simp) (ih (by omega) hlt) _ _
    · have hsame : m / 10 = n / 10 := by omega
      rw [padded, padded, hsame]
      have hlast : [Nat.digitChar (m % 10)] < [Nat.digitChar (n % 10)] := by
        refine List.cons_lt_cons_iff.mpr (Or.inl ?_)
        exact digitChar_lt _ (Nat.mod_lt m (by norm_num)) _ (Nat.mod_lt n (by norm_num))
          (by omega)
      exact lt_of_le_of_ne (append_le_append_left _ hlast.le) fun heq =>
        hlast.ne (List.append_cancel_left heq)

/-- The fields fit into their places. -/
structure HourFields.Fits (f : HourFields) : Prop where
  year : f.year < 10 ^ 4
  month : f.month < 10 ^ 2
  day : f.day < 10 ^ 2
  hour : f.hour < 10 ^ 2

/-- A bucket's text reads back. -/
theorem timestamp_of_text {f : HourFields} (h : f.Fits) : strptime f.text = some f.timestamp := by
  have hfields : (⟨number (f.text.take 4), number ((f.text.drop 5).take 2),
      number ((f.text.drop 8).take 2), number ((f.text.drop 11).take 2)⟩ : HourFields) = f := by
    have hdrop : ∀ {k m : Nat} (n : Nat), k ≤ m → (padded k n).drop m = [] :=
      fun n hle => List.drop_eq_nil_of_le (by simpa using hle)
    have hyear : f.text.take 4 = padded 4 f.year := List.take_left' (length_padded 4 _)
    have hmonth : (f.text.drop 5).take 2 = padded 2 f.month := by
      simp [HourFields.text, List.drop_append, List.take_append]
    have hday : (f.text.drop 8).take 2 = padded 2 f.day := by
      simp [HourFields.text, List.drop_append, hdrop]
    have hhour : (f.text.drop 11).take 2 = padded 2 f.hour := by
      simp [HourFields.text, List.drop_append, List.take_of_length_le, hdrop]
    rw [hyear, hmonth, hday, hhour, number_padded h.year, number_padded h.month,
      number_padded h.day, number_padded h.hour]
  simp only [strptime, hfields, if_true]

/-- Padded numbers are ordered as they are written. -/
theorem append_lt_of_padded {k m n : Nat} (hn : n < 10 ^ k) (h : m < n) (cs ds : List Char) :
    padded k m ++ cs < padded k n ++ ds :=
  append_lt_append (by simp) (padded_lt hn h) cs ds

/-- The texts of fields that fit are ordered field by field. -/
theorem text_le {f g : HourFields} (hg : g.Fits)
    (h : f.year < g.year ∨ f.year = g.year ∧ (f.month < g.month ∨ f.month = g.month ∧
      (f.day < g.day ∨ f.day = g.day ∧ f.hour ≤ g.hour))) : f.text ≤ g.text := by
  unfold HourFields.text
  rcases h with hyear | ⟨hyear, h⟩
  · exact (append_lt_of_padded hg.year hyear _ _).le
  · rw [hyear]
    refine append_le_append_left _ (List.cons_le_cons _ ?_)
    rcases h with hmonth | ⟨hmonth, h⟩
    · exact (append_lt_of_padded hg.month hmonth _ _).le
    · rw [hmonth]
      refine append_le_append_left _ (List.cons_le_cons _ ?_)
      rcases h with hday | ⟨hday, hhour⟩
      · exact (append_lt_of_padded hg.day hday _ _).le
      · rw [hday]
        refine append_le_append_left _ (List.cons_le_cons _ ?_)
        rcases hhour.lt_or_eq with hlt | heq
        · exact (padded_lt hg.hour hlt).le
        · rw [heq]

/-! ## Days and their fields -/

section Fields

variable {day day' : Nat} (hour hour' : Nat)

/-- The fields of a day count back to it. -/
theorem daysBefore_fieldsOf (hday : 0 < day) :
    daysBeforeYear (fieldsOf day hour).year +
      daysBeforeMonth (fieldsOf day hour).year (fieldsOf day hour).month +
        (fieldsOf day hour).day = day := by
  have hyear := daysBeforeYear_yearOf_lt hday
  have hmonth := daysBeforeMonth_monthOf_lt (yearOf day) (Nat.sub_pos_of_lt hyear)
  simp only [fieldsOf]
  omega

/-- The fields of a day fit their digits. -/
theorem fits_fieldsOf (hday : 0 < day) (htop : day ≤ 3652059) (hhour : hour < 24) :
    (fieldsOf day hour).Fits where
  year := Nat.lt_succ_of_le (Nat.findGreatest_le (P := fun year => daysBeforeYear year < day) 9999)
  month := by
    have hle : monthOf (yearOf day) (day - daysBeforeYear (yearOf day)) ≤ 12 :=
      Nat.findGreatest_le 12
    exact hle.trans_lt (by norm_num)
  day := dayOfMonth_lt _ (Nat.sub_pos_of_lt (daysBeforeYear_yearOf_lt hday)) (dayOfYear_le htop)
  hour := hhour.trans (by norm_num)

/-- A later day has a later name. -/
theorem text_le_of_day_lt (hday : 0 < day) (hlt : day < day') (hfits : (fieldsOf day' hour').Fits) :
    (fieldsOf day hour).text ≤ (fieldsOf day' hour').text := by
  refine text_le hfits ?_
  simp only [fieldsOf]
  have hyears : yearOf day ≤ yearOf day' :=
    Nat.findGreatest_mono_left (fun _ h => h.trans hlt) _
  rcases hyears.lt_or_eq with hyear | hyear
  · exact Or.inl hyear
  · rw [hyear]
    refine Or.inr ⟨rfl, ?_⟩
    have hbefore : daysBeforeYear (yearOf day') < day := by
      rw [← hyear]
      exact daysBeforeYear_yearOf_lt hday
    have hmonths : monthOf (yearOf day') (day - daysBeforeYear (yearOf day')) ≤
        monthOf (yearOf day') (day' - daysBeforeYear (yearOf day')) :=
      Nat.findGreatest_mono_left (fun _ h => h.trans_le (Nat.sub_le_sub_right hlt.le _)) _
    have hmonth := daysBeforeMonth_monthOf_lt (yearOf day') (Nat.sub_pos_of_lt hbefore)
    rcases hmonths.lt_or_eq with hlt' | heq
    · exact Or.inl hlt'
    · rw [← heq]
      refine Or.inr ⟨rfl, Or.inl ?_⟩
      omega

end Fields

/-! ## Times of four-digit years -/

namespace Instant

variable (t : Instant)

/-- An instant is on a day of the calendar. -/
theorem dayOf_bounds : 0 < dayOf t.micros ∧ dayOf t.micros ≤ 3652059 := by
  have hbounds := t.four_digits
  unfold dayOf microsPerHour epochDay
  omega

/-- An instant is in one of 24 hours. -/
theorem hour_lt : (t.micros / microsPerHour % 24).toNat < 24 := by
  omega

/-- The fields of an instant fit their digits. -/
theorem fits : (fromTimestamp t.micros).Fits :=
  fits_fieldsOf _ t.dayOf_bounds.1 t.dayOf_bounds.2 t.hour_lt

/-- The start of an hour is read back from its name. -/
theorem strptime_bucketKey :
    strptime (bucketKey t.micros) = some (t.micros / microsPerHour * microsPerHour) := by
  rw [bucketKey, timestamp_of_text t.fits, HourFields.timestamp, fromTimestamp,
    daysBefore_fieldsOf _ t.dayOf_bounds.1]
  have hpos := t.dayOf_bounds.1
  simp only [fieldsOf, dayOf] at hpos ⊢
  congr 2
  omega

/-- Later instants have no earlier buckets. -/
theorem bucketKey_mono {t u : Instant} (h : t.micros ≤ u.micros) :
    bucketKey t.micros ≤ bucketKey u.micros := by
  have hhours : t.micros / microsPerHour ≤ u.micros / microsPerHour :=
    Int.ediv_le_ediv (by norm_num [microsPerHour]) h
  have hdays : dayOf t.micros ≤ dayOf u.micros := by
    unfold dayOf
    omega
  rcases hdays.lt_or_eq with hlt | heq
  · exact text_le_of_day_lt _ _ t.dayOf_bounds.1 hlt u.fits
  · refine text_le u.fits ?_
    have hpos := t.dayOf_bounds.1
    have hpos' := u.dayOf_bounds.1
    simp only [fromTimestamp, heq, fieldsOf]
    refine Or.inr ⟨trivial, Or.inr ⟨trivial, Or.inr ⟨trivial, ?_⟩⟩⟩
    unfold dayOf at hpos hpos' heq
    omega

end Instant

end TinyAgentOS.Trace
