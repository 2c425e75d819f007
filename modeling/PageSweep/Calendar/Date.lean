/-!
# Dates

The Gregorian calendar over all years, before the first one too. Days are counted from 1 January 1970. A
day is split into cycles of 400 years, centuries, spans of four years and years, each longest one first;
the last century of a cycle and the last year of a span may be one day longer than the others.

* `toDays_ofDays`: every day count is the count of its date.
-/

namespace PageSweep

/-- A date; `Date.isValid` says that the calendar has it. -/
structure Date where
  year : Int
  month : Nat
  day : Nat
deriving DecidableEq, Repr

namespace Date

def isLeap (year : Int) : Bool := year % 4 == 0 && (year % 100 != 0 || year % 400 == 0)

/-- The lengths of the months of a year. -/
def monthLengths (leap : Bool) : List Nat :=
  [31, if leap then 29 else 28, 31, 30, 31, 30, 31, 31, 30, 31, 30, 31]

def isValid (d : Date) : Bool :=
  1 ≤ d.month && 1 ≤ d.day &&
    (match (monthLengths (isLeap d.year))[d.month - 1]? with
      | some n => d.day ≤ n
      | none => false)

/-- The days from 1 January 0001 to the first day of a year. -/
def daysBeforeYear (year : Int) : Int :=
  let y := year - 1
  365 * y + y / 4 - y / 100 + y / 400

/-- The days from 1 January 0001 to 1 January 1970. -/
def epoch : Int := 719162

/-- The days of months together. -/
def daysIn : List Nat → Nat
  | [] => 0
  | n :: ns => n + daysIn ns

/-- The days from 1 January 1970 to a date. -/
def toDays (d : Date) : Int :=
  daysBeforeYear d.year + daysIn ((monthLengths (isLeap d.year)).take (d.month - 1)) + d.day - 1 - epoch

/-- The month and the day, from 1, of a day of the year, from 0, in the months from a number on. -/
def monthAndDay (month dayOfYear : Nat) : List Nat → Nat × Nat
  | [] => (month, dayOfYear + 1)
  | n :: ns => if dayOfYear < n then (month, dayOfYear + 1) else monthAndDay (month + 1) (dayOfYear - n) ns

/-- The year of a day counted from 1 January 0001, and the day of that year, from 0. -/
def yearAndDay (days : Int) : Int × Nat :=
  let cycle := days / 146097
  let d := days % 146097
  -- The last day of a cycle would begin a fifth century, and the last day of a span a fifth year.
  let century := min (d / 36524) 3
  let d := d - century * 36524
  let span := d / 1461
  let d := d - span * 1461
  let year := min (d / 365) 3
  (400 * cycle + 100 * century + 4 * span + year + 1, (d - year * 365).toNat)

/-- The date so many days from 1 January 1970. -/
def ofDays (days : Int) : Date :=
  let (year, dayOfYear) := yearAndDay (days + epoch)
  let (month, day) := monthAndDay 1 dayOfYear (monthLengths (isLeap year))
  ⟨year, month, day⟩

/-- The day of the week, 0 being Monday. -/
def weekday (days : Int) : Nat := ((days + 3) % 7).toNat

theorem daysBeforeYear_yearAndDay (days : Int) :
    daysBeforeYear (yearAndDay days).1 + (yearAndDay days).2 = days ∧
      (yearAndDay days).2 < 365 + (if isLeap (yearAndDay days).1 then 1 else 0) := by
  simp only [yearAndDay, daysBeforeYear, isLeap, Bool.and_eq_true, Bool.or_eq_true, beq_iff_eq,
    bne_iff_ne, ne_eq]
  generalize hc : days / 146097 = c
  generalize hd : days % 146097 = d
  have h0 : days = 146097 * c + d := by omega
  have hd0 : 0 ≤ d := by omega
  have hd1 : d < 146097 := by omega
  generalize hce : min (d / 36524) 3 = ce
  have hce0 : 0 ≤ ce ∧ ce ≤ 3 ∧ ce * 36524 ≤ d ∧
      (d - ce * 36524 < 36524 ∨ ce = 3 ∧ d - ce * 36524 ≤ 36524) := by omega
  generalize hd2 : d - ce * 36524 = e
  generalize hs : e / 1461 = s
  have hs0 : 0 ≤ s ∧ s ≤ 24 ∧ s * 1461 ≤ e ∧ e - s * 1461 < 1461 := by omega
  generalize hd3 : e - s * 1461 = f
  generalize hy : min (f / 365) 3 = y
  have hy0 : 0 ≤ y ∧ y ≤ 3 ∧ y * 365 ≤ f ∧
      (f - y * 365 < 365 ∨ y = 3 ∧ f - y * 365 = 365) := by omega
  -- A century that is not the last of its cycle ends with a span that is one day short.
  have hlast : s = 24 → ce < 3 → f < 1460 := by omega
  -- The counts of leap days up to the year, from its parts.
  have q4 : (400 * c + 100 * ce + 4 * s + y + 1 - 1) / 4 = 100 * c + 25 * ce + s := by omega
  have q100 : (400 * c + 100 * ce + 4 * s + y + 1 - 1) / 100 = 4 * c + ce := by omega
  have q400 : (400 * c + 100 * ce + 4 * s + y + 1 - 1) / 400 = c := by omega
  rw [q4, q100, q400]
  refine ⟨by omega, ?_⟩
  split
  · omega
  · rename_i hl
    have : ¬ (y = 3 ∧ f - y * 365 = 365) := by
      rintro ⟨hy3, hf⟩
      apply hl
      omega
    omega

theorem monthAndDay_sum (month : Nat) (ns : List Nat) (dayOfYear : Nat) (h : dayOfYear < daysIn ns) :
    month ≤ (monthAndDay month dayOfYear ns).1 ∧
      daysIn (ns.take ((monthAndDay month dayOfYear ns).1 - month)) +
        (monthAndDay month dayOfYear ns).2 = dayOfYear + 1 := by
  induction ns generalizing month dayOfYear with
  | nil => simp [daysIn] at h
  | cons n ns ih =>
    rw [monthAndDay]
    split
    · simp [daysIn]
    · rename_i hn
      have h' : dayOfYear - n < daysIn ns := by rw [daysIn] at h; omega
      obtain ⟨h1, h2⟩ := ih (month + 1) (dayOfYear - n) h'
      refine ⟨by omega, ?_⟩
      have he : (monthAndDay (month + 1) (dayOfYear - n) ns).1 - month =
          (monthAndDay (month + 1) (dayOfYear - n) ns).1 - (month + 1) + 1 := by omega
      rw [he, List.take_succ_cons, daysIn]
      omega

theorem sum_monthLengths (leap : Bool) :
    daysIn (monthLengths leap) = 365 + (if leap then 1 else 0) := by
  cases leap <;> decide

/-- **Every day count is the count of its date.** -/
theorem toDays_ofDays (days : Int) : (ofDays days).toDays = days := by
  obtain ⟨h1, h2⟩ := daysBeforeYear_yearAndDay (days + epoch)
  have h3 := monthAndDay_sum 1 (monthLengths (isLeap (yearAndDay (days + epoch)).1))
    (yearAndDay (days + epoch)).2 (by rw [sum_monthLengths]; omega)
  simp only [ofDays, toDays]
  omega

end Date

end PageSweep
