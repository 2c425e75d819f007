import Mathlib.Data.List.Nodup
import PageSweep.Calendar.CookieDate
import PageSweep.Proofs.Number.Numeral
import PageSweep.Proofs.Text.Pieces

/-!
# Dates are read back

A moment in whole seconds is written as a date with its weekday, and reading that date gives the moment again. A year
of four digits is one that the reader of mail dates takes; in front of any other year stands a sign, at which that
reader gives up, and the reader of plain dates takes over.

* `Date.isValid_ofDays`: a day count has a date of the calendar.
* `CookieDate.readMail?_text`, `CookieDate.readPlain?_text`: the two readers on what is written.
* `CookieDate.read?_write`: reading a date that was written.
* `CookieDate.hasYear_iff`: the moments that have a date.
-/

namespace PageSweep

open Number Text

namespace Date

/-- A day of the months lies in one of them. -/
theorem monthAndDay_within (month : Nat) (ns : List Nat) (dayOfYear : Nat) (h : dayOfYear < daysIn ns) :
    1 ≤ (monthAndDay month dayOfYear ns).2 ∧
      ∃ n, ns[(monthAndDay month dayOfYear ns).1 - month]? = some n ∧ (monthAndDay month dayOfYear ns).2 ≤ n := by
  induction ns generalizing month dayOfYear with
  | nil => simp [daysIn] at h
  | cons n ns ih =>
    rw [monthAndDay]
    split
    · rename_i hn
      refine ⟨by omega, n, by simp, ?_⟩
      show dayOfYear + 1 ≤ n
      omega
    · rename_i hn
      have hrest : dayOfYear - n < daysIn ns := by rw [daysIn] at h; omega
      obtain ⟨hday, m, hm, hle⟩ := ih (month + 1) (dayOfYear - n) hrest
      obtain ⟨hmonth, -⟩ := monthAndDay_sum (month + 1) ns (dayOfYear - n) hrest
      have hplace : (monthAndDay (month + 1) (dayOfYear - n) ns).1 - month =
          (monthAndDay (month + 1) (dayOfYear - n) ns).1 - (month + 1) + 1 := by omega
      refine ⟨hday, m, ?_, hle⟩
      rw [hplace, List.getElem?_cons_succ, hm]

/-- **Every day has a date of the calendar.** -/
theorem isValid_ofDays (days : Int) : (ofDays days).isValid = true := by
  obtain ⟨-, hyear⟩ := daysBeforeYear_yearAndDay (days + epoch)
  have hlt : (yearAndDay (days + epoch)).2 < daysIn (monthLengths (isLeap (yearAndDay (days + epoch)).1)) := by
    rw [sum_monthLengths]
    exact hyear
  obtain ⟨hmonth, -⟩ := monthAndDay_sum 1 _ _ hlt
  obtain ⟨hday, n, hn, hle⟩ := monthAndDay_within 1 _ _ hlt
  simp only [isValid, ofDays, Bool.and_eq_true]
  refine ⟨⟨decide_eq_true hmonth, decide_eq_true hday⟩, ?_⟩
  rw [hn]
  exact decide_eq_true hle

theorem bounds_of_isValid {d : Date} (h : d.isValid = true) : 1 ≤ d.month ∧ d.month ≤ 12 ∧ d.day < 100 := by
  simp only [isValid, Bool.and_eq_true, decide_eq_true_eq] at h
  obtain ⟨⟨hmonth, -⟩, hday⟩ := h
  cases hn : (monthLengths (isLeap d.year))[d.month - 1]? with
  | none => rw [hn] at hday; cases hday
  | some n =>
    rw [hn] at hday
    obtain ⟨hlt, hmem⟩ := List.getElem?_eq_some_iff.1 hn
    have hlength : (monthLengths (isLeap d.year)).length = 12 := rfl
    have hmonths : ∀ m ∈ monthLengths (isLeap d.year), m ≤ 31 := by
      cases isLeap d.year <;> decide
    have := hmonths n (hmem ▸ List.getElem_mem hlt)
    have := of_decide_eq_true hday
    omega

theorem weekday_lt (days : Int) : weekday days < 7 := by
  unfold weekday
  omega

theorem daysBeforeYear_succ (year : Int) :
    daysBeforeYear (year + 1) = daysBeforeYear year + 365 + if isLeap year then 1 else 0 := by
  simp only [daysBeforeYear, isLeap, Bool.and_eq_true, Bool.or_eq_true, beq_iff_eq, bne_iff_ne, ne_eq]
  split <;> omega

theorem daysBeforeYear_mono {a b : Int} (h : a ≤ b) : daysBeforeYear a ≤ daysBeforeYear b := by
  simp only [daysBeforeYear]
  omega

/-- **The year of a day count** has begun on that day, and no later one has. -/
theorem le_year_iff {year days : Int} : year ≤ (ofDays days).year ↔ daysBeforeYear year ≤ days + epoch := by
  obtain ⟨hdays, hlt⟩ := daysBeforeYear_yearAndDay (days + epoch)
  have hsucc := daysBeforeYear_succ (yearAndDay (days + epoch)).1
  show year ≤ (yearAndDay (days + epoch)).1 ↔ _
  constructor
  · intro h
    have hmono := daysBeforeYear_mono h
    omega
  · intro h
    by_contra hlate
    have hmono : daysBeforeYear ((yearAndDay (days + epoch)).1 + 1) ≤ daysBeforeYear year :=
      daysBeforeYear_mono (by omega)
    cases hleap : isLeap (yearAndDay (days + epoch)).1 with
    | true =>
      simp only [hleap, if_true] at hlt hsucc
      omega
    | false =>
      simp only [hleap, Bool.false_eq_true, if_false] at hlt hsucc
      omega

end Date

theorem Instant.notAfter_iff {t : Int} {now : Instant} : (⟨t, 0⟩ : Instant).notAfter now = true ↔ t ≤ now.seconds := by
  simp only [notAfter, Nat.zero_le, decide_true, Bool.and_true, Bool.or_eq_true, decide_eq_true_eq, beq_iff_eq]
  omega

namespace CookieDate

/-! ### Pieces -/

/-- **Digits are read as their number**, up to something else or as far as may be read. -/
theorem number?_eq {least most : Nat} {ds rest : List Char} (hdigits : ∀ c ∈ ds, c.isDigit = true)
    (hleast : least ≤ ds.length) (hmost : ds.length ≤ most)
    (hstop : ds.length = most ∨ ∀ c ∈ rest.head?, c.isDigit = false) (hbound : ofDigits 10 ds < Nat.pow 2 63) :
    number? least most (ds ++ rest) = some (ofDigits 10 ds, rest) := by
  have hfront : ((ds ++ rest).take most).takeWhile Char.isDigit = ds := by
    rw [List.take_append, List.take_of_length_le hmost]
    refine takeWhile_append_of_stop hdigits ?_
    intro c hc
    rcases hstop with hfull | hstop
    · rw [hfull, Nat.sub_self, List.take_zero] at hc
      cases hc
    · refine hstop c ?_
      rw [List.head?_take] at hc
      split at hc
      · cases hc
      · exact hc
  have hguard : ¬ (decide (ds.length < least) || decide (Nat.pow 2 63 ≤ ofDigits 10 ds)) = true := by
    rw [Bool.or_eq_true, decide_eq_true_eq, decide_eq_true_eq]
    omega
  rw [number?, hfront]
  simp only [if_neg hguard, List.drop_left]

/-- Two digits. -/
theorem number?_two {least n : Nat} (hleast : least ≤ 2) (hn : n < 100) (rest : List Char) :
    number? least 2 (padded 2 n ++ rest) = some (n, rest) := by
  have hlength : (padded 2 n).length = 2 := length_padded (by decide) hn
  have hdigits : ∀ c ∈ padded 2 n, c.isDigit = true := fun c hc => isDigit_of_mem_padded hc
  have hvalue := ofDigits_padded 2 n
  have hbound : ofDigits 10 (padded 2 n) < Nat.pow 2 63 := by
    rw [hvalue]
    exact lt_trans hn (by decide)
  rw [number?_eq hdigits (hleast.trans_eq hlength.symm) hlength.le (.inl hlength) hbound, hvalue]

/-- A year of at least four digits, up to a blank. -/
theorem number?_year {least n : Nat} (hleast : least ≤ 4) (hn : n < Nat.pow 2 63) (rest : List Char) :
    number? least (padded 4 n ++ ' ' :: rest).length (padded 4 n ++ ' ' :: rest) = some (n, ' ' :: rest) := by
  have hdigits : ∀ c ∈ padded 4 n, c.isDigit = true := fun c hc => isDigit_of_mem_padded hc
  have hvalue := ofDigits_padded 4 n
  have hstop : ∀ c ∈ (' ' :: rest).head?, c.isDigit = false := fun c hc => Option.mem_some_iff.1 hc ▸ rfl
  have hmost : (padded 4 n).length ≤ (padded 4 n ++ ' ' :: rest).length := by
    rw [List.length_append]
    omega
  rw [number?_eq hdigits (hleast.trans (le_length_padded 4 n)) hmost (.inr hstop) (by rwa [hvalue]), hvalue]

/-- Names that differ in lower case are told apart. -/
theorem name?_getD {names : List (List Char)} (hlength : ∀ name ∈ names, name.length = 3)
    (hnodup : (names.map lowerList).Nodup) {i : Nat} (hi : i < names.length) (rest : List Char) :
    name? names (names.getD i [] ++ rest) = some (i, rest) := by
  have hname : names.getD i [] = names[i] := (List.getElem_eq_getD []).symm
  have h3 : names[i].length = 3 := hlength _ (List.getElem_mem hi)
  have htake : (names[i] ++ rest).take 3 = names[i] := by rw [← h3, List.take_left]
  have hdrop : (names[i] ++ rest).drop 3 = rest := by rw [← h3, List.drop_left]
  have hfind : (names.findIdx? fun n => lowerList n == lowerList names[i]) = some i := by
    rw [List.findIdx?_eq_some_iff_getElem]
    refine ⟨hi, beq_self_eq_true _, fun j hj => ?_⟩
    -- An earlier name is another one.
    have hne := List.pairwise_iff_getElem.1 hnodup j i (by rw [List.length_map]; omega) (by rwa [List.length_map]) hj
    simpa using hne
  rw [name?, hname, htake, hdrop]
  simp only [hfind, Option.map_some]

theorem name?_weekday {w : Nat} (hw : w < 7) (rest : List Char) :
    name? weekdayNames (weekdayNames.getD w [] ++ rest) = some (w, rest) :=
  name?_getD (by decide) (by decide) hw rest

theorem name?_month {m : Nat} (hm : m < 12) (rest : List Char) :
    name? monthNames (monthNames.getD m [] ++ rest) = some (m, rest) :=
  name?_getD (by decide) (by decide) hm rest

/-! ### Blanks between pieces -/

theorem trimFront_padded (w n : Nat) (rest : List Char) : trimFront (padded w n ++ rest) = padded w n ++ rest :=
  trimFront_append_of_solid (padded_ne_nil w n) (fun _ hc => isBlank_of_isDigit (isDigit_of_mem_padded hc)) rest

theorem number?_trimmed {least n : Nat} (hleast : least ≤ 2) (hn : n < 100) (rest : List Char) :
    number? least 2 (trimFront (padded 2 n ++ rest)) = some (n, rest) := by
  rw [trimFront_padded, number?_two hleast hn]

theorem number?_after_blank {least n : Nat} (hleast : least ≤ 2) (hn : n < 100) (rest : List Char) :
    number? least 2 (trimFront (' ' :: (padded 2 n ++ rest))) = some (n, rest) := by
  rw [trimFront_blank, number?_trimmed hleast hn]

theorem trimFront_getD {names : List (List Char)}
    (hnames : names.all (fun name => !name.isEmpty && name.all fun c => !isBlank c) = true) {i : Nat}
    (hi : i < names.length) (rest : List Char) : trimFront (names.getD i [] ++ rest) = names.getD i [] ++ rest := by
  have hname : names.getD i [] = names[i] := (List.getElem_eq_getD []).symm
  have hsolid := List.all_eq_true.1 hnames names[i] (List.getElem_mem hi)
  rw [Bool.and_eq_true, List.all_eq_true] at hsolid
  rw [hname]
  refine trimFront_append_of_solid (fun hnil => ?_) (fun c hc => by simpa using hsolid.2 c hc) rest
  rw [hnil] at hsolid
  exact absurd hsolid.1 (by decide)

theorem trimFront_weekday {w : Nat} (hw : w < 7) (rest : List Char) :
    trimFront (weekdayNames.getD w [] ++ rest) = weekdayNames.getD w [] ++ rest :=
  trimFront_getD (by decide) hw rest

theorem trimFront_month {m : Nat} (hm : m < 12) (rest : List Char) :
    trimFront (monthNames.getD m [] ++ rest) = monthNames.getD m [] ++ rest :=
  trimFront_getD (by decide) hm rest

theorem blanks?_blank (cs : List Char) : blanks? (' ' :: cs) = some (trimFront cs) := by
  have h : isBlank ' ' = true := by decide
  simp only [blanks?, h, if_true]

theorem char?_cons (c : Char) (cs : List Char) : char? c (c :: cs) = some cs := by
  simp [char?]

theorem trimFront_colon (cs : List Char) : trimFront (':' :: cs) = ':' :: cs :=
  trimFront_eq_self fun c hc => Option.mem_some_iff.1 hc ▸ by decide

/-! ### Dates -/

/-- The parts of a date and a time, without the year. -/
structure Parts where
  weekday : Nat
  day : Nat
  /-- From 0. -/
  month : Nat
  hour : Nat
  minute : Nat
  second : Nat
deriving DecidableEq, Repr

namespace Parts

/-- Parts that have their names and two digits. -/
structure Fits (d : Parts) : Prop where
  weekday : d.weekday < 7
  day : d.day < 100
  month : d.month < 12
  hour : d.hour < 100
  minute : d.minute < 100
  second : d.second < 100

/-- The written form, in front of a rest. -/
def text (d : Parts) (year rest : List Char) : List Char :=
  weekdayNames.getD d.weekday [] ++ ',' :: ' ' :: (padded 2 d.day ++ ' ' :: (monthNames.getD d.month [] ++
    ' ' :: (year ++ ' ' :: (padded 2 d.hour ++ ':' :: (padded 2 d.minute ++ ':' :: (padded 2 d.second ++ rest))))))

/-- The moment in a year, if there is one. -/
def momentIn? (d : Parts) (year : Int) : Option Instant :=
  moment? (some d.weekday) year (d.month + 1) d.day d.hour d.minute d.second 0

/-- The parts of a moment in whole seconds. -/
def ofSeconds (t : Int) : Parts where
  weekday := Date.weekday (t / 86400)
  day := (Date.ofDays (t / 86400)).day
  month := (Date.ofDays (t / 86400)).month - 1
  hour := (t % 86400).toNat / 3600
  minute := (t % 86400).toNat / 60 % 60
  second := (t % 86400).toNat % 60

theorem fits_ofSeconds (t : Int) : (ofSeconds t).Fits := by
  obtain ⟨hmonth, hmonths, hday⟩ := Date.bounds_of_isValid (Date.isValid_ofDays (t / 86400))
  have hpos : 0 ≤ t % 86400 := Int.emod_nonneg t (by decide)
  have hlt : t % 86400 < 86400 := Int.emod_lt_of_pos t (by decide)
  have hhour : (t % 86400).toNat / 3600 < 100 := by omega
  have hminute : (t % 86400).toNat / 60 % 60 < 100 := by omega
  have hsecond : (t % 86400).toNat % 60 < 100 := by omega
  have hmonth' : (Date.ofDays (t / 86400)).month - 1 < 12 := by omega
  exact ⟨Date.weekday_lt _, hday, hmonth', hhour, hminute, hsecond⟩

end Parts

/-- A step of a reader that reads something. -/
theorem bind_of_eq_some {α β : Type} {x : Option α} {a : α} (h : x = some a) (f : α → Option β) :
    x >>= f = f a := by
  rw [h]
  rfl

theorem bind_of_eq_none {α β : Type} {x : Option α} (h : x = none) (f : α → Option β) : x >>= f = none := by
  rw [h]
  rfl

theorem leadingWeekday?_name {weekday : Nat} (hweekday : weekday < 7) (rest : List Char) :
    leadingWeekday? (trimFront (weekdayNames.getD weekday [] ++ ',' :: rest)) = some (some weekday, rest) := by
  rw [trimFront_weekday hweekday, leadingWeekday?, name?_weekday hweekday]
  rfl

theorem name?_month_after_blank {month : Nat} (hmonth : month < 12) (rest : List Char) :
    name? monthNames (trimFront (' ' :: (monthNames.getD month [] ++ rest))) = some (month, rest) := by
  rw [trimFront_blank, trimFront_month hmonth, name?_month hmonth]

theorem blanks?_month {month : Nat} (hmonth : month < 12) (rest : List Char) :
    blanks? (' ' :: (monthNames.getD month [] ++ rest)) = some (monthNames.getD month [] ++ rest) := by
  rw [blanks?_blank, trimFront_month hmonth]

theorem blanks?_padded (w n : Nat) (rest : List Char) :
    blanks? (' ' :: (padded w n ++ rest)) = some (padded w n ++ rest) := by
  rw [blanks?_blank, trimFront_padded]

theorem char?_colon (rest : List Char) : char? ':' (trimFront (':' :: rest)) = some rest := by
  rw [trimFront_colon, char?_cons]

theorem fullYear_padded {year : Nat} (h : year < 10000) (rest : List Char) :
    fullYear ((padded 4 year ++ rest).length - rest.length) year = year := by
  have hlength : (padded 4 year).length = 4 := length_padded (by decide) h
  rw [List.length_append, Nat.add_sub_cancel, hlength]
  rfl

section

variable {d : Parts}

/-- **A year of four digits** is read as that of a mail date. -/
theorem readMail?_text (h : d.Fits) {year : Nat} (hyear : year < 10000) :
    readMail? (d.text (padded 4 year) " GMT".toList) = d.momentIn? year := by
  have hyear' : year < Nat.pow 2 63 := lt_trans hyear (by decide)
  have hgmt : blanks? " GMT".toList = some "GMT".toList := by decide
  have hzone : zone? "GMT".toList = some (0, []) := by decide
  unfold readMail? Parts.text
  refine (bind_of_eq_some (leadingWeekday?_name h.weekday _) _).trans ?_
  refine (bind_of_eq_some (number?_after_blank (by decide) h.day _) _).trans ?_
  refine (bind_of_eq_some (blanks?_month h.month _) _).trans ?_
  refine (bind_of_eq_some (name?_month h.month _) _).trans ?_
  refine (bind_of_eq_some (blanks?_padded 4 year _) _).trans ?_
  refine (bind_of_eq_some (number?_year (by decide) hyear' _) _).trans ?_
  refine (bind_of_eq_some (blanks?_padded 2 d.hour _) _).trans ?_
  refine (bind_of_eq_some (number?_two le_rfl h.hour _) _).trans ?_
  refine (bind_of_eq_some (char?_colon _) _).trans ?_
  refine (bind_of_eq_some (number?_trimmed le_rfl h.minute _) _).trans ?_
  -- The seconds are there.
  dsimp only
  rw [char?_colon]
  refine (bind_of_eq_some (number?_two le_rfl h.second _) _).trans ?_
  refine (bind_of_eq_some hgmt _).trans ?_
  refine (bind_of_eq_some hzone _).trans ?_
  -- Nothing is left behind the zone.
  refine (if_pos rfl).trans ?_
  rw [fullYear_padded hyear]
  rfl

/-- A year with a sign is not. -/
theorem readMail?_signed (h : d.Fits) {sign : Char} (hsign : isBlank sign = false ∧ sign.isDigit = false)
    (year rest : List Char) : readMail? (d.text (sign :: year) rest) = none := by
  have hfront (cs) : trimFront (sign :: cs) = sign :: cs :=
    trimFront_eq_self fun c hc => Option.mem_some_iff.1 hc ▸ hsign.1
  have hblank (cs) : blanks? (' ' :: sign :: cs) = some (sign :: cs) := by rw [blanks?_blank, hfront]
  have hyear (n : Nat) (cs) : number? 2 n (sign :: cs) = none := by
    have hnone : ((sign :: cs).take n).takeWhile Char.isDigit = [] := by
      cases n with
      | zero => rfl
      | succ n => rw [List.take_succ_cons, List.takeWhile_cons_of_neg (by simp [hsign.2])]
    rw [number?, hnone]
    rfl
  unfold readMail? Parts.text
  refine (bind_of_eq_some (leadingWeekday?_name h.weekday _) _).trans ?_
  refine (bind_of_eq_some (number?_after_blank (by decide) h.day _) _).trans ?_
  refine (bind_of_eq_some (blanks?_month h.month _) _).trans ?_
  refine (bind_of_eq_some (name?_month h.month _) _).trans ?_
  refine (bind_of_eq_some (hblank _) _).trans ?_
  exact bind_of_eq_none (hyear _ _) _

/-- Neither end of a date is blank. -/
theorem trimList_text (h : d.Fits) (year : List Char) {rest : List Char}
    (hrest : trimBack (padded 2 d.second ++ rest) = padded 2 d.second ++ rest) :
    trimList (d.text year rest) = d.text year rest := by
  obtain ⟨front, hfront⟩ : ∃ front, d.text year rest = front ++ (padded 2 d.second ++ rest) :=
    ⟨weekdayNames.getD d.weekday [] ++ ',' :: ' ' :: (padded 2 d.day ++ ' ' :: (monthNames.getD d.month [] ++
      ' ' :: (year ++ ' ' :: (padded 2 d.hour ++ ':' :: (padded 2 d.minute ++ [':']))))), by simp [Parts.text]⟩
  have hne : trimBack (padded 2 d.second ++ rest) ≠ [] := by
    rw [hrest]
    exact List.append_ne_nil_of_left_ne_nil (padded_ne_nil 2 d.second) rest
  have htrim : trimFront (d.text year rest) = d.text year rest := trimFront_weekday h.weekday _
  rw [trimList, htrim, hfront, trimBack_append front hne, hrest]

theorem text_append (year rest : List Char) : d.text year rest = d.text year [] ++ rest := by
  simp [Parts.text]

/-- A zone is not trimmed off. -/
theorem trimBack_gmt (cs : List Char) : trimBack (cs ++ " GMT".toList) = cs ++ " GMT".toList := by
  have hzone : trimBack " GMT".toList = " GMT".toList := by decide
  rw [trimBack_append cs (by rw [hzone]; decide), hzone]

theorem withoutZone_text (h : d.Fits) (year : List Char) :
    withoutZone (d.text year " GMT".toList) = d.text year [] := by
  have hsolid : trimBack (padded 2 d.second ++ []) = padded 2 d.second ++ [] := by
    rw [List.append_nil]
    exact trimBack_eq_self fun _ hc => isBlank_of_isDigit (isDigit_of_mem_padded hc)
  have hdrop (cs : List Char) : dropUtc (dropGmt (" GMT".toList.reverse ++ cs)) = ' ' :: cs := rfl
  rw [withoutZone, trimList_text h year (trimBack_gmt _), text_append, List.reverse_append, hdrop, List.reverse_cons,
    List.reverse_reverse, trimList_concat (by decide), trimList_text h year hsolid]

/-- A year with a sign has as many digits as it needs. -/
theorem year?_signed {sign : Char} (hsign : sign = '-' ∨ sign = '+') {year : Nat} (hyear : year < Nat.pow 2 63)
    (rest : List Char) : year? (' ' :: sign :: (padded 4 year ++ ' ' :: rest)) =
      some (if sign = '-' then -(year : Int) else year, ' ' :: rest) := by
  have hfront (cs) : trimFront (' ' :: sign :: cs) = sign :: cs := by
    rcases hsign with rfl | rfl <;> rfl
  have hnumber := number?_year (by decide : 1 ≤ 4) hyear rest
  rw [year?, hfront]
  rcases hsign with rfl | rfl
  · simp only [hnumber, Option.map_some, if_true]
  · simp only [hnumber, Option.map_some]
    rfl

/-- **A year with a sign** is read as that of a plain date. -/
theorem readPlain?_text (h : d.Fits) {sign : Char} (hsign : sign = '-' ∨ sign = '+') {year : Nat}
    (hyear : year < Nat.pow 2 63) :
    readPlain? (d.text (sign :: padded 4 year) " GMT".toList) =
      d.momentIn? (if sign = '-' then -(year : Int) else year) := by
  unfold readPlain?
  rw [withoutZone_text h]
  unfold Parts.text
  refine (bind_of_eq_some (name?_weekday h.weekday _) _).trans ?_
  refine (bind_of_eq_some (char?_cons ',' _) _).trans ?_
  refine (bind_of_eq_some (number?_after_blank (by decide) h.day _) _).trans ?_
  refine (bind_of_eq_some (name?_month_after_blank h.month _) _).trans ?_
  refine (bind_of_eq_some (year?_signed hsign hyear _) _).trans ?_
  refine (bind_of_eq_some (number?_after_blank (by decide) h.hour _) _).trans ?_
  refine (bind_of_eq_some (char?_cons ':' _) _).trans ?_
  refine (bind_of_eq_some (number?_trimmed (by decide) h.minute _) _).trans ?_
  refine (bind_of_eq_some (char?_cons ':' _) _).trans ?_
  refine (bind_of_eq_some (number?_trimmed (by decide) h.second _) _).trans ?_
  exact if_pos rfl

end

/-! ### Moments -/

/-- **The date of a moment is a date, on its day of the week.** -/
theorem momentIn?_ofSeconds {t : Int} (ht : hasYear (Date.ofDays (t / 86400)) = true) :
    (Parts.ofSeconds t).momentIn? (Date.ofDays (t / 86400)).year = some ⟨t, 0⟩ := by
  have hvalid := Date.isValid_ofDays (t / 86400)
  obtain ⟨hmonth, -⟩ := Date.bounds_of_isValid hvalid
  have hdate : (⟨(Date.ofDays (t / 86400)).year, (Date.ofDays (t / 86400)).month - 1 + 1,
      (Date.ofDays (t / 86400)).day⟩ : Date) = Date.ofDays (t / 86400) := by rw [Nat.sub_add_cancel hmonth]
  have hpos : 0 ≤ t % 86400 := Int.emod_nonneg t (by decide)
  have hlt : t % 86400 < 86400 := Int.emod_lt_of_pos t (by decide)
  have hback : t / 86400 * 86400 + t % 86400 = t := by omega
  unfold Parts.momentIn? Parts.ofSeconds moment?
  dsimp only
  rw [hdate, Date.toDays_ofDays]
  generalize htime : (t % 86400).toNat = time
  have hcast : (time : Int) = t % 86400 := by omega
  have hbounds : ¬ (24 ≤ time / 3600) ∧ ¬ (60 ≤ time / 60 % 60) ∧ ¬ (60 < time % 60) := by omega
  have hguard : ¬ (!hasYear (Date.ofDays (t / 86400)) || !(Date.ofDays (t / 86400)).isValid ||
      decide (24 ≤ time / 3600) || decide (60 ≤ time / 60 % 60) || decide (60 < time % 60)) = true := by
    simp [ht, hvalid, hbounds]
  have hsum : t / 86400 * 86400 + (time / 3600 * 3600 + time / 60 % 60 * 60 + min (time % 60) 59 : Nat) - 0 = t := by
    omega
  rw [if_neg hguard, if_neg (by simp), hsum, if_pos ht, if_neg (by omega)]

/-! ### Reading what was written -/

theorem write_eq (t : Int) : (write t).toList =
    (Parts.ofSeconds t).text (yearText (Date.ofDays (t / 86400)).year) " GMT".toList := by
  have hcomma : ", ".toList = [',', ' '] := rfl
  unfold write
  rw [String.toList_ofList]
  simp only [Parts.text, Parts.ofSeconds, hcomma, List.append_assoc, List.cons_append, List.nil_append]

/-- **A date that was written is read back** as its moment. -/
theorem read?_write {t : Int} (ht : hasYear (Date.ofDays (t / 86400)) = true) : read? (write t) = some ⟨t, 0⟩ := by
  have hmoment := momentIn?_ofSeconds ht
  have hfits := Parts.fits_ofSeconds t
  have hyears : minYear ≤ (Date.ofDays (t / 86400)).year ∧ (Date.ofDays (t / 86400)).year ≤ maxYear := by
    simpa [hasYear] using ht
  rw [read?, write_eq]
  generalize (Date.ofDays (t / 86400)).year = year at hmoment hyears ⊢
  have hnat : year.natAbs < Nat.pow 2 63 := by
    have h63 : Nat.pow 2 63 = 9223372036854775808 := rfl
    have hmin : minYear = -262143 := rfl
    have hmax : maxYear = 262142 := rfl
    omega
  by_cases hneg : year < 0
  · have hyear : -(year.natAbs : Int) = year := by omega
    rw [yearText, if_pos hneg, readMail?_signed hfits (by decide), readPlain?_text hfits (.inl rfl) hnat,
      if_pos rfl, hyear]
    exact hmoment
  have hyear : (year.natAbs : Int) = year := by omega
  by_cases hlong : 9999 < year
  · rw [yearText, if_neg hneg, if_pos hlong, readMail?_signed hfits (by decide),
      readPlain?_text hfits (.inr rfl) hnat, if_neg (by decide), hyear]
    exact hmoment
  · rw [yearText, if_neg hneg, if_neg hlong, readMail?_text hfits (by omega), hyear, hmoment]
    rfl

/-- Neither end of what was written is blank. -/
theorem trimList_write (t : Int) : trimList (write t).toList = (write t).toList := by
  rw [write_eq]
  exact trimList_text (Parts.fits_ofSeconds t) _ (trimBack_gmt _)

/-- What was written is one piece of a directive. -/
theorem semicolon_not_mem_write (t : Int) : ';' ∉ (write t).toList := by
  have hnumber (w n : Nat) : ';' ∉ padded w n := fun h => absurd (isDigit_of_mem_padded h) (by decide)
  have hyear (year : Int) : ';' ∉ yearText year := by
    unfold yearText
    split
    · simp [hnumber]
    · split <;> simp [hnumber]
  have hname {names : List (List Char)} (hnames : ∀ name ∈ names, ';' ∉ name) (i : Nat) :
      ';' ∉ names.getD i [] := by
    rw [List.getD_eq_getElem?_getD]
    cases hi : names[i]? with
    | none => exact List.not_mem_nil
    | some name => exact hnames name (List.mem_of_getElem? hi)
  have hweekday (i : Nat) : ';' ∉ weekdayNames.getD i [] := hname (by decide) i
  have hmonth (i : Nat) : ';' ∉ monthNames.getD i [] := hname (by decide) i
  rw [write_eq, Parts.text]
  simp only [List.mem_append, List.mem_cons, hnumber, hyear, hweekday, hmonth]
  decide

/-! ### The moments that have a date -/

/-- **The moments that have a date** are those of the years from the first to the last. -/
theorem hasYear_iff {t : Int} :
    hasYear (Date.ofDays (t / 86400)) = true ↔ -8334601228800 ≤ t ∧ t ≤ 8210266876799 := by
  have hfirst : Date.daysBeforeYear minYear = -96465292 + Date.epoch := rfl
  have hend : Date.daysBeforeYear (maxYear + 1) = 95026237 + Date.epoch := rfl
  have hmin : minYear ≤ (Date.ofDays (t / 86400)).year ↔ -96465292 ≤ t / 86400 := by
    rw [Date.le_year_iff, hfirst, Int.add_le_add_iff_right]
  have hmax : (Date.ofDays (t / 86400)).year ≤ maxYear ↔ t / 86400 < 95026237 := by
    rw [← Int.lt_add_one_iff, ← Int.not_le, Date.le_year_iff, hend, Int.add_le_add_iff_right, Int.not_le]
  rw [hasYear, Bool.and_eq_true, decide_eq_true_eq, decide_eq_true_eq, hmin, hmax]
  omega

end CookieDate

end PageSweep
