import NodeFeatureOperator.Proofs.Calendar
import NodeFeatureOperator.Time.Reader

/-!
# Texts of points in time

A text that reads gives a point in time with a text of its own, and that text reads again: what is
written to the last place gives the same point in time, and what is written to the second gives it
without its fraction. A leap second is no fraction, and stays.

## Main definitions

* `Time.IsKept`: the points in time that have a text.
* `Time.cut`: a point in time without its fraction of a second.

## Main results

* `Time.isKept_of_ofText?`: what reads is kept.
* `Time.ofText?_text`: the text of a kept point in time reads as it.
* `Time.ofText?_wholeSeconds`: its text to the second reads as it without its fraction.
-/

namespace NodeFeatureOperator

namespace Time

/-- A second has a billion nanoseconds. -/
theorem tenTo_nine : tenTo 9 = 1000000000 := rfl

/-- Places that follow each other multiply. -/
theorem tenTo_add (m n : Nat) : tenTo (m + n) = tenTo m * tenTo n := Nat.pow_add 10 m n

/-! ### Numbers -/

/-- Digits are no blanks. -/
theorem isSpace_of_isDigit {c : Char} (h : c.isDigit = true) : Text.isSpace c = false := by
  obtain ⟨hlow, hhigh⟩ := Char.isDigit_iff_toNat.mp h
  have hlow : 48 ≤ c.toNat := hlow
  have hhigh : c.toNat ≤ 57 := hhigh
  simp only [Text.isSpace, Text.spaceRanges, List.any_cons, List.any_nil, Bool.or_false,
    Bool.or_eq_false_iff, decide_eq_false_iff_not]
  omega

/-- A padded number consists of digits. -/
theorem isDigit_of_mem_padded {width n : Nat} {c : Char} (h : c ∈ padded width n) :
    c.isDigit = true := by
  simp only [padded, Nat.toString_eq_repr, Nat.toList_repr] at h
  obtain hzero | hdigit := List.mem_append.mp h
  · rw [(List.mem_replicate.mp hzero).2]
    rfl
  · exact Nat.isDigit_of_mem_toDigits (by decide) (by decide) hdigit

/-- A padded number is the number. -/
theorem ofDigitChars_padded (width n : Nat) : Nat.ofDigitChars 10 (padded width n) 0 = n := by
  simp only [padded, Nat.toString_eq_repr, Nat.toList_repr, Nat.ofDigitChars_append,
    Nat.ofDigitChars_replicate_zero, Nat.mul_zero, Nat.ofDigitChars_ten_toDigits]

/-- A number that fits has as many digits as it is padded to. -/
theorem length_padded {width n : Nat} (hwidth : 0 < width) (h : n < tenTo width) :
    (padded width n).length = width := by
  have hfits : (Nat.toDigits 10 n).length ≤ width :=
    (Nat.length_toDigits_le_iff (by decide) hwidth).mpr h
  simp only [padded, Nat.toString_eq_repr, Nat.toList_repr, List.length_append,
    List.length_replicate]
  omega

/-- A padded number begins with a digit. -/
theorem exists_padded (width n : Nat) :
    ∃ c rest, padded width n = c :: rest ∧ c.isDigit = true := by
  have hpositive : 0 < (padded width n).length := by
    have := Nat.length_toDigits_pos (b := 10) (n := n)
    simp only [padded, Nat.toString_eq_repr, Nat.toList_repr, List.length_append]
    omega
  obtain ⟨c, rest, heq⟩ := List.exists_cons_of_length_pos hpositive
  exact ⟨c, rest, heq, isDigit_of_mem_padded (heq ▸ List.mem_cons_self)⟩

/-- No blanks are skipped before a number. -/
theorem skipSpaces_padded (width n : Nat) (rest : List Char) :
    Text.skipSpaces (padded width n ++ rest) = padded width n ++ rest := by
  obtain ⟨c, tail, heq, hdigit⟩ := exists_padded width n
  rw [heq, List.cons_append]
  exact List.dropWhile_cons_of_neg (by simp [isSpace_of_isDigit hdigit])

/-- A number is read as far as its digits go. -/
theorem digits_padded {limit width n : Nat} {rest : List Char}
    (hlimit : (padded width n).length ≤ limit) (hrest : rest.takeWhile Char.isDigit = []) :
    digits limit (padded width n ++ rest) = .ok (n, rest) := by
  obtain ⟨c, tail, heq, -⟩ := exists_padded width n
  have hrun : ((padded width n ++ rest).takeWhile Char.isDigit).take limit = padded width n := by
    rw [List.takeWhile_append_of_pos fun _ => isDigit_of_mem_padded, hrest, List.append_nil,
      List.take_of_length_le hlimit]
  have hvalue : (padded width n).foldl (fun k c => k * 10 + (c.toNat - 48)) 0 = n := by
    simpa only [Nat.ofDigitChars, Nat.mul_comm] using! ofDigitChars_padded width n
  have hstarts : (padded width n ++ rest).isEmpty = false := by
    rw [heq]
    rfl
  have hrunStarts : (padded width n).isEmpty = false := by
    rw [heq]
    rfl
  simp only [digits, hrun, hvalue, hstarts, hrunStarts, Bool.false_eq_true, if_false,
    List.drop_left]

/-- A number of two digits is read if it lies within the bounds. -/
theorem numberWithin_padded {low high n : Nat} {rest : List Char} (hlow : low ≤ n)
    (hhigh : n ≤ high) (hfits : high < 100) (hrest : rest.takeWhile Char.isDigit = []) :
    numberWithin low high (padded 2 n ++ rest) = .ok (n, rest) := by
  have hlength : (padded 2 n).length = 2 := length_padded (by decide) (show n < 100 by omega)
  simp only [numberWithin, skipSpaces_padded, digits_padded (Nat.le_of_eq hlength) hrest]
  exact if_pos ⟨hlow, hhigh⟩

/-! ### Parts of the text -/

/-- A separator is read where it stands. -/
theorem after_cons {separator : Char} (rest : List Char)
    (h : Text.isSpace separator = false) : after separator (separator :: rest) = .ok rest := by
  simp [after, Text.skipSpaces, h]

/-- A text that begins with a digit begins with a year without a sign. -/
theorem year_padded {n : Nat} {rest : List Char} (hfits : n ≤ 9999)
    (hrest : rest.takeWhile Char.isDigit = []) :
    year (padded 4 n ++ rest) = .ok ((n : Int), rest) := by
  have hlength : (padded 4 n).length = 4 := length_padded (by decide) (show n < 10000 by omega)
  have hread := digits_padded (Nat.le_of_eq hlength) hrest
  obtain ⟨c, tail, heq, hdigit⟩ := exists_padded 4 n
  have hskip := skipSpaces_padded 4 n rest
  rw [heq, List.cons_append] at hskip hread ⊢
  unfold year
  rw [hskip]
  -- a sign is no digit
  split
  next h =>
    rw [(List.cons.inj h).1] at hdigit
    exact absurd hdigit (by decide)
  next h =>
    rw [(List.cons.inj h).1] at hdigit
    exact absurd hdigit (by decide)
  · rw [hread]
    rfl

/-- After a minus sign the year is before the year 0. -/
theorem year_minus {n : Nat} {s rest : List Char} (hread : digits s.length s = .ok (n, rest))
    (hfits : n ≤ twoTo 31) : year ('-' :: s) = .ok (-(n : Int), rest) := by
  have hskip : Text.skipSpaces ('-' :: s) = '-' :: s := rfl
  simp only [year, hskip, hread, bind, Except.bind, if_pos hfits]

/-- After a plus sign the year may have any number of digits. -/
theorem year_plus {n : Nat} {s rest : List Char} (hread : digits s.length s = .ok (n, rest))
    (hfits : n < twoTo 31) : year ('+' :: s) = .ok ((n : Int), rest) := by
  have hskip : Text.skipSpaces ('+' :: s) = '+' :: s := rfl
  simp only [year, hskip, hread, bind, Except.bind, if_pos hfits]

/-- A year that is kept is read. -/
theorem year_yearChars {y : Int} {rest : List Char} (hrange : Calendar.inRange y = true)
    (hrest : rest.takeWhile Char.isDigit = []) : year (yearChars y ++ rest) = .ok (y, rest) := by
  obtain ⟨hlow, hhigh⟩ : -262143 ≤ y ∧ y ≤ 262142 := of_decide_eq_true hrange
  have hword : twoTo 31 = 2147483648 := rfl
  have hlength : (padded 4 y.natAbs).length ≤ (padded 4 y.natAbs ++ rest).length := by
    rw [List.length_append]
    exact Nat.le_add_right ..
  have hread := digits_padded hlength hrest
  by_cases hplain : 0 ≤ y ∧ y ≤ 9999
  · rw [yearChars, if_pos hplain, year_padded (by omega) hrest, Int.toNat_of_nonneg hplain.1]
  rw [yearChars, if_neg hplain, List.cons_append]
  obtain hneg | hpos := Int.lt_or_le y 0
  · rw [if_pos hneg, year_minus hread (by omega)]
    exact congrArg (fun k => Except.ok (k, rest)) (by omega)
  · rw [if_neg (Int.not_lt.mpr hpos), year_plus hread (by omega)]
    exact congrArg (fun k => Except.ok (k, rest)) (by omega)

/-- The places of a fraction are read, and those that are left out count as zeros. -/
theorem fraction_padded {width omitted n : Nat} {rest : List Char} (hwidth : 0 < width)
    (hplaces : width + omitted = 9) (hfits : n < 1000000000) (hzeros : n % tenTo omitted = 0)
    (hrest : rest.takeWhile Char.isDigit = []) :
    fraction ('.' :: padded width (n / tenTo omitted) ++ rest) = .ok (n, rest) := by
  have hshort : n / tenTo omitted < tenTo width := by
    refine Nat.div_lt_of_lt_mul ?_
    rwa [← tenTo_add, Nat.add_comm, hplaces]
  have hlength : (padded width (n / tenTo omitted)).length = width := length_padded hwidth hshort
  have hdrop : (padded width (n / tenTo omitted) ++ rest).dropWhile Char.isDigit = rest := by
    rw [List.dropWhile_append_of_pos fun _ => isDigit_of_mem_padded]
    have := List.takeWhile_append_dropWhile (p := Char.isDigit) (l := rest)
    rwa [hrest, List.nil_append] at this
  have hread :
      digits 9 (padded width (n / tenTo omitted) ++ rest) = .ok (n / tenTo omitted, rest) :=
    digits_padded (by omega) hrest
  simp only [fraction, List.cons_append, hread, bind, Except.bind, hdrop, List.length_append,
    hlength, Nat.add_sub_cancel]
  rw [show 9 - width = omitted by omega]
  exact congrArg (fun k => Except.ok (k, rest)) (Nat.div_mul_cancel (Nat.dvd_of_mod_eq_zero hzeros))

/-- The fraction of a point in time is read. -/
theorem fraction_fractionChars (nanoseconds : Nat) (rest : List Char) :
    fraction (fractionChars nanoseconds ++ 'Z' :: rest) =
      .ok (nanoseconds % 1000000000, 'Z' :: rest) := by
  have hstop : ('Z' :: rest).takeWhile Char.isDigit = [] := rfl
  have hlt : nanoseconds % 1000000000 < 1000000000 := Nat.mod_lt _ (by decide)
  simp only [fractionChars, tenTo_nine]
  generalize nanoseconds % 1000000000 = n at hlt
  split
  next hzero => 
    rw [hzero]
    rfl
  split
  next hmod => exact fraction_padded (by decide) rfl hlt hmod hstop
  split
  next hmod => exact fraction_padded (by decide) rfl hlt hmod hstop
  · have hread : fraction ('.' :: padded 9 (n / tenTo 0) ++ 'Z' :: rest) = .ok (n, 'Z' :: rest) :=
      fraction_padded (by decide) rfl hlt (Nat.mod_one n) hstop
    rwa [show tenTo 0 = 1 from rfl, Nat.div_one] at hread

/-- A date that exists is read, up to the letter that follows it. -/
theorem date_chars {d : Date} (hvalid : Calendar.isValid d = true) (rest : List Char) :
    date (yearChars d.year ++ '-' :: (padded 2 d.month.toNat ++
      '-' :: (padded 2 d.day.toNat ++ 'T' :: rest))) = .ok (d, 'T' :: rest) := by
  obtain ⟨hrange, hmlow, hmhigh, hdlow, hdhigh⟩ := of_decide_eq_true hvalid
  have hdays : Calendar.daysInMonth d.year d.month ≤ 31 := by
    unfold Calendar.daysInMonth
    repeat' split
    all_goals omega
  have hmonth : (d.month.toNat : Int) = d.month := Int.toNat_of_nonneg (by omega)
  have hday : (d.day.toNat : Int) = d.day := Int.toNat_of_nonneg (by omega)
  simp only [date, bind, Except.bind]
  rw [year_yearChars hrange rfl]
  dsimp only
  rw [after_cons _ rfl]
  dsimp only
  rw [numberWithin_padded (by omega) (by omega) (by decide) rfl]
  dsimp only
  rw [after_cons _ rfl]
  dsimp only
  rw [numberWithin_padded (by omega) (by omega) (by decide) rfl]
  simp only [hmonth, hday]

/-- A time of day is read. -/
theorem timeOfDay_chars {hour minute second : Nat} (nanoseconds : Nat) (hhour : hour ≤ 23)
    (hminute : minute ≤ 59) (hsecond : second ≤ 60) :
    timeOfDay (padded 2 hour ++ ':' :: (padded 2 minute ++
      ':' :: (padded 2 second ++ (fractionChars nanoseconds ++ ['Z'])))) =
      .ok ((hour, minute, second, nanoseconds % 1000000000), ['Z']) := by
  have hstop : (fractionChars nanoseconds ++ ['Z']).takeWhile Char.isDigit = [] := by
    unfold fractionChars
    dsimp only
    repeat' split
    all_goals rfl
  simp only [timeOfDay, bind, Except.bind]
  rw [numberWithin_padded (Nat.zero_le _) hhour (by decide) rfl]
  dsimp only
  rw [after_cons _ rfl]
  dsimp only
  rw [numberWithin_padded (Nat.zero_le _) hminute (by decide) rfl]
  dsimp only
  rw [after_cons _ rfl]
  dsimp only
  rw [numberWithin_padded (Nat.zero_le _) hsecond (by decide) hstop]
  dsimp only
  rw [fraction_fractionChars]
  rfl

/-! ### Points in time -/

/-- The points in time that have a text: the year is kept, and nanoseconds from `10 ^ 9` on follow
the last second of a minute. -/
structure IsKept (t : Time) : Prop where
  year_kept : Calendar.inRange (Calendar.dateOfDay (t.seconds / 86400)).year = true
  nanoseconds_lt : t.nanoseconds < 2 * 1000000000
  leap : 1000000000 ≤ t.nanoseconds → t.seconds % 60 = 59

/-- The second of a point in time as it is written, in which a leap second is the sixtieth. -/
def writtenSecond (t : Time) : Nat :=
  (t.seconds % 86400).toNat % 60 + (if tenTo 9 ≤ t.nanoseconds then 1 else 0)

/-- A kept point in time is made of the parts that are written. -/
theorem IsKept.ofParts {t : Time} (h : t.IsKept) :
    ofParts (Calendar.dateOfDay (t.seconds / 86400)) ((t.seconds % 86400).toNat / 3600)
      ((t.seconds % 86400).toNat / 60 % 60) t.writtenSecond (t.nanoseconds % 1000000000) 0 =
      .ok t := by
  obtain ⟨hyear, hnano, hleap⟩ := h
  have hdate := Calendar.isValid_dateOfDay hyear
  have hseconds : Calendar.dayNumber (Calendar.dateOfDay (t.seconds / 86400)) * 86400 +
      ((t.seconds % 86400).toNat / 3600 : Nat) * 3600 +
      ((t.seconds % 86400).toNat / 60 % 60 : Nat) * 60 + (min t.writtenSecond 59 : Nat) - 0 =
      t.seconds := by
    rw [Calendar.dayNumber_dateOfDay, writtenSecond, tenTo_nine]
    split <;> omega
  have hnanoseconds : t.nanoseconds % 1000000000 +
      (if t.writtenSecond = 60 then tenTo 9 else 0) = t.nanoseconds := by
    rw [writtenSecond, tenTo_nine]
    split <;> split <;> omega
  unfold Time.ofParts
  dsimp only
  rw [hseconds, hnanoseconds, if_neg (by simp [hdate]), if_pos hyear]

/-- **The text of a kept point in time reads as it.** -/
theorem ofText?_text {t : Time} (h : t.IsKept) : ofText? t.text = some t := by
  have hdate := Calendar.isValid_dateOfDay h.year_kept
  have hread : read t.text = .ok t := by
    simp only [read, text, String.toList_ofList, secondChars, List.append_assoc, List.cons_append,
      bind, Except.bind]
    rw [date_chars hdate]
    dsimp only [afterDate]
    rw [if_pos (.inl rfl)]
    dsimp only
    rw [timeOfDay_chars _ (by omega) (by omega) (by split <;> omega)]
    exact h.ofParts
  rw [ofText?, hread]
  rfl

/-! ### Without the fraction -/

/-- A point in time without its fraction of a second; a leap second is no fraction. -/
def cut (t : Time) : Time := ⟨t.seconds, if tenTo 9 ≤ t.nanoseconds then tenTo 9 else 0⟩

/-- What is cut stays cut. -/
@[simp] theorem cut_cut (t : Time) : t.cut.cut = t.cut := by
  unfold cut
  dsimp only
  split
  · rfl
  · rfl

/-- A point in time stays kept without its fraction. -/
theorem IsKept.cut {t : Time} (h : t.IsKept) : t.cut.IsKept := by
  refine ⟨h.year_kept, ?_, ?_⟩
  · simp only [Time.cut, tenTo_nine]
    split <;> omega
  · intro hleap
    refine h.leap ?_
    simp only [Time.cut, tenTo_nine] at hleap
    split at hleap <;> omega

/-- To the second a point in time is written as it is without its fraction. -/
theorem wholeSeconds_eq (t : Time) : t.wholeSeconds = t.cut.text := by
  unfold wholeSeconds text cut secondChars
  dsimp only
  split
  · simp [fractionChars]
  · simp [fractionChars]

/-- **The text to the second reads as the point in time without its fraction.** -/
theorem ofText?_wholeSeconds {t : Time} (h : t.IsKept) : ofText? t.wholeSeconds = some t.cut := by
  rw [wholeSeconds_eq, ofText?_text h.cut]

/-! ### What reads is kept -/

/-- Two steps in a row go well only if both do. -/
theorem exists_of_bind {α β : Type} {step : Except Flaw α} {next : α → Except Flaw β} {b : β}
    (h : step >>= next = .ok b) : ∃ a, step = .ok a ∧ next a = .ok b := by
  cases step with
  | error flaw => exact absurd h nofun
  | ok a => exact ⟨a, rfl, h⟩

/-- Digits after a number make a number of that many places more. -/
theorem foldl_digits_lt {run : List Char} (h : ∀ c ∈ run, c.isDigit = true) (start : Nat) :
    run.foldl (fun n c => n * 10 + (c.toNat - 48)) start < (start + 1) * tenTo run.length := by
  induction run generalizing start with
  | nil => simp
  | cons c rest ih =>
    have hdigit : c.toNat ≤ 57 := (Char.isDigit_iff_toNat.mp (h c List.mem_cons_self)).2
    have hrest := ih (fun d hd => h d (List.mem_cons_of_mem c hd)) (start * 10 + (c.toNat - 48))
    rw [List.foldl_cons, List.length_cons]
    calc
      _ < (start * 10 + (c.toNat - 48) + 1) * tenTo rest.length := hrest
      _ ≤ ((start + 1) * 10) * tenTo rest.length := Nat.mul_le_mul_right _ (by omega)
      _ = (start + 1) * tenTo (rest.length + 1) := by
        rw [Nat.mul_assoc, Nat.add_comm rest.length, tenTo_add]

/-- A number has no more places than digits were read, and those are within the limit. -/
theorem digits_lt {limit n : Nat} {s rest : List Char} (h : digits limit s = .ok (n, rest)) :
    n < tenTo (s.length - rest.length) ∧ s.length - rest.length ≤ limit := by
  unfold digits at h
  dsimp only at h
  split at h
  · exact absurd h nofun
  split at h
  · exact absurd h nofun
  obtain ⟨rfl, rfl⟩ := Prod.mk.inj (Except.ok.inj h)
  have hdigits : ∀ c ∈ (s.takeWhile Char.isDigit).take limit, c.isDigit = true := fun c hc =>
    List.all_eq_true.mp (List.all_takeWhile (l := s)) c (List.mem_of_mem_take hc)
  have hshort : ((s.takeWhile Char.isDigit).take limit).length ≤ s.length :=
    Nat.le_trans (List.length_take_le' ..) (List.takeWhile_sublist _).length_le
  have hlength : s.length - (s.drop ((s.takeWhile Char.isDigit).take limit).length).length =
      ((s.takeWhile Char.isDigit).take limit).length := by
    rw [List.length_drop]
    omega
  rw [hlength]
  refine ⟨?_, List.length_take_le ..⟩
  simpa using foldl_digits_lt hdigits 0

/-- A fraction is less than a second. -/
theorem fraction_lt {n : Nat} {s rest : List Char} (h : fraction s = .ok (n, rest)) :
    n < 1000000000 := by
  unfold fraction at h
  split at h
  next places =>
    obtain ⟨⟨k, tail⟩, hdigits, h⟩ := exists_of_bind h
    obtain ⟨hlt, hnine⟩ := digits_lt hdigits
    obtain ⟨rfl, -⟩ := Prod.mk.inj (Except.ok.inj h)
    calc
      _ < tenTo (places.length - tail.length) * tenTo (9 - (places.length - tail.length)) :=
        Nat.mul_lt_mul_of_pos_right hlt (Nat.pow_pos (by decide))
      _ = tenTo 9 := by
        rw [← tenTo_add, Nat.add_sub_cancel' hnine]
  · obtain ⟨rfl, -⟩ := Prod.mk.inj (Except.ok.inj h)
    decide

/-- An offset is one of whole minutes. -/
theorem offset_mod {east : Int} {s rest : List Char} (h : offset s = .ok (east, rest)) :
    east % 60 = 0 := by
  unfold offset at h
  split at h
  · obtain ⟨rfl, -⟩ := Prod.mk.inj (Except.ok.inj h)
    rfl
  · obtain ⟨rfl, -⟩ := Prod.mk.inj (Except.ok.inj h)
    rfl
  · split at h
    · obtain ⟨rfl, -⟩ := Prod.mk.inj (Except.ok.inj h)
      rfl
    · obtain ⟨west, -, h⟩ := exists_of_bind h
      obtain ⟨⟨hours, _⟩, -, h⟩ := exists_of_bind h
      obtain ⟨⟨minutes, _⟩, -, h⟩ := exists_of_bind h
      by_cases hminutes : minutes < 60
      · obtain ⟨rfl, -⟩ := Prod.mk.inj (Except.ok.inj ((if_pos hminutes).symm.trans h))
        split <;> omega
      · exact absurd ((if_neg hminutes).symm.trans h) nofun
  · exact absurd h nofun

/-- The nanoseconds of a time of day are less than a second. -/
theorem timeOfDay_lt {hour minute second nanoseconds : Nat} {s rest : List Char}
    (h : timeOfDay s = .ok ((hour, minute, second, nanoseconds), rest)) :
    nanoseconds < 1000000000 := by
  unfold timeOfDay at h
  obtain ⟨⟨_, _⟩, -, h⟩ := exists_of_bind h
  obtain ⟨_, -, h⟩ := exists_of_bind h
  obtain ⟨⟨_, _⟩, -, h⟩ := exists_of_bind h
  obtain ⟨_, -, h⟩ := exists_of_bind h
  obtain ⟨⟨_, _⟩, -, h⟩ := exists_of_bind h
  obtain ⟨⟨_, _⟩, hfraction, h⟩ := exists_of_bind h
  obtain ⟨⟨-, -, -, rfl⟩, -⟩ := Prod.mk.inj (Except.ok.inj h)
  exact fraction_lt hfraction

/-- Parts that make a point in time make one that is kept. -/
theorem isKept_of_ofParts {date : Date} {hour minute second nanoseconds : Nat} {east : Int}
    {t : Time} (h : ofParts date hour minute second nanoseconds east = .ok t)
    (hnanoseconds : nanoseconds < 1000000000) (heast : east % 60 = 0) : t.IsKept := by
  unfold ofParts at h
  dsimp only at h
  split at h
  · exact absurd h nofun
  split at h
  next hyear =>
    obtain rfl := Except.ok.inj h
    refine ⟨hyear, ?_, fun hleap => ?_⟩
    · dsimp only
      rw [tenTo_nine]
      split <;> omega
    · dsimp only at hleap ⊢
      have hsixty : second = 60 := by
        split at hleap
        · assumption
        · omega
      omega
  · exact absurd h nofun

/-- **A point in time that a text reads as is kept.** -/
theorem isKept_of_ofText? {text : String} {t : Time} (h : ofText? text = some t) : t.IsKept := by
  have hread : read text = .ok t := by
    unfold ofText? at h
    cases hread : read text with
    | error flaw =>
        rw [hread] at h
        exact absurd h nofun
    | ok kept =>
        rw [hread] at h
        exact congrArg Except.ok (Option.some.inj h)
  unfold read at hread
  obtain ⟨⟨date, _⟩, -, hread⟩ := exists_of_bind hread
  obtain ⟨_, -, hread⟩ := exists_of_bind hread
  obtain ⟨⟨⟨hour, minute, second, nanoseconds⟩, _⟩, htime, hread⟩ := exists_of_bind hread
  obtain ⟨⟨east, _⟩, hoffset, hread⟩ := exists_of_bind hread
  dsimp only at hread
  split at hread
  · exact isKept_of_ofParts hread (timeOfDay_lt htime) (offset_mod hoffset)
  · exact absurd hread nofun

end Time

end NodeFeatureOperator
