import EventSourcing.Proofs.Digits
import EventSourcing.Timestamp.Text
import Mathlib.Algebra.Group.Nat.Defs

/-!
# The text of a clock reading

Every reading of the clock is read back from its text (`Timestamp.parse_text`). The parts are read
one after another, and none takes anything from the next:

* a number of fixed width is read in front of any text (`readNumber_padded`);
* a year or a fraction is read in front of a text that starts with no digit (`readYear_yearText`,
  `readFraction_fractionText`).

A leap second is written as second 60, and only the last second of a minute can be one.
-/

namespace EventSourcing

namespace Text

theorem isBlank_of_isDigit {c : Char} (h : c.isDigit = true) : isBlank c = false := by
  have hrange : 48 ≤ c.toNat ∧ c.toNat ≤ 57 := by
    simp only [Char.isDigit, Bool.and_eq_true, decide_eq_true_eq] at h
    exact h
  rw [isBlank, List.any_eq_false]
  intro r hr
  simp only [blankRanges, List.mem_cons, List.not_mem_nil, or_false] at hr
  rcases hr with rfl | rfl | rfl | rfl | rfl | rfl | rfl | rfl | rfl | rfl <;>
    simp only [Bool.and_eq_true, decide_eq_true_eq] <;> omega

theorem trimStart_cons {c : Char} (h : isBlank c = false) (rest : List Char) :
    trimStart (c :: rest) = c :: rest := by
  rw [trimStart, List.dropWhile_cons_of_neg (by simp [h])]

end Text

namespace Timestamp

/-! ## Numbers of fixed width -/

theorem isDigit_of_mem_padded {width n : Nat} {c : Char} (h : c ∈ padded width n) :
    c.isDigit = true := by
  rcases List.mem_append.1 h with hzero | hdigit
  · rw [List.eq_of_mem_replicate hzero]
    decide
  · exact Text.isDigit_of_mem_decimal hdigit

theorem length_padded {width n : Nat} (hwidth : 0 < width) (h : n < 10 ^ width) :
    (padded width n).length = width := by
  have hle : (Nat.toDigits 10 n).length ≤ width :=
    (Nat.length_toDigits_le_iff (by decide) hwidth).2 h
  rw [padded, List.length_append, List.length_replicate]
  omega

theorem padded_ne_nil (width n : Nat) : padded width n ≠ [] := by
  rw [padded]
  exact List.append_ne_nil_of_right_ne_nil _ Nat.toDigits_ne_nil

theorem ofDigitChars_padded (width n : Nat) : Nat.ofDigitChars 10 (padded width n) 0 = n := by
  rw [padded, Nat.ofDigitChars_append, Nat.ofDigitChars_replicate_zero, Nat.mul_zero,
    Nat.ofDigitChars_ten_toDigits]

/-- A number in front of a text starts with a digit. -/
theorem padded_append_eq_cons (width n : Nat) (rest : List Char) :
    ∃ c more, padded width n ++ rest = c :: more ∧ c.isDigit = true := by
  cases hpadded : padded width n with
  | nil => exact absurd hpadded (padded_ne_nil width n)
  | cons c more =>
    have hmem : c ∈ padded width n := by
      rw [hpadded]
      exact List.mem_cons_self
    exact ⟨c, more ++ rest, rfl, isDigit_of_mem_padded hmem⟩

theorem trimStart_padded (width n : Nat) (rest : List Char) :
    Text.trimStart (padded width n ++ rest) = padded width n ++ rest := by
  obtain ⟨c, more, heq, hdigit⟩ := padded_append_eq_cons width n rest
  rw [heq, Text.trimStart_cons (Text.isBlank_of_isDigit hdigit)]

/-- A number that fills its width is read back in front of any text. -/
theorem readNumber_padded (width n : Nat) (hwidth : 0 < width) (h : n < 10 ^ width)
    (rest : List Char) : readNumber width (padded width n ++ rest) = some (n, rest) := by
  have hlength := length_padded hwidth h
  have htake : (padded width n ++ rest).take width = padded width n := by
    rw [List.take_append_of_le_length (by omega), List.take_of_length_le (by omega)]
  have hdigits : (padded width n).takeWhile Char.isDigit = padded width n := by
    have happend := Text.takeWhile_isDigit_append
      (fun c (hc : c ∈ padded width n) => isDigit_of_mem_padded hc) Text.endsDigits_nil
    rw [List.append_nil] at happend
    exact happend
  simp only [readNumber, trimStart_padded, htake, hdigits, ofDigitChars_padded,
    List.isEmpty_iff, padded_ne_nil, if_false, List.drop_left]

theorem readMark_cons (mark : Char) (h : Text.isBlank mark = false) (rest : List Char) :
    readMark mark (mark :: rest) = some rest := by
  rw [readMark, Text.trimStart_cons h]
  exact if_pos rfl

/-! ## The parts of a reading -/

/-- A year is read back in front of a text that starts with no digit. -/
theorem readYear_yearText (year : Int) {rest : List Char} (hrest : Text.EndsDigits rest) :
    readYear (yearText year ++ rest) = some (year, rest) := by
  have hdigits : ∀ c ∈ padded 4 year.natAbs, c.isDigit = true :=
    fun _ hc => isDigit_of_mem_padded hc
  have htake := Text.takeWhile_isDigit_append hdigits hrest
  have hdrop := Text.dropWhile_isDigit_append hdigits hrest
  rw [yearText]
  by_cases hplain : 0 ≤ year ∧ year ≤ 9999
  · -- four digits, without sign
    have habs : (year.natAbs : Int) = year := by omega
    have hnumber := readNumber_padded 4 year.natAbs (by decide) (by omega) rest
    obtain ⟨c, more, heq, hdigit⟩ := padded_append_eq_cons 4 year.natAbs rest
    rw [if_pos hplain, readYear, trimStart_padded]
    -- the text starts with a digit, so neither with a hyphen nor with a plus
    split
    · next heq' =>
      rw [heq] at heq'
      cases heq'
      exact absurd hdigit (by decide)
    · next heq' =>
      rw [heq] at heq'
      cases heq'
      exact absurd hdigit (by decide)
    · rw [hnumber]
      show some ((year.natAbs : Int), rest) = _
      rw [habs]
  · -- a sign in front, and as many digits as the year has
    rw [if_neg hplain]
    by_cases hneg : year < 0
    · have habs : -(year.natAbs : Int) = year := by omega
      rw [if_pos hneg, List.cons_append, readYear, Text.trimStart_cons (by decide)]
      simp only [htake, hdrop, List.isEmpty_iff, padded_ne_nil, if_false, ofDigitChars_padded, habs]
    · have habs : (year.natAbs : Int) = year := by omega
      rw [if_neg hneg, List.cons_append, readYear, Text.trimStart_cons (by decide)]
      simp only [htake, hdrop, List.isEmpty_iff, padded_ne_nil, if_false, ofDigitChars_padded, habs]

theorem daysInMonth_le (year : Int) (month : Nat) : daysInMonth year month ≤ 31 := by
  unfold daysInMonth
  repeat' split
  all_goals decide

theorem month_le {year : Int} {month : Nat} (h : 0 < daysInMonth year month) : month ≤ 12 := by
  unfold daysInMonth at h
  split at h <;> omega

theorem readDate_text (d : Date) (rest : List Char) :
    readDate (yearText d.year ++ '-' :: (padded 2 d.month ++ '-' :: (padded 2 d.day ++ rest)))
      = some (d, rest) := by
  have hday := daysInMonth_le d.year d.month
  have hmonth : d.month ≤ 12 := month_le (Nat.lt_of_lt_of_le d.day_range.1 d.day_range.2)
  have hrange := d.day_range
  have hof : Date.of? d.year d.month d.day = some d := dif_pos ⟨d.year_range, d.day_range⟩
  have hyear : ∀ rest, readYear (yearText d.year ++ '-' :: rest) = some (d.year, '-' :: rest) :=
    fun rest => readYear_yearText d.year (Text.endsDigits_cons (by decide) rest)
  have hhyphen := readMark_cons '-' (by decide)
  simp only [readDate, hyear, hhyphen,
    readNumber_padded 2 d.month (by decide) (by omega),
    readNumber_padded 2 d.day (by decide) (by omega), hof, bind, Option.bind_some]
  rfl

/-- Behind digits that leave out zeros at the end, the reader fills the zeros up. -/
theorem fractionValue_padded {width n : Nat} (hpos : 0 < width) (hwidth : width ≤ 9)
    (h : n < 10 ^ width) : fractionValue (padded width n) = n * 10 ^ (9 - width) := by
  have hlength := length_padded hpos h
  have htake : (padded width n ++ List.replicate 9 '0').take 9
      = padded width n ++ List.replicate (9 - width) '0' := by
    rw [List.take_append, List.take_of_length_le (by omega), hlength, List.take_replicate,
      Nat.min_eq_left (by omega)]
  rw [fractionValue, htake, Nat.ofDigitChars_append, ofDigitChars_padded,
    Nat.ofDigitChars_replicate_zero, Nat.mul_comm]

theorem readFraction_padded {width n : Nat} (hpos : 0 < width) (hwidth : width ≤ 9)
    (h : n < 10 ^ width) {rest : List Char} (hrest : Text.EndsDigits rest) :
    readFraction ('.' :: (padded width n ++ rest)) = some (n * 10 ^ (9 - width), rest) := by
  have hdigits : ∀ c ∈ padded width n, c.isDigit = true := fun _ hc => isDigit_of_mem_padded hc
  simp only [readFraction, Text.takeWhile_isDigit_append hdigits hrest,
    Text.dropWhile_isDigit_append hdigits hrest, List.isEmpty_iff, padded_ne_nil, if_false,
    fractionValue_padded hpos hwidth h]

/-- A fraction of a second keeps all nanoseconds, in whichever of the widths it is written. -/
theorem readFraction_fractionText {nanosecond : Nat} (h : nanosecond < nanosPerSecond) :
    readFraction (fractionText nanosecond ++ ['Z']) = some (nanosecond, ['Z']) := by
  have hlt : nanosecond < 1000000000 := h
  -- three, six or nine digits, as few as keep the value
  have hrest : Text.EndsDigits ['Z'] := Text.endsDigits_cons (by decide) _
  rw [fractionText]
  by_cases hzero : nanosecond = 0
  · rw [if_pos hzero, hzero]
    rfl
  by_cases hmilli : nanosecond % 1000000 = 0
  · rw [if_neg hzero, if_pos hmilli, List.cons_append,
      readFraction_padded (by decide) (by decide) (by omega) hrest]
    congr 2
    omega
  by_cases hmicro : nanosecond % 1000 = 0
  · rw [if_neg hzero, if_neg hmilli, if_pos hmicro, List.cons_append,
      readFraction_padded (by decide) (by decide) (by omega) hrest]
    congr 2
    omega
  · rw [if_neg hzero, if_neg hmilli, if_neg hmicro, List.cons_append,
      readFraction_padded (by decide) (by decide) (by omega) hrest]
    congr 2
    omega

/-- The second that a number of nanoseconds below two seconds reaches into, and the rest. -/
theorem div_mod_of_lt_two_mul {n unit : Nat} (hle : unit ≤ n) (hlt : n < 2 * unit) :
    n / unit = 1 ∧ n % unit = n - unit := by
  refine ⟨Nat.div_eq_of_lt_le (by omega) (by omega), ?_⟩
  rw [Nat.mod_eq_sub_mod hle, Nat.mod_eq_of_lt (by omega)]

/-- The time of day is what its parts are, once each of them is read. -/
theorem readTime_eq {cs hourRest minuteText minuteRest secondText secondRest rest : List Char}
    {hour minute second nanosecond : Nat} (hhour : readNumber 2 cs = some (hour, hourRest))
    (hcolon : readMark ':' hourRest = some minuteText)
    (hminute : readNumber 2 minuteText = some (minute, minuteRest))
    (hcolon' : readMark ':' minuteRest = some secondText)
    (hsecond : readNumber 2 secondText = some (second, secondRest))
    (hfraction : readFraction secondRest = some (nanosecond, rest))
    (hrange : hour < 24 ∧ minute < 60 ∧ second ≤ 60) :
    readTime cs =
      if second = 60 then some (hour * 3600 + minute * 60 + 59, nanosecond + nanosPerSecond, rest)
      else some (hour * 3600 + minute * 60 + second, nanosecond, rest) := by
  simp only [readTime, hhour, hcolon, hminute, hcolon', hsecond, hfraction, bind, Option.bind_some]
  rw [if_pos hrange]
  rfl

theorem readTime_text {second nanosecond : Nat} (hsecond : second < 86400)
    (hnanosecond : nanosecond < nanosIn second) :
    readTime (padded 2 (second / 3600) ++ ':' :: (padded 2 (second / 60 % 60) ++ ':' ::
        (padded 2 (second % 60 + nanosecond / nanosPerSecond)
          ++ (fractionText (nanosecond % nanosPerSecond) ++ ['Z']))))
      = some (second, nanosecond, ['Z']) := by
  have hcolon := readMark_cons ':' (by decide)
  have hhour := readNumber_padded 2 (second / 3600) (by decide) (by omega)
  have hminute := readNumber_padded 2 (second / 60 % 60) (by decide) (by omega)
  have hfraction := readFraction_fractionText
    (Nat.mod_lt nanosecond (by decide : 0 < nanosPerSecond))
  by_cases hplain : nanosecond < nanosPerSecond
  · -- the second as it is
    have hzero : nanosecond / nanosPerSecond = 0 := Nat.div_eq_of_lt hplain
    have hsec := readNumber_padded 2 (second % 60 + nanosecond / nanosPerSecond)
      (by decide) (by omega)
    have hwhole : second / 3600 * 3600 + second / 60 % 60 * 60 + second % 60 = second := by omega
    rw [readTime_eq (hhour _) (hcolon _) (hminute _) (hcolon _) (hsec _) hfraction (by omega),
      if_neg (by omega), hzero, Nat.add_zero, hwhole, Nat.mod_eq_of_lt hplain]
  · -- a leap second, so the second is the last of its minute
    have hlast : second % 60 = 59 ∧ nanosecond < 2 * nanosPerSecond := by
      unfold nanosIn at hnanosecond
      split at hnanosecond
      · next hlast => exact ⟨hlast, hnanosecond⟩
      · exact absurd hnanosecond hplain
    obtain ⟨hone, hmod⟩ := div_mod_of_lt_two_mul (Nat.le_of_not_lt hplain) hlast.2
    have hsec := readNumber_padded 2 (second % 60 + nanosecond / nanosPerSecond)
      (by decide) (by omega)
    have hwhole : second / 3600 * 3600 + second / 60 % 60 * 60 + 59 = second := by omega
    rw [readTime_eq (hhour _) (hcolon _) (hminute _) (hcolon _) (hsec _) hfraction (by omega),
      if_pos (by omega), hwhole, hmod, Nat.sub_add_cancel (Nat.le_of_not_lt hplain)]

theorem ofLocal?_zero (t : Timestamp) : ofLocal? t.date t.second t.nanosecond 0 = some t := by
  have hsecond := t.second_lt
  have hday : (((t.second : Int) - 0) % 86400).toNat = t.second := by omega
  have hutc : ¬ (t.second : Int) - 0 < 0 ∧ (t.second : Int) - 0 < 86400 := by omega
  rw [ofLocal?]
  simp only [if_neg hutc.1, if_pos hutc.2]
  rw [dif_pos (by rw [hday]; exact ⟨hsecond, t.nanosecond_lt⟩)]
  cases t
  simp only [Option.some.injEq, mk.injEq, true_and, and_true]
  exact hday

theorem readOffset_zulu : readOffset ['Z'] = some 0 := by decide

/-- A reading is what its date and its time say, once both are read and the text ends in UTC. -/
theorem ofChars?_eq {cs timeText : List Char} {date : Date} {second nanosecond : Nat}
    (hdate : readDate cs = some (date, 'T' :: timeText))
    (htime : readTime timeText = some (second, nanosecond, ['Z'])) :
    ofChars? cs = ofLocal? date second nanosecond 0 := by
  rw [ofChars?, hdate, Option.bind_eq_bind, Option.bind_some]
  show (if 'T' = 'T' ∨ 'T' = 't' ∨ 'T' = ' ' then _ else none) = _
  rw [if_pos (Or.inl rfl), htime, Option.bind_eq_bind, Option.bind_some]
  show (readOffset ['Z']).bind (ofLocal? date second nanosecond) = _
  rw [readOffset_zulu, Option.bind_some]

theorem chars_eq (t : Timestamp) :
    t.chars = yearText t.date.year ++ '-' :: (padded 2 t.date.month ++ '-' ::
      (padded 2 t.date.day ++ 'T' :: (padded 2 (t.second / 3600) ++ ':' ::
        (padded 2 (t.second / 60 % 60) ++ ':' ::
          (padded 2 (t.second % 60 + t.nanosecond / nanosPerSecond)
            ++ (fractionText (t.nanosecond % nanosPerSecond) ++ ['Z'])))))) := by
  simp only [chars, List.append_assoc, List.cons_append]

/-- Every reading of the clock is read back from its text. -/
theorem parse_text (t : Timestamp) : parse t.text = some t := by
  rw [parse, text, String.toList_ofList, chars_eq,
    ofChars?_eq (readDate_text t.date _) (readTime_text t.second_lt t.nanosecond_lt)]
  exact ofLocal?_zero t

end Timestamp

end EventSourcing
