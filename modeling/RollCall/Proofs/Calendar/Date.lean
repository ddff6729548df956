import RollCall.Calendar.Date
import RollCall.Proofs.Text.Line
import Mathlib.Algebra.Group.Nat.Defs

/-!
# The written form of a date

A date is read from its written form, for every year of the calendar. The written form holds digits,
signs and hyphens only, so that it stands on one line and no blank is trimmed from it.
-/

namespace RollCall

namespace Text

theorem digit_of_mem_zeroPadded {width n : Nat} {c : Char} (h : c ∈ zeroPadded width n) :
    c.isDigit = true := by
  rcases List.mem_append.1 h with h | h
  · rw [List.eq_of_mem_replicate h]
    decide
  · exact isDigit_of_mem_decimal n c h

theorem decimalValue_zeroPadded (width n : Nat) : decimalValue (zeroPadded width n) = n := by
  have hzeros : ∀ k, (List.replicate k '0').foldl (fun n c => 10 * n + digitValue c) 0 = 0 := by
    intro k
    induction k with
    | zero => rfl
    | succ k ih =>
      rw [List.replicate_succ, List.foldl_cons]
      simpa [digitValue] using ih
  rw [zeroPadded, decimalValue, List.foldl_append, hzeros]
  exact decimalValue_decimal n

theorem length_decimal_le {n digits : Nat} (hdigits : 0 < digits) (h : n < 10 ^ digits) :
    (decimal n).length ≤ digits := by
  induction digits generalizing n with
  | zero => omega
  | succ digits ih =>
    rw [decimal]
    split
    · simp
    · next hn =>
      have hpos : 0 < digits := by
        rcases Nat.eq_zero_or_pos digits with rfl | hpos
        · simp at h
          omega
        · exact hpos
      have hdiv : n / 10 < 10 ^ digits := by
        rw [Nat.div_lt_iff_lt_mul (by decide)]
        rwa [Nat.pow_succ] at h
      simpa using ih hpos hdiv

theorem length_zeroPadded {width n : Nat} (hwidth : 0 < width) (h : n < 10 ^ width) :
    (zeroPadded width n).length = width := by
  have := length_decimal_le hwidth h
  simp only [zeroPadded, List.length_append, List.length_replicate]
  omega

theorem zeroPadded_ne_nil (width n : Nat) : zeroPadded width n ≠ [] := by
  have : decimal n ≠ [] := by
    rw [decimal]
    split <;> simp
  simp [zeroPadded, this]

end Text

namespace Date

/-! ## Numbers -/

/-- A number that fits the limit is read up to the character behind it. -/
theorem readNumber?_zeroPadded {limit width n : Nat} {rest : List Char}
    (hlimit : (Text.zeroPadded width n).length ≤ limit)
    (hrest : (Text.zeroPadded width n).length = limit ∨ ∀ c ∈ rest.head?, c.isDigit = false) :
    readNumber? limit (Text.zeroPadded width n ++ rest) = some (n, rest) := by
  have hdigits : ((Text.zeroPadded width n ++ rest).take limit).takeWhile Char.isDigit =
      Text.zeroPadded width n := by
    rw [List.take_append, List.take_of_length_le hlimit,
      List.takeWhile_append_of_pos fun c hc => Text.digit_of_mem_zeroPadded hc]
    rcases hrest with hrest | hrest
    · simp [hrest]
    · cases rest with
      | nil => simp
      | cons c rest =>
        cases limit - (Text.zeroPadded width n).length with
        | zero => simp
        | succ k => simp [hrest c rfl]
  simp [readNumber?, hdigits, Text.zeroPadded_ne_nil, Text.decimalValue_zeroPadded]

theorem readNumber?_two {n : Nat} (h : n < 100) (rest : List Char) :
    readNumber? 2 (Text.zeroPadded 2 n ++ rest) = some (n, rest) := by
  have hlen : (Text.zeroPadded 2 n).length = 2 := Text.length_zeroPadded (by decide) h
  exact readNumber?_zeroPadded hlen.le (.inl hlen)

/-! ## Years -/

theorem readYear?_digit {c : Char} (hc : c.isDigit = true) (text : List Char) :
    readYear? (c :: text) = (readNumber? 4 (c :: text)).map fun (n, rest) => ((n : Int), rest) := by
  unfold readYear?
  split
  · next heq =>
    obtain ⟨rfl, -⟩ := List.cons.inj heq
    exact absurd hc (by decide)
  · next heq =>
    obtain ⟨rfl, -⟩ := List.cons.inj heq
    exact absurd hc (by decide)
  · rfl

/-- Without a sign a year has four digits; with one it ends where the hyphen stands. -/
theorem readYear?_yearText (year : Int) (rest : List Char) :
    readYear? (yearText year ++ '-' :: rest) = some (year, '-' :: rest) := by
  have hhyphen : ∀ c ∈ ('-' :: rest).head?, c.isDigit = false := by simp
  have hsigned : ∀ n, readNumber? (Text.zeroPadded 4 n ++ '-' :: rest).length
      (Text.zeroPadded 4 n ++ '-' :: rest) = some (n, '-' :: rest) := fun n =>
    readNumber?_zeroPadded (by simp) (.inr hhyphen)
  unfold yearText
  split
  · next hyear =>
    have hlen : (Text.zeroPadded 4 year.toNat).length = 4 :=
      Text.length_zeroPadded (by decide) (by omega)
    obtain ⟨c, digits, hdigits⟩ := List.exists_cons_of_ne_nil (Text.zeroPadded_ne_nil 4 year.toNat)
    have hc : c.isDigit = true := Text.digit_of_mem_zeroPadded (by rw [hdigits]; simp)
    have hread : readNumber? 4 (Text.zeroPadded 4 year.toNat ++ '-' :: rest) =
        some (year.toNat, '-' :: rest) :=
      readNumber?_zeroPadded hlen.le (.inl hlen)
    rw [hdigits, List.cons_append] at hread ⊢
    rw [readYear?_digit hc, hread]
    simp [Int.toNat_of_nonneg hyear.1]
  · next hyear =>
    split
    · next hneg =>
      simp only [List.cons_append, readYear?, hsigned, Option.map_some]
      congr 2
      omega
    · next hpos =>
      simp only [List.cons_append, readYear?, hsigned, Option.map_some]
      congr 2
      omega

/-! ## Dates -/

theorem mem_chars {date : Date} {c : Char} (h : c ∈ date.chars) :
    c.isDigit = true ∨ c = '-' ∨ c = '+' := by
  have hyear : ∀ c ∈ yearText date.year, c.isDigit = true ∨ c = '-' ∨ c = '+' := by
    intro c hc
    unfold yearText at hc
    split at hc
    · exact .inl (Text.digit_of_mem_zeroPadded hc)
    · rcases List.mem_cons.1 hc with rfl | hc
      · split <;> simp
      · exact .inl (Text.digit_of_mem_zeroPadded hc)
  simp only [chars, List.mem_append, List.mem_cons] at h
  rcases h with h | rfl | h | rfl | h
  · exact hyear c h
  · simp
  · exact .inl (Text.digit_of_mem_zeroPadded h)
  · simp
  · exact .inl (Text.digit_of_mem_zeroPadded h)

theorem isBlank_of_isDigit {c : Char} (h : c.isDigit = true) : Text.isBlank c = false := by
  have hdigit : 48 ≤ c.toNat ∧ c.toNat ≤ 57 := by
    simpa [Char.isDigit, UInt32.le_iff_toNat_le] using h
  simp only [Text.isBlank, Bool.or_eq_false_iff, Bool.and_eq_false_iff, decide_eq_false_iff_not,
    beq_eq_false_iff_ne]
  omega

theorem isBlank_of_mem_chars {date : Date} {c : Char} (h : c ∈ date.chars) :
    Text.isBlank c = false := by
  rcases mem_chars h with h | rfl | rfl
  · exact isBlank_of_isDigit h
  · decide
  · decide

theorem trimStart_zeroPadded (width n : Nat) (rest : List Char) :
    Text.trimStart (Text.zeroPadded width n ++ rest) = Text.zeroPadded width n ++ rest :=
  Text.trimStart_append_of_ne_nil (Text.zeroPadded_ne_nil width n)
    fun _ hc => isBlank_of_isDigit (Text.digit_of_mem_zeroPadded hc)

theorem daysInMonth_le (year : Int) (month : Nat) : daysInMonth year month ≤ 31 := by
  unfold daysInMonth
  repeat' split
  all_goals omega

/-- A date is read from its written form. -/
theorem read?_chars (date : Date) : read? .tight date.chars = some date := by
  have hmonth : date.month < 100 := by have := date.month_range; omega
  have hday : date.day < 100 := by
    have := date.day_range
    have := daysInMonth_le date.year date.month
    omega
  have hstart : Text.trimStart date.chars = date.chars :=
    Text.trimStart_of_forall fun c hc => isBlank_of_mem_chars hc
  have hdayText : Text.trimStart (Text.zeroPadded 2 date.day) = Text.zeroPadded 2 date.day := by
    simpa using trimStart_zeroPadded 2 date.day []
  have hreadDay : readNumber? 2 (Text.zeroPadded 2 date.day) = some (date.day, []) := by
    simpa using readNumber?_two hday []
  rw [read?, hstart, chars, readYear?_yearText]
  simp only [Option.bind_eq_bind, Option.bind_some, Spacing.skip, Text.after?_cons_cons,
    Text.after?_nil, if_true, trimStart_zeroPadded, readNumber?_two hmonth, hdayText, hreadDay]
  exact ofParts?_eq_some date

end Date

end RollCall
