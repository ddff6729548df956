/-!
# Decimal numbers

Numbers written with the digits 0 to 9.
-/

namespace RollCall.Text

/-- The digit of a number below ten. -/
def digitChar (n : Nat) : Char :=
  Char.ofNat ('0'.toNat + n)

/-- The number that a digit stands for. -/
def digitValue (c : Char) : Nat :=
  c.toNat - '0'.toNat

/-- The digits of a number, without leading zeros. -/
def decimal (n : Nat) : List Char :=
  if n < 10 then [digitChar n] else decimal (n / 10) ++ [digitChar (n % 10)]

/-- The number that a list of digits stands for. -/
def decimalValue (digits : List Char) : Nat :=
  digits.foldl (fun n c => 10 * n + digitValue c) 0

/-- The digits of a number, at least `width` of them. -/
def zeroPadded (width n : Nat) : List Char :=
  List.replicate (width - (decimal n).length) '0' ++ decimal n

theorem isDigit_digitChar {n : Nat} (h : n < 10) : (digitChar n).isDigit = true := by
  have : ∀ n < 10, (digitChar n).isDigit = true := by decide
  exact this n h

theorem digitValue_digitChar {n : Nat} (h : n < 10) : digitValue (digitChar n) = n := by
  have : ∀ n < 10, digitValue (digitChar n) = n := by decide
  exact this n h

theorem isDigit_of_mem_decimal (n : Nat) : ∀ c ∈ decimal n, c.isDigit = true := by
  induction n using decimal.induct with
  | case1 n h =>
    intro c hc
    rw [decimal, if_pos h] at hc
    rw [List.mem_singleton.1 hc]
    exact isDigit_digitChar h
  | case2 n h ih =>
    intro c hc
    rw [decimal, if_neg h] at hc
    rcases List.mem_append.1 hc with hc | hc
    · exact ih c hc
    · rw [List.mem_singleton.1 hc]
      exact isDigit_digitChar (Nat.mod_lt _ (by decide))

/-- Reading the digits of a number gives the number. -/
theorem decimalValue_decimal (n : Nat) : decimalValue (decimal n) = n := by
  induction n using decimal.induct with
  | case1 n h =>
    rw [decimal, if_pos h]
    simpa [decimalValue] using digitValue_digitChar h
  | case2 n h ih =>
    rw [decimal, if_neg h, decimalValue, List.foldl_append]
    rw [decimalValue] at ih
    rw [ih]
    simp only [List.foldl_cons, List.foldl_nil]
    rw [digitValue_digitChar (Nat.mod_lt _ (by decide))]
    omega

end RollCall.Text
