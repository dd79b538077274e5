import PeerCrawl.Text.Digits

set_option autoImplicit false

/-! # Numerals

In a base up to sixteen, a numeral is a run of lower-case digits that reads as the number and has
no leading zero (`Text.IsNumeral`). `Text.digits` writes one (`Text.isNumeral_digits`), and no text
is a numeral of two numbers (`Text.IsNumeral.unique`). -/

namespace PeerCrawl

namespace Text

/-- A digit below sixteen, not in upper case. -/
def IsLowerDigit (c : Char) : Prop := ('0' ≤ c ∧ c ≤ '9') ∨ ('a' ≤ c ∧ c ≤ 'f')

instance : DecidablePred IsLowerDigit := fun c =>
  inferInstanceAs (Decidable (('0' ≤ c ∧ c ≤ '9') ∨ ('a' ≤ c ∧ c ≤ 'f')))

/-- A text that writes a number without leading zeros. -/
structure IsNumeral (base n : Nat) (cs : List Char) : Prop where
  value : ofDigits? base cs = some n
  lower : ∀ c ∈ cs, IsLowerDigit c
  lead : cs.head? = some '0' → cs = ['0']

/-! ## Digits -/

theorem digitValue?_digit : ∀ d < 16, digitValue? (digit d) = some d := by decide

theorem isLowerDigit_digit : ∀ d < 16, IsLowerDigit (digit d) := by decide

theorem digitIn?_digit {base d : Nat} (hbase : base ≤ 16) (hd : d < base) :
    digitIn? base (digit d) = some d := by
  rw [digitIn?, digitValue?_digit d (by omega)]
  simp [hd]

/-! ## Reading digits -/

theorem ofDigitsFrom?_append (base value : Nat) (front back : List Char) :
    ofDigitsFrom? base value (front ++ back) =
      (ofDigitsFrom? base value front).bind fun v => ofDigitsFrom? base v back := by
  induction front generalizing value with
  | nil => rfl
  | cons c rest ih => simp [ofDigitsFrom?, ih, Option.bind_assoc]

theorem ofDigits?_ne_nil {base n : Nat} {cs : List Char} (h : ofDigits? base cs = some n) :
    cs ≠ [] := by
  rintro rfl
  simp [ofDigits?] at h

theorem ofDigits?_of_ne_nil (base : Nat) {cs : List Char} (h : cs ≠ []) :
    ofDigits? base cs = ofDigitsFrom? base 0 cs := by
  cases cs with
  | nil => exact absurd rfl h
  | cons c rest => rfl

/-- One more digit behind a number. -/
theorem ofDigits?_concat {base n d : Nat} {cs : List Char} {c : Char}
    (hcs : ofDigits? base cs = some n) (hc : digitIn? base c = some d) :
    ofDigits? base (cs ++ [c]) = some (n * base + d) := by
  have hne := ofDigits?_ne_nil hcs
  rw [ofDigits?_of_ne_nil base hne] at hcs
  rw [ofDigits?_of_ne_nil base (by simp), ofDigitsFrom?_append, hcs]
  simp [ofDigitsFrom?, hc]

/-! ## Numerals -/

section

variable {base n n' : Nat} {cs : List Char}

theorem IsNumeral.ne_nil (h : IsNumeral base n cs) : cs ≠ [] := ofDigits?_ne_nil h.value

theorem IsNumeral.not_mem {c : Char} (hc : ¬ IsLowerDigit c) (h : IsNumeral base n cs) : c ∉ cs :=
  fun hmem => hc (h.lower c hmem)

theorem IsNumeral.unique (h : IsNumeral base n cs) (h' : IsNumeral base n' cs) : n = n' :=
  Option.some.inj (h.value.symm.trans h'.value)

theorem isNumeral_digit {d : Nat} (hbase : base ≤ 16) (hd : d < base) :
    IsNumeral base d [digit d] where
  value := by simp [ofDigits?, ofDigitsFrom?, digitIn?_digit hbase hd]
  lower := by
    intro c hc
    rw [List.mem_singleton.1 hc]
    exact isLowerDigit_digit d (by omega)
  lead := by
    intro h
    rw [List.head?_cons, Option.some.injEq] at h
    rw [h]

/-- A digit behind a numeral of a positive number. -/
theorem IsNumeral.concat {d : Nat} (h : IsNumeral base n cs) (hn : 0 < n) (hbase : base ≤ 16)
    (hd : d < base) : IsNumeral base (n * base + d) (cs ++ [digit d]) where
  value := ofDigits?_concat h.value (digitIn?_digit hbase hd)
  lower := by
    intro c hc
    rcases List.mem_append.1 hc with hc | hc
    · exact h.lower c hc
    · rw [List.mem_singleton.1 hc]
      exact isLowerDigit_digit d (by omega)
  lead := by
    intro hlead
    obtain ⟨c, rest, rfl⟩ := List.exists_cons_of_ne_nil h.ne_nil
    -- a zero in front would be all of the numeral of a positive number
    have hzero : ofDigits? base ['0'] = some n := h.lead hlead ▸ h.value
    have : IsNumeral base 0 [digit 0] := isNumeral_digit hbase (by omega)
    have : n = 0 := Option.some.inj (hzero.symm.trans this.value)
    omega

theorem isNumeral_digits (hbase : 2 ≤ base) (hbase' : base ≤ 16) (n : Nat) :
    IsNumeral base n (digits base n) := by
  fun_induction digits base n with
  | case1 n hsplit ih =>
    have hpositive : 0 < n / base := Nat.div_pos hsplit.2 (by omega)
    have hdigit : n % base < base := Nat.mod_lt n (by omega)
    have h := ih.concat hpositive hbase' hdigit
    rwa [Nat.div_add_mod' n base] at h
  | case2 n hsmall => exact isNumeral_digit hbase' (by omega)

end

end Text

end PeerCrawl
