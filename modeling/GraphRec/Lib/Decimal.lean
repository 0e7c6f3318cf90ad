import GraphRec.Lib.Text

/-!
# Decimals and their texts

A decimal is a sign, a coefficient and a power of ten.  `str` writes it with a point where the
power is small, and with an exponent otherwise; `ofText` reads it.

`ofText_str` — what was written is read back.
-/

namespace Text

/-- `Decimal`, of a finite number. -/
structure Decimal where
  negative : Bool
  coefficient : ℕ
  exponent : ℤ
  deriving DecidableEq, Repr

namespace Decimal

/-- The number. -/
def value (d : Decimal) : ℚ :=
  ((if d.negative then -1 else 1 : ℤ) : ℚ) * (d.coefficient * (10 : ℚ) ^ d.exponent)

/-- The digits after a point, if there are any. -/
def pointed (part : List Char) : List Char := if part = [] then [] else '.' :: part

/-- A power of ten that is not the first. -/
def power (e : ℤ) : List Char :=
  if e = 0 then [] else 'E' :: (if e < 0 then '-' else '+') :: Nat.toDigits 10 e.natAbs

/-- The digits before the point and those after it, which stands after the first `dot`. -/
def around (int : List Char) (dot : ℤ) : List Char × List Char :=
  if dot ≤ 0 then (['0'], List.replicate (-dot).toNat '0' ++ int)
  else if (int.length : ℤ) ≤ dot then (int ++ List.replicate (dot - int.length).toNat '0', [])
  else (int.take dot.toNat, int.drop dot.toNat)

/-- Where the point stands, for a number of which `left` digits are before it. -/
def dotPlace (exponent left : ℤ) : ℤ := if exponent ≤ 0 ∧ -6 < left then left else 1

/-- `str`. -/
def str (d : Decimal) : List Char :=
  let int := Nat.toDigits 10 d.coefficient
  let left := d.exponent + int.length
  let dot := dotPlace d.exponent left
  (if d.negative then ['-'] else []) ++
    ((around int dot).1 ++ (pointed (around int dot).2 ++ power (left - dot)))

/-- `Decimal(text)`: white space at the ends and underscores do not count. -/
def ofText (text : List Char) : Option ℚ :=
  number ((stripChars text).filter fun c => decide (c ≠ '_'))

/-! ## Texts of digits -/

/-- Neither a digit nor an underscore comes first. -/
def EndsDigits (rest : List Char) : Prop := ∀ c ∈ rest.head?, c.isDigit = false ∧ c ≠ '_'

theorem digits_append {cs rest : List Char} (h : ∀ c ∈ cs, c.isDigit = true)
    (hrest : EndsDigits rest) (value count : ℕ) :
    digits value count (cs ++ rest) =
      ⟨Nat.ofDigitChars 10 cs value, count + cs.length, rest⟩ := by
  induction cs generalizing value count with
  | nil =>
      cases rest with
      | nil => rfl
      | cons c rest =>
          obtain ⟨hdigit, hunderscore⟩ := hrest c rfl
          simp [digits, hdigit, hunderscore]
  | cons c cs ih =>
      rw [List.cons_append, digits, if_pos (h c List.mem_cons_self),
        ih fun c hc => h c (List.mem_cons_of_mem _ hc), Nat.ofDigitChars_cons, List.length_cons,
        Nat.add_right_comm, Nat.add_assoc]
      rfl

theorem endsDigits_power (e : ℤ) : EndsDigits (power e) := by
  unfold power
  split
  · simp [EndsDigits]
  · intro c hc
    cases hc
    decide

theorem exponent_power (e : ℤ) : Text.exponent (power e) = some e := by
  unfold power
  split
  · next hzero => rw [Text.exponent, hzero]
  · next hsome =>
      have hdigits : digits 0 0 (Nat.toDigits 10 e.natAbs) =
          ⟨e.natAbs, (Nat.toDigits 10 e.natAbs).length, []⟩ := by
        rw [digits_eq fun c hc => isDigit_of_mem_toDigits hc, Nat.ofDigitChars_ten_toDigits,
          Nat.zero_add]
      have hcount : (Nat.toDigits 10 e.natAbs).length ≠ 0 :=
        fun h => Nat.toDigits_ne_nil (List.length_eq_zero_iff.mp h)
      by_cases hneg : e < 0
      · simp only [Text.exponent, hneg, if_true, sign, hdigits, hcount, or_true, ne_eq,
          not_true_eq_false, or_self, if_false, Option.some.injEq]
        omega
      · simp only [Text.exponent, hneg, if_false, sign, hdigits, hcount, or_true, ne_eq,
          not_true_eq_false, or_self, if_true, Option.some.injEq]
        omega

/-- Digits, digits after a point and a power of ten. -/
theorem magnitude_parts {whole part : List Char} (hne : whole ≠ [])
    (hwhole : ∀ c ∈ whole, c.isDigit = true) (hpart : ∀ c ∈ part, c.isDigit = true) (e : ℤ) :
    magnitude (whole ++ (pointed part ++ power e)) =
      some ((Nat.ofDigitChars 10 (whole ++ part) 0 : ℕ) * (10 : ℚ) ^ (e - part.length)) := by
  have hrest : EndsDigits (pointed part ++ power e) := by
    unfold pointed
    split
    · exact endsDigits_power e
    · intro c hc
      cases hc
      decide
  have hfraction : fraction (pointed part ++ power e) =
      ⟨Nat.ofDigitChars 10 part 0, part.length, power e⟩ := by
    unfold pointed
    split
    · next hnone =>
        subst hnone
        rw [List.nil_append]
        unfold power
        split <;> rfl
    · rw [List.cons_append, fraction, digits_append hpart (endsDigits_power e), Nat.zero_add]
  have hcount : 0 + whole.length + part.length ≠ 0 := by
    have hpos := List.length_pos_iff.mpr hne
    omega
  unfold magnitude
  rw [digits_append hwhole hrest]
  have hvalue : Nat.ofDigitChars 10 whole 0 * 10 ^ part.length + Nat.ofDigitChars 10 part 0 =
      Nat.ofDigitChars 10 (whole ++ part) 0 := by
    rw [Nat.ofDigitChars_append, Nat.mul_comm]
    exact Nat.ofDigitChars_eq_ofDigitChars_zero.symm
  simp only [hfraction, if_neg hcount, exponent_power, Option.map_some, hvalue]

/-- Digits have no sign. -/
theorem sign_append {whole rest : List Char} (hne : whole ≠ [])
    (hwhole : ∀ c ∈ whole, c.isDigit = true) : sign (whole ++ rest) = (1, whole ++ rest) := by
  cases whole with
  | nil => exact absurd rfl hne
  | cons c whole =>
      have hc := hwhole c List.mem_cons_self
      rw [List.cons_append]
      unfold sign
      split
      · next heq => cases heq; exact absurd hc (by decide)
      · next heq => cases heq; exact absurd hc (by decide)
      · rfl

/-! ## The point -/

/-- The digits around a point and the power of ten that is left make up the number. -/
structure Splits (int : List Char) (exponent : ℤ) (parts : List Char × List Char) (e : ℤ) :
    Prop where
  nonempty : parts.1 ≠ []
  whole : ∀ c ∈ parts.1, c.isDigit = true
  part : ∀ c ∈ parts.2, c.isDigit = true
  value : Nat.ofDigitChars 10 (parts.1 ++ parts.2) 0 = Nat.ofDigitChars 10 int 0
  power : e - parts.2.length = exponent

theorem isDigit_of_mem_replicate {n : ℕ} {c : Char} (h : c ∈ List.replicate n '0') :
    c.isDigit = true := by
  rw [List.eq_of_mem_replicate h]
  decide

theorem around_splits {int : List Char} (hne : int ≠ []) (hint : ∀ c ∈ int, c.isDigit = true)
    (exponent : ℤ) :
    Splits int exponent (around int (dotPlace exponent (exponent + int.length)))
      (exponent + int.length - dotPlace exponent (exponent + int.length)) := by
  have hpos := List.length_pos_iff.mpr hne
  unfold around
  split
  · next hdot =>
      -- only a number without an exponent has zeros after its point
      have hplace : dotPlace exponent (exponent + int.length) = exponent + int.length := by
        unfold dotPlace at hdot ⊢
        split at hdot
        · next h => exact if_pos h
        · omega
      rw [hplace] at hdot ⊢
      refine ⟨List.cons_ne_nil _ _, by simp, ?_, ?_, ?_⟩
      · intro c hc
        rcases List.mem_append.mp hc with hzero | hdigit
        · exact isDigit_of_mem_replicate hzero
        · exact hint c hdigit
      · rw [Nat.ofDigitChars_append, Nat.ofDigitChars_append]
        simp [Nat.ofDigitChars_cons]
      · simp only [List.length_append, List.length_replicate]
        omega
  · split
    · next hpoint hlength =>
        have hplace : dotPlace exponent (exponent + int.length) = int.length := by
          unfold dotPlace at hlength ⊢
          split at hlength
          · next h =>
              rw [if_pos h]
              omega
          · next h =>
              rw [if_neg h]
              omega
        rw [hplace, sub_self, Int.toNat_zero, List.replicate_zero, List.append_nil]
        exact ⟨hne, hint, by simp, by rw [List.append_nil], by simp⟩
    · next hpoint hlength =>
        generalize dotPlace exponent (exponent + int.length) = dot at hpoint hlength
        refine ⟨?_, fun c hc => hint c (List.mem_of_mem_take hc),
          fun c hc => hint c (List.mem_of_mem_drop hc), by rw [List.take_append_drop], ?_⟩
        · intro h
          rcases List.take_eq_nil_iff.mp h with hzero | hnil
          · omega
          · exact hne hnil
        · rw [List.length_drop]
          omega

/-! ## Round trip -/

/-- **The text of a decimal denotes it.** -/
theorem number_str (d : Decimal) : number d.str = some d.value := by
  obtain ⟨hne, hwhole, hpart, hvalue, hpower⟩ := around_splits Nat.toDigits_ne_nil
    (fun c => @isDigit_of_mem_toDigits d.coefficient c) d.exponent
  have hmagnitude := magnitude_parts hne hwhole hpart
    (d.exponent + (Nat.toDigits 10 d.coefficient).length -
      dotPlace d.exponent (d.exponent + (Nat.toDigits 10 d.coefficient).length))
  rw [hvalue, hpower, Nat.ofDigitChars_ten_toDigits] at hmagnitude
  unfold str value number
  cases d.negative with
  | false =>
      simp only [Bool.false_eq_true, if_false, List.nil_append]
      rw [sign_append hne hwhole, hmagnitude]
      rfl
  | true =>
      simp only [if_true, List.singleton_append, sign]
      rw [hmagnitude]
      rfl

/-- The characters of the text of a decimal. -/
theorem plain_of_mem_str {d : Decimal} {c : Char} (h : c ∈ d.str) :
    isSpace c = false ∧ c ≠ '_' := by
  obtain ⟨-, hwhole, hpart, -, -⟩ := around_splits Nat.toDigits_ne_nil
    (fun c => @isDigit_of_mem_toDigits d.coefficient c) d.exponent
  simp only [str, pointed, power, List.mem_append] at h
  rcases h with hsign | hint | hpoint | hpower
  · split at hsign
    · rw [List.mem_singleton.mp hsign]
      decide
    · cases hsign
  · exact plain_of_isDigit (hwhole c hint)
  · split at hpoint
    · cases hpoint
    · rcases List.mem_cons.mp hpoint with rfl | hdigit
      · decide
      · exact plain_of_isDigit (hpart c hdigit)
  · split at hpower
    · cases hpower
    · rcases List.mem_cons.mp hpower with rfl | hrest
      · decide
      · rcases List.mem_cons.mp hrest with rfl | hdigit
        · split <;> decide
        · exact plain_of_isDigit (isDigit_of_mem_toDigits hdigit)

/-- **Round trip.** -/
theorem ofText_str (d : Decimal) : ofText d.str = some d.value := by
  have hstrip : stripChars d.str = d.str := stripChars_eq_self_iff.mpr
    ⟨fun h => (plain_of_mem_str (List.head_mem h)).1,
      fun h => (plain_of_mem_str (List.getLast_mem h)).1⟩
  have hfilter : d.str.filter (fun c => decide (c ≠ '_')) = d.str :=
    List.filter_eq_self.mpr fun c hc => decide_eq_true (plain_of_mem_str hc).2
  rw [ofText, hstrip, hfilter, number_str]

end Decimal

end Text
