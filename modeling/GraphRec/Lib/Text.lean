import Mathlib.Algebra.Field.Rat
import Mathlib.Data.List.DropRight
import Mathlib.Data.Rat.Cast.Defs
import Mathlib.Tactic.NormNum
import Mathlib.Tactic.Ring

/-!
# Texts and numerals

White space at the ends of a text, the decimal text of an integer, and the numbers that a
text denotes: a sign, digits with a point, and an exponent.

* `decimal_injective` — different integers have different texts;
* `number_decimal` — the text of an integer denotes it.
-/

namespace Text

/-! ## White space -/

/-- White space of Unicode. -/
def isSpace (c : Char) : Bool :=
  let n := c.toNat
  (9 ≤ n && n ≤ 13) || (28 ≤ n && n ≤ 32) || n == 0x85 || n == 0xa0 || n == 0x1680 ||
    (0x2000 ≤ n && n ≤ 0x200a) || n == 0x2028 || n == 0x2029 || n == 0x202f || n == 0x205f ||
    n == 0x3000

/-- The characters without the white space at both ends. -/
def stripChars (cs : List Char) : List Char := (cs.dropWhile isSpace).rdropWhile isSpace

/-- The text without the white space at both ends. -/
def strip (s : String) : String := String.ofList (stripChars s.toList)

theorem toList_strip (s : String) : (strip s).toList = stripChars s.toList := String.toList_ofList

/-- No white space at the ends: nothing is stripped. -/
theorem stripChars_eq_self_iff {cs : List Char} : stripChars cs = cs ↔
    (∀ h : cs ≠ [], isSpace (cs.head h) = false) ∧ ∀ h : cs ≠ [], isSpace (cs.getLast h) = false := by
  unfold stripChars
  constructor
  · intro heq
    have hdrop : cs.dropWhile isSpace = cs := by
      have hle := (List.rdropWhile_prefix isSpace (cs.dropWhile isSpace)).length_le
      rw [heq] at hle
      exact (List.dropWhile_suffix isSpace).eq_of_length
        (Nat.le_antisymm (List.dropWhile_suffix isSpace).length_le hle)
    rw [hdrop] at heq
    refine ⟨?_, fun h => by simpa using List.rdropWhile_eq_self_iff.mp heq h⟩
    intro h
    have hhead := List.dropWhile_eq_self_iff.mp hdrop (List.length_pos_iff.mpr h)
    simpa [List.head_eq_getElem] using hhead
  · rintro ⟨hhead, hlast⟩
    have hdrop : cs.dropWhile isSpace = cs := by
      refine List.dropWhile_eq_self_iff.mpr fun hpos => ?_
      simpa [List.head_eq_getElem] using hhead (List.length_pos_iff.mp hpos)
    rw [hdrop]
    exact List.rdropWhile_eq_self_iff.mpr fun h => by simpa using hlast h

/-- What was stripped stays as it is. -/
theorem stripChars_stripChars (cs : List Char) : stripChars (stripChars cs) = stripChars cs := by
  refine stripChars_eq_self_iff.mpr ⟨?_, ?_⟩
  · intro h
    have hprefix := List.rdropWhile_prefix isSpace (cs.dropWhile isSpace)
    have hne : cs.dropWhile isSpace ≠ [] := by
      intro hnil
      rw [stripChars, hnil] at h
      exact h rfl
    have hhead : (stripChars cs).head h = (cs.dropWhile isSpace).head hne :=
      hprefix.head h
    rw [hhead]
    simpa using List.head_dropWhile_not isSpace hne
  · intro h
    exact Bool.eq_false_iff.mpr (List.rdropWhile_last_not isSpace (cs.dropWhile isSpace) h)

/-! ## Separators -/

section Separators

variable {α : Type} {sep : α} {a b x y : List α}

/-- Two ways to split a text at a separator: the same, or one is at a later place. -/
theorem append_sep_eq_iff : a ++ sep :: x = b ++ sep :: y ↔ (a = b ∧ x = y) ∨
    (∃ w, b = a ++ sep :: w ∧ x = w ++ sep :: y) ∨ ∃ w, a = b ++ sep :: w ∧ y = w ++ sep :: x := by
  constructor
  · intro h
    rcases List.append_eq_append_iff.mp h with ⟨w, hb, hx⟩ | ⟨w, ha, hy⟩
    · cases w with
      | nil =>
          rw [List.nil_append, List.cons.injEq] at hx
          rw [List.append_nil] at hb
          exact Or.inl ⟨hb.symm, hx.2⟩
      | cons c w =>
          rw [List.cons_append, List.cons.injEq] at hx
          exact Or.inr (Or.inl ⟨w, hx.1 ▸ hb, hx.2⟩)
    · cases w with
      | nil =>
          rw [List.nil_append, List.cons.injEq] at hy
          rw [List.append_nil] at ha
          exact Or.inl ⟨ha, hy.2.symm⟩
      | cons c w =>
          rw [List.cons_append, List.cons.injEq] at hy
          exact Or.inr (Or.inr ⟨w, hy.1 ▸ ha, hy.2⟩)
  · rintro (⟨rfl, rfl⟩ | ⟨w, rfl, rfl⟩ | ⟨w, rfl, rfl⟩)
    · rfl
    · rw [List.append_assoc, List.cons_append]
    · rw [List.append_assoc, List.cons_append]

/-- A text is split in one way at the last separator. -/
theorem append_last_eq_iff (hx : sep ∉ x) (hy : sep ∉ y) :
    a ++ sep :: x = b ++ sep :: y ↔ a = b ∧ x = y := by
  rw [append_sep_eq_iff]
  constructor
  · rintro (hsame | ⟨w, -, rfl⟩ | ⟨w, -, rfl⟩)
    · exact hsame
    · exact absurd (List.mem_append_right w List.mem_cons_self) hx
    · exact absurd (List.mem_append_right w List.mem_cons_self) hy
  · exact Or.inl

end Separators

/-! ## The text of an integer -/

/-- The decimal text of an integer. -/
def decimal (z : ℤ) : List Char := (toString z).toList

theorem decimal_natCast (n : ℕ) : decimal n = Nat.toDigits 10 n := Nat.toList_repr

theorem decimal_negSucc (n : ℕ) : decimal (.negSucc n) = '-' :: Nat.toDigits 10 (n + 1) := by
  have happend : toString (Int.negSucc n) = "-" ++ Nat.repr (n + 1) := rfl
  rw [decimal, happend, String.toList_append, Nat.toList_repr]
  rfl

theorem isDigit_of_mem_toDigits {n : ℕ} {c : Char} (h : c ∈ Nat.toDigits 10 n) :
    c.isDigit = true :=
  Nat.isDigit_of_mem_toDigits (by decide) (by decide) h

/-- A sign or a digit. -/
theorem mem_decimal {z : ℤ} {c : Char} (h : c ∈ decimal z) : c = '-' ∨ c.isDigit = true := by
  cases z with
  | ofNat n =>
      change c ∈ decimal n at h
      rw [decimal_natCast] at h
      exact Or.inr (isDigit_of_mem_toDigits h)
  | negSucc n =>
      rw [decimal_negSucc] at h
      rcases List.mem_cons.mp h with hsign | hdigit
      · exact Or.inl hsign
      · exact Or.inr (isDigit_of_mem_toDigits hdigit)

theorem toNat_of_isDigit {c : Char} (h : c.isDigit = true) : 48 ≤ c.toNat ∧ c.toNat ≤ 57 := by
  simpa [Char.isDigit, UInt32.le_iff_toNat_le] using h

theorem plain_of_isDigit {c : Char} (h : c.isDigit = true) : isSpace c = false ∧ c ≠ '_' := by
  have hrange := toNat_of_isDigit h
  refine ⟨?_, ?_⟩
  · simp only [isSpace, Bool.or_eq_false_iff, Bool.and_eq_false_iff, decide_eq_false_iff_not,
      beq_eq_false_iff_ne]
    omega
  · rintro rfl
    exact absurd h (by decide)

/-- The text of an integer has neither white space nor underscores. -/
theorem plain_of_mem_decimal {z : ℤ} {c : Char} (h : c ∈ decimal z) :
    isSpace c = false ∧ c ≠ '_' := by
  rcases mem_decimal h with rfl | hdigit
  · decide
  · exact plain_of_isDigit hdigit

theorem stripChars_decimal (z : ℤ) : stripChars (decimal z) = decimal z :=
  stripChars_eq_self_iff.mpr ⟨fun h => (plain_of_mem_decimal (List.head_mem h)).1,
    fun h => (plain_of_mem_decimal (List.getLast_mem h)).1⟩

theorem decimal_ne_nil (z : ℤ) : decimal z ≠ [] := by
  cases z with
  | ofNat n =>
      change decimal n ≠ []
      rw [decimal_natCast]
      exact Nat.toDigits_ne_nil
  | negSucc n =>
      rw [decimal_negSucc]
      exact List.cons_ne_nil _ _

/-- The length of the text of an integer. -/
theorem length_decimal_le {z : ℤ} {k : ℕ} (hk : 0 < k) (h : z.natAbs < 10 ^ k) :
    (decimal z).length ≤ k + 1 := by
  have hdigits : ∀ n : ℕ, n < 10 ^ k → (Nat.toDigits 10 n).length ≤ k := fun n hn =>
    (Nat.length_toDigits_le_iff (by decide) hk).mpr hn
  cases z with
  | ofNat n =>
      change (decimal n).length ≤ k + 1
      rw [decimal_natCast]
      exact Nat.le_succ_of_le (hdigits n h)
  | negSucc n =>
      rw [decimal_negSucc, List.length_cons]
      exact Nat.succ_le_succ (hdigits (n + 1) h)

theorem toDigits_injective {n n' : ℕ} (h : Nat.toDigits 10 n = Nat.toDigits 10 n') : n = n' := by
  rw [← Nat.ofDigitChars_ten_toDigits (n := n), h, Nat.ofDigitChars_ten_toDigits]

/-- **Different integers have different texts.** -/
theorem decimal_injective {z z' : ℤ} (h : decimal z = decimal z') : z = z' := by
  have hsign : ∀ n m : ℕ, Nat.toDigits 10 n ≠ '-' :: Nat.toDigits 10 m := by
    intro n m heq
    have hmem : '-' ∈ Nat.toDigits 10 n := heq ▸ List.mem_cons_self
    exact absurd (isDigit_of_mem_toDigits hmem) (by decide)
  cases z with
  | ofNat n =>
      change decimal n = _ at h
      cases z' with
      | ofNat n' =>
          change _ = decimal n' at h
          rw [decimal_natCast, decimal_natCast] at h
          exact congrArg Int.ofNat (toDigits_injective h)
      | negSucc n' =>
          rw [decimal_natCast, decimal_negSucc] at h
          exact absurd h (hsign _ _)
  | negSucc n =>
      cases z' with
      | ofNat n' =>
          change _ = decimal n' at h
          rw [decimal_natCast, decimal_negSucc] at h
          exact absurd h.symm (hsign _ _)
      | negSucc n' =>
          rw [decimal_negSucc, decimal_negSucc, List.cons.injEq] at h
          exact congrArg Int.negSucc (Nat.succ.inj (toDigits_injective h.2))

/-! ## Digits of other scripts -/

/-- The zeros of the scripts that write decimal numbers (the category `Nd`); the other nine
digits of a script follow its zero. -/
def decimalZeros : List ℕ :=
  [0x30, 0x660, 0x6f0, 0x7c0, 0x966, 0x9e6, 0xa66, 0xae6, 0xb66, 0xbe6, 0xc66, 0xce6, 0xd66,
    0xde6, 0xe50, 0xed0, 0xf20, 0x1040, 0x1090, 0x17e0, 0x1810, 0x1946, 0x19d0, 0x1a80, 0x1a90,
    0x1b50, 0x1bb0, 0x1c40, 0x1c50, 0xa620, 0xa8d0, 0xa900, 0xa9d0, 0xa9f0, 0xaa50, 0xabf0,
    0xff10, 0x104a0, 0x10d30, 0x11066, 0x110f0, 0x11136, 0x111d0, 0x112f0, 0x11450, 0x114d0,
    0x11650, 0x116c0, 0x11730, 0x118e0, 0x11950, 0x11c50, 0x11d50, 0x11da0, 0x11f50, 0x16a60,
    0x16ac0, 0x16b50, 0x1d7ce, 0x1d7d8, 0x1d7e2, 0x1d7ec, 0x1d7f6, 0x1e140, 0x1e2f0, 0x1e4f0,
    0x1e950, 0x1fbf0]

/-- The character, or the ASCII digit of the same value. -/
def asciiDigit (c : Char) : Char :=
  match decimalZeros.find? fun base => decide (base ≤ c.toNat ∧ c.toNat < base + 10) with
  | some base => Char.ofNat ('0'.toNat + (c.toNat - base))
  | none => c

theorem asciiDigit_of_isDigit {c : Char} (h : c.isDigit = true) : asciiDigit c = c := by
  have hrange := toNat_of_isDigit h
  have hfirst : decimalZeros.find? (fun base => decide (base ≤ c.toNat ∧ c.toNat < base + 10)) =
      some 0x30 := by
    rw [decimalZeros, List.find?_cons_of_pos]
    exact decide_eq_true ⟨hrange.1, by omega⟩
  rw [asciiDigit, hfirst]
  dsimp only
  rw [show '0'.toNat = 0x30 from rfl, Nat.add_sub_cancel' hrange.1, Char.ofNat_toNat]

/-- The text of an integer is in ASCII. -/
theorem map_asciiDigit_decimal (z : ℤ) : (decimal z).map asciiDigit = decimal z := by
  refine (List.map_congr_left fun c hc => ?_).trans (List.map_id _)
  rcases mem_decimal hc with rfl | hdigit
  · rfl
  · exact asciiDigit_of_isDigit hdigit

/-! ## Numbers -/

/-- A run of digits. -/
structure Digits where
  value : ℕ
  count : ℕ
  /-- What follows them. -/
  rest : List Char
  deriving DecidableEq, Repr

/-- The value of a digit. -/
def digit (c : Char) : ℕ := c.toNat - '0'.toNat

/-- Read digits on; single underscores may stand between them. -/
def digits : ℕ → ℕ → List Char → Digits
  | value, count, [] => ⟨value, count, []⟩
  | value, count, c :: rest =>
      if c.isDigit then digits (10 * value + digit c) (count + 1) rest
      else if c = '_' ∧ 0 < count ∧ rest.head?.any Char.isDigit = true then
        digits value count rest
      else ⟨value, count, c :: rest⟩

/-- A sign and what follows it. -/
def sign : List Char → ℤ × List Char
  | '-' :: rest => (-1, rest)
  | '+' :: rest => (1, rest)
  | rest => (1, rest)

/-- An exponent to the end of the text. -/
def exponent : List Char → Option ℤ
  | [] => some 0
  | c :: rest =>
      if c = 'e' ∨ c = 'E' then
        let power := digits 0 0 (sign rest).2
        if power.count = 0 ∨ power.rest ≠ [] then none else some ((sign rest).1 * power.value)
      else none

/-- The digits after a point, if there is one. -/
def fraction : List Char → Digits
  | '.' :: rest => digits 0 0 rest
  | rest => ⟨0, 0, rest⟩

/-- The number without its sign. -/
def magnitude (text : List Char) : Option ℚ :=
  let whole := digits 0 0 text
  let part := fraction whole.rest
  if whole.count + part.count = 0 then none
  else (exponent part.rest).map fun power : ℤ =>
    ((whole.value * 10 ^ part.count + part.value : ℕ) : ℚ) * (10 : ℚ) ^ (power - (part.count : ℤ))

/-- The number that the text denotes. -/
def number (text : List Char) : Option ℚ :=
  (magnitude (sign text).2).map fun q => (sign text).1 * q

/-- A text of digits. -/
theorem digits_eq {cs : List Char} (h : ∀ c ∈ cs, c.isDigit = true) (value count : ℕ) :
    digits value count cs = ⟨Nat.ofDigitChars 10 cs value, count + cs.length, []⟩ := by
  induction cs generalizing value count with
  | nil => simp [digits]
  | cons c cs ih =>
      have hc := h c List.mem_cons_self
      rw [digits, if_pos hc, ih fun c hc => h c (List.mem_cons_of_mem _ hc),
        Nat.ofDigitChars_cons, List.length_cons, Nat.add_right_comm, Nat.add_assoc]
      rfl

theorem magnitude_toDigits (n : ℕ) : magnitude (Nat.toDigits 10 n) = some (n : ℚ) := by
  have hcount : 0 + (Nat.toDigits 10 n).length + 0 ≠ 0 := by
    have hpos := List.length_pos_iff.mpr (Nat.toDigits_ne_nil (n := n) (b := 10))
    omega
  unfold magnitude
  rw [digits_eq fun c hc => isDigit_of_mem_toDigits hc]
  simp only [fraction, if_neg hcount, exponent, Option.map_some, Nat.ofDigitChars_ten_toDigits]
  simp

/-- **The text of an integer denotes it.** -/
theorem number_decimal (z : ℤ) : number (decimal z) = some (z : ℚ) := by
  cases z with
  | ofNat n =>
      have hsign : sign (Nat.toDigits 10 n) = (1, Nat.toDigits 10 n) := by
        have hdigit : ∀ c ∈ Nat.toDigits 10 n, c ≠ '-' ∧ c ≠ '+' := by
          intro c hc
          have hc' := isDigit_of_mem_toDigits hc
          constructor <;> (rintro rfl; exact absurd hc' (by decide))
        cases hd : Nat.toDigits 10 n with
        | nil => rfl
        | cons c rest =>
            rw [hd] at hdigit
            have hc := hdigit c List.mem_cons_self
            unfold sign
            split
            · next heq => exact absurd (List.cons.inj heq).1 hc.1
            · next heq => exact absurd (List.cons.inj heq).1 hc.2
            · rfl
      change number (decimal n) = some (((n : ℤ) : ℚ))
      rw [decimal_natCast, number, hsign, magnitude_toDigits]
      simp
  | negSucc n =>
      have hsign : sign ('-' :: Nat.toDigits 10 (n + 1)) = (-1, Nat.toDigits 10 (n + 1)) := rfl
      rw [decimal_negSucc, number, hsign, magnitude_toDigits, Option.map_some, Int.cast_negSucc]
      simp

end Text
