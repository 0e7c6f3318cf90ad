import Mathlib.Data.List.Basic

/-!
# Percent-encoding

Texts in a path of a URL: the bytes of the UTF-8 form of a text, as unreserved characters or as a
percent sign and two hexadecimal digits.

* `unquote_quote` — what was quoted is read back, whatever follows it;
* `quote_plain`, `quote_eq_nil_iff` — what a quoted text is made of.
-/

namespace PercentEncoding

/-- The bytes of a text. -/
def utf8 (cs : List Char) : List UInt8 := cs.flatMap String.utf8EncodeChar

/-- Letters, digits and `_.-~`: the bytes that are not encoded. -/
def isUnreserved (b : UInt8) : Bool :=
  (65 ≤ b && b ≤ 90) || (97 ≤ b && b ≤ 122) || (48 ≤ b && b ≤ 57) ||
    b == 95 || b == 46 || b == 45 || b == 126

/-- A digit, in upper case. -/
def hexDigit (n : ℕ) : Char := (Nat.digitChar n).toUpper

/-- The value of a digit, in either case. -/
def hexValue (c : Char) : Option ℕ :=
  if '0' ≤ c ∧ c ≤ '9' then some (c.toNat - 48)
  else if 'A' ≤ c ∧ c ≤ 'F' then some (c.toNat - 55)
  else if 'a' ≤ c ∧ c ≤ 'f' then some (c.toNat - 87)
  else none

/-- One byte. -/
def quoteByte (b : UInt8) : List Char :=
  if isUnreserved b = true then [Char.ofNat b.toNat]
  else ['%', hexDigit (b.toNat / 16), hexDigit (b.toNat % 16)]

/-- `urllib.parse.quote` with nothing else safe. -/
def quote (cs : List Char) : List Char := (utf8 cs).flatMap quoteByte

/-- `urllib.parse.unquote_to_bytes`: a percent sign without two digits stays. -/
def unquote : List Char → List UInt8
  | '%' :: a :: b :: rest =>
    match hexValue a, hexValue b with
    | some x, some y => UInt8.ofNat (16 * x + y) :: unquote rest
    | _, _ => String.utf8EncodeChar '%' ++ unquote (a :: b :: rest)
  | c :: rest => String.utf8EncodeChar c ++ unquote rest
  | [] => []

/-! ## What a quoted text is made of -/

/-- Characters of quoted texts. -/
def isPlain (c : Char) : Bool :=
  c == '%' || c == '_' || c == '.' || c == '-' || c == '~' || c.isAlphanum

section Bytes

variable {b : UInt8}

/-- A byte, by its two digits. -/
theorem forall_byte {P : UInt8 → Prop} (h : ∀ i < 16, ∀ j < 16, P (UInt8.ofNat (16 * i + j)))
    (b : UInt8) : P b := by
  have hlt := b.toNat_lt
  have hb := h (b.toNat / 16) (by omega) (b.toNat % 16) (by omega)
  rwa [Nat.div_add_mod, UInt8.ofNat_toNat] at hb

theorem hexValue_hexDigit {n : ℕ} (h : n < 16) : hexValue (hexDigit n) = some n := by
  have hall : ∀ n < 16, hexValue (hexDigit n) = some n := by decide
  exact hall n h

theorem quoteByte_plain {c : Char} (h : c ∈ quoteByte b) : isPlain c = true := by
  have hall : ∀ i < 16, ∀ j < 16, (quoteByte (UInt8.ofNat (16 * i + j))).all isPlain = true := by
    decide +kernel
  have hb := forall_byte (P := fun b => (quoteByte b).all isPlain = true) hall b
  exact List.all_eq_true.mp hb c h

theorem quoteByte_ne_nil (b : UInt8) : quoteByte b ≠ [] := by
  rw [quoteByte]
  split <;> exact List.cons_ne_nil _ _

/-- An unreserved byte is its own character. -/
theorem utf8EncodeChar_of_unreserved (h : isUnreserved b = true) :
    String.utf8EncodeChar (Char.ofNat b.toNat) = [b] ∧ Char.ofNat b.toNat ≠ '%' := by
  have hall : ∀ i < 16, ∀ j < 16, isUnreserved (UInt8.ofNat (16 * i + j)) = true →
      String.utf8EncodeChar (Char.ofNat (UInt8.ofNat (16 * i + j)).toNat) =
          [UInt8.ofNat (16 * i + j)] ∧
        Char.ofNat (UInt8.ofNat (16 * i + j)).toNat ≠ '%' := by decide +kernel
  exact forall_byte (P := fun b => isUnreserved b = true →
    String.utf8EncodeChar (Char.ofNat b.toNat) = [b] ∧ Char.ofNat b.toNat ≠ '%') hall b h

end Bytes

section Texts

variable {cs : List Char}

/-- A quoted text has plain characters only. -/
theorem quote_plain {c : Char} (h : c ∈ quote cs) : isPlain c = true := by
  obtain ⟨b, -, hc⟩ := List.mem_flatMap.mp h
  exact quoteByte_plain hc

theorem utf8EncodeChar_ne_nil (c : Char) : String.utf8EncodeChar c ≠ [] := by
  intro hnil
  have hlength := String.length_utf8EncodeChar c
  rw [hnil] at hlength
  exact absurd hlength.symm (Nat.ne_of_gt c.utf8Size_pos)

theorem quote_eq_nil_iff : quote cs = [] ↔ cs = [] := by
  constructor
  · intro h
    cases cs with
    | nil => rfl
    | cons c cs =>
      rw [quote, List.flatMap_eq_nil_iff] at h
      obtain ⟨b, hb⟩ := List.exists_mem_of_ne_nil _ (utf8EncodeChar_ne_nil c)
      exact absurd (h b (List.mem_flatMap.mpr ⟨c, List.mem_cons_self, hb⟩)) (quoteByte_ne_nil b)
  · intro h
    rw [h]
    rfl

/-! ## Reading back -/

theorem unquote_cons {c : Char} (h : c ≠ '%') (rest : List Char) :
    unquote (c :: rest) = String.utf8EncodeChar c ++ unquote rest := by
  rw [unquote]
  intro a b rest' heq
  exact absurd heq h

theorem unquote_quoteByte (b : UInt8) (rest : List Char) :
    unquote (quoteByte b ++ rest) = b :: unquote rest := by
  rw [quoteByte]
  split
  · next hunreserved =>
    obtain ⟨hbytes, hpercent⟩ := utf8EncodeChar_of_unreserved hunreserved
    rw [List.singleton_append, unquote_cons hpercent, hbytes]
    rfl
  · have hlt := b.toNat_lt
    change unquote ('%' :: hexDigit (b.toNat / 16) :: hexDigit (b.toNat % 16) :: rest) = _
    rw [unquote, hexValue_hexDigit (by omega), hexValue_hexDigit (by omega)]
    dsimp only
    rw [Nat.div_add_mod, UInt8.ofNat_toNat]

/-- **A quoted text is read back**, whatever follows it. -/
theorem unquote_quote (cs rest : List Char) :
    unquote (quote cs ++ rest) = utf8 cs ++ unquote rest := by
  have hbytes : ∀ bs : List UInt8, unquote (bs.flatMap quoteByte ++ rest) = bs ++ unquote rest := by
    intro bs
    induction bs with
    | nil => rfl
    | cons b bs ih => rw [List.flatMap_cons, List.append_assoc, unquote_quoteByte, ih]; rfl
  exact hbytes (utf8 cs)

/-- Different texts have different bytes. -/
theorem utf8_injective {cs cs' : List Char} (h : utf8 cs = utf8 cs') : cs = cs' := by
  have hdecode : ∀ cs : List Char, (utf8 cs).toByteArray.utf8Decode? = some cs.toArray :=
    fun cs => List.utf8Decode?_utf8Encode
  have harray := (hdecode cs).symm.trans (h ▸ hdecode cs')
  exact List.toArray_inj (Option.some.inj harray)

/-- Different texts are quoted differently. -/
theorem quote_injective {cs cs' : List Char} (h : quote cs = quote cs') : cs = cs' := by
  have hread := unquote_quote cs []
  rw [h, unquote_quote] at hread
  simpa using (utf8_injective (List.append_cancel_right hread)).symm

end Texts

end PercentEncoding
