import Mathlib.Data.List.Basic

/-!
# Quoted texts

Several texts in one, so that each can be read back: a text stands between quotation marks,
and a quotation mark or backslash in it has a backslash before it.

* `quote`, `quoteAll` — one text, and several with a bracket after the last;
* `quote_append_inj`, `quoteAll_append_inj` — what was quoted and what follows are determined.
-/

namespace Quoting

/-- A character between the quotation marks. -/
def escape (c : Char) : List Char := if c = '"' ∨ c = '\\' then ['\\', c] else [c]

def quote (text : List Char) : List Char := '"' :: (text.flatMap escape ++ ['"'])

/-- The texts, one after the other. -/
def quoteAll (texts : List (List Char)) : List Char := texts.flatMap quote ++ [']']

/-- No character is written as the closing mark. -/
theorem escape_ne_mark (c : Char) (x y : List Char) : escape c ++ x ≠ '"' :: y := by
  unfold escape
  split
  · simp
  · next hc =>
      rw [not_or] at hc
      simp [hc.1]

/-- A character is read back. -/
theorem escape_append_inj {c d : Char} {x y : List Char} (h : escape c ++ x = escape d ++ y) :
    c = d ∧ x = y := by
  unfold escape at h
  split at h <;> split at h
  · simpa using h
  · next _ hd =>
      simp only [List.cons_append, List.nil_append, List.cons.injEq] at h
      exact absurd (Or.inr h.1.symm) hd
  · next hc _ =>
      simp only [List.cons_append, List.nil_append, List.cons.injEq] at h
      exact absurd (Or.inr h.1) hc
  · simpa using h

/-- A text is read back up to the closing mark. -/
theorem escaped_append_inj {a b x y : List Char}
    (h : a.flatMap escape ++ '"' :: x = b.flatMap escape ++ '"' :: y) : a = b ∧ x = y := by
  induction a generalizing b with
  | nil =>
      cases b with
      | nil => exact ⟨rfl, (List.cons.inj h).2⟩
      | cons d b =>
          rw [List.flatMap_cons, List.append_assoc] at h
          exact absurd h.symm (escape_ne_mark d _ _)
  | cons c a ih =>
      cases b with
      | nil =>
          rw [List.flatMap_cons, List.append_assoc] at h
          exact absurd h (escape_ne_mark c _ _)
      | cons d b =>
          rw [List.flatMap_cons, List.flatMap_cons, List.append_assoc, List.append_assoc] at h
          obtain ⟨hhead, hrest⟩ := escape_append_inj h
          obtain ⟨htail, hafter⟩ := ih hrest
          exact ⟨by rw [hhead, htail], hafter⟩

theorem quote_append_inj {a b x y : List Char} (h : quote a ++ x = quote b ++ y) :
    a = b ∧ x = y := by
  refine escaped_append_inj ?_
  simpa [quote] using (List.cons.inj h).2

/-- **The texts are read back**, and so is what follows them. -/
theorem quoteAll_append_inj {as bs : List (List Char)} {x y : List Char}
    (h : quoteAll as ++ x = quoteAll bs ++ y) : as = bs ∧ x = y := by
  induction as generalizing bs with
  | nil =>
      cases bs with
      | nil => exact ⟨rfl, by simpa [quoteAll] using h⟩
      | cons b bs => simp [quoteAll, quote] at h
  | cons a as ih =>
      cases bs with
      | nil => simp [quoteAll, quote] at h
      | cons b bs =>
          have hsplit : ∀ (text : List Char) (texts : List (List Char)) (z : List Char),
              quoteAll (text :: texts) ++ z = quote text ++ (quoteAll texts ++ z) := by
            intro text texts z
            simp [quoteAll]
          rw [hsplit, hsplit] at h
          obtain ⟨hhead, hrest⟩ := quote_append_inj h
          obtain ⟨htail, hafter⟩ := ih hrest
          exact ⟨by rw [hhead, htail], hafter⟩

example : quoteAll [['a'], ['"']] = ['"', 'a', '"', '"', '\\', '"', '"', ']'] := by decide

end Quoting
