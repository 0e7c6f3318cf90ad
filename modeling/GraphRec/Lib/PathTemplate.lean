import Mathlib.Data.List.Basic

/-!
# Path templates

A template is a path with parameters in braces.  A path matches it if a text without a slash, and
not an empty one, stands for each parameter.

* `matches_fill` — a template that is filled matches, with what it was filled with;
* `matches_unique` — with one parameter at most, in one way;
* `apart_sound` — a check that no path matches two templates;
* `splitOn_fill` — the segments of a filled template.
-/

namespace PathTemplate

/-- A character, or a parameter. -/
inductive Token
  | char (c : Char)
  | param (name : List Char)
  deriving DecidableEq

/-- `[a-z_]`. -/
def isNameChar (c : Char) : Bool := c == '_' || ('a' ≤ c && c ≤ 'z')

/-- Characters that are no parameter. -/
def chars (cs : List Char) : List Token := cs.map .char

/-- The tokens of a template: a brace begins a parameter if names and a brace follow. -/
def scan : Option (List Char) → List Char → List Token
  | none, [] => []
  | some name, [] => chars ('{' :: name)
  | none, c :: cs => if c = '{' then scan (some []) cs else .char c :: scan none cs
  | some name, c :: cs =>
    if c = '}' ∧ name ≠ [] then .param name :: scan none cs
    else if isNameChar c = true then scan (some (name ++ [c])) cs
    else if c = '{' then chars ('{' :: name) ++ scan (some []) cs
    else chars ('{' :: name) ++ .char c :: scan none cs

/-- The tokens of a template. -/
def tokens (text : List Char) : List Token := scan none text

/-- The parameters. -/
def params (ts : List Token) : List (List Char) :=
  ts.filterMap fun t =>
    match t with
    | .char _ => none
    | .param name => some name

/-- The template with texts for its parameters. -/
def fill (f : List Char → List Char) (ts : List Token) : List Char :=
  ts.flatMap fun t =>
    match t with
    | .char c => [c]
    | .param name => f name

/-- The path matches, with the texts that stand for the parameters. -/
def Matches : List Token → List Char → List (List Char) → Prop
  | [], path, values => path = [] ∧ values = []
  | .char c :: ts, path, values => ∃ rest, path = c :: rest ∧ Matches ts rest values
  | .param _ :: ts, path, values => ∃ v rest values', path = v ++ rest ∧ values = v :: values' ∧
      v ≠ [] ∧ '/' ∉ v ∧ Matches ts rest values'

section Fill

variable {f : List Char → List Char} {ts us : List Token} {path : List Char}
  {values : List (List Char)}

@[simp]
theorem fill_nil : fill f [] = [] := rfl

@[simp]
theorem fill_char (c : Char) : fill f (.char c :: ts) = c :: fill f ts := rfl

@[simp]
theorem fill_param (name : List Char) : fill f (.param name :: ts) = f name ++ fill f ts := rfl

@[simp]
theorem params_char (c : Char) : params (.char c :: ts) = params ts := rfl

@[simp]
theorem params_param (name : List Char) : params (.param name :: ts) = name :: params ts := rfl

/-- **A filled template matches.** -/
theorem matches_fill (h : ∀ name ∈ params ts, f name ≠ [] ∧ '/' ∉ f name) :
    Matches ts (fill f ts) ((params ts).map f) := by
  induction ts with
  | nil => exact ⟨rfl, rfl⟩
  | cons t ts ih =>
    cases t with
    | char c => exact ⟨fill f ts, rfl, ih h⟩
    | param name =>
      rw [params_param] at h ⊢
      obtain ⟨hne, hslash⟩ := h name List.mem_cons_self
      exact ⟨f name, fill f ts, _, rfl, rfl, hne, hslash,
        ih fun name' hname' => h name' (List.mem_cons_of_mem _ hname')⟩

/-- What stands for the parameters has no slash. -/
theorem Matches.no_slash (h : Matches ts path values) {v : List Char} (hv : v ∈ values) :
    '/' ∉ v := by
  induction ts generalizing path values with
  | nil =>
    obtain ⟨-, rfl⟩ := h
    cases hv
  | cons t ts ih =>
    cases t with
    | char c =>
      obtain ⟨rest, -, hrest⟩ := h
      exact ih hrest hv
    | param name =>
      obtain ⟨v', rest, values', -, rfl, -, hslash, hrest⟩ := h
      rcases List.mem_cons.mp hv with rfl | hlater
      · exact hslash
      · exact ih hrest hlater

/-- Without parameters there is one path. -/
theorem Matches.of_params_nil (h : Matches ts path values) (hnone : params ts = []) :
    path = fill id ts ∧ values = [] := by
  induction ts generalizing path values with
  | nil => exact h
  | cons t ts ih =>
    cases t with
    | char c =>
      obtain ⟨rest, rfl, hrest⟩ := h
      obtain ⟨rfl, hvalues⟩ := ih hrest hnone
      exact ⟨rfl, hvalues⟩
    | param name => cases hnone

/-- **With one parameter at most** there is one way to match. -/
theorem matches_unique {values' : List (List Char)} (hone : (params ts).length ≤ 1)
    (h : Matches ts path values) (h' : Matches ts path values') : values = values' := by
  induction ts generalizing path values values' with
  | nil => exact h.2.trans h'.2.symm
  | cons t ts ih =>
    cases t with
    | char c =>
      obtain ⟨rest, rfl, hrest⟩ := h
      obtain ⟨rest', heq, hrest'⟩ := h'
      obtain rfl := (List.cons.inj heq).2
      exact ih hone hrest hrest'
    | param name =>
      have hnone : params ts = [] := by
        rw [params_param, List.length_cons] at hone
        exact List.length_eq_zero_iff.mp (by omega)
      obtain ⟨v, rest, vs, rfl, rfl, -, -, hrest⟩ := h
      obtain ⟨v', rest', vs', heq, rfl, -, -, hrest'⟩ := h'
      obtain ⟨rfl, rfl⟩ := hrest.of_params_nil hnone
      obtain ⟨rfl, rfl⟩ := hrest'.of_params_nil hnone
      rw [List.append_cancel_right heq]

end Fill

/-! ## Matching -/

/-- What stands for the parameters of a path that matches, as long as possible. -/
def capture : List Token → List Char → Option (List (List Char))
  | [], path => if path = [] then some [] else none
  | .char c :: ts, path =>
    match path with
    | d :: rest => if c = d then capture ts rest else none
    | [] => none
  | .param _ :: ts, path =>
    (List.range (path.takeWhile (· ≠ '/')).length).reverse.findSome? fun k =>
      (capture ts (path.drop (k + 1))).map (path.take (k + 1) :: ·)

section Capture

variable {ts : List Token} {path : List Char} {values : List (List Char)}

theorem capture_sound (h : capture ts path = some values) : Matches ts path values := by
  induction ts generalizing path values with
  | nil =>
    rw [capture] at h
    split at h
    · next hnil => exact ⟨hnil, (Option.some.inj h).symm⟩
    · cases h
  | cons t ts ih =>
    cases t with
    | char c =>
      cases path with
      | nil => cases h
      | cons d rest =>
        rw [capture] at h
        split at h
        · next heq => exact ⟨rest, by rw [heq], ih h⟩
        · cases h
    | param name =>
      rw [capture] at h
      obtain ⟨k, hk, hsome⟩ := List.exists_of_findSome?_eq_some h
      obtain ⟨vs, hvs, rfl⟩ := Option.map_eq_some_iff.mp hsome
      rw [List.mem_reverse, List.mem_range] at hk
      have hinitial : path.take (k + 1) <+: path.takeWhile (· ≠ '/') := by
        have htake := List.takeWhile_prefix (p := fun c : Char => decide (c ≠ '/')) (l := path)
        exact List.prefix_of_prefix_length_le (List.take_prefix _ _) htake
          (Nat.le_trans (List.length_take_le _ _) hk)
      refine ⟨path.take (k + 1), path.drop (k + 1), vs, (List.take_append_drop _ _).symm, rfl,
        ?_, ?_, ih hvs⟩
      · intro hnil
        have hlength := (List.takeWhile_prefix (p := fun c : Char => decide (c ≠ '/'))
          (l := path)).length_le
        rw [List.take_eq_nil_iff] at hnil
        rcases hnil with hzero | hempty
        · cases hzero
        · rw [hempty] at hk
          cases hk
      · intro hslash
        have hall := List.all_takeWhile (p := fun c : Char => decide (c ≠ '/')) (l := path)
        have hplain := List.all_eq_true.mp hall '/' (hinitial.subset hslash)
        exact of_decide_eq_true hplain rfl

theorem capture_complete (h : Matches ts path values) : (capture ts path).isSome = true := by
  induction ts generalizing path values with
  | nil =>
    rw [capture, if_pos h.1]
    rfl
  | cons t ts ih =>
    cases t with
    | char c =>
      obtain ⟨rest, rfl, hrest⟩ := h
      rw [capture, if_pos rfl]
      exact ih hrest
    | param name =>
      obtain ⟨v, rest, vs, rfl, -, hne, hslash, hrest⟩ := h
      have hpos := List.length_pos_iff.mpr hne
      rw [capture, List.findSome?_isSome_iff]
      refine ⟨v.length - 1, ?_, ?_⟩
      · have hplain : v <+: (v ++ rest).takeWhile (· ≠ '/') := by
          rw [List.takeWhile_append_of_pos]
          · exact List.prefix_append _ _
          · intro c hc
            exact decide_eq_true fun heq => hslash (heq ▸ hc)
        have hle := hplain.length_le
        rw [List.mem_reverse, List.mem_range]
        omega
      · rw [Nat.sub_add_cancel hpos, List.drop_left, Option.isSome_map]
        exact ih hrest

end Capture

/-! ## Templates that no path matches both of -/

/-- The templates begin differently: before a parameter of either, characters differ or one of
them ends. -/
def clash : List Token → List Token → Bool
  | .char c :: ts, .char d :: us => c != d || clash ts us
  | [], _ :: _ | _ :: _, [] => true
  | _, _ => false

/-- Slashes. -/
def slashes (ts : List Token) : ℕ := ts.count (.char '/')

/-- The templates begin differently, or end differently, or have different numbers of segments. -/
def apart (ts us : List Token) : Bool :=
  clash ts us || clash ts.reverse us.reverse || slashes ts != slashes us

section Apart

variable {ts us : List Token} {path : List Char} {values values' : List (List Char)}

/-- A match of two templates one after the other. -/
theorem matches_append : Matches (ts ++ us) path values ↔ ∃ p q vs ws, path = p ++ q ∧
    values = vs ++ ws ∧ Matches ts p vs ∧ Matches us q ws := by
  induction ts generalizing path values with
  | nil =>
    constructor
    · intro h
      exact ⟨[], path, [], values, rfl, rfl, ⟨rfl, rfl⟩, h⟩
    · intro ⟨p, q, vs, ws, hpath, hvalues, ⟨hp, hvs⟩, h⟩
      subst hp hvs
      rw [hpath, hvalues]
      exact h
  | cons t ts ih =>
    cases t with
    | char c =>
      constructor
      · intro ⟨rest, hpath, hrest⟩
        obtain ⟨p, q, vs, ws, rfl, rfl, hp, hq⟩ := ih.mp hrest
        exact ⟨c :: p, q, vs, ws, hpath, rfl, ⟨p, rfl, hp⟩, hq⟩
      · intro ⟨p, q, vs, ws, hpath, hvalues, ⟨rest, hrest, hp⟩, hq⟩
        subst hrest
        exact ⟨rest ++ q, hpath, ih.mpr ⟨rest, q, vs, ws, rfl, hvalues, hp, hq⟩⟩
    | param name =>
      constructor
      · intro ⟨v, rest, vs, hpath, hvalues, hne, hslash, hrest⟩
        obtain ⟨p, q, vs', ws, rfl, rfl, hp, hq⟩ := ih.mp hrest
        refine ⟨v ++ p, q, v :: vs', ws, ?_, hvalues, ⟨v, p, vs', rfl, rfl, hne, hslash, hp⟩, hq⟩
        rw [hpath, List.append_assoc]
      · intro ⟨p, q, vs, ws, hpath, hvalues, ⟨v, rest, vs', hp, hvs, hne, hslash, hrest⟩, hq⟩
        subst hp hvs
        refine ⟨v, rest ++ q, vs' ++ ws, ?_, hvalues, hne, hslash,
          ih.mpr ⟨rest, q, vs', ws, rfl, rfl, hrest, hq⟩⟩
        rw [hpath, List.append_assoc]

/-- Templates and paths read backwards. -/
theorem Matches.reverse (h : Matches ts path values) :
    Matches ts.reverse path.reverse (values.reverse.map List.reverse) := by
  induction ts generalizing path values with
  | nil =>
    obtain ⟨rfl, rfl⟩ := h
    exact ⟨rfl, rfl⟩
  | cons t ts ih =>
    rw [List.reverse_cons]
    cases t with
    | char c =>
      obtain ⟨rest, rfl, hrest⟩ := h
      refine matches_append.mpr ⟨_, [c], _, [], ?_, (List.append_nil _).symm, ih hrest,
        [], rfl, rfl, rfl⟩
      rw [List.reverse_cons]
    | param name =>
      obtain ⟨v, rest, vs, rfl, rfl, hne, hslash, hrest⟩ := h
      refine matches_append.mpr ⟨_, v.reverse, _, [v.reverse], ?_, ?_, ih hrest,
        v.reverse, [], [], (List.append_nil _).symm, rfl, ?_, ?_, rfl, rfl⟩
      · rw [List.reverse_append]
      · rw [List.reverse_cons, List.map_append]
        rfl
      · exact fun hnil => hne (List.reverse_eq_nil_iff.mp hnil)
      · exact fun hmem => hslash (List.mem_reverse.mp hmem)

/-- A match has as many slashes as its template. -/
theorem Matches.count_slash (h : Matches ts path values) : path.count '/' = slashes ts := by
  induction ts generalizing path values with
  | nil => rw [h.1]; rfl
  | cons t ts ih =>
    cases t with
    | char c =>
      obtain ⟨rest, rfl, hrest⟩ := h
      rw [slashes, List.count_cons, List.count_cons, ih hrest, slashes]
      simp
    | param name =>
      obtain ⟨v, rest, vs, rfl, rfl, -, hslash, hrest⟩ := h
      rw [slashes, List.count_append, List.count_eq_zero_of_not_mem hslash, ih hrest, slashes,
        List.count_cons]
      simp

/-- A path that is empty matches the empty template only. -/
theorem Matches.eq_nil (h : Matches ts [] values) : ts = [] := by
  cases ts with
  | nil => rfl
  | cons t ts =>
    cases t with
    | char c =>
      obtain ⟨rest, hnil, -⟩ := h
      cases hnil
    | param name =>
      obtain ⟨v, rest, vs, hnil, -, hne, -⟩ := h
      exact absurd (List.append_eq_nil_iff.mp hnil.symm).1 hne

theorem clash_sound (hclash : clash ts us = true) (h : Matches ts path values)
    (h' : Matches us path values') : False := by
  induction ts generalizing us path with
  | nil =>
    cases us with
    | nil => cases hclash
    | cons u us =>
      rw [h.1] at h'
      cases h'.eq_nil
  | cons t ts ih =>
    cases us with
    | nil =>
      rw [h'.1] at h
      cases h.eq_nil
    | cons u us =>
      cases t with
      | param name => cases u <;> cases hclash
      | char c =>
        cases u with
        | param name => cases hclash
        | char d =>
          obtain ⟨rest, rfl, hrest⟩ := h
          obtain ⟨rest', heq, hrest'⟩ := h'
          obtain ⟨rfl, rfl⟩ := List.cons.inj heq
          rw [clash, bne_self_eq_false, Bool.false_or] at hclash
          exact ih hclash hrest hrest'

/-- **Templates that are apart** have no path in common. -/
theorem apart_sound (hapart : apart ts us = true) (h : Matches ts path values)
    (h' : Matches us path values') : False := by
  rw [apart, Bool.or_eq_true, Bool.or_eq_true] at hapart
  rcases hapart with (hbegin | hend) | hslashes
  · exact clash_sound hbegin h h'
  · exact clash_sound hend h.reverse h'.reverse
  · rw [bne_iff_ne] at hslashes
    exact hslashes (h.count_slash.symm.trans h'.count_slash)

end Apart

/-! ## Segments -/

section Segments

variable {f : List Char → List Char} {ts : List Token}

/-- A text without a separator in front. -/
theorem splitOn_append {v : List Char} (h : '/' ∉ v) (rest : List Char) :
    (v ++ rest).splitOn '/' = (rest.splitOn '/').modifyHead (v ++ ·) := by
  induction v with
  | nil =>
    rw [List.nil_append]
    cases hrest : rest.splitOn '/' <;> rfl
  | cons c v ih =>
    rw [List.mem_cons, not_or] at h
    rw [List.cons_append, List.splitOn_cons_eq_if_modifyHead, ih h.2]
    have hc : (c == '/') = false := beq_false_of_ne fun heq => h.1 heq.symm
    rw [hc]
    cases rest.splitOn '/' <;> rfl

/-- **The segments of a filled template** are its filled segments. -/
theorem splitOn_fill (h : ∀ name, '/' ∉ f name) :
    (fill f ts).splitOn '/' = (ts.splitOn (.char '/')).map (fill f) := by
  induction ts with
  | nil => rfl
  | cons t ts ih =>
    have hne := List.splitOn_ne_nil (Token.char '/') ts
    cases t with
    | char c =>
      rw [fill_char, List.splitOn_cons_eq_if_modifyHead, List.splitOn_cons_eq_if_modifyHead, ih]
      by_cases hc : c = '/'
      · subst hc
        simp
      · have hc' : (c == '/') = false := beq_false_of_ne hc
        have htoken : (Token.char c == Token.char '/') = false :=
          beq_false_of_ne fun heq => hc (Token.char.inj heq)
        rw [hc', htoken]
        cases hsplit : ts.splitOn (Token.char '/') with
        | nil => exact absurd hsplit hne
        | cons seg segs => rfl
    | param name =>
      rw [fill_param, splitOn_append (h name), List.splitOn_cons_eq_if_modifyHead, ih]
      have htoken : (Token.param name == Token.char '/') = false :=
        beq_false_of_ne fun heq => by cases heq
      rw [htoken]
      cases hsplit : ts.splitOn (Token.char '/') with
      | nil => exact absurd hsplit hne
      | cons seg segs => rfl

end Segments

end PathTemplate
