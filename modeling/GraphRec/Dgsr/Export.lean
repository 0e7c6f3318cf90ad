import GraphRec.Dgsr.FromCsv
import GraphRec.Ingestion.Store
import GraphRec.Lib.Binary64

/-!
# The training data of a snapshot

`create_snapshot` puts the events up to a cutoff in the order of their times and ids, and
`train_job` writes those with a user and a product to a file, which `from_csv` reads.  The
time of an event is written in seconds, cut off from a double.

`trainingData_faithful` — which snapshots come back as they are.
-/

namespace Dgsr

open Ingestion (CustomerEvent Moment Store truthy)

/-! ## The snapshot -/

/-- The order of texts in the database. -/
structure Collation where
  le : String → String → Bool
  total : ∀ a b, le a b = true ∨ le b a = true
  trans : ∀ a b c, le a b = true → le b c = true → le a c = true

/-- `ORDER BY occurred_at, event_id`. -/
def Collation.before (collation : Collation) (row row' : String × CustomerEvent) : Prop :=
  row.2.occurredAt < row'.2.occurredAt ∨
    (row.2.occurredAt = row'.2.occurredAt ∧ collation.le row.1 row'.1 = true)

instance (collation : Collation) : DecidableRel collation.before :=
  fun _ _ => inferInstanceAs (Decidable (_ ∨ _))

/-- The events of `create_snapshot`. -/
def createSnapshot (collation : Collation) (s : Store) (cutoff : Moment) :
    List (String × CustomerEvent) :=
  (s.events.rows.filter fun row => decide (row.2.occurredAt ≤ cutoff)).insertionSort
    collation.before

/-! ## The file -/

/-- `int(datetime.fromisoformat(occurred_at).timestamp())`. -/
def epochSeconds (occurredAt : Moment) : ℤ :=
  Binary64.truncate (Binary64.round ((occurredAt : ℚ) / 1000000))

/-- The row that is written for an event, if there is one. -/
def exportRow (e : CustomerEvent) : Option RawRow :=
  match truthy e.userId, truthy e.externalProductId with
  | some user, some product => some (user, product, epochSeconds e.occurredAt)
  | _, _ => none

/-- `training.csv`. -/
def trainingCsv (snapshot : List (String × CustomerEvent)) : List Char :=
  writeRows (snapshot.filterMap fun row => exportRow row.2)

/-- The data of `train_job`. -/
def trainingData (snapshot : List (String × CustomerEvent)) : Except CsvError InteractionData :=
  fromCsv {} (trainingCsv snapshot)

/-! ## What it should be -/

/-- An event with a user and a product, and its time in whole seconds. -/
def interactionOf (e : CustomerEvent) : Option RawRow :=
  match e.userId, e.externalProductId with
  | some user, some product => some (user, product, e.occurredAt.tdiv 1000000)
  | _, _ => none

/-- The events of the snapshot that have a user and a product. -/
def interactionsOf (snapshot : List (String × CustomerEvent)) : List RawRow :=
  snapshot.filterMap fun row => interactionOf row.2

/-- The data holds exactly the interactions of the snapshot, in its order; without any there
are no data. -/
def Faithful (snapshot : List (String × CustomerEvent)) : Prop :=
  (∃ data, trainingData snapshot = .ok data ∧ data.externalRows = interactionsOf snapshot) ∨
    (interactionsOf snapshot = [] ∧ trainingData snapshot = .error .noInteractions)

/-- What the schemas admit of an event: a user that is stripped and not empty, a product of the
catalogue, a time of the years 1 to 9999. -/
structure Ingested (e : CustomerEvent) : Prop where
  user : ∀ user, e.userId = some user →
    user ≠ "" ∧ Text.strip user = user ∧ user.length ≤ 256
  product : ∀ product, e.externalProductId = some product → product.length ≤ 100
  time_ge : -62135596800000000 ≤ e.occurredAt
  time_le : e.occurredAt ≤ 253402300799999999

/-- More than half a unit in the last place of the time in seconds is left to the next whole
second. -/
def ExactSecond (occurredAt : Moment) : Prop :=
  Binary64.unit ((occurredAt : ℚ) / 1000000) / 2 <
    ((1000000 - occurredAt.natAbs % 1000000 : ℕ) : ℚ) / 1000000

/-- An event that comes back as it is: its product is not empty and has no white space at its
ends, and its second is exact. -/
def Preserved (e : CustomerEvent) : Prop :=
  ∀ user product, e.userId = some user → e.externalProductId = some product →
    product ≠ "" ∧ Text.strip product = product ∧ ExactSecond e.occurredAt

/-! ## Seconds -/

theorem epochSeconds_neg (t : ℤ) : epochSeconds (-t) = -epochSeconds t := by
  unfold epochSeconds
  push_cast
  rw [neg_div, Binary64.round_neg, Binary64.truncate_neg]

section Seconds

variable {t t' : ℤ}

/-- The seconds of a time as a rational. -/
theorem floor_seconds (t : ℤ) : ⌊(t : ℚ) / 1000000⌋ = t / 1000000 := by
  have h := Rat.floor_intCast_div_natCast t 1000000
  exact_mod_cast h

/-- The seconds after the epoch are below `2⁵¹`. -/
theorem seconds_lt (h : t ≤ 253402300799999999) : (t : ℚ) / 1000000 < 2 ^ 51 := by
  have hcast : (t : ℚ) ≤ 253402300799999999 := by exact_mod_cast h
  rw [div_lt_iff₀ (by norm_num)]
  linarith

theorem epochSeconds_eq_iff_of_pos (hpos : 0 < t) (hle : t ≤ 253402300799999999) :
    epochSeconds t = t.tdiv 1000000 ↔ ExactSecond t := by
  have hx : (0 : ℚ) < (t : ℚ) / 1000000 := div_pos (by exact_mod_cast hpos) (by norm_num)
  have hround := Binary64.truncate_round_iff hx (seconds_lt hle)
  have hleft : ((t / 1000000 + 1 : ℤ) : ℚ) - (t : ℚ) / 1000000 =
      ((1000000 - t.natAbs % 1000000 : ℕ) : ℚ) / 1000000 := by
    obtain ⟨r, hr⟩ : ∃ r, r = t.natAbs % 1000000 := ⟨_, rfl⟩
    have hmod : r ≤ 1000000 := by omega
    have hint : t = 1000000 * (t / 1000000) + (r : ℤ) := by omega
    have hsplit : (t : ℚ) = 1000000 * (t / 1000000 : ℤ) + (r : ℚ) := by
      have hcast := congrArg (fun z : ℤ => (z : ℚ)) hint
      simpa only [Int.cast_add, Int.cast_mul, Int.cast_ofNat, Int.cast_natCast] using hcast
    rw [← hr, Nat.cast_sub hmod, eq_div_iff (by norm_num), sub_mul, div_mul_cancel₀ _ (by norm_num)]
    push_cast
    linarith
  rw [floor_seconds, hleft] at hround
  rw [Int.tdiv_eq_ediv_of_nonneg hpos.le]
  exact hround

/-- **Exact seconds.** -/
theorem epochSeconds_eq_iff (hge : -62135596800000000 ≤ t) (hle : t ≤ 253402300799999999) :
    epochSeconds t = t.tdiv 1000000 ↔ ExactSecond t := by
  rcases lt_trichotomy t 0 with hneg | rfl | hpos
  · have h := epochSeconds_eq_iff_of_pos (t := -t) (by omega) (by omega)
    rw [epochSeconds_neg, Int.neg_tdiv, neg_inj] at h
    rw [h]
    unfold ExactSecond
    push_cast
    rw [Int.natAbs_neg, neg_div, Binary64.unit_neg]
  · refine iff_of_true (by simp [epochSeconds, Binary64.round_zero, Binary64.truncate]) ?_
    norm_num [ExactSecond, Binary64.unit]
  · exact epochSeconds_eq_iff_of_pos hpos hle

theorem epochSeconds_nonneg (hnonneg : 0 ≤ t) (hle : t ≤ 253402300799999999) : 0 ≤ epochSeconds t :=
  Binary64.truncate_round_nonneg (div_nonneg (by exact_mod_cast hnonneg) (by norm_num))
    (seconds_lt hle)

/-- Later events are written with later or the same seconds. -/
theorem epochSeconds_mono (h : t ≤ t') (hge : -62135596800000000 ≤ t)
    (hle : t' ≤ 253402300799999999) : epochSeconds t ≤ epochSeconds t' := by
  have hmono : ∀ {a b : ℤ}, 0 ≤ a → a ≤ b → b ≤ 253402300799999999 →
      epochSeconds a ≤ epochSeconds b := by
    intro a b ha hab hb
    refine Binary64.truncate_round_mono (div_nonneg (by exact_mod_cast ha) (by norm_num)) ?_
      (seconds_lt hb)
    exact div_le_div_of_nonneg_right (by exact_mod_cast hab) (by norm_num)
  rcases le_total 0 t with hnonneg | hneg
  · exact hmono hnonneg h hle
  · have hback : epochSeconds t = -epochSeconds (-t) := by rw [epochSeconds_neg, neg_neg]
    rcases le_total 0 t' with hnonneg' | hneg'
    · have h₁ := epochSeconds_nonneg (t := -t) (by omega) (by omega)
      have h₂ := epochSeconds_nonneg hnonneg' hle
      omega
    · have hback' : epochSeconds t' = -epochSeconds (-t') := by rw [epochSeconds_neg, neg_neg]
      have h₁ := hmono (a := -t') (b := -t) (by omega) (by omega) (by omega)
      omega

/-- The seconds of the years 1 to 9999. -/
theorem epochSeconds_bounds (hge : -62135596800000000 ≤ t) (hle : t ≤ 253402300799999999) :
    -253402300800 ≤ epochSeconds t ∧ epochSeconds t ≤ 253402300800 := by
  have habove : ∀ {a : ℤ}, 0 < a → a ≤ 253402300799999999 → epochSeconds a ≤ 253402300800 := by
    intro a hpos ha
    have hx : (0 : ℚ) < (a : ℚ) / 1000000 := div_pos (by exact_mod_cast hpos) (by norm_num)
    have hcases := Binary64.truncate_round_cases hx (seconds_lt ha)
    rw [floor_seconds] at hcases
    unfold epochSeconds
    omega
  rcases lt_trichotomy t 0 with hneg | rfl | hpos
  · have h := habove (a := -t) (by omega) (by omega)
    have h' := epochSeconds_nonneg (t := -t) (by omega) (by omega)
    rw [epochSeconds_neg] at h h'
    omega
  · have hzero : epochSeconds 0 = 0 := by
      simp [epochSeconds, Binary64.round_zero, Binary64.truncate]
    omega
  · have h := habove hpos hle
    have h' := epochSeconds_nonneg hpos.le hle
    omega

end Seconds

/-! ## Rows and events -/

/-- What one function keeps of a list another cannot keep more of. -/
theorem length_filterMap_le {α β γ : Type} {f : α → Option β} {g : α → Option γ} {l : List α}
    (h : ∀ a ∈ l, g a = none → f a = none) : (l.filterMap f).length ≤ (l.filterMap g).length := by
  induction l with
  | nil => exact Nat.le_refl _
  | cons a l ih =>
      have hrest := ih fun b hb => h b (List.mem_cons_of_mem _ hb)
      have ha := h a List.mem_cons_self
      rw [List.filterMap_cons, List.filterMap_cons]
      cases hg : g a with
      | none => simpa [ha hg] using hrest
      | some c => cases f a <;> simp <;> omega

/-- Two functions that keep no more of a list agree on it when their results do. -/
theorem filterMap_agree {α β γ : Type} {f : α → Option β} {g : α → Option γ} {k : β → γ}
    {l : List α} (h : ∀ a ∈ l, g a = none → f a = none)
    (heq : (l.filterMap f).map k = l.filterMap g) : ∀ a ∈ l, (f a).map k = g a := by
  induction l with
  | nil =>
      intro a ha
      cases ha
  | cons a l ih =>
      have hl : ∀ b ∈ l, g b = none → f b = none := fun b hb => h b (List.mem_cons_of_mem _ hb)
      have hlength := length_filterMap_le hl
      have ha := h a List.mem_cons_self
      rw [List.filterMap_cons, List.filterMap_cons] at heq
      have hboth : (f a).map k = g a ∧ (l.filterMap f).map k = l.filterMap g := by
        cases hg : g a with
        | none =>
            rw [ha hg, hg] at heq
            exact ⟨by rw [ha hg]; rfl, heq⟩
        | some c =>
            cases hf : f a with
            | none =>
                -- The others would have to make up for it.
                simp only [hf, hg] at heq
                have hcount := congrArg List.length heq
                rw [List.length_map, List.length_cons] at hcount
                omega
            | some b =>
                rw [hf, hg, List.map_cons, List.cons.injEq] at heq
                exact ⟨congrArg some heq.1, heq.2⟩
      intro b hb
      rcases List.mem_cons.mp hb with rfl | hb
      · exact hboth.1
      · exact ih hl hboth.2 b hb

section Rows

variable {e : CustomerEvent}

/-- An event without a user or without a product is not written. -/
theorem exportRow_of_none (h : interactionOf e = none) : exportRow e = none := by
  unfold interactionOf at h
  unfold exportRow
  cases huser : e.userId with
  | none => rfl
  | some user =>
      cases hproduct : e.externalProductId with
      | none => cases truthy (some user) <;> rfl
      | some product =>
          rw [huser, hproduct] at h
          cases h

/-- An event with both is written unless its product is empty. -/
theorem exportRow_eq (he : Ingested e) {user product : String} (huser : e.userId = some user)
    (hproduct : e.externalProductId = some product) :
    exportRow e = if product = "" then none else some (user, product, epochSeconds e.occurredAt) := by
  have huser' : truthy e.userId = some user := by
    rw [huser]
    exact if_neg (he.user user huser).1
  rw [exportRow, huser', hproduct, truthy]
  by_cases hempty : product = "" <;> simp [hempty]

/-- The row of an event is stripped to its interaction just when it is preserved. -/
theorem exportRow_strip_iff (he : Ingested e) :
    (exportRow e).map RawRow.strip = interactionOf e ∧
      (∀ row, exportRow e = some row → row.Named) ↔ Preserved e := by
  cases huser : e.userId with
  | none =>
      have hnone : interactionOf e = none := by rw [interactionOf, huser]
      rw [exportRow_of_none hnone, hnone]
      refine iff_of_true ⟨rfl, nofun⟩ ?_
      intro user product huser'
      rw [huser] at huser'
      cases huser'
  | some user =>
      cases hproduct : e.externalProductId with
      | none =>
          have hnone : interactionOf e = none := by rw [interactionOf, huser, hproduct]
          rw [exportRow_of_none hnone, hnone]
          refine iff_of_true ⟨rfl, nofun⟩ ?_
          intro user' product' _ hproduct'
          rw [hproduct] at hproduct'
          cases hproduct'
      | some product =>
          have hsome : interactionOf e = some (user, product, e.occurredAt.tdiv 1000000) := by
            rw [interactionOf, huser, hproduct]
          have hstripped := (he.user user huser).2.1
          have hpreserved : Preserved e ↔
              product ≠ "" ∧ Text.strip product = product ∧ ExactSecond e.occurredAt := by
            constructor
            · exact fun h => h user product huser hproduct
            · intro h user' product' _ hproduct'
              rw [hproduct] at hproduct'
              exact Option.some.inj hproduct' ▸ h
          rw [exportRow_eq he huser hproduct, hsome, hpreserved,
            ← epochSeconds_eq_iff he.time_ge he.time_le]
          by_cases hempty : product = ""
          · simp [hempty]
          · rw [if_neg hempty]
            simp only [Option.map_some, RawRow.strip, hstripped, Option.some.injEq, Prod.mk.injEq,
              true_and, RawRow.Named, forall_eq']
            constructor
            · rintro ⟨⟨hproduct', htime⟩, -⟩
              exact ⟨hempty, hproduct', htime⟩
            · rintro ⟨-, hproduct', htime⟩
              refine ⟨⟨hproduct', htime⟩, (he.user user huser).1, ?_⟩
              rw [hproduct']
              exact hempty

/-- A written row fits into a file. -/
theorem exportRow_fits (he : Ingested e) {row : RawRow} (h : exportRow e = some row) : row.Fits := by
  cases huser : e.userId with
  | none =>
      rw [exportRow_of_none (by rw [interactionOf, huser])] at h
      cases h
  | some user =>
      cases hproduct : e.externalProductId with
      | none =>
          rw [exportRow_of_none (by rw [interactionOf, huser, hproduct])] at h
          cases h
      | some product =>
          rw [exportRow_eq he huser hproduct] at h
          split at h
          · cases h
          · obtain rfl := Option.some.inj h
            have hbounds := epochSeconds_bounds he.time_ge he.time_le
            have hlimit : Csv.fieldSizeLimit = 131072 := rfl
            have hdigits := Text.length_decimal_le (z := epochSeconds e.occurredAt) (k := 13)
              (by decide) (by omega)
            refine ⟨?_, ?_, ?_, ?_, ?_⟩
            · exact Nat.le_trans (he.user user huser).2.2 (by omega)
            · exact Nat.le_trans (he.product product hproduct) (by omega)
            · exact Nat.le_trans hdigits (by omega)
            · change -2 ^ 63 ≤ epochSeconds e.occurredAt
              omega
            · change epochSeconds e.occurredAt < 2 ^ 63
              omega

/-- The time of a written row. -/
theorem time_of_exportRow {row : RawRow} (h : exportRow e = some row) :
    row.2.2 = epochSeconds e.occurredAt := by
  unfold exportRow at h
  split at h
  · cases h
    rfl
  · cases h

end Rows

/-! ## Every snapshot -/

/-- A snapshot is in the order of its times. -/
theorem createSnapshot_sorted (collation : Collation) (s : Store) (cutoff : Moment) :
    (createSnapshot collation s cutoff).Pairwise fun row row' =>
      row.2.occurredAt ≤ row'.2.occurredAt := by
  have : Std.Total collation.before := ⟨by
    intro row row'
    rcases lt_trichotomy row.2.occurredAt row'.2.occurredAt with hlt | heq | hgt
    · exact Or.inl (Or.inl hlt)
    · rcases collation.total row.1 row'.1 with hle | hle
      · exact Or.inl (Or.inr ⟨heq, hle⟩)
      · exact Or.inr (Or.inr ⟨heq.symm, hle⟩)
    · exact Or.inr (Or.inl hgt)⟩
  have : IsTrans _ collation.before := ⟨by
    rintro row row' row'' (hlt | ⟨heq, hle⟩) (hlt' | ⟨heq', hle'⟩)
    · exact Or.inl (lt_trans hlt hlt')
    · exact Or.inl (heq' ▸ hlt)
    · exact Or.inl (heq ▸ hlt')
    · exact Or.inr ⟨heq.trans heq', collation.trans _ _ _ hle hle'⟩⟩
  refine (List.pairwise_insertionSort collation.before _).imp ?_
  rintro row row' (hlt | ⟨heq, -⟩)
  · exact hlt.le
  · exact heq.le

/-- The worker's configuration. -/
theorem trainingConfig_keepsAll : ({} : LoadConfig).KeepsAll := ⟨rfl, rfl, rfl⟩

section Training

variable {snapshot : List (String × CustomerEvent)}

theorem written_fits (h : ∀ row ∈ snapshot, Ingested row.2) :
    ∀ row ∈ snapshot.filterMap (fun row => exportRow row.2), row.Fits := by
  intro row hrow
  obtain ⟨event, hevent, hexport⟩ := List.mem_filterMap.mp hrow
  exact exportRow_fits (h event hevent) hexport

theorem written_sorted (h : ∀ row ∈ snapshot, Ingested row.2)
    (hsorted : snapshot.Pairwise fun row row' => row.2.occurredAt ≤ row'.2.occurredAt) :
    (snapshot.filterMap fun row => exportRow row.2).Pairwise fun r r' => r.2.2 ≤ r'.2.2 := by
  rw [List.pairwise_filterMap]
  refine hsorted.imp_of_mem ?_
  intro event event' hevent hevent' hle row hrow row' hrow'
  rw [time_of_exportRow hrow, time_of_exportRow hrow']
  exact epochSeconds_mono hle (h event hevent).time_ge (h event' hevent').time_le

/-- The written rows, stripped, are the interactions just when all events are preserved. -/
theorem written_eq_iff (h : ∀ row ∈ snapshot, Ingested row.2) :
    ((snapshot.filterMap fun row => exportRow row.2).map RawRow.strip = interactionsOf snapshot ∧
      ∀ row ∈ snapshot.filterMap (fun row => exportRow row.2), row.Named) ↔
    ∀ row ∈ snapshot, Preserved row.2 := by
  constructor
  · rintro ⟨heq, hnamed⟩ event hevent
    have hagree := filterMap_agree (fun event _ => exportRow_of_none (e := event.2)) heq event hevent
    refine (exportRow_strip_iff (h event hevent)).mp ⟨hagree, ?_⟩
    intro row hrow
    exact hnamed row (List.mem_filterMap.mpr ⟨event, hevent, hrow⟩)
  · intro hall
    have heach := fun event hevent => (exportRow_strip_iff (h event hevent)).mpr (hall event hevent)
    refine ⟨?_, ?_⟩
    · rw [List.map_filterMap, interactionsOf]
      exact List.filterMap_congr fun event hevent => (heach event hevent).1
    · intro row hrow
      obtain ⟨event, hevent, hexport⟩ := List.mem_filterMap.mp hrow
      exact (heach event hevent).2 row hexport

/-- A snapshot in the order of its times. -/
theorem faithful_iff (h : ∀ row ∈ snapshot, Ingested row.2)
    (hsorted : snapshot.Pairwise fun row row' => row.2.occurredAt ≤ row'.2.occurredAt) :
    Faithful snapshot ↔ ∀ row ∈ snapshot, Preserved row.2 := by
  have hfits := written_fits h
  have hload := fun hnamed =>
    fromCsv_rows trainingConfig_keepsAll hfits hnamed (written_sorted h hsorted)
  rw [← written_eq_iff h]
  constructor
  · rintro (⟨data, hdata, hrows⟩ | ⟨hnone, -⟩)
    · have hnamed : ∀ row ∈ snapshot.filterMap (fun row => exportRow row.2), row.Named := by
        by_contra hblank
        obtain ⟨n, herror⟩ := fromCsv_blank trainingConfig_keepsAll hfits hblank
        rw [trainingData, trainingCsv, herror] at hdata
        cases hdata
      rcases hload hnamed with ⟨-, herror⟩ | ⟨data', hdata', hrows'⟩
      · rw [trainingData, trainingCsv, herror] at hdata
        cases hdata
      · rw [trainingData, trainingCsv, hdata'] at hdata
        cases hdata
        exact ⟨hrows'.symm.trans hrows, hnamed⟩
    · -- Nothing to keep, and nothing that is written.
      have hwritten : snapshot.filterMap (fun row => exportRow row.2) = [] := by
        have hlength := length_filterMap_le (l := snapshot)
          fun event _ => exportRow_of_none (e := event.2)
        rw [← interactionsOf, hnone] at hlength
        exact List.length_eq_zero_iff.mp (Nat.le_zero.mp hlength)
      rw [hwritten, hnone]
      exact ⟨rfl, by simp⟩
  · rintro ⟨heq, hnamed⟩
    rcases hload hnamed with ⟨hempty, herror⟩ | ⟨data, hdata, hrows⟩
    · refine Or.inr ⟨?_, herror⟩
      rw [← heq, hempty]
      rfl
    · exact Or.inl ⟨data, hdata, hrows.trans heq⟩

end Training

/-- **Training data.**  Which snapshots come back as they are. -/
theorem trainingData_faithful (collation : Collation) (s : Store) (cutoff : Moment)
    (h : ∀ row ∈ s.events.rows, Ingested row.2) :
    Faithful (createSnapshot collation s cutoff) ↔
      ∀ row ∈ createSnapshot collation s cutoff, Preserved row.2 := by
  refine faithful_iff ?_ (createSnapshot_sorted collation s cutoff)
  intro row hrow
  exact h row (List.mem_filter.mp ((List.mem_insertionSort _).mp hrow)).1

/-- Texts in the order of their characters. -/
def byCharacters : Collation where
  le a b := decide (a ≤ b)
  total := by
    intro a b
    rw [decide_eq_true_eq, decide_eq_true_eq]
    exact le_total a b
  trans := by
    intro a b c hab hbc
    rw [decide_eq_true_eq] at hab hbc ⊢
    exact le_trans hab hbc

/-- A purchase of the user `ann`. -/
def purchase (productId : String) (occurredAt : Moment) : CustomerEvent where
  eventType := "purchase"
  userId := some "ann"
  externalProductId := some productId
  context := "\x7b\x7d"
  occurredAt := occurredAt
  createdAt := 0

theorem purchase_ingested {productId : String} {t : ℤ} (hproduct : productId.length ≤ 100)
    (hge : 0 ≤ t) (hle : t ≤ 253402300799999999) : Ingested (purchase productId t) where
  user := by
    intro user huser
    cases huser
    decide +kernel
  product := by
    intro product h
    cases h
    exact hproduct
  time_ge := le_trans (by decide) hge
  time_le := hle

/-- A store with events only. -/
def storeWith (rows : List (String × CustomerEvent)) : Store :=
  { Store.empty with events := Table.empty.insertAll rows }

/-- Two purchases; the product of one has a comma and quotation marks. -/
def quotedStore : Store :=
  storeWith [("b", purchase "lamp" 5500000), ("a", purchase "rug, \"red\"" 5500000)]

/-- That store's snapshot is faithful. -/
theorem trainingData_faithful_quoted :
    interactionsOf (createSnapshot byCharacters quotedStore 6000000) =
        [("ann", "rug, \"red\"", 5), ("ann", "lamp", 5)] ∧
      Faithful (createSnapshot byCharacters quotedStore 6000000) := by
  refine ⟨by decide +kernel, (trainingData_faithful byCharacters quotedStore 6000000 ?_).mpr ?_⟩
  · intro row hrow
    have hrows : quotedStore.events.rows =
        [("b", purchase "lamp" 5500000), ("a", purchase "rug, \"red\"" 5500000)] := rfl
    rw [hrows] at hrow
    rcases List.mem_cons.mp hrow with rfl | hrow
    · exact purchase_ingested (by decide) (by decide) (by decide)
    · rw [List.mem_singleton.mp hrow]
      exact purchase_ingested (by decide) (by decide) (by decide)
  · have hsnapshot : createSnapshot byCharacters quotedStore 6000000 =
        [("a", purchase "rug, \"red\"" 5500000), ("b", purchase "lamp" 5500000)] := by
      decide +kernel
    have hsecond : ExactSecond 5500000 := by
      unfold ExactSecond
      decide +kernel
    rw [hsnapshot]
    intro row hrow user product huser hproduct
    rcases List.mem_cons.mp hrow with rfl | hrow
    · cases hproduct
      exact ⟨by decide, by decide +kernel, hsecond⟩
    · obtain rfl := List.mem_singleton.mp hrow
      cases hproduct
      exact ⟨by decide, by decide +kernel, hsecond⟩

/-- Two products whose ids differ by a blank. -/
def blankStore : Store := storeWith [("a", purchase "lamp" 5500000), ("b", purchase "lamp " 6500000)]

/-- The two products are one in the training data. -/
theorem not_trainingData_faithful :
    ¬ ∀ (collation : Collation) (s : Store) (cutoff : Moment),
      (∀ row ∈ s.events.rows, Ingested row.2) → Faithful (createSnapshot collation s cutoff) := by
  intro hall
  have hingested : ∀ row ∈ blankStore.events.rows, Ingested row.2 := by
    have hrows : blankStore.events.rows =
        [("a", purchase "lamp" 5500000), ("b", purchase "lamp " 6500000)] := rfl
    intro row hrow
    rw [hrows] at hrow
    rcases List.mem_cons.mp hrow with rfl | hrow
    · exact purchase_ingested (by decide) (by decide) (by decide)
    · rw [List.mem_singleton.mp hrow]
      exact purchase_ingested (by decide) (by decide) (by decide)
  have hrows : (trainingData (createSnapshot byCharacters blankStore 7000000)).map
      InteractionData.externalRows = .ok [("ann", "lamp", 5), ("ann", "lamp", 6)] := by
    decide +kernel
  have hinteractions : interactionsOf (createSnapshot byCharacters blankStore 7000000) =
      [("ann", "lamp", 5), ("ann", "lamp ", 6)] := by
    decide +kernel
  rcases hall byCharacters blankStore 7000000 hingested with ⟨data, hdata, hsame⟩ | ⟨hnone, -⟩
  · rw [hdata, Except.map, hsame, hinteractions] at hrows
    exact absurd (Except.ok.inj hrows) (by decide)
  · rw [hinteractions] at hnone
    cases hnone

end Dgsr
