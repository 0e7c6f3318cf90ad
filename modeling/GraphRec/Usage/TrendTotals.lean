import GraphRec.Lib.Fallible
import GraphRec.Usage.Trends

/-!
# Trends conserve usage

The buckets of a trend follow each other without a gap from the bucket of `start` to `end`, each
event of that range is in one of them, the one that the database finds, and the sums of the buckets
add up to the sum of the ledger.

The loop of `bucket_starts` also computes the bucket after the last one.  `trends_conserve` — all
of the above holds exactly when that bucket, too, starts within the calendar of `datetime`.
-/

namespace Trends

open Buckets (ceilTo)

/-! ## What trends are for -/

/-- The starts of buckets that follow each other from a time to another. -/
structure Tiles (start stop : DateTime) (g : Granularity) (starts : List DateTime) : Prop where
  first : (starts.map DateTime.instant).head? = some (Buckets.floorTo (step g) start.instant)
  contiguous : (starts.map DateTime.instant).IsChain fun a b => b = a + step g
  before : ∀ s ∈ starts, s.instant < stop.instant
  cover : ∀ t, Buckets.floorTo (step g) start.instant ≤ t → t < stop.instant →
    ∃! s, s ∈ starts ∧ s.instant ≤ t ∧ t < s.instant + step g

/-- The sum of a tenant's ledger for a type, from a time on and before another. -/
def ledgerSum (ledger : List UsageEvent) (tenant : TenantId) (usageType : String)
    (first stop : ℤ) : ℚ :=
  ((ledger.filter fun e => decide (e.tenantId = tenant ∧ e.usageType = usageType ∧
    first ≤ e.occurredAt + epoch ∧ e.occurredAt + epoch < stop)).map UsageEvent.quantity).sum

/-- A trend shows the ledger: its numbers are those of exact sums. -/
structure Conserves (ledger : List UsageEvent) (tenant : TenantId) (start stop : DateTime)
    (g : Granularity) (types : List String) (trend : Trend) (table : DateTime → String → ℚ) :
    Prop where
  tiles : Tiles start stop g (trend.buckets.map Prod.fst)
  values : ∀ s values, (s, values) ∈ trend.buckets →
    values = types.eraseDups.map fun t => (t, number (table s t))
  totals : trend.totals = types.eraseDups.map fun t =>
    (t, number ((trend.buckets.map Prod.fst).map fun s => table s t).sum)
  bucket : ∀ s ∈ trend.buckets.map Prod.fst, ∀ t ∈ types, table s t =
    ledgerSum ledger tenant t s.instant (min (s.instant + step g) stop.instant)
  total : ∀ t ∈ types, ((trend.buckets.map Prod.fst).map fun s => table s t).sum =
    ledgerSum ledger tenant t (Buckets.floorTo (step g) start.instant) stop.instant

/-- The range starts within the calendar, and so does the first bucket from its end on. -/
def Representable (start stop : DateTime) (g : Granularity) : Prop :=
  0 ≤ start.instant ∧ ceilTo (step g) stop.instant < calendarEnd

/-! ## Rounding down -/

section Floor

variable {g : Granularity} {value d : DateTime} {t : ℤ}

/-- A point of the calendar. -/
def InCalendar (t : ℤ) : Prop := 0 ≤ t ∧ t < calendarEnd

theorem floorTo_nonneg (ht : 0 ≤ t) : 0 ≤ Buckets.floorTo (step g) t := by
  obtain ⟨i, hi⟩ := Buckets.dvd_floorTo (step g) t
  have hpos := step_pos g
  have hlt := Buckets.lt_floorTo_add hpos t
  rw [hi] at hlt ⊢
  have hi : -1 < i := Int.lt_of_mul_lt_mul_left (by rw [mul_neg, mul_one]; omega) hpos.le
  exact mul_nonneg hpos.le (by omega)

/-- Rounding down in Python. -/
theorem floorTo_eq (ht : InCalendar value.instant) :
    floorTo value g = DateTime.ofWall (some 0) (Buckets.floorTo (step g) value.instant) := by
  obtain ⟨utc, hutc⟩ := @DateTime.ofWall_isOk value.instant (some 0) ht
  obtain ⟨hwall, hoffset⟩ := DateTime.wall_ofWall hutc
  have hself : ∀ d : DateTime, d.utcoffset = some 0 →
      .ok d = DateTime.ofWall (some 0) d.wall := by
    intro d hd
    rw [← hd, DateTime.ofWall_wall]
  cases g with
  | hour =>
      have hfloor : floorTo value .hour = .ok utc.startOfHour := by
        rw [floorTo, DateTime.toUtc, hutc]
        rfl
      rw [hfloor, hself utc.startOfHour hoffset, DateTime.startOfHour_wall, hwall, step]
  | day =>
      have hfloor : floorTo value .day = .ok utc.startOfDay := by
        rw [floorTo, DateTime.toUtc, hutc]
        rfl
      rw [hfloor, hself utc.startOfDay hoffset, DateTime.startOfDay_wall, hwall, step]
  | week =>
      have hfloor : floorTo value .week =
          utc.startOfDay.add (-(utc.startOfDay.weekday * dayMicros)) := by
        rw [floorTo, DateTime.toUtc, hutc]
        rfl
      rw [hfloor, DateTime.add, ← sub_eq_add_neg, DateTime.startOfWeek, hwall, step]
      exact congrArg (DateTime.ofWall · _) hoffset

/-- Rounding down in the database. -/
theorem dateTrunc_eq (g : Granularity) (t : ℤ) :
    dateTrunc g t + epoch = Buckets.floorTo (step g) (t + epoch) := by
  symm
  rw [Buckets.floorTo_eq_iff (step_pos g)]
  cases g with
  | hour =>
      unfold dateTrunc step epoch hourMicros dayMicros
      dsimp only
      omega
  | day =>
      unfold dateTrunc step epoch dayMicros
      dsimp only
      omega
  | week =>
      unfold dateTrunc step epoch isodow dayMicros
      dsimp only
      omega

/-- **Both floors agree**, at every point of the calendar. -/
theorem floors_agree (h : ofTimestamp t = .ok d) :
    ∃ f, floorTo d g = .ok f ∧ ofTimestamp (dateTrunc g t) = .ok f := by
  obtain ⟨hwall, hoffset⟩ := DateTime.wall_ofWall h
  have hinstant : d.instant = t + epoch := by
    rw [DateTime.instant, hwall, hoffset]
    exact sub_zero _
  have ht : InCalendar d.instant := by
    have hmem := d.wall_mem
    rw [hwall] at hmem
    rw [hinstant]
    exact hmem
  obtain ⟨f, hf⟩ := @DateTime.ofWall_isOk (Buckets.floorTo (step g) d.instant) (some 0)
    ⟨floorTo_nonneg ht.1, (Buckets.floorTo_le (step_pos g) _).trans_lt ht.2⟩
  refine ⟨f, (floorTo_eq ht).trans hf, ?_⟩
  rw [ofTimestamp, dateTrunc_eq, ← hinstant, hf]

end Floor

/-! ## The starts of the buckets -/

section Starts

variable {g : Granularity} {start stop current : DateTime}

theorem instant_of_utc {d : DateTime} (h : d.utcoffset = some 0) : d.instant = d.wall := by
  rw [DateTime.instant, h]
  exact sub_zero _

/-- One round of the loop. -/
theorem bucketsFrom_of_lt (h : current.instant < stop.instant) :
    bucketsFrom current stop g = match current.add (step g) with
      | .error e => .error e
      | .ok next => (bucketsFrom next stop g).map (current :: ·) := by
  rw [bucketsFrom, if_pos h]
  split
  · next hadd => rw [hadd]
  · next hadd => rw [hadd]

/-- The loop, from a bucket that `n` buckets lie before the end. -/
theorem bucketsFrom_spec (n : ℕ) (hutc : current.utcoffset = some 0)
    (hbefore : ∀ i < n, current.wall + (i : ℕ) * step g < stop.instant)
    (hend : stop.instant ≤ current.wall + n * step g) :
    (current.wall + n * step g < calendarEnd → ∃ l, bucketsFrom current stop g = .ok l ∧
      l.map DateTime.instant = Buckets.starts (step g) current.wall n ∧
      ∀ s ∈ l, s.utcoffset = some 0) ∧
    (calendarEnd ≤ current.wall + n * step g →
      bucketsFrom current stop g = .error .outOfRange) := by
  induction n generalizing current with
  | zero =>
      have hwall := current.wall_mem
      have hinstant := instant_of_utc hutc
      have hstop : ¬ current.instant < stop.instant := by
        rw [hinstant, not_lt]
        simpa using hend
      rw [bucketsFrom, if_neg hstop]
      refine ⟨fun _ => ⟨[], rfl, rfl, fun s hs => absurd hs List.not_mem_nil⟩, fun hout => ?_⟩
      simp only [Nat.cast_zero, zero_mul, add_zero] at hout
      omega
  | succ n ih =>
      have hinstant := instant_of_utc hutc
      have hlt : current.instant < stop.instant := by
        rw [hinstant]
        simpa using hbefore 0 (Nat.succ_pos n)
      have hnext : current.wall + ((n + 1 : ℕ) : ℤ) * step g =
          current.wall + step g + n * step g := by
        push_cast
        ring
      have hpos := step_pos g
      have hn : 0 ≤ (n : ℤ) * step g := by positivity
      rw [bucketsFrom_of_lt hlt, hnext]
      rw [hnext] at hend
      by_cases hin : current.wall + step g < calendarEnd
      · have hwall := current.wall_mem
        obtain ⟨next, hadd⟩ := @DateTime.ofWall_isOk (current.wall + step g) current.utcoffset
          ⟨by omega, hin⟩
        obtain ⟨hwall', hoffset⟩ := DateTime.wall_ofWall hadd
        rw [hutc] at hoffset
        have hrest : ∀ i < n, next.wall + (i : ℕ) * step g < stop.instant := by
          intro i hi
          have hi' := hbefore (i + 1) (Nat.succ_lt_succ hi)
          push_cast at hi'
          rw [hwall']
          linarith
        have hrec := ih hoffset hrest (hwall' ▸ hend)
        rw [hwall'] at hrec
        rw [DateTime.add, hadd]
        dsimp only
        refine ⟨fun hfits => ?_, fun hout => ?_⟩
        · obtain ⟨l, hl, hwalls, hoffsets⟩ := hrec.1 hfits
          refine ⟨current :: l, ?_, ?_, ?_⟩
          · rw [hl]
            rfl
          · rw [List.map_cons, hwalls, hinstant, Buckets.starts_succ]
          · exact List.forall_mem_cons.mpr ⟨hutc, hoffsets⟩
        · rw [hrec.2 hout]
          rfl
      · -- The bucket after this one is out of the calendar.
        rw [DateTime.add, DateTime.ofWall_eq_error fun hmem => hin hmem.2]
        exact ⟨fun hfits => absurd hfits (by omega), fun _ => rfl⟩

/-- The starts are different points in UTC, each the start of a bucket of the range. -/
structure Aligned (start : DateTime) (g : Granularity) (starts : List DateTime) : Prop where
  utc : ∀ s ∈ starts, s.utcoffset = some 0
  dvd : ∀ s ∈ starts, step g ∣ s.instant
  first_le : ∀ s ∈ starts, Buckets.floorTo (step g) start.instant ≤ s.instant
  nodup : (starts.map DateTime.instant).Nodup

theorem aligned_of_starts {starts : List DateTime} {n : ℕ}
    (hwalls : starts.map DateTime.instant =
      Buckets.starts (step g) (Buckets.floorTo (step g) start.instant) n)
    (hutc : ∀ s ∈ starts, s.utcoffset = some 0) : Aligned start g starts := by
  have hmem : ∀ s ∈ starts, ∃ i < n,
      s.instant = Buckets.floorTo (step g) start.instant + (i : ℕ) * step g := fun s hs =>
    Buckets.mem_starts.mp (hwalls ▸ List.mem_map_of_mem hs)
  refine ⟨hutc, fun s hs => ?_, fun s hs => ?_, ?_⟩
  · obtain ⟨i, -, heq⟩ := hmem s hs
    rw [heq]
    exact dvd_add (Buckets.dvd_floorTo _ _) (dvd_mul_left _ _)
  · obtain ⟨i, -, heq⟩ := hmem s hs
    have hpos := step_pos g
    rw [heq]
    exact le_add_of_nonneg_right (by positivity)
  · rw [hwalls]
    exact Buckets.nodup_starts (step_pos g) _ _

/-- Starts at one point are one. -/
theorem Aligned.eq_of_instant {starts : List DateTime} (h : Aligned start g starts)
    {s s' : DateTime} (hs : s ∈ starts) (hs' : s' ∈ starts) (heq : s.instant = s'.instant) :
    s = s' := by
  refine DateTime.eq_of_wall ?_ ((h.utc s hs).trans (h.utc s' hs').symm)
  rw [← instant_of_utc (h.utc s hs), ← instant_of_utc (h.utc s' hs'), heq]

/-- What the starts of the buckets look like. -/
theorem tiles_of_starts {starts : List DateTime} {n : ℕ} (hn : n ≠ 0)
    (hwalls : starts.map DateTime.instant =
      Buckets.starts (step g) (Buckets.floorTo (step g) start.instant) n)
    (haligned : Aligned start g starts)
    (hbefore : ∀ i < n, Buckets.floorTo (step g) start.instant + (i : ℕ) * step g < stop.instant)
    (hend : stop.instant ≤ Buckets.floorTo (step g) start.instant + n * step g) :
    Tiles start stop g starts := by
  have hfirst := Buckets.dvd_floorTo (step g) start.instant
  refine ⟨?_, ?_, fun s hs => ?_, fun t hle hlt => ?_⟩
  · rw [hwalls]
    obtain ⟨n, rfl⟩ := Nat.exists_eq_succ_of_ne_zero hn
    rw [Buckets.starts_succ]
    rfl
  · rw [hwalls]
    exact Buckets.isChain_starts _ _ _
  · obtain ⟨i, hi, heq⟩ := Buckets.mem_starts.mp (hwalls ▸ List.mem_map_of_mem hs)
    rw [heq]
    exact hbefore i hi
  · have hin := Buckets.floorTo_mem_starts (step_pos g) hfirst hle (hlt.trans_le hend)
    rw [← hwalls] at hin
    obtain ⟨s, hs, hinstant⟩ := List.mem_map.mp hin
    refine ⟨s, ⟨hs, ?_, ?_⟩, ?_⟩
    · rw [hinstant]
      exact Buckets.floorTo_le (step_pos g) t
    · rw [hinstant]
      exact Buckets.lt_floorTo_add (step_pos g) t
    · rintro s' ⟨hs', hle', hlt'⟩
      have hfloor := (Buckets.floorTo_eq_iff (step_pos g)).mpr ⟨haligned.dvd s' hs', hle', hlt'⟩
      exact haligned.eq_of_instant hs' hs (by rw [hinstant, hfloor])

/-- **The buckets.**  They are computed when the bucket after them is in the calendar. -/
theorem bucketStarts_spec (h : start.instant < stop.instant) :
    (Representable start stop g → ∃ starts, bucketStarts start stop g = .ok starts ∧
      Tiles start stop g starts ∧ Aligned start g starts) ∧
    (¬ Representable start stop g → bucketStarts start stop g = .error .outOfRange) := by
  have hpos := step_pos g
  have hceil := Buckets.le_ceilTo hpos stop.instant
  by_cases hin : InCalendar start.instant
  · obtain ⟨first, hfirst⟩ := @DateTime.ofWall_isOk (Buckets.floorTo (step g) start.instant)
      (some 0) ⟨floorTo_nonneg hin.1, (Buckets.floorTo_le hpos _).trans_lt hin.2⟩
    obtain ⟨hwall, hoffset⟩ := DateTime.wall_ofWall hfirst
    have hstarts : bucketStarts start stop g = bucketsFrom first stop g := by
      rw [bucketStarts, floorTo_eq hin, hfirst]
      rfl
    have hfloor := Buckets.floorTo_le hpos start.instant
    obtain ⟨n, hn⟩ := Buckets.exists_steps hpos (Buckets.dvd_floorTo (step g) start.instant)
      (Buckets.dvd_ceilTo (step g) stop.instant) (by omega)
    have hbefore : ∀ i < n,
        Buckets.floorTo (step g) start.instant + (i : ℕ) * step g < stop.instant := by
      intro i hi
      have hlt := Buckets.ceilTo_lt_add hpos stop.instant
      have hi' : ((i : ℤ) + 1) * step g ≤ n * step g :=
        mul_le_mul_of_nonneg_right (by omega) hpos.le
      rw [add_mul, one_mul] at hi'
      omega
    have hend : stop.instant ≤ Buckets.floorTo (step g) start.instant + n * step g := by
      rw [hn]
      exact hceil
    have hspec := @bucketsFrom_spec g stop first n hoffset (hwall.symm ▸ hbefore)
      (hwall.symm ▸ hend)
    rw [hwall, hn] at hspec
    rw [hstarts]
    refine ⟨fun hfits => ?_, fun hout => hspec.2 (not_lt.mp fun hlt => hout ⟨hin.1, hlt⟩)⟩
    obtain ⟨starts, hok, hwalls, hutc⟩ := hspec.1 hfits.2
    have hne : n ≠ 0 := by
      rintro rfl
      simp only [Nat.cast_zero, zero_mul, add_zero] at hend
      omega
    have haligned := aligned_of_starts hwalls hutc
    exact ⟨starts, hok, tiles_of_starts hne hwalls haligned hbefore hend, haligned⟩
  · refine ⟨fun hfits => absurd ⟨hfits.1, by have := hfits.2; omega⟩ hin, fun _ => ?_⟩
    rw [bucketStarts, floorTo, DateTime.toUtc, DateTime.ofWall_eq_error hin]
    rfl

end Starts

/-! ## The sums -/

section Sums

variable {ledger : List UsageEvent} {tenant : TenantId} {types : List String} {g : Granularity}
  {start stop : DateTime} {starts : List DateTime}

/-- What the table has after some sums. -/
theorem foldl_addTo (rows : List (DateTime × String × ℚ)) (table : DateTime → String → ℚ)
    {s : DateTime} (hs : s ∈ starts) (t : String) :
    rows.foldl (addTo starts) table s t = table s t +
      ((rows.filter fun r => decide (r.1 = s ∧ r.2.1 = t)).map fun r => r.2.2).sum := by
  induction rows generalizing table with
  | nil => simp
  | cons row rows ih =>
      obtain ⟨key, usageType, quantity⟩ := row
      rw [List.foldl_cons, ih]
      by_cases hkey : key = s
      · subst hkey
        by_cases htype : usageType = t
        · subst htype
          rw [List.filter_cons_of_pos (by simp), addTo, if_pos hs]
          simp [add_assoc]
        · rw [List.filter_cons_of_neg (by simp [htype]), addTo, if_pos hs]
          simp [Function.update_of_ne (Ne.symm htype)]
      · rw [List.filter_cons_of_neg (by simp [hkey]), addTo]
        split
        · rw [Function.update_of_ne (Ne.symm hkey)]
        · rfl

/-- The bucket of a row of the query's result. -/
def bucketOf (default : DateTime) (t : ℤ) : DateTime :=
  match ofTimestamp t with
  | .ok d => d
  | .error _ => default

theorem ofTimestamp_isOk {t : ℤ} (h : InCalendar (t + epoch)) (g : Granularity) (d : DateTime) :
    ofTimestamp (dateTrunc g t) = .ok (bucketOf d (dateTrunc g t)) ∧
      (bucketOf d (dateTrunc g t)).utcoffset = some 0 ∧
      (bucketOf d (dateTrunc g t)).instant = Buckets.floorTo (step g) (t + epoch) := by
  obtain ⟨f, hf⟩ := @DateTime.ofWall_isOk (Buckets.floorTo (step g) (t + epoch)) (some 0)
    ⟨floorTo_nonneg h.1, (Buckets.floorTo_le (step_pos g) _).trans_lt h.2⟩
  obtain ⟨hwall, hoffset⟩ := DateTime.wall_ofWall hf
  have hok : ofTimestamp (dateTrunc g t) = .ok f := by
    rw [ofTimestamp, dateTrunc_eq, hf]
  have hbucket : bucketOf d (dateTrunc g t) = f := by
    rw [bucketOf, hok]
  rw [hbucket]
  exact ⟨hok, hoffset, by rw [instant_of_utc hoffset, hwall]⟩

/-- The sum of a bucket and a type in the table. -/
theorem table_eq {rows : List UsageEvent} (default : DateTime)
    (hrows : ∀ e ∈ rows, InCalendar (e.occurredAt + epoch)) (haligned : Aligned start g starts)
    {s : DateTime} (hs : s ∈ starts) (t : String) :
    ((sums g rows).map fun row => (bucketOf default row.1.2, row.1.1, row.2)).foldl
        (addTo starts) (fun _ _ => 0) s t =
      ((rows.filter fun e => decide (e.usageType = t ∧
        Buckets.floorTo (step g) (e.occurredAt + epoch) = s.instant)).map
          UsageEvent.quantity).sum := by
  rw [foldl_addTo _ _ hs, zero_add, List.filter_map, List.map_map]
  have hkeys : (sums g rows).filter ((fun r : DateTime × String × ℚ =>
      decide (r.1 = s ∧ r.2.1 = t)) ∘ fun row => (bucketOf default row.1.2, row.1.1, row.2)) =
      (sums g rows).filter fun row => decide (row.1 = (t, toTimestamp s)) := by
    refine List.filter_congr fun row hrow => ?_
    obtain ⟨⟨e, he, hkey⟩, -⟩ := Buckets.mem_groupBy.mp hrow
    obtain ⟨-, hutc, hinstant⟩ := ofTimestamp_isOk (hrows e he) g default
    obtain ⟨⟨usageType, bucket⟩, quantity⟩ := row
    obtain ⟨rfl, rfl⟩ := Prod.mk.inj hkey
    rw [Function.comp_apply, decide_eq_decide]
    dsimp only
    rw [Prod.mk.injEq]
    constructor
    · rintro ⟨rfl, rfl⟩
      refine ⟨rfl, ?_⟩
      rw [toTimestamp, hinstant, ← dateTrunc_eq]
      omega
    · rintro ⟨rfl, hbucket⟩
      refine ⟨DateTime.eq_of_wall ?_ (hutc.trans (haligned.utc s hs).symm), rfl⟩
      rw [← instant_of_utc hutc, ← instant_of_utc (haligned.utc s hs), hinstant, ← dateTrunc_eq,
        hbucket, toTimestamp]
      omega
  rw [hkeys]
  refine (Buckets.sum_group UsageEvent.quantity (t, toTimestamp s) rows).trans ?_
  congr 2
  refine List.filter_congr fun e _ => ?_
  rw [decide_eq_decide, Prod.mk.injEq, ← dateTrunc_eq, toTimestamp]
  refine and_congr_right fun _ => ?_
  omega

/-- The selected rows of a type in a bucket. -/
theorem bucket_eq (haligned : Aligned start g starts) {first s : DateTime}
    (hfirst : first.instant = Buckets.floorTo (step g) start.instant)
    (hs : s ∈ starts) {t : String} (ht : t ∈ types) :
    (((selected ledger tenant types first stop).filter fun e => decide (e.usageType = t ∧
        Buckets.floorTo (step g) (e.occurredAt + epoch) = s.instant)).map
          UsageEvent.quantity).sum =
      ledgerSum ledger tenant t s.instant (min (s.instant + step g) stop.instant) := by
  rw [selected, List.filter_filter, ledgerSum]
  congr 2
  refine List.filter_congr fun e _ => ?_
  have hle := haligned.first_le s hs
  have hdvd := haligned.dvd s hs
  rw [← Bool.decide_and, decide_eq_decide, Buckets.floorTo_eq_iff (step_pos g), lt_min_iff,
    toTimestamp, toTimestamp, hfirst]
  constructor
  · rintro ⟨⟨htype, -, hge, hlt⟩, htenant, -, -, hstop⟩
    exact ⟨htenant, htype, hge, hlt, by omega⟩
  · rintro ⟨htenant, htype, hge, hlt, hstop⟩
    exact ⟨⟨htype, hdvd, hge, hlt⟩, htenant, htype ▸ ht, by omega, by omega⟩

/-- The selected rows of a type, bucket by bucket. -/
theorem total_eq (htiles : Tiles start stop g starts) (haligned : Aligned start g starts)
    {first : DateTime} (hfirst : first.instant = Buckets.floorTo (step g) start.instant)
    {t : String} (ht : t ∈ types) :
    (starts.map fun s => (((selected ledger tenant types first stop).filter fun e =>
        decide (e.usageType = t ∧ Buckets.floorTo (step g) (e.occurredAt + epoch) =
          s.instant)).map UsageEvent.quantity).sum).sum =
      ledgerSum ledger tenant t (Buckets.floorTo (step g) start.instant) stop.instant := by
  have hcover : ∀ e ∈ (selected ledger tenant types first stop).filter fun e =>
      decide (e.usageType = t),
      Buckets.floorTo (step g) (e.occurredAt + epoch) ∈ starts.map DateTime.instant := by
    intro e he
    have hsel := List.mem_filter.mp (List.mem_filter.mp he).1
    have hrange := of_decide_eq_true hsel.2
    unfold toTimestamp at hrange
    rw [hfirst] at hrange
    obtain ⟨s, ⟨hs, hge, hlt⟩, -⟩ :=
      htiles.cover (e.occurredAt + epoch) (by omega) (by omega)
    rw [(Buckets.floorTo_eq_iff (step_pos g)).mpr ⟨haligned.dvd s hs, hge, hlt⟩]
    exact List.mem_map_of_mem hs
  have hgroups := Buckets.sum_groups UsageEvent.quantity haligned.nodup hcover
  rw [List.map_map] at hgroups
  have hsplit : ∀ s : DateTime, (selected ledger tenant types first stop).filter (fun e =>
      decide (e.usageType = t ∧ Buckets.floorTo (step g) (e.occurredAt + epoch) = s.instant)) =
      ((selected ledger tenant types first stop).filter fun e => decide (e.usageType = t)).filter
        fun e => decide (Buckets.floorTo (step g) (e.occurredAt + epoch) = s.instant) := by
    intro s
    rw [List.filter_filter]
    refine List.filter_congr fun e _ => ?_
    rw [← Bool.decide_and, decide_eq_decide, and_comm]
  simp only [hsplit]
  refine hgroups.trans ?_
  rw [selected, List.filter_filter, ledgerSum]
  congr 2
  refine List.filter_congr fun e _ => ?_
  rw [← Bool.decide_and, decide_eq_decide, toTimestamp, toTimestamp, hfirst]
  constructor
  · rintro ⟨htype, htenant, -, hge, hlt⟩
    exact ⟨htenant, htype, by omega, by omega⟩
  · rintro ⟨htenant, htype, hge, hlt⟩
    exact ⟨htype, htenant, htype ▸ ht, by omega, by omega⟩

end Sums

/-! ## Trends -/

section Trend

variable {g : Granularity} {start stop : DateTime}

/-- A request that passes the checks, before its buckets. -/
structure Accepted (start stop : DateTime) (g : Granularity) (types : List String) : Prop where
  start_aware : start.utcoffset ≠ none
  stop_aware : stop.utcoffset ≠ none
  lt : start.instant < stop.instant
  span : stop.instant - start.instant ≤ maxSpanDays g * dayMicros
  metered : ∀ t ∈ types, t ∈ meteredTypes

variable {ledger : List UsageEvent} {tenant : TenantId} {usageTypes : Option (List String)}

/-- The trend that shows a table. -/
def shown (tenant : TenantId) (start stop : DateTime) (g : Granularity) (types : List String)
    (starts : List DateTime) (table : DateTime → String → ℚ) : Trend where
  tenantId := tenant
  start := starts.head?.getD start
  stop := stop
  granularity := g
  usageTypes := types
  buckets := starts.map fun s => (s, types.eraseDups.map fun t => (t, number (table s t)))
  totals := types.eraseDups.map fun t => (t, number (starts.map fun s => table s t).sum)

/-- What is left of `usage_trend` behind its checks. -/
theorem usageTrend_of_accepted (h : Accepted start stop g (requestedTypes usageTypes)) :
    usageTrend ledger tenant start stop g usageTypes =
      match bucketStarts start stop g with
      | .error e => .error (.overflow e)
      | .ok starts =>
          match ((sums g (selected ledger tenant (requestedTypes usageTypes)
              (starts.head?.getD start) stop)).mapM fun row =>
                (ofTimestamp row.1.2).map fun key => (key, row.1.1, row.2)) with
          | .error e => .error (.overflow e)
          | .ok rows => .ok (shown tenant start stop g (requestedTypes usageTypes) starts
              (rows.foldl (addTo starts) fun _ _ => 0)) := by
  have hrange : validateRange start stop g = .ok () := by
    rw [validateRange, if_neg (not_or.mpr ⟨h.start_aware, h.stop_aware⟩),
      if_neg (not_le.mpr h.lt), if_neg (not_lt.mpr h.span)]
  have hunknown : (requestedTypes usageTypes).filter (fun t => decide (t ∉ meteredTypes)) = [] :=
    List.filter_eq_nil_iff.mpr fun t ht => by simpa using h.metered t ht
  rw [usageTrend, hrange]
  simp only [hunknown]
  cases bucketStarts start stop g with
  | error e => rfl
  | ok starts =>
      cases hrows : (sums g (selected ledger tenant (requestedTypes usageTypes)
          (starts.head?.getD start) stop)).mapM fun row =>
            (ofTimestamp row.1.2).map fun key => (key, row.1.1, row.2) with
      | error e =>
          dsimp only
          rw [if_neg (by simp)]
          simp only [Except.mapError, bind, Except.bind, hrows]
      | ok rows =>
          dsimp only
          rw [if_neg (by simp)]
          simp only [Except.mapError, bind, Except.bind, hrows]
          rfl

/-- The trend of an accepted range, when its buckets are computed. -/
theorem conserves (h : Accepted start stop g (requestedTypes usageTypes))
    (hfits : Representable start stop g) : ∃ trend table,
      usageTrend ledger tenant start stop g usageTypes = .ok trend ∧
      Conserves ledger tenant start stop g (requestedTypes usageTypes) trend table := by
  have hpos := step_pos g
  obtain ⟨starts, hok, htiles, haligned⟩ := (bucketStarts_spec h.lt).1 hfits
  have hfirst : (starts.head?.getD start).instant = Buckets.floorTo (step g) start.instant := by
    have hhead := htiles.first
    rw [List.head?_map, Option.map_eq_some_iff] at hhead
    obtain ⟨first, hsome, hinstant⟩ := hhead
    rw [hsome]
    exact hinstant
  set rows := selected ledger tenant (requestedTypes usageTypes) (starts.head?.getD start) stop
    with hrows
  have hin : ∀ e ∈ rows, InCalendar (e.occurredAt + epoch) := by
    intro e he
    have hrange := of_decide_eq_true (List.mem_filter.mp he).2
    have hnonneg := floorTo_nonneg (g := g) hfits.1
    have hceil := Buckets.le_ceilTo hpos stop.instant
    have hend := hfits.2
    unfold toTimestamp at hrange
    constructor <;> omega
  have hmap : (sums g rows).mapM (fun row =>
      (ofTimestamp row.1.2).map fun key => (key, row.1.1, row.2)) =
      .ok ((sums g rows).map fun row => (bucketOf start row.1.2, row.1.1, row.2)) := by
    refine Fallible.mapM_eq_ok fun row hrow => ?_
    obtain ⟨⟨e, he, hkey⟩, -⟩ := Buckets.mem_groupBy.mp hrow
    have hbucket := (ofTimestamp_isOk (hin e he) g start).1
    obtain ⟨⟨usageType, bucket⟩, quantity⟩ := row
    obtain ⟨rfl, rfl⟩ := Prod.mk.inj hkey
    dsimp only
    rw [hbucket]
    rfl
  set table := ((sums g rows).map fun row => (bucketOf start row.1.2, row.1.1, row.2)).foldl
    (addTo starts) fun _ _ => 0 with htable
  refine ⟨shown tenant start stop g (requestedTypes usageTypes) starts table, table, ?_, ?_⟩
  · rw [usageTrend_of_accepted h, hok]
    dsimp only
    rw [← hrows, hmap]
  · have hstarts : (shown tenant start stop g (requestedTypes usageTypes) starts
        table).buckets.map Prod.fst = starts := by
      rw [shown, List.map_map]
      exact List.map_id' starts
    refine ⟨hstarts.symm ▸ htiles, fun s values hmem => ?_, ?_, fun s hs t ht => ?_,
      fun t ht => ?_⟩
    · obtain ⟨s', -, heq⟩ := List.mem_map.mp hmem
      obtain ⟨rfl, rfl⟩ := Prod.mk.inj heq
      rfl
    · rw [hstarts]
      rfl
    · rw [hstarts] at hs
      rw [htable, table_eq start hin haligned hs, bucket_eq haligned hfirst hs ht]
    · rw [hstarts, ← total_eq htiles haligned hfirst ht]
      exact congrArg List.sum (List.map_congr_left fun s hs => table_eq start hin haligned hs t)

/-- **Trends conserve usage**, exactly when the bucket after the last one is in the calendar. -/
theorem trends_conserve (hstart : start.utcoffset ≠ none) (hstop : stop.utcoffset ≠ none)
    (hlt : start.instant < stop.instant) (g : Granularity) :
    (∀ t d, ofTimestamp t = .ok d →
      ∃ f, floorTo d g = .ok f ∧ ofTimestamp (dateTrunc g t) = .ok f) ∧
    ((∃ starts, bucketStarts start stop g = .ok starts ∧ Tiles start stop g starts) ↔
      Representable start stop g) ∧
    ∀ (ledger : List UsageEvent) (tenant : TenantId) (usageTypes : Option (List String)),
      stop.instant - start.instant ≤ maxSpanDays g * dayMicros →
      (∀ t ∈ requestedTypes usageTypes, t ∈ meteredTypes) →
      ((∃ trend table, usageTrend ledger tenant start stop g usageTypes = .ok trend ∧
        Conserves ledger tenant start stop g (requestedTypes usageTypes) trend table) ↔
        Representable start stop g) := by
  have hspec := @bucketStarts_spec g start stop hlt
  refine ⟨fun t d => floors_agree, ⟨fun ⟨starts, hok, _⟩ => ?_, fun hfits => ?_⟩,
    fun ledger tenant usageTypes hspan hmetered => ?_⟩
  · by_contra hout
    rw [hspec.2 hout] at hok
    cases hok
  · obtain ⟨starts, hok, htiles, -⟩ := hspec.1 hfits
    exact ⟨starts, hok, htiles⟩
  · have haccepted : Accepted start stop g (requestedTypes usageTypes) :=
      ⟨hstart, hstop, hlt, hspan, hmetered⟩
    refine ⟨fun ⟨trend, table, hok, _⟩ => ?_, fun hfits => conserves haccepted hfits⟩
    by_contra hout
    rw [usageTrend_of_accepted haccepted, hspec.2 hout] at hok
    cases hok

end Trend

/-- 2026-03-01T09:30+02:00, -/
def springStart : DateTime :=
  (DateTime.ofWall (some (2 * hourMicros)) (739675 * dayMicros + 19 * hourMicros / 2)).toOption.get
    (by decide)

/-- and 2026-03-12T00:00Z. -/
def springStop : DateTime :=
  (DateTime.ofWall (some 0) (739686 * dayMicros)).toOption.get (by decide)

theorem trends_conserve_spring :
    (∃ starts, bucketStarts springStart springStop .week = .ok starts ∧
      Tiles springStart springStop .week starts) ∧
    ∃ trend table,
      usageTrend [⟨7, "training_jobs", 2, 826000000000000⟩] 7 springStart springStop .week
        (some ["training_jobs"]) = .ok trend ∧
      Conserves [⟨7, "training_jobs", 2, 826000000000000⟩] 7 springStart springStop .week
        ["training_jobs"] trend table := by
  have hfits : Representable springStart springStop .week := ⟨by decide, by decide⟩
  obtain ⟨-, hstarts, htrend⟩ :=
    @trends_conserve springStart springStop (by decide) (by decide) (by decide) .week
  exact ⟨hstarts.mpr hfits, (htrend _ 7 (some ["training_jobs"]) (by decide) (by decide)).mpr hfits⟩

/-- 9999-12-31T22:00Z, -/
def lastHours : DateTime :=
  (DateTime.ofWall (some 0) (calendarEnd - 2 * hourMicros)).toOption.get (by decide)

/-- and half past eleven on that day. -/
def lastHour : DateTime :=
  (DateTime.ofWall (some 0) (calendarEnd - hourMicros / 2)).toOption.get (by decide)

/-- Two hours of the last day have a trend that is not computed. -/
theorem not_conserved :
    lastHours.instant < lastHour.instant ∧
    validateRange lastHours lastHour .hour = .ok () ∧
    bucketStarts lastHours lastHour .hour = .error .outOfRange ∧
    ¬ ∃ trend table, usageTrend [] 7 lastHours lastHour .hour none = .ok trend ∧
      Conserves [] 7 lastHours lastHour .hour meteredTypes trend table := by
  have hlt : lastHours.instant < lastHour.instant := by decide
  have hout : bucketStarts lastHours lastHour .hour = .error .outOfRange :=
    (bucketStarts_spec hlt).2 fun hfits => absurd hfits.2 (by decide)
  have haccepted : Accepted lastHours lastHour .hour (requestedTypes none) :=
    ⟨by decide, by decide, hlt, by decide, by decide⟩
  refine ⟨hlt, by decide, hout, fun ⟨trend, table, hok, _⟩ => ?_⟩
  rw [usageTrend_of_accepted haccepted, hout] at hok
  cases hok

end Trends
