import GraphRec.Recommendations.System

/-!
# How the requests end

`RecommendEnds` and `FeedbackEnds` say what a request that has ended answers and wrote, on the
store as it was when it ended; `requests_sound` that every request ends so.
-/

namespace Recommendations

open Api Transactions Transition
open Serving (Product)

/-- Records, results, feedback and the ledger are left alone. -/
structure SameRows (s s' : Store) : Prop where
  records : s'.records = s.records
  results : s'.results = s.results
  feedback : s'.feedback = s.feedback
  usageEvents : s'.usageEvents = s.usageEvents

/-- How a call of `get_recommendations` ends. -/
inductive RecommendEnds (c : RecommendationCall) (notes : List Note) (s : Store) :
    Answer → Store → Prop
  | replayed {id : RequestId} {row : RecommendationRecord} (hid : c.payload.requestId = some id)
      (hrow : s.records.get? (c.tenant, id) = some row) :
      RecommendEnds c notes s (replay c row s) s
  | denied {e : ApiError}
      (hunused : ∀ id, c.payload.requestId = some id → s.records.get? (c.tenant, id) = none) :
      RecommendEnds c notes s (.error e) s
  | failed {e : ApiError} (hfailed : .failed ∈ notes) : RecommendEnds c notes s (.error e) s
  | served {customer : Option String} {response : RecommendationResponse} {now : Time} {s' : Store}
      (hresponse : serve c.payload (c.payload.requestId.getD c.drawn) c.outcome = .ok response)
      (hwrite : writeRecommendation c.tenant c.payload customer response now s = .ok s') :
      RecommendEnds c notes s (.served response) s'

/-- How a call of `submit_feedback` ends; `first` is the store in which it started, or an earlier
one. -/
inductive FeedbackEnds (first : Store) (c : FeedbackCall) (s : Store) : Answer → Store → Prop
  | known {row : RecommendationFeedback} (hrow : s.feedback.get? c.key = some row) :
      FeedbackEnds first c s (duplicateOf c row) s
  | refused {e : ApiError} (hlacks : ¬ References first c.tenant c.submission)
      (he : e = resultNotFound ∨ e = productsNotInResult ∨ e = impressionNotInResult) :
      FeedbackEnds first c s (.error e) s
  | new {result : Option ResultId} {now : Time} (hfresh : s.feedback.get? c.key = none)
      (hreferences : References s c.tenant c.submission)
      (hselects : Selects s c.tenant c.submission result) :
      FeedbackEnds first c s (.accepted c.submission.eventId c.submission.kind false now)
        { s with feedback := s.feedback.insert c.key (c.row result now) }

/-- How a request ends. -/
inductive OpEnds (first : Store) : Op → List Note → Store → ℕ → Result → Store → Prop
  | recommendation {c : RecommendationCall} {notes : List Note} {s : Store} {t : ℕ}
      {answer : Answer} {s' : Store} (h : RecommendEnds c notes s answer s') :
      OpEnds first (.getRecommendations c) notes s t (.ok answer) s'
  | feedback {c : FeedbackCall} {notes : List Note} {s : Store} {t : ℕ} {answer : Answer}
      {s' : Store} (h : FeedbackEnds first c s answer s') :
      OpEnds first (.submitFeedback c) notes s t (.ok answer) s'
  | product {tenant : TenantId} {id : ProductId} {row : Product} {notes : List Note} {s : Store}
      {t : ℕ} {s' : Store} (h : SameRows s s') :
      OpEnds first (.putProduct tenant id row) notes s t (.ok .done) s'
  | customer {tenant : TenantId} {id : String} {notes : List Note} {s : Store} {t : ℕ}
      {s' : Store} (h : SameRows s s') :
      OpEnds first (.addCustomer tenant id) notes s t (.ok .done) s'

/-- A program ends as the request should. -/
abbrev Ends (first : Store) (op : Op) (p : Transaction) (held : List LockKey) (notes : List Note)
    (s : Store) (now : ℕ) : Prop :=
  p.Holds Keeps Grows (Since first) (OpEnds first op) held notes s now

/-- What a request writes keeps to the rules. -/
structure Lawful (held : List LockKey) (s s' : Store) : Prop where
  valid : Valid s'
  grows : Grows s s'
  keeps : ∀ key, key ∉ held → Keeps key s s'

section Lawful

variable {first s s' : Store} {held : List LockKey}

theorem SameRows.lawful (h : SameRows s s') (hvalid : Valid s) : Lawful held s s' := by
  have hgrows : Grows s s' := by
    refine ⟨?_, ?_, ?_⟩
    · rw [h.records]
      exact fun key => .refl key s.records
    · rw [h.results]
      exact fun id => .refl id s.results
    · rw [h.feedback]
      exact fun key => .refl key s.feedback
  refine ⟨⟨?_, ?_, ?_⟩, hgrows, ?_⟩
  · intro key row hrow
    rw [h.records] at hrow
    obtain ⟨hid, hstored, honly⟩ := hvalid.records key row hrow
    refine ⟨hid, ?_, ?_⟩
    · rw [h.results]
      exact hstored
    · rw [h.results]
      exact honly
  · rw [h.results, h.records]
    exact hvalid.results
  · intro key row hrow
    rw [h.feedback] at hrow
    exact (hvalid.feedback key row hrow).grows hgrows
  · intro key _
    cases key with
    | request tenant id =>
        rw [Keeps, h.records]
        exact fun hnone => hnone
    | event tenant id =>
        rw [Keeps, h.feedback]
        exact fun hnone => hnone

/-- What a recommendation that was recorded has found free, and what it wrote. -/
theorem writeRecommendation_ok {tenant : TenantId} {payload : RecommendationRequest}
    {customer : Option String} {response : RecommendationResponse} {now : Time}
    (h : writeRecommendation tenant payload customer response now s = .ok s') :
    s.records.get? (tenant, response.requestId) = none ∧
      s'.records =
        s.records.insert (tenant, response.requestId) ⟨customer, payload, response, now⟩ ∧
      s'.results = s.results.insertAll (resultRows tenant response now) ∧
      s'.feedback = s.feedback ∧ s'.products = s.products ∧
      s'.servingRequests = s.servingRequests ++ [servedRow tenant response now] ∧
      s'.usageEvents = s.usageEvents ++ [⟨tenant, "recommendation_requests", 1, now⟩] := by
  unfold writeRecommendation at h
  split at h
  · cases h
  · next hfree =>
      split at h
      · cases h
      · cases h
        simp only [Bool.or_eq_true, not_or, Bool.not_eq_true, Option.isSome_eq_false_iff,
          Option.isNone_iff_eq_none] at hfree
        exact ⟨hfree.1, rfl, rfl, rfl, rfl, rfl, rfl⟩

/-- The results of a request that has no record yet are those that are inserted. -/
theorem get?_resultRows {tenant : TenantId} {response : RecommendationResponse} {now : Time}
    (hvalid : Valid s) (hfresh : s.records.get? (tenant, response.requestId) = none)
    (hnodup : (response.items.map RecommendationItem.position).Nodup) (id : ResultId)
    (row : RecommendationResult) :
    (s.results.insertAll (resultRows tenant response now)).get? id = some row ↔
      s.results.get? id = some row ∨ ∃ item ∈ response.items,
        id = ⟨tenant, response.requestId, item.position⟩ ∧
          row = ⟨item.externalProductId, candidateSource response item, response.strategy, now⟩ := by
  have hnone : ∀ k ∈ (resultRows tenant response now).map Prod.fst, s.results.get? k = none := by
    intro k hk
    simp only [resultRows, List.map_map, List.mem_map, Function.comp_apply] at hk
    obtain ⟨item, -, rfl⟩ := hk
    by_contra hstored
    obtain ⟨old, hold⟩ := Option.ne_none_iff_exists'.mp hstored
    have hrecord := hvalid.results _ old hold
    rw [hfresh] at hrecord
    cases hrecord
  have hkeys : ((resultRows tenant response now).map Prod.fst).Nodup := by
    have hmap : (resultRows tenant response now).map Prod.fst =
        (response.items.map RecommendationItem.position).map
          fun position => ⟨tenant, response.requestId, position⟩ := by
      simp [resultRows]
    rw [hmap]
    refine hnodup.map ?_
    intro a b hab
    injection hab
  rw [← Table.mem_rows_iff, Table.rows_insertAll _ hkeys hnone, List.mem_append,
    Table.mem_rows_iff]
  refine or_congr_right ?_
  simp only [resultRows, List.mem_map, Prod.mk.injEq]
  refine exists_congr fun item => and_congr_right fun _ => and_congr ?_ ?_ <;> exact eq_comm

theorem writeRecommendation_lawful {tenant : TenantId} {payload : RecommendationRequest}
    {customer : Option String} {response : RecommendationResponse} {now : Time} (hvalid : Valid s)
    (hlock : .request tenant response.requestId ∈ held)
    (hnodup : (response.items.map RecommendationItem.position).Nodup)
    (h : writeRecommendation tenant payload customer response now s = .ok s') :
    Lawful held s s' := by
  obtain ⟨hfresh, hrecords, hresults, hfeedback, -, -, -⟩ := writeRecommendation_ok h
  have hrows (id : ResultId) (row : RecommendationResult) :=
    @get?_resultRows s tenant response now hvalid hfresh hnodup id row
  have hgrows : Grows s s' := by
    refine ⟨?_, ?_, ?_⟩
    · rw [hrecords]
      exact fun key => Table.keepsRow_insert _ _ key
    · intro id row hrow
      rw [hresults]
      exact (hrows id row).mpr (Or.inl hrow)
    · rw [hfeedback]
      exact fun key => .refl key s.feedback
  refine ⟨⟨?_, ?_, ?_⟩, hgrows, ?_⟩
  · intro key row hrow
    rw [hrecords, Table.get?_insert _ hfresh] at hrow
    split at hrow
    · next hkey =>
        obtain rfl := Option.some.inj hrow
        subst hkey
        refine ⟨rfl, ?_, ?_⟩
        · intro item hitem
          exact ⟨_, by rw [hresults]; exact (hrows _ _).mpr (Or.inr ⟨item, hitem, rfl, rfl⟩), rfl⟩
        · intro id result hresult htenant hid
          rw [hresults] at hresult
          rcases (hrows id result).mp hresult with hold | ⟨item, hitem, rfl, rfl⟩
          · have hrecord := hvalid.results id result hold
            rw [htenant, hid, hfresh] at hrecord
            cases hrecord
          · exact ⟨item, hitem, rfl, rfl⟩
    · next hkey =>
        obtain ⟨hid, hstored, honly⟩ := hvalid.records key row hrow
        refine ⟨hid, ?_, ?_⟩
        · intro item hitem
          obtain ⟨result, hresult, hproduct⟩ := hstored item hitem
          exact ⟨result, hgrows.results _ result hresult, hproduct⟩
        · intro id result hresult htenant hsame
          rw [hresults] at hresult
          rcases (hrows id result).mp hresult with hold | ⟨item, -, rfl, rfl⟩
          · exact honly id result hold htenant hsame
          · exact absurd (Prod.ext htenant.symm hsame.symm) hkey
  · intro id row hrow
    rw [hresults] at hrow
    rw [hrecords, Table.get?_insert _ hfresh]
    split
    · rfl
    · next hkey =>
        rcases (hrows id row).mp hrow with hold | ⟨item, -, rfl, -⟩
        · exact hvalid.results id row hold
        · exact absurd rfl hkey
  · intro key row hrow
    rw [hfeedback] at hrow
    exact (hvalid.feedback key row hrow).grows hgrows
  · intro key hkey
    cases key with
    | request tenant' id =>
        intro hnone
        rw [hrecords, Table.get?_insert _ hfresh, if_neg]
        · exact hnone
        · intro hsame
          cases hsame
          exact hkey hlock
    | event tenant' id =>
        rw [Keeps, hfeedback]
        exact fun hnone => hnone

theorem insertFeedback_lawful {c : FeedbackCall} {result : Option ResultId} {now : Time}
    (hvalid : Valid s) (hlock : .event c.tenant c.submission.eventId ∈ held)
    (hfresh : s.feedback.get? c.key = none) (hreferences : References s c.tenant c.submission)
    (hselects : Selects s c.tenant c.submission result) :
    Lawful held s { s with feedback := s.feedback.insert c.key (c.row result now) } := by
  have hgrows : Grows s { s with feedback := s.feedback.insert c.key (c.row result now) } :=
    ⟨fun key => .refl key s.records, fun id => .refl id s.results,
      fun key => Table.keepsRow_insert _ _ key⟩
  refine ⟨⟨?_, hvalid.results, ?_⟩, hgrows, ?_⟩
  · intro key row hrow
    obtain ⟨hid, hstored, honly⟩ := hvalid.records key row hrow
    exact ⟨hid, hstored, honly⟩
  · intro key row hrow
    dsimp only at hrow
    rw [Table.get?_insert _ hfresh] at hrow
    split at hrow
    · next hkey =>
        obtain rfl := Option.some.inj hrow
        subst hkey
        exact Refers.grows ⟨⟨c.validatedAt, rfl⟩, rfl, rfl, hreferences, hselects⟩ hgrows
    · exact (hvalid.feedback key row hrow).grows hgrows
  · intro key hkey
    cases key with
    | request tenant id => exact fun hnone => hnone
    | event tenant id =>
        intro hnone
        dsimp only
        rw [Table.get?_insert _ hfresh, if_neg]
        · exact hnone
        · intro hsame
          cases hsame
          exact hkey hlock

end Lawful

/-! ## The programs -/

section Programs

variable {first s : Store} {op : Op} {held : List LockKey} {notes : List Note} {t : ℕ}

/-- What a lawful write leaves. -/
theorem Lawful.ends {s' : Store} (h : Lawful held s s') (hsince : Since first s t) :
    Since first s' t ∧ Grows s s' ∧ ∀ key, key ∉ held → Keeps key s s' :=
  ⟨⟨h.valid, hsince.2.trans _ _ _ h.grows⟩, h.grows, h.keeps⟩

/-- What a write that leaves the rows alone leaves. -/
theorem SameRows.ends {s' : Store} (h : SameRows s s') (hsince : Since first s t) :
    Since first s' t ∧ Grows s s' ∧ ∀ key, key ∉ held → Keeps key s s' :=
  (h.lawful hsince.1).ends hsince

/-- `_serve_and_record`, under the lock of its identifier. -/
theorem serveAndRecord_ends {c : RecommendationCall}
    (hlock : .request c.tenant (c.payload.requestId.getD c.drawn) ∈ held) :
    Ends first (.getRecommendations c) (serveAndRecord c (c.payload.requestId.getD c.drawn)) held
      notes s t := by
  have hnoted : .failed ∈ notes ++ [Note.failed] :=
    List.mem_append_right _ (List.mem_singleton_self _)
  unfold serveAndRecord
  split
  · intro s₁ t₁ _ s₂ t₂ _ s₃ t₃ _ s₄ t₄ _
    exact .recommendation (.failed hnoted)
  · next response hresponse =>
      intro s₁ t₁ _ s₂ t₂ _ s₃ t₃ h₃
      split
      · next after hwrite =>
          obtain ⟨hid, items, hitems⟩ := serve_ok hresponse
          have hlawful := writeRecommendation_lawful h₃.inv.1 (hid ▸ hlock)
            (hitems ▸ positions_nodup 1 _) hwrite
          exact ⟨.recommendation (.served hresponse hwrite), hlawful.ends h₃.inv⟩
      · intro s₄ t₄ _
        exact .recommendation (.failed hnoted)

/-- Admission, for an identifier that is not used. -/
theorem admitAndServe_ends {c : RecommendationCall}
    (hlock : .request c.tenant (c.payload.requestId.getD c.drawn) ∈ held)
    (hunused : ∀ id, c.payload.requestId = some id → s.records.get? (c.tenant, id) = none) :
    Ends first (.getRecommendations c) (admitAndServe c (c.payload.requestId.getD c.drawn)) held
      notes s t := by
  unfold admitAndServe
  split
  · intro s₁ t₁ h₁
    refine .recommendation (.denied ?_)
    intro id hid
    rw [hid] at hlock
    exact h₁.kept _ hlock (hunused id hid)
  · exact serveAndRecord_ends hlock

theorem getRecommendations_ends {c : RecommendationCall} :
    Ends first (.getRecommendations c) (getRecommendations c) [] [] s t := by
  have hlock : ∀ id, c.payload.requestId.getD c.drawn = id →
      .request c.tenant (c.payload.requestId.getD c.drawn) ∈ [LockKey.request c.tenant id] := by
    rintro _ rfl
    exact List.mem_singleton_self _
  unfold getRecommendations
  split
  · next id hid =>
      have hsame : c.payload.requestId.getD c.drawn = id := by rw [hid, Option.getD_some]
      intro s₁ t₁ _ s₂ t₂ _
      dsimp only
      split
      · next row hrow =>
          intro s₃ t₃ h₃
          exact .recommendation (.replayed hid (h₃.grown.records _ row hrow))
      · next hnone =>
          rw [← hsame]
          refine admitAndServe_ends (hlock _ rfl) ?_
          intro id' hid'
          rw [hid] at hid'
          rw [← Option.some.inj hid']
          exact hnone
  · next hnone =>
      have hsame : c.payload.requestId.getD c.drawn = c.drawn := by rw [hnone, Option.getD_none]
      intro s₁ t₁ _
      rw [← hsame]
      refine admitAndServe_ends (hlock _ rfl) ?_
      intro id hid
      rw [hid] at hnone
      cases hnone

/-- The insert, for a submission whose references have been found. -/
theorem insertFeedback_ends {c : FeedbackCall} {result : Option ResultId}
    (hreferences : References s c.tenant c.submission)
    (hselects : Selects s c.tenant c.submission result) :
    Ends first (.submitFeedback c) (insertFeedback c result) held notes s t := by
  intro s₁ t₁ h₁ s₂ t₂ h₂ s₃ t₃ h₃
  have hreferences₃ := ((hreferences.grows h₁.grown).grows h₂.grown).grows h₃.grown
  have hselects₃ := ((hselects.grows h₁.grown).grows h₂.grown).grows h₃.grown
  dsimp only
  split
  · next hfresh =>
      intro s₄ t₄ h₄
      have hfresh₄ := h₄.kept _ List.mem_cons_self hfresh
      have hlawful : Lawful (.event c.tenant c.submission.eventId :: held) s₄
          { s₄ with feedback := s₄.feedback.insert c.key (c.row result t₁) } :=
        insertFeedback_lawful h₄.inv.1 List.mem_cons_self hfresh₄
          (hreferences₃.grows h₄.grown) (hselects₃.grows h₄.grown)
      exact ⟨.feedback (.new hfresh₄ (hreferences₃.grows h₄.grown) (hselects₃.grows h₄.grown)),
        hlawful.ends h₄.inv⟩
  · next row hrow =>
      have hanswer : duplicateOf c row = if row.submission ≠ c.submission then
          .error feedbackConflict
          else .accepted c.submission.eventId c.submission.kind true row.receivedAt := by
        unfold duplicateOf
        split
        · rfl
        · next hsame =>
            rw [(h₃.inv.1.feedback _ row hrow).type, not_not.mp hsame]
      split
      · next hdiff =>
          intro s₄ t₄ h₄
          rw [if_pos hdiff] at hanswer
          rw [← hanswer]
          exact .feedback (.known (h₄.grown.feedback _ row hrow))
      · next hsame =>
          intro s₄ t₄ h₄
          rw [if_neg hsame] at hanswer
          rw [← hanswer]
          exact ⟨.feedback (.known (h₄.grown.feedback _ row hrow)),
            SameRows.ends ⟨rfl, rfl, rfl, rfl⟩ h₄.inv⟩

/-- A submission that does not find what it refers to. -/
theorem refuse_ends {c : FeedbackCall} {e : ApiError}
    (hlacks : ¬ References s c.tenant c.submission) (hgrows : Grows first s)
    (he : e = resultNotFound ∨ e = productsNotInResult ∨ e = impressionNotInResult) :
    Ends first (.submitFeedback c) (.done (.error e)) held notes s t :=
  fun _ _ _ => .feedback (.refused (fun h => hlacks (h.grows hgrows)) he)

theorem submitFeedback_ends {c : FeedbackCall} :
    Ends first (.submitFeedback c) (submitFeedback c) held notes s t := by
  intro s₁ t₁ _
  dsimp only
  split
  · next row hrow =>
      intro s₂ t₂ h₂
      exact .feedback (.known (h₂.grown.feedback _ row hrow))
  · intro s₂ t₂ h₂
    dsimp only
    split
    · next hnone =>
        refine refuse_ends ?_ h₂.inv.2 (Or.inl rfl)
        intro h
        have hrecord := h.record
        rw [hnone] at hrecord
        cases hrecord
    · next record hrecord =>
        intro s₃ t₃ h₃
        dsimp only
        split
        · next hnot =>
            refine refuse_ends ?_ h₃.inv.2 (Or.inr (Or.inl rfl))
            intro h
            rw [allowed_iff.mpr ⟨h.nonempty, h.named⟩] at hnot
            cases hnot
        · next hallowed =>
            rw [Bool.not_eq_false] at hallowed
            obtain ⟨hnonempty, hnamed⟩ := allowed_iff.mp hallowed
            have hselects := selectedResult_selects hallowed
            have hstored : (s₃.records.get? (c.tenant, c.submission.requestId)).isSome = true := by
              rw [h₃.grown.records _ record hrecord, Option.isSome_some]
            split
            · next hlinked =>
                refine insertFeedback_ends ⟨hstored, hnonempty, hnamed, ?_⟩ hselects
                intro id hid
                rw [hlinked] at hid
                cases hid
            · next id hlinked =>
                intro s₄ t₄ h₄
                dsimp only
                split
                · next hlinks =>
                    have hstored₄ : (s₄.records.get? (c.tenant, c.submission.requestId)).isSome =
                        true := by
                      obtain ⟨row, hrow⟩ := Option.isSome_iff_exists.mp hstored
                      rw [h₄.grown.records _ row hrow, Option.isSome_some]
                    refine insertFeedback_ends ⟨hstored₄, hnonempty,
                      fun named hmem => (hnamed named hmem).grows h₄.grown, ?_⟩
                      (hselects.grows h₄.grown)
                    intro id' hid'
                    obtain rfl := Option.some.inj (hlinked.symm.trans hid')
                    exact linksImpression_iff.mp hlinks
                · next hnot =>
                    refine refuse_ends ?_ h₄.inv.2 (Or.inr (Or.inr rfl))
                    intro h
                    exact hnot (linksImpression_iff.mpr (h.linked id hlinked))

theorem putProduct_ends {tenant : TenantId} {id : ProductId} {row : Product} :
    Ends first (.putProduct tenant id row) (putProduct tenant id row) held notes s t :=
  fun _ _ h₁ => ⟨.product ⟨rfl, rfl, rfl, rfl⟩, SameRows.ends ⟨rfl, rfl, rfl, rfl⟩ h₁.inv⟩

theorem addCustomer_ends {tenant : TenantId} {id : String} :
    Ends first (.addCustomer tenant id) (addCustomer tenant id) held notes s t :=
  fun _ _ h₁ => ⟨.customer ⟨rfl, rfl, rfl, rfl⟩, SameRows.ends ⟨rfl, rfl, rfl, rfl⟩ h₁.inv⟩

/-- Under the locks it takes, a request keeps to the rules. -/
theorem OpEnds.lawful {s' : Store} {result : Result} (hvalid : Valid s)
    (h : OpEnds first op notes s t result s') : ∃ held, Lawful held s s' := by
  have hsame : ∀ {s'}, SameRows s s' → ∃ held, Lawful held s s' := fun h => ⟨[], h.lawful hvalid⟩
  cases h with
  | recommendation h =>
      cases h with
      | replayed | denied | failed => exact hsame ⟨rfl, rfl, rfl, rfl⟩
      | served hresponse hwrite =>
          obtain ⟨-, items, hitems⟩ := serve_ok hresponse
          exact ⟨_, writeRecommendation_lawful hvalid (List.mem_singleton_self _)
            (hitems ▸ positions_nodup 1 items) hwrite⟩
  | feedback h =>
      cases h with
      | known | refused => exact hsame ⟨rfl, rfl, rfl, rfl⟩
      | new hfresh hreferences hselects =>
          exact ⟨_, insertFeedback_lawful hvalid (List.mem_singleton_self _) hfresh hreferences
            hselects⟩
  | product h | customer h => exact hsame h

/-- What a request that has ended has left of the rows. -/
theorem OpEnds.grows {s' : Store} {result : Result} (hvalid : Valid s)
    (h : OpEnds first op notes s t result s') : Grows s s' := by
  obtain ⟨held, hlawful⟩ := h.lawful hvalid
  exact hlawful.grows

/-- **Every request ends as it should**, whatever runs at the same time. -/
theorem requests_sound (hfirst : Valid first) {as : List (Action Op)} {st : State}
    (h : Run (requests first) anyStep (requests first).init as st) :
    Sound Keeps Grows (Since first) (OpEnds first) first 0 st := by
  refine serial (rules first) ?_ ⟨hfirst, .refl first⟩ h
  intro op s t _
  cases op with
  | getRecommendations call => exact getRecommendations_ends
  | submitFeedback call => exact submitFeedback_ends
  | putProduct => exact putProduct_ends
  | addCustomer => exact addCustomer_ends

end Programs

end Recommendations
