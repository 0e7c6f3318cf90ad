import GraphRec.Lib.Softmax

/-!
# The training loss

`eq20Loss` is `eq20_loss` over the reals: the logarithms are checked, a masked entry is minus
infinity, and the complement of the largest probability is a difference of two logs of sums.

`eq20Loss_eq` — every logarithm has a positive argument, and the loss is its equation (`eq20`).
-/

namespace Dgsr

open Softmax

/-- What the loss raises; a logarithm of a number that is not positive is one of these. -/
inductive LossError
  | emptyVocabulary
  | unknownReduction
  | logarithm
  deriving DecidableEq, Repr

/-- A loss for each example, or one number; the mean of no examples is not a number. -/
inductive LossValue (B : ℕ)
  | rows (values : Fin B → ℝ)
  | number (value : ℝ)
  | nan

variable {B n : ℕ} (argmax : (Fin n → ℝ) → Fin n)

/-- `log_softmax`. -/
noncomputable def logSoftmax? (x : Fin n → ℝ) : Option (Fin n → ℝ) :=
  match logSumExp? fun j => (x j : WithBot ℝ) with
  | none => none
  | some total => some fun j => x j - total

/-- `log_complement`: the logarithms of one minus the probabilities.  That of the top class is
computed from the logits without it. -/
noncomputable def logComplement? (x logP : Fin n → ℝ) : Option (Fin n → ℝ) :=
  let top := argmax x
  let safeLogP := Function.update (fun j => (logP j : WithBot ℝ)) top ⊥
  let withoutTop := Function.update (fun j => (x j : WithBot ℝ)) top ⊥
  match entries? fun j => log1p? (-expBot (safeLogP j)) with
  | none => none
  | some logComplement =>
      match logSumExp? withoutTop, logSumExp? fun j => (x j : WithBot ℝ) with
      | some others, some all => some (Function.update logComplement top (others - all))
      | _, _ => none

/-- `per_example`, of a row of logits and its target. -/
noncomputable def perExample? (x : Fin n → ℝ) (target : Fin n) : Option ℝ :=
  match logSoftmax? x with
  | none => none
  | some logP =>
      let positive := -logP target
      if n = 1 then some positive
      else
        match logComplement? argmax x logP with
        | none => none
        | some logComplement =>
            let negative := -∑ j, Function.update logComplement target 0 j
            some (positive + negative)

/-- `eq20_loss`. -/
noncomputable def eq20Loss (logits : Fin B → Fin n → ℝ) (targets : Fin B → Fin n)
    (reduction : String) : Except LossError (LossValue B) :=
  if n < 1 then .error .emptyVocabulary
  else
    match entries? fun b => perExample? argmax (logits b) (targets b) with
    | none => .error .logarithm
    | some values =>
        if reduction = "none" then .ok (.rows values)
        else if reduction = "sum" then .ok (.number (∑ b, values b))
        else if reduction = "mean" then
          .ok (if B = 0 then .nan else .number ((∑ b, values b) / B))
        else .error .unknownReduction

/-! ## The equation -/

/-- Printed Eq. 20: `-log p_t - sum over j != t of log(1 - p_j)`. -/
noncomputable def eq20 (x : Fin n → ℝ) (target : Fin n) : ℝ :=
  -Real.log (softmax x target) - ∑ j ∈ Finset.univ.erase target, Real.log (1 - softmax x j)

section Equation

variable {argmax} {x : Fin n → ℝ}

theorem logSoftmax?_eq (j : Fin n) :
    logSoftmax? x = some fun j => Real.log (softmax x j) := by
  simp only [logSoftmax?, logSumExp?_coe j, log_softmax]

/-- With two classes every class has another one. -/
theorem exists_other (hn : 2 ≤ n) (k : Fin n) : ∃ j, j ≠ k := by
  have : Nontrivial (Fin n) := Fin.nontrivial_iff_two_le.mpr hn
  exact exists_ne k

/-- The complements, that of the top class among them. -/
theorem logComplement?_eq (hn : 2 ≤ n) :
    logComplement? argmax x (fun j => Real.log (softmax x j)) =
      some fun j => Real.log (1 - softmax x j) := by
  obtain ⟨other, hother⟩ := exists_other hn (argmax x)
  -- The masked entry of the top class is the logarithm of one.
  have hentries : entries? (fun j => log1p? (-expBot (Function.update
      (fun j => ((Real.log (softmax x j) : ℝ) : WithBot ℝ)) (argmax x) ⊥ j))) =
        some (Function.update (fun j => Real.log (1 - softmax x j)) (argmax x) 0) := by
    refine entries?_some fun j => ?_
    by_cases htop : j = argmax x
    · subst htop
      rw [Function.update_self, Function.update_self, expBot_bot, log1p?, neg_zero, add_zero,
        log?_of_pos one_pos, Real.log_one]
    · obtain ⟨k, hk⟩ := exists_other hn j
      have hlt : softmax x j < 1 := softmax_lt_one hk
      rw [Function.update_of_ne htop, Function.update_of_ne htop, expBot_coe,
        Real.exp_log (softmax_pos j), log1p?, ← sub_eq_add_neg, log?_of_pos (by linarith)]
  simp only [logComplement?, hentries, logSumExp?_update hother, logSumExp?_coe other,
    Function.update_idem]
  rw [← log_one_sub_softmax hother, Function.update_eq_self]

/-- **One example.** -/
theorem perExample?_eq (hn : 2 ≤ n) (target : Fin n) :
    perExample? argmax x target = some (eq20 x target) := by
  have hone : n ≠ 1 := by omega
  simp only [perExample?, logSoftmax?_eq target, if_neg hone, logComplement?_eq hn]
  -- The target's own complement is left out.
  have hsum : ∑ j, Function.update (fun j => Real.log (1 - softmax x j)) target 0 j =
      ∑ j ∈ Finset.univ.erase target, Real.log (1 - softmax x j) := by
    rw [← Finset.add_sum_erase _ _ (Finset.mem_univ target), Function.update_self, zero_add]
    refine Finset.sum_congr rfl fun j hj => ?_
    rw [Function.update_of_ne (Finset.ne_of_mem_erase hj)]
  rw [hsum, ← sub_eq_add_neg, eq20]

/-- **The loss is its equation.**  Whichever class is taken for the top one, every logarithm has a
positive argument, and the loss of an example is Eq. 20. -/
theorem eq20Loss_eq (argmax : (Fin n → ℝ) → Fin n) (hn : 2 ≤ n) (logits : Fin B → Fin n → ℝ)
    (targets : Fin B → Fin n) :
    eq20Loss argmax logits targets "none" = .ok (.rows fun b => eq20 (logits b) (targets b)) ∧
    eq20Loss argmax logits targets "sum" =
      .ok (.number (∑ b, eq20 (logits b) (targets b))) ∧
    (B ≠ 0 → eq20Loss argmax logits targets "mean" =
      .ok (.number ((∑ b, eq20 (logits b) (targets b)) / B))) := by
  have hentries : entries? (fun b => perExample? argmax (logits b) (targets b)) =
      some fun b => eq20 (logits b) (targets b) :=
    entries?_some fun b => perExample?_eq hn (targets b)
  have hpos : ¬ n < 1 := by omega
  refine ⟨?_, ?_, fun hB => ?_⟩
  · simp [eq20Loss, hpos, hentries]
  · simp [eq20Loss, hpos, hentries]
  · simp [eq20Loss, hpos, hentries, hB]

/-- Two classes with the same logit, the second one the target. -/
theorem eq20Loss_eq_tied :
    eq20Loss (fun x => if x 0 < x 1 then 1 else 0) (fun _ : Fin 1 => fun _ : Fin 2 => (0 : ℝ))
        (fun _ => 1) "none" = .ok (.rows fun _ => 2 * Real.log 2) := by
  have h := (eq20Loss_eq (fun x => if x 0 < x 1 then 1 else 0) le_rfl
    (fun _ : Fin 1 => fun _ : Fin 2 => (0 : ℝ)) fun _ => 1).1
  have hhalf : ∀ j : Fin 2, softmax (fun _ : Fin 2 => (0 : ℝ)) j = 2⁻¹ := by
    intro j
    simp [softmax]
  have hother : Finset.univ.erase (1 : Fin 2) = {0} := by decide
  have hvalue : eq20 (fun _ : Fin 2 => (0 : ℝ)) 1 = 2 * Real.log 2 := by
    have hrest : (1 : ℝ) - 2⁻¹ = 2⁻¹ := by norm_num
    rw [eq20, hother, Finset.sum_singleton, hhalf, hhalf, hrest, Real.log_inv]
    ring
  rw [h]
  simp only [hvalue]

end Equation

end Dgsr
