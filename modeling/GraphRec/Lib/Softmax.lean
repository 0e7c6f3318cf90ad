import Mathlib.Algebra.Order.BigOperators.Group.Finset
import Mathlib.Analysis.SpecialFunctions.Log.Basic

/-!
# Softmax and its logarithms over the reals

Rows of numbers that may be minus infinity, and logarithms that are taken of positive numbers only
(`log?`).  Main results:

* `logSumExp?_coe`, `logSumExp?_update` — the log of a sum of exponentials, of a row and of a row
  with an entry masked, is taken of a positive number;
* `softmax_lt_one` — with two classes no probability is one;
* `log_one_sub_softmax` — the complement of a probability as a difference of two such logs.
-/

namespace Softmax

variable {n : ℕ} {x : Fin n → ℝ} {j k : Fin n}

/-! ## Operations -/

/-- `exp`, of minus infinity too. -/
noncomputable def expBot : WithBot ℝ → ℝ := WithBot.recBotCoe 0 Real.exp

/-- The logarithm of a positive number. -/
noncomputable def log? (a : ℝ) : Option ℝ := if 0 < a then some (Real.log a) else none

/-- `log1p`. -/
noncomputable def log1p? (a : ℝ) : Option ℝ := log? (1 + a)

/-- `logsumexp` of a row. -/
noncomputable def logSumExp? (row : Fin n → WithBot ℝ) : Option ℝ := log? (∑ j, expBot (row j))

/-- A row whose entries all have a value. -/
def entries? {α : Type} (row : Fin n → Option α) : Option (Fin n → α) :=
  if h : ∀ j, (row j).isSome then some fun j => (row j).get (h j) else none

/-- The probabilities of a row of logits. -/
noncomputable def softmax (x : Fin n → ℝ) (j : Fin n) : ℝ := Real.exp (x j) / ∑ k, Real.exp (x k)

/-! ## Values -/

@[simp] theorem expBot_bot : expBot ⊥ = 0 := rfl

@[simp] theorem expBot_coe (a : ℝ) : expBot a = Real.exp a := rfl

theorem log?_of_pos {a : ℝ} (h : 0 < a) : log? a = some (Real.log a) := if_pos h

theorem entries?_some {α : Type} {row : Fin n → Option α} {f : Fin n → α}
    (h : ∀ j, row j = some (f j)) : entries? row = some f := by
  have hsome : ∀ j, (row j).isSome := fun j => by rw [h j]; rfl
  rw [entries?, dif_pos hsome]
  congr 1
  funext j
  simp [h j]

/-- The sum of the exponentials is positive when there is a class. -/
theorem sum_exp_pos (j : Fin n) : 0 < ∑ k, Real.exp (x k) :=
  Finset.sum_pos (fun _ _ => Real.exp_pos _) ⟨j, Finset.mem_univ j⟩

theorem softmax_pos (j : Fin n) : 0 < softmax x j := div_pos (Real.exp_pos _) (sum_exp_pos j)

theorem log_softmax (j : Fin n) : Real.log (softmax x j) = x j - Real.log (∑ k, Real.exp (x k)) := by
  rw [softmax, Real.log_div (Real.exp_pos _).ne' (sum_exp_pos j).ne', Real.log_exp]

/-- `logsumexp` of a row of numbers. -/
theorem logSumExp?_coe (j : Fin n) : logSumExp? (fun k => (x k : WithBot ℝ)) =
    some (Real.log (∑ k, Real.exp (x k))) :=
  log?_of_pos (sum_exp_pos j)

/-- Masking an entry takes it from the sum. -/
theorem sum_expBot_update (x : Fin n → ℝ) (k : Fin n) :
    ∑ j, expBot (Function.update (fun j => (x j : WithBot ℝ)) k ⊥ j) =
      ∑ j ∈ Finset.univ.erase k, Real.exp (x j) := by
  rw [← Finset.add_sum_erase _ _ (Finset.mem_univ k), Function.update_self, expBot_bot, zero_add]
  refine Finset.sum_congr rfl fun j hj => ?_
  rw [Function.update_of_ne (Finset.ne_of_mem_erase hj), expBot_coe]

/-- What is left of the sum is positive when there is another class. -/
theorem sum_erase_pos (h : j ≠ k) : 0 < ∑ i ∈ Finset.univ.erase k, Real.exp (x i) :=
  Finset.sum_pos (fun _ _ => Real.exp_pos _) ⟨j, Finset.mem_erase.mpr ⟨h, Finset.mem_univ j⟩⟩

/-- `logsumexp` of a row with an entry masked. -/
theorem logSumExp?_update (h : j ≠ k) :
    logSumExp? (Function.update (fun j => (x j : WithBot ℝ)) k ⊥) =
      some (Real.log (∑ i ∈ Finset.univ.erase k, Real.exp (x i))) := by
  rw [logSumExp?, sum_expBot_update]
  exact log?_of_pos (sum_erase_pos h)

/-- The complement of a probability is the share of the other classes. -/
theorem one_sub_softmax (x : Fin n → ℝ) (k : Fin n) : 1 - softmax x k =
    (∑ i ∈ Finset.univ.erase k, Real.exp (x i)) / ∑ i, Real.exp (x i) := by
  have hsum := Finset.add_sum_erase Finset.univ (fun i => Real.exp (x i)) (Finset.mem_univ k)
  rw [softmax, eq_div_iff (sum_exp_pos k).ne', sub_mul, div_mul_cancel₀ _ (sum_exp_pos k).ne']
  linarith

/-- **Two classes.**  No probability is one. -/
theorem softmax_lt_one (h : j ≠ k) : softmax x k < 1 := by
  have hpos : 0 < 1 - softmax x k := by
    rw [one_sub_softmax]
    exact div_pos (sum_erase_pos h) (sum_exp_pos k)
  linarith

/-- **The complement.**  Its logarithm is the difference of two logs of sums. -/
theorem log_one_sub_softmax (h : j ≠ k) : Real.log (1 - softmax x k) =
    Real.log (∑ i ∈ Finset.univ.erase k, Real.exp (x i)) - Real.log (∑ i, Real.exp (x i)) := by
  rw [one_sub_softmax, Real.log_div (sum_erase_pos h).ne' (sum_exp_pos k).ne']

end Softmax
