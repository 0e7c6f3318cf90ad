import GraphRec.Dgsr.FromCsv
import GraphRec.Lib.Core

/-!
# The core filter

The loop of `InteractionData.from_csv` that leaves out users and items with few rows: removing
the rows of a user can leave an item with too few, and the other way round.

`coreFilter_greatest` — it ends at the greatest part of the rows in which every user and every
item has enough.
-/

namespace Dgsr

open Core

variable {cfg : LoadConfig} {rows : List CsvRow}

/-- The user and the item of a row have enough rows. -/
def keepRow (cfg : LoadConfig) (rows : List CsvRow) (row : CsvRow) : Bool :=
  decide (cfg.minUserInteractions ≤ rows.countP fun r => decide (r.user = row.user)) &&
    decide (cfg.minItemInteractions ≤ rows.countP fun r => decide (r.item = row.item))

/-- Every user that remains has enough rows, and so has every item. -/
def IsCore (cfg : LoadConfig) (rows : List CsvRow) : Prop :=
  (∀ row ∈ rows, cfg.minUserInteractions ≤ rows.countP fun r => decide (r.user = row.user)) ∧
    ∀ row ∈ rows, cfg.minItemInteractions ≤ rows.countP fun r => decide (r.item = row.item)

theorem stable_keepRow_iff : Stable (keepRow cfg) rows ↔ IsCore cfg rows := by
  simp only [Stable, keepRow, IsCore, Bool.and_eq_true, decide_eq_true_eq, forall_and]

/-- A user has no fewer rows among more rows. -/
theorem monotone_keepRow (cfg : LoadConfig) : Monotone (keepRow cfg) := by
  intro s t hsub row hkeep
  rw [keepRow, Bool.and_eq_true, decide_eq_true_iff, decide_eq_true_iff] at hkeep ⊢
  exact ⟨hkeep.1.trans (hsub.countP_le _), hkeep.2.trans (hsub.countP_le _)⟩

theorem coreStep_eq_prune (cfg : LoadConfig) (rows : List CsvRow) :
    coreStep cfg rows = prune (keepRow cfg) rows := rfl

theorem coreFilter_eq_pruneRounds (cfg : LoadConfig) (n : ℕ) (rows : List CsvRow) :
    coreFilter cfg n rows = pruneRounds (keepRow cfg) n rows := by
  induction n generalizing rows with
  | zero => rfl
  | succ n ih => rw [coreFilter, pruneRounds, coreStep_eq_prune, ih]

/-- **The core filter.**  The loop has ended after as many rounds as there are rows; what it
leaves are rows in their order, the greatest of the parts of the rows that are cores, the same
for every order of the rows; and filtering it again changes nothing. -/
theorem coreFilter_greatest (cfg : LoadConfig) (rows : List CsvRow) :
    (∀ n, rows.length ≤ n → coreFilter cfg n rows = coreFilter cfg rows.length rows) ∧
    coreStep cfg (coreFilter cfg rows.length rows) = coreFilter cfg rows.length rows ∧
    (coreFilter cfg rows.length rows).Sublist rows ∧
    IsCore cfg (coreFilter cfg rows.length rows) ∧
    (∀ part, part.Subperm rows → IsCore cfg part →
      part.Subperm (coreFilter cfg rows.length rows)) ∧
    (∀ rows', rows.Perm rows' →
      (coreFilter cfg rows.length rows).Perm (coreFilter cfg rows'.length rows')) ∧
    ∀ n, coreFilter cfg n (coreFilter cfg rows.length rows) = coreFilter cfg rows.length rows := by
  have hstable : Stable (keepRow cfg) (pruneRounds (keepRow cfg) rows.length rows) :=
    stable_pruneRounds le_rfl
  simp only [coreFilter_eq_pruneRounds]
  refine ⟨?_, ?_, ?_, ?_, ?_, ?_, ?_⟩
  · exact fun n hn => pruneRounds_eq hn le_rfl
  · exact prune_of_stable hstable
  · exact pruneRounds_sublist _ _
  · exact stable_keepRow_iff.mp hstable
  · exact fun part hsub hcore =>
      (stable_keepRow_iff.mpr hcore).subperm_pruneRounds (monotone_keepRow cfg) hsub _
  · exact fun rows' hperm => pruneRounds_perm (monotone_keepRow cfg) hperm le_rfl le_rfl
  · exact fun n => pruneRounds_of_stable hstable

end Dgsr
