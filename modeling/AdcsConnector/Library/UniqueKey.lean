/-
A table with a column that should hold no value twice, though no constraint says so,
and the transactions that look a value up before they insert a row with it.

* `Ledger`: the committed values, and the value that each transaction has looked up, or
  inserted, and not committed;
* `Ledger.Alone`: a value is claimed by no other transaction;
* `Ledger.Change`: what one statement of a transaction may do: delete or read, look a
  value up and find it missing, or commit the value while it is alone with it;
* `Ledger.Unique`: no value is there twice, and none that a transaction has claimed;
* `Ledger.Unique.change`: such statements keep the column unique.
-/
import Mathlib.Tactic
import Mathlib.Data.List.Nodup

namespace UniqueKey

variable {ι κ : Type*}

/-- The values of the column: committed, and claimed by open transactions. -/
structure Ledger (ι κ : Type*) where
  table : List κ
  claims : ι → Option κ

namespace Ledger

/-- No value is there twice, and no value claimed is there. -/
structure Unique (r : Ledger ι κ) : Prop where
  table : r.table.Nodup
  claims : ∀ i k, r.claims i = some k → k ∉ r.table

/-- No other transaction has claimed the value. -/
def Alone (r : Ledger ι κ) (i : ι) (k : κ) : Prop := ∀ j, j ≠ i → r.claims j ≠ some k

/-- What a statement of transaction `i` may do to the column: a value that it newly
claims is not there, and it commits the value that it has claimed, and no other. -/
inductive Change (r : Ledger ι κ) (i : ι) (r' : Ledger ι κ) : Prop
  | keep (htable : r'.table.Sublist r.table)
      (hclaims : ∀ k, r'.claims i = some k → r.claims i = some k ∨ k ∉ r.table)
  | commit {k : κ} (hclaims : r.claims i = some k) (halone : r.Alone i k)
      (htable : r'.table = r.table ++ [k]) (hnone : r'.claims i = none)

/-- A column that no transaction has looked at is unique when its table is. -/
lemma Unique.of_table {r : Ledger ι κ} (htable : r.table.Nodup) (hnone : ∀ i, r.claims i = none) :
    r.Unique where
  table := htable
  claims i k h := by
    rw [hnone i] at h
    cases h

/-- **The column stays unique** when a value is committed only while no other
transaction has claimed it. -/
theorem Unique.change {r r' : Ledger ι κ} {i : ι} (h : r.Unique) (hc : r.Change i r')
    (hothers : ∀ j, j ≠ i → r'.claims j = r.claims j) : r'.Unique := by
  cases hc with
  | keep htable hclaims =>
      refine ⟨h.table.sublist htable, fun j k hj hmem => ?_⟩
      have hmem := htable.subset hmem
      by_cases hji : j = i
      · subst hji
        rcases hclaims k hj with hold | hfree
        · exact h.claims j k hold hmem
        · exact hfree hmem
      · rw [hothers j hji] at hj
        exact h.claims j k hj hmem
  | @commit k hclaims halone htable hnone =>
      refine ⟨?_, fun j k' hj hmem => ?_⟩
      · rw [htable, List.nodup_append]
        refine ⟨h.table, List.nodup_singleton k, fun a ha b hb heq => ?_⟩
        rw [List.mem_singleton.mp hb] at heq
        exact h.claims i k hclaims (heq ▸ ha)
      · -- the value committed is claimed by no one any more
        have hji : j ≠ i := by
          rintro rfl
          rw [hnone] at hj
          cases hj
        rw [hothers j hji] at hj
        rw [htable, List.mem_append, List.mem_singleton] at hmem
        rcases hmem with hmem | rfl
        · exact h.claims j k' hj hmem
        · exact halone j hji hj

end Ledger

end UniqueKey
