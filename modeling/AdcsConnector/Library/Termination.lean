/-
Transition relations whose runs all end.

* `Terminates step s`: no run from `s` goes on for ever; a sequence of states that
  only steps or stays comes to stay (`Terminates.exists_constant`);
* `terminates_of_measure`: the rule with a measure, under an invariant;
* `Stuck step s`: no step is possible from `s`;
* `Terminates.exists_stuck`: where some step of a kind is possible whenever any is,
  steps of this kind lead to a state with none;
* `sum_step`: the total weight of a system of activities of which one moves.
-/
import AdcsConnector.Library.Runs

universe u v

section

variable {σ : Type u} {ε : Type v} {step : σ → ε → σ → Prop} {s t : σ} {e : ε} {tr : List ε}

/-- No run from `s` goes on for ever. -/
def Terminates (step : σ → ε → σ → Prop) (s : σ) : Prop := Acc (fun t s => ∃ e, step s e t) s

/-- No step is possible. -/
def Stuck (step : σ → ε → σ → Prop) (s : σ) : Prop := ∀ e t, ¬ step s e t

namespace Terminates

lemma next (h : Terminates step s) (hst : step s e t) : Terminates step t := h.inv ⟨e, hst⟩

lemma run (h : Terminates step s) (hr : Run step s tr t) : Terminates step t :=
  hr.invariant (fun _ _ _ ha hst => ha.next hst) h

/-- A sequence of states that from one to the next stays or takes a step stays from
some point on. -/
theorem exists_constant (h : Terminates step s) {f : ℕ → σ} (hf : f 0 = s)
    (hnext : ∀ n, f (n + 1) = f n ∨ ∃ e, step (f n) e (f (n + 1))) :
    ∃ N, ∀ n, N ≤ n → f n = f N := by
  induction h generalizing f with
  | intro s _ ih =>
      by_cases hall : ∀ n, f n = f 0
      · exact ⟨0, fun n _ => hall n⟩
      · -- after the first step away from `s`
        have hmove : ∃ k, f k = s ∧ f (k + 1) ≠ f k := by
          by_contra hnone
          simp only [not_exists, not_and, not_not] at hnone
          refine hall fun n => ?_
          induction n with
          | zero => rfl
          | succ n ihn => exact (hnone n (ihn.trans hf)).trans ihn
        obtain ⟨k, hk, hne⟩ := hmove
        obtain ⟨e, hst⟩ := (hnext k).resolve_left hne
        obtain ⟨N, hN⟩ := ih (f (k + 1)) ⟨e, hk ▸ hst⟩ (f := fun n => f (k + 1 + n)) rfl
          fun n => hnext (k + 1 + n)
        refine ⟨k + 1 + N, fun n hn => ?_⟩
        have h := hN (n - (k + 1)) (by omega)
        simpa only [Nat.add_sub_of_le (show k + 1 ≤ n by omega)] using h

/-- Steps of one kind lead to a state with no step, when there is one of this kind
wherever there is any. -/
theorem exists_stuck {I : σ → Prop} {P : ε → Prop} (h : Terminates step s)
    (hI : ∀ a e b, I a → step a e b → I b)
    (hnext : ∀ a, I a → Stuck step a ∨ ∃ e b, P e ∧ step a e b) (hs : I s) :
    ∃ tr t, Run step s tr t ∧ (∀ e ∈ tr, P e) ∧ Stuck step t := by
  induction h with
  | intro s _ ih =>
      rcases hnext s hs with hstuck | ⟨e, b, he, hst⟩
      · exact ⟨[], s, .refl, by simp, hstuck⟩
      · obtain ⟨tr, t, hr, hP, hstuck⟩ := ih b ⟨e, hst⟩ (hI s e b hs hst)
        exact ⟨[e] ++ tr, t, (Run.single hst).trans hr, by simpa using ⟨he, hP⟩, hstuck⟩

end Terminates

/-- Runs end when every step takes a measure down, under an invariant. -/
theorem terminates_of_measure {I : σ → Prop} {α : Type*} {r : α → α → Prop} (hwf : WellFounded r)
    (μ : σ → α) (hI : ∀ a e b, I a → step a e b → I b)
    (hμ : ∀ a e b, I a → step a e b → r (μ b) (μ a)) (hs : I s) : Terminates step s := by
  induction hm : μ s using hwf.induction generalizing s with
  | _ m ih =>
      subst hm
      exact .intro s fun t ⟨e, hst⟩ => ih (μ t) (hμ s e t hs hst) (hI s e t hs hst) rfl

end

/-- The total weight changes by what the one activity that moves changes. -/
lemma sum_step {ι α : Type*} [DecidableEq ι] {P : Finset ι} {f g : ι → α} {p : ι} (w : α → ℕ)
    (hp : p ∈ P) (hother : ∀ q, q ≠ p → g q = f q) :
    ∑ q ∈ P, w (g q) + w (f p) = ∑ q ∈ P, w (f q) + w (g p) := by
  have hrest : ∑ q ∈ P.erase p, w (g q) = ∑ q ∈ P.erase p, w (f q) :=
    Finset.sum_congr rfl fun q hq => by rw [hother q (Finset.ne_of_mem_erase hq)]
  rw [← Finset.add_sum_erase P (fun q => w (g q)) hp,
    ← Finset.add_sum_erase P (fun q => w (f q)) hp, hrest]
  omega
