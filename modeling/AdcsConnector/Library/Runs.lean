/-
Runs of a labelled transition relation, with the list of the labels taken.

* `Run step s tr t`: the labels `tr`, taken in order, lead from `s` to `t`;
* `Run.invariant`: a property of states that every step keeps holds along
  every run;
* `Run.rel`: a reflexive and transitive relation that every step respects is
  respected by every run, under an invariant;
* `Run.invariant_of_forall`, `Run.trace_invariant`: the same for steps of some
  labels only, and for a property of the trace and the state together;
* `Run.exists_of_decreasing`: a goal that can always be come nearer to is reached;
* `Run.split`, `Run.exists_step`, `Run.exists_step_of_sublist`: a run cut at a point
  of its trace;
* `Run.refines`: a system each of whose steps is a step of another one, or none;
* `Restricted`: the steps that meet a condition;
* `Interleaved`: two systems side by side, each step one of either
  (`Run.interleaved_left`).
-/
import Mathlib.Tactic

universe u v

/-- The runs of a labelled transition relation: `Run step s tr t` when the
labels `tr`, taken in order, lead from `s` to `t`. -/
inductive Run {σ : Type u} {ε : Type v} (step : σ → ε → σ → Prop) (s : σ) : List ε → σ → Prop
  | refl : Run step s [] s
  | tail {tr : List ε} {e : ε} {t t' : σ} :
      Run step s tr t → step t e t' → Run step s (tr ++ [e]) t'

/-- The steps that meet a condition. -/
def Restricted {σ : Type u} {ε : Type v} (step ok : σ → ε → σ → Prop) : σ → ε → σ → Prop :=
  fun s e t => step s e t ∧ ok s e t

/-- Two systems side by side: a step is one of the first or one of the second. -/
inductive Interleaved {σ τ : Type u} {ε δ : Type v} (step : σ → ε → σ → Prop)
    (step' : τ → δ → τ → Prop) : σ × τ → ε ⊕ δ → σ × τ → Prop
  | left {s t : σ} {e : ε} (u : τ) : step s e t → Interleaved step step' (s, u) (.inl e) (t, u)
  | right {t t' : τ} {e : δ} (s : σ) : step' t e t' → Interleaved step step' (s, t) (.inr e) (s, t')

namespace Run

variable {σ : Type u} {ε : Type v} {step : σ → ε → σ → Prop} {s t t' : σ} {tr : List ε} {e : ε}

lemma single (h : step s e t) : Run step s [e] t := tail refl h

/-- A run of a system is one of a system with more steps. -/
lemma mono {step' : σ → ε → σ → Prop} (h : Run step s tr t)
    (hle : ∀ a e b, step a e b → step' a e b) : Run step' s tr t := by
  induction h with
  | refl => exact refl
  | tail _ hst ih => exact ih.tail (hle _ _ _ hst)

/-- Runs compose. -/
lemma trans {tr' : List ε} (h : Run step s tr t) (h' : Run step t tr' t') :
    Run step s (tr ++ tr') t' := by
  induction h' with
  | refl => rwa [List.append_nil]
  | tail _ hst ih => rw [← List.append_assoc]; exact ih.tail hst

/-- A run ends with its last step. -/
lemma of_append_singleton (h : Run step s (tr ++ [e]) t) :
    ∃ m, Run step s tr m ∧ step m e t := by
  generalize htr : tr ++ [e] = tr' at h
  cases h with
  | refl => exact absurd htr (by simp)
  | tail hr hst =>
      obtain ⟨rfl, he⟩ := List.append_inj' htr rfl
      obtain rfl : e = _ := by simpa using he
      exact ⟨_, hr, hst⟩

/-- A run can be cut at every point of its trace. -/
lemma split {tr₁ tr₂ : List ε} (h : Run step s (tr₁ ++ tr₂) t) :
    ∃ m, Run step s tr₁ m ∧ Run step m tr₂ t := by
  induction tr₂ using List.reverseRecOn generalizing t with
  | nil =>
      rw [List.append_nil] at h
      exact ⟨t, h, refl⟩
  | append_singleton tr₂ e ih =>
      rw [← List.append_assoc] at h
      obtain ⟨m, hm, hst⟩ := h.of_append_singleton
      obtain ⟨m', h₁, h₂⟩ := ih hm
      exact ⟨m', h₁, h₂.tail hst⟩

/-- A label that comes after others in the trace belongs to a step of the run after
theirs. -/
lemma exists_step_of_sublist {es : List ε} (h : Run step s tr t) (he : (es ++ [e]).Sublist tr) :
    ∃ tr₁ tr₂ m m', tr = tr₁ ++ e :: tr₂ ∧ es.Sublist tr₁ ∧ Run step s tr₁ m ∧ step m e m' ∧
      Run step m' tr₂ t := by
  obtain ⟨r₁, r₂, rfl, hes, he⟩ := List.append_sublist_iff.mp he
  obtain ⟨u, v, rfl⟩ := List.append_of_mem (List.singleton_sublist.mp he)
  have h' : Run step s ((r₁ ++ u ++ [e]) ++ v) t := by simpa using h
  obtain ⟨m', h₁, h₂⟩ := h'.split
  obtain ⟨m, hm, hst⟩ := h₁.of_append_singleton
  exact ⟨r₁ ++ u, v, m, m', by simp, hes.trans (List.sublist_append_left _ _), hm, hst, h₂⟩

/-- Every label of the trace belongs to a step of the run. -/
lemma exists_step (h : Run step s tr t) (he : e ∈ tr) :
    ∃ tr₁ tr₂ m m', tr = tr₁ ++ e :: tr₂ ∧ Run step s tr₁ m ∧ step m e m' ∧ Run step m' tr₂ t := by
  obtain ⟨tr₁, tr₂, m, m', htr, -, h⟩ :=
    h.exists_step_of_sublist (show ([] ++ [e]).Sublist tr from List.singleton_sublist.mpr he)
  exact ⟨tr₁, tr₂, m, m', htr, h⟩

/-- An invariant of the steps is an invariant of the runs. -/
theorem invariant {I : σ → Prop} (hI : ∀ a e b, I a → step a e b → I b)
    (h : Run step s tr t) (hs : I s) : I t := by
  induction h with
  | refl => exact hs
  | tail _ hst ih => exact hI _ _ _ ih hst

/-- An invariant of the steps of some labels is one of the runs with no others. -/
theorem invariant_of_forall {I : σ → Prop} {P : ε → Prop}
    (hI : ∀ a e b, P e → I a → step a e b → I b) (h : Run step s tr t) (hP : ∀ e ∈ tr, P e)
    (hs : I s) : I t := by
  induction h with
  | refl => exact hs
  | tail _ hst ih =>
      rw [List.forall_mem_append, List.forall_mem_singleton] at hP
      exact hI _ _ _ hP.2 (ih hP.1) hst

/-- A property of the trace and the state that every step keeps, under an
invariant. -/
theorem trace_invariant {I : σ → Prop} {T : List ε → σ → Prop}
    (hI : ∀ a e b, I a → step a e b → I b)
    (hT : ∀ tr a e b, I a → T tr a → step a e b → T (tr ++ [e]) b) (h : Run step s tr t) (hs : I s)
    (hnil : T [] s) : T tr t := by
  induction h with
  | refl => exact hnil
  | tail hr hst ih => exact hT _ _ _ _ (invariant hI hr hs) ih hst

/-- A reflexive and transitive relation respected by the steps, under an
invariant, is respected by the runs. -/
theorem rel {I : σ → Prop} {R : σ → σ → Prop} (hI : ∀ a e b, I a → step a e b → I b)
    (hrefl : ∀ a, R a a) (htrans : ∀ a b c, R a b → R b c → R a c)
    (hR : ∀ a e b, I a → step a e b → R a b) (h : Run step s tr t) (hs : I s) : R s t := by
  induction h with
  | refl => exact hrefl _
  | tail hr hst ih => exact htrans _ _ _ ih (hR _ _ _ (invariant hI hr hs) hst)

/-- A system that can get nearer to its goal from every state in which it has not
reached it can reach it, by labels of the kind that take it there. -/
theorem exists_of_decreasing {I G : σ → Prop} {P : ε → Prop} (μ : σ → ℕ)
    (hstep : ∀ a, I a → ∃ tr b, Run step a tr b ∧ (∀ e ∈ tr, P e) ∧ (G b ∨ I b ∧ μ b < μ a))
    (hs : I s) : ∃ tr t, Run step s tr t ∧ (∀ e ∈ tr, P e) ∧ G t := by
  induction hn : μ s using Nat.strong_induction_on generalizing s with
  | h n ih =>
      obtain ⟨tr, m, hm, hP, hgoal | ⟨hI, hlt⟩⟩ := hstep s hs
      · exact ⟨tr, m, hm, hP, hgoal⟩
      · obtain ⟨tr', t, ht, hP', hgoal⟩ := ih (μ m) (hn ▸ hlt) hI rfl
        exact ⟨tr ++ tr', t, hm.trans ht, List.forall_mem_append.mpr ⟨hP, hP'⟩, hgoal⟩

/-- A system each of whose steps, seen through `α`, is a step of another system or does
nothing runs as this system does, under an invariant. -/
theorem refines {τ : Type*} {δ : Type*} {step' : τ → δ → τ → Prop} {I : σ → Prop} {α : σ → τ}
    {label : ε → Option δ} (hI : ∀ a e b, I a → step a e b → I b)
    (hstep : ∀ a e b, I a → step a e b →
      label e = none ∧ α b = α a ∨ ∃ d, label e = some d ∧ step' (α a) d (α b))
    (h : Run step s tr t) (hs : I s) : Run step' (α s) (tr.filterMap label) (α t) := by
  induction h with
  | refl => exact refl
  | tail hr hst ih =>
      rw [List.filterMap_append, List.filterMap_cons, List.filterMap_nil]
      rcases hstep _ _ _ (invariant hI hr hs) hst with ⟨hnone, hsame⟩ | ⟨d, hd, hst'⟩
      · rw [hnone, hsame, List.append_nil]
        exact ih
      · rw [hd]
        exact ih.tail hst'

/-- A run of one of two systems, while the other one does nothing. -/
lemma interleaved_left {τ : Type u} {δ : Type v} (step' : τ → δ → τ → Prop)
    (h : Run step s tr t) (u : τ) :
    Run (Interleaved step step') (s, u) (tr.map .inl) (t, u) := by
  induction h with
  | refl => exact .refl
  | tail _ hst ih =>
      rw [List.map_append, List.map_singleton]
      exact ih.tail (.left u hst)

end Run
