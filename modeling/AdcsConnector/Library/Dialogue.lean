/-
Data refinement of programs, and dialogues: programs that put questions to a
server, where what is asked next depends on the answers so far.

* `Refines P abs m n Q`: from the states in `P`, the program `m` ends as `n`
  does on the abstract states, and leaves a state in `Q` when it returns; the
  rules for values and sequences;
* `Dialogue.run`: a dialogue with a server;
* `IsDialogue`: a program that is one, with the rules for sequences and loops;
* `Dialogue.refines`: when every single answer is refined, every dialogue is.
-/
import AdcsConnector.Library.Program

universe u

namespace Program

variable {σ τ ε α β : Type u}

/-! ### Refinement -/

/-- From a state in `P`, `m` ends as `n` does on the abstract states; what
returns leaves a state in `Q`. -/
def Refines (P : σ → Prop) (abs : σ → τ) (m : Program σ ε α) (n : Program τ ε α)
    (Q : σ → Prop) : Prop :=
  ∀ s, P s → (m s).map (fun r => (r.1, abs r.2)) = n (abs s) ∧ ∀ a t, Returns m s a t → Q t

variable {P Q R : σ → Prop} {abs : σ → τ}

lemma refines_lift (x : Except ε α) : Refines P abs (lift x) (lift x) P := by
  intro s hs
  refine ⟨rfl, fun a t h => ?_⟩
  obtain ⟨-, rfl⟩ := returns_lift.mp h
  exact hs

/-- Refinements compose along sequences; the second part starts from what the
first one returns. -/
lemma Refines.bind {m : Program σ ε α} {n : Program τ ε α} {f : α → Program σ ε β}
    {g : α → Program τ ε β} (hm : Refines P abs m n Q)
    (hf : ∀ a, (∃ s t, Returns n s a t) → Refines Q abs (f a) (g a) R) :
    Refines P abs (m >>= f) (n >>= g) R := by
  intro s hs
  obtain ⟨hend, hpost⟩ := hm s hs
  cases hr : m s with
  | none =>
      rw [hr] at hend
      rw [bind_eq_none hr, bind_eq_none hend.symm]
      refine ⟨rfl, fun b t h => ?_⟩
      rw [Returns, bind_eq_none hr] at h
      cases h
  | some r =>
      obtain ⟨e | a, t⟩ := r
      · have hm' : (m >>= f) s = some (.error e, t) := run_bind_eq_some.mpr (.inl ⟨e, hr, rfl⟩)
        have hn : n (abs s) = some (.error e, abs t) := by rw [← hend, hr, Option.map_some]
        have hn' : (n >>= g) (abs s) = some (.error e, abs t) :=
          run_bind_eq_some.mpr (.inl ⟨e, hn, rfl⟩)
        rw [hm', hn']
        refine ⟨rfl, fun b u h => ?_⟩
        rw [Returns, hm'] at h
        cases h
      · have hm' : Returns m s a t := hr
        have hn : Returns n (abs s) a (abs t) := by rw [Returns, ← hend, hr, Option.map_some]
        obtain ⟨hend', hpost'⟩ := hf a ⟨abs s, abs t, hn⟩ t (hpost a t hm')
        rw [hm'.run_bind, hn.run_bind]
        refine ⟨hend', fun b u h => ?_⟩
        rw [Returns, hm'.run_bind] at h
        exact hpost' b u h

end Program

/-! ### Dialogues -/

/-- A program that asks questions of type `ι` and goes on with the answers. -/
inductive Dialogue (ι ο ε α : Type u) : Type u where
  | done (r : Except ε α)
  | ask (q : ι) (next : ο → Dialogue ι ο ε α)
  | outOfFuel

namespace Dialogue

open Program

variable {ι ο σ τ ε α β γ : Type u}

/-- A dialogue with a server. -/
def run (answer : ι → Program σ ε ο) : Dialogue ι ο ε α → Program σ ε α
  | done r => lift r
  | ask q next => answer q >>= fun a => (next a).run answer
  | outOfFuel => Program.outOfFuel

/-- One dialogue after the other. -/
def bind (f : α → Dialogue ι ο ε β) : Dialogue ι ο ε α → Dialogue ι ο ε β
  | done (.ok a) => f a
  | done (.error e) => done (.error e)
  | ask q next => ask q fun a => (next a).bind f
  | outOfFuel => outOfFuel

lemma run_bind (answer : ι → Program σ ε ο) (d : Dialogue ι ο ε α) (f : α → Dialogue ι ο ε β) :
    (d.bind f).run answer = d.run answer >>= fun a => (f a).run answer := by
  induction d with
  | done r => cases r <;> rfl
  | ask q next ih =>
      simp only [bind, run, bind_assoc]
      exact congrArg _ (funext fun a => ih a)
  | outOfFuel => rfl

/-- When every answer is refined, every dialogue is. -/
theorem refines {P : σ → Prop} {abs : σ → τ} {answer : ι → Program σ ε ο}
    {answer' : ι → Program τ ε ο} (h : ∀ q, Program.Refines P abs (answer q) (answer' q) P)
    (d : Dialogue ι ο ε α) : Program.Refines P abs (d.run answer) (d.run answer') P := by
  induction d with
  | done r => exact refines_lift r
  | ask q next ih => exact (h q).bind fun a _ => ih a
  | outOfFuel => exact fun s _ => ⟨rfl, fun a t ht => absurd ht not_returns_outOfFuel⟩

/-- The program is a dialogue with the server. -/
def IsDialogue (answer : ι → Program σ ε ο) (m : Program σ ε α) : Prop :=
  ∃ d : Dialogue ι ο ε α, m = d.run answer

variable {answer : ι → Program σ ε ο}

lemma isDialogue_pure (a : α) : IsDialogue answer (pure a) := ⟨done (.ok a), rfl⟩

lemma IsDialogue.bind {m : Program σ ε α} {f : α → Program σ ε β} (hm : IsDialogue answer m)
    (hf : ∀ a, IsDialogue answer (f a)) : IsDialogue answer (m >>= f) := by
  obtain ⟨d, rfl⟩ := hm
  choose g hg using hf
  refine ⟨d.bind g, ?_⟩
  rw [run_bind]
  exact congrArg _ (funext hg)

lemma IsDialogue.foldlM {f : α → γ → Program σ ε α} {l : List γ}
    (h : ∀ c ∈ l, ∀ a, IsDialogue answer (f a c)) (a : α) : IsDialogue answer (l.foldlM f a) := by
  induction l generalizing a with
  | nil => exact isDialogue_pure a
  | cons c l ih =>
      rw [List.foldlM_cons]
      exact (h c List.mem_cons_self a).bind fun a =>
        ih (fun c hc => h c (List.mem_cons_of_mem _ hc)) a

end Dialogue
